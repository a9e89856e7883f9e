import Rv32i.Text.Scan
import Rv32i.Word

namespace Rv32i.Program

/-- A line that is no word: its number, from 1 on, and what stands there. -/
structure HexError where
  line : Nat
  text : String
  deriving DecidableEq, Repr

/-- What stands before the first pair of slashes. -/
def beforeSlashes : List Char → List Char
  | '/' :: '/' :: _ => []
  | c :: cs => c :: beforeSlashes cs
  | [] => []

/-- What a line says, without comment, white space and commas at the end. -/
def hexCode (line : List Char) : List Char :=
  let code := (beforeSlashes line).takeWhile (· ≠ '#')
  Text.trim (Text.dropEndWhile (· = ',') (Text.trim code))

/-- Reads a word in hexadecimal, with an optional mark in front and underscores anywhere behind
it. -/
def readHexWord (code : List Char) : Except Text.NumberError Word :=
  let digits := Text.dropUnderscores ((Text.afterHexMark? code).getD code)
  (Text.readNumber 16 UInt32.size digits).map UInt32.ofNat

/-- The words of lines from number `line` on, up to the first line that is none. -/
def readHexLines : Nat → List (List Char) → Except HexError (List Word)
  | _, [] => .ok []
  | line, l :: ls =>
    let code := hexCode l
    if code.isEmpty then readHexLines (line + 1) ls
    else match readHexWord code with
      | .error _ => .error ⟨line, String.ofList code⟩
      | .ok w =>
        match readHexLines (line + 1) ls with
        | .error e => .error e
        | .ok ws => .ok (w :: ws)

/-- Reads a text of one word a line. -/
def readHex (text : String) : Except HexError (List Word) :=
  readHexLines 1 (Text.lines text.toList)

end Rv32i.Program
