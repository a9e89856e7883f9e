import Rv32i.Program.Format
import Rv32i.Simulation.Outcome
import Rv32i.Text.Scan

namespace Rv32i.Command

/-- Why a value is refused. -/
inductive ValueError where
  | word (cleaned : String) (error : Text.NumberError)
  | instruction (given : String) (error : Text.NumberError)
  | pair (given : String)
  | number (error : Text.NumberError)
  | format (name : String)
  deriving DecidableEq, Repr

def ValueError.message : ValueError → String
  | word cleaned e => "invalid 32-bit value `" ++ cleaned ++ "`: " ++ e.message
  | instruction given e => "invalid instruction word `" ++ given ++ "`: " ++ e.message
  | pair given => "expected ADDR=VALUE, got `" ++ given ++ "`"
  | number e => e.message
  | format name => ProgramFormat.unknownMessage name

/-- Reads a word in decimal, or in hexadecimal behind `0x` or `0X`. White space around it and
underscores do not count. -/
def readWord (given : String) : Except ValueError Word :=
  let cleaned := Text.dropUnderscores (Text.trim given.toList)
  let number := match Text.afterHexMark? cleaned with
    | some digits => Text.readNumber 16 UInt32.size digits
    | none => Text.readNumber 10 UInt32.size cleaned
  match number with
  | .ok n => .ok (UInt32.ofNat n)
  | .error e => .error (.word (String.ofList cleaned) e)

/-- Takes away every `0` and `mark` at the front. -/
def dropMarks (mark : Char) : List Char → List Char
  | '0' :: c :: cs => if c = mark then dropMarks mark cs else '0' :: c :: cs
  | cs => cs

/-- Reads an instruction word in hexadecimal, behind any number of `0x` and then of `0X`. -/
def readInstruction (given : String) : Except ValueError Word :=
  let digits := Text.dropUnderscores (dropMarks 'X' (dropMarks 'x' (Text.trim given.toList)))
  match Text.readNumber 16 UInt32.size digits with
  | .ok n => .ok (UInt32.ofNat n)
  | .error e => .error (.instruction given e)

/-- Reads the address and the value of a sentinel, which the first equals sign divides. -/
def readSentinel (given : String) : Except ValueError Probe :=
  match given.toList.dropWhile (· ≠ '=') with
  | [] => .error (.pair given)
  | _ :: value =>
    match readWord (String.ofList (given.toList.takeWhile (· ≠ '='))) with
    | .error e => .error e
    | .ok addr =>
      match readWord (String.ofList value) with
      | .error e => .error e
      | .ok value => .ok (.sentinel addr value)

/-- Reads a number of instructions in decimal. -/
def readCount (given : String) : Except ValueError UInt64 :=
  match Text.readNumber 10 UInt64.size given.toList with
  | .ok n => .ok (UInt64.ofNat n)
  | .error e => .error (.number e)

def readFormat (given : String) : Except ValueError ProgramFormat :=
  (ProgramFormat.ofName given).mapError .format

end Rv32i.Command
