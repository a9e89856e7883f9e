import Rv32i.Toml.Quoted
import Rv32i.Toml.Scalar

namespace Rv32i.Toml

/-- Reads something from the front of a text and gives what is left. -/
abbrev Reads (α : Type) := List Char → Option (α × List Char)

/-- Skips a comment, if one starts here, up to the end of the line. Control characters may not
stand in it. -/
def skipComment : List Char → Option (List Char)
  | '#' :: cs =>
    let rest := cs.dropWhile isPlain
    match rest with
    | [] => some rest
    | '\n' :: _ => some rest
    | '\r' :: '\n' :: _ => some rest
    | _ => none
  | cs => some cs

/-- Skips the rest of a line on which nothing more may stand. -/
def endLine (cs : List Char) : Option (List Char) :=
  match skipComment (skipBlanks cs) with
  | some [] => some []
  | some ('\n' :: rest) => some rest
  | some ('\r' :: '\n' :: rest) => some rest
  | _ => none

/-- Skips blanks, comments and line ends; `fuel` is at least the number of lines. -/
def skipLines : Nat → List Char → Option (List Char)
  | 0, _ => none
  | fuel + 1, cs =>
    match skipComment (skipBlanks cs) with
    | some ('\n' :: rest) => skipLines fuel rest
    | some ('\r' :: '\n' :: rest) => skipLines fuel rest
    | other => other

/-- Skips blanks, comments and line ends. -/
def skipGap (cs : List Char) : Option (List Char) :=
  skipLines (cs.length + 1) cs

def isBare (c : Char) : Bool :=
  c.isAlphanum || c = '-' || c = '_'

/-- One part of a key: a bare word or a text in quotes on one line. -/
def keyPart : Reads String
  | '"' :: cs => (basic cs).map fun (text, rest) => (String.ofList text, rest)
  | '\'' :: cs => (literal cs).map fun (text, rest) => (String.ofList text, rest)
  | cs =>
    match cs.takeWhile isBare with
    | [] => none
    | word => some (String.ofList word, cs.dropWhile isBare)

/-- Up to `most` parts of a key between dots. -/
def keyParts : Nat → Reads (List String)
  | 0, _ => none
  | most + 1, cs =>
    match keyPart cs with
    | none => none
    | some (part, rest) =>
      match skipBlanks rest with
      | '.' :: rest =>
        (keyParts most (skipBlanks rest)).map fun (parts, rest) => (part :: parts, rest)
      | rest => some ([part], rest)

/-- How deep arrays and inline tables may be nested, and how many parts a key may have. -/
def maxNesting : Nat := 80

/-- A dotted key and the blanks behind it. -/
def key : Reads (List String) :=
  keyParts maxNesting

/-- A key, an equals sign and a value, with what `skip` passes over around the sign. -/
def entry (skip : List Char → Option (List Char)) (value : Reads Value) :
    Reads (List String × Value) := fun cs =>
  match key cs with
  | none => none
  | some (path, rest) =>
    match skip rest with
    | some ('=' :: rest) =>
      match skip rest with
      | some rest => (value rest).map fun (v, rest) => ((path, v), rest)
      | none => none
    | _ => none

/-- The items of an array behind its opening bracket or a comma; `fuel` is at least their number.
A comma may follow the last item. -/
def arrayItems (value : Reads Value) : Nat → Reads (List Value)
  | 0, _ => none
  | fuel + 1, cs =>
    match skipGap cs with
    | none => none
    | some (']' :: rest) => some ([], rest)
    | some cs =>
      match value cs with
      | none => none
      | some (item, rest) =>
        match skipGap rest with
        | some (',' :: rest) =>
          (arrayItems value fuel rest).map fun (items, rest) => (item :: items, rest)
        | some (']' :: rest) => some ([item], rest)
        | _ => none

/-- The entries of an inline table behind its opening brace or a comma, added to `es`; `fuel` is
greater than their number. Like the items of an array they may stand on lines of their own, and a
comma may follow the last one. -/
def inlineEntries (value : Reads Value) : Nat → Entries → Reads Entries
  | 0, _, _ => none
  | fuel + 1, es, cs =>
    match skipGap cs with
    | none => none
    | some ('}' :: rest) => some (es, rest)
    | some cs =>
      match entry skipGap value cs with
      | none => none
      | some ((path, v), rest) =>
        match es.insert v path with
        | none => none
        | some es =>
          match skipGap rest with
          | some (',' :: rest) => inlineEntries value fuel es rest
          | some ('}' :: rest) => some (es, rest)
          | _ => none

/-- A value in which arrays and inline tables are nested at most `depth` times. -/
def value : Nat → Reads Value
  | depth, cs =>
    match quoted? cs with
    | some q => q.map fun (text, rest) => (.string (String.ofList text), rest)
    | none =>
      match depth, cs with
      | 0, '[' :: _ => none
      | 0, '{' :: _ => none
      | depth + 1, '[' :: rest =>
        (arrayItems (value depth) (rest.length + 1) rest).map fun (items, rest) =>
          (.array .inline items, rest)
      | depth + 1, '{' :: rest =>
        (inlineEntries (value depth) (rest.length + 1) [] rest).map fun (es, rest) =>
          (.table .inline es, rest)
      | _, cs =>
        let (word, rest) := takeScalar cs
        (readScalar word).map fun v => (v, rest)

/-- A table header behind its opening brackets, up to the closing ones. -/
def header (closing : List Char) : Reads (List String) := fun cs =>
  match key (skipBlanks cs) with
  | none => none
  | some (path, rest) =>
    if closing.isPrefixOf rest then some (path, rest.drop closing.length) else none

/-- Opens a table or the next table of an array at the end of a path. -/
def openAt (f : String → Entries → Option Entries) (path : List String) (es : Entries) :
    Option Entries :=
  match path.getLast? with
  | none => none
  | some last => es.modify (f last) path.dropLast

/-- One line, or a value over several: the table at hand and all entries after it. -/
def statement (here : List String) (es : Entries) : Reads (List String × Entries)
  | '[' :: '[' :: cs =>
    match header [']', ']'] cs with
    | none => none
    | some (path, rest) => (openAt Entries.openItem path es).map fun es => ((path, es), rest)
  | '[' :: cs =>
    match header [']'] cs with
    | none => none
    | some (path, rest) => (openAt Entries.openTable path es).map fun es => ((path, es), rest)
  | cs =>
    match entry (fun cs => some (skipBlanks cs)) (value maxNesting) cs with
    | none => none
    | some ((path, v), rest) =>
      (es.modify (·.insert v path) here).map fun es => ((here, es), rest)

/-- Statements up to the end of the text; `fuel` is greater than their number. -/
def statements : Nat → List String → Entries → List Char → Option Entries
  | 0, _, _, _ => none
  | fuel + 1, here, es, cs =>
    match skipGap cs with
    | none => none
    | some [] => some es
    | some cs =>
      match statement here es cs with
      | none => none
      | some ((here, es), rest) =>
        match endLine rest with
        | none => none
        | some rest => statements fuel here es rest

/-- Reads a document. A byte order mark in front is skipped. -/
def read (text : String) : Option Entries :=
  let cs := match text.toList with
    | '\ufeff' :: cs => cs
    | cs => cs
  statements (cs.length + 1) [] [] cs

end Rv32i.Toml
