import Rv32i.Text.Scan

namespace Rv32i.Toml

/-- Tabs are the only control characters that a text may hold as they are. -/
def isPlain (c : Char) : Bool :=
  c = '\t' || (0x20 ≤ c.toNat && c.toNat ≠ 0x7F)

/-- Blanks divide words on a line. -/
def isBlank (c : Char) : Bool :=
  c = ' ' || c = '\t'

def skipBlanks (cs : List Char) : List Char :=
  cs.dropWhile isBlank

/-- The character with the number that hexadecimal digits give. Surrogates are none. -/
def ofCode (digits : List Char) : Option Char :=
  match digits.mapM (Text.digit? 16) with
  | none => none
  | some ds =>
    let n := ds.foldl (fun n d => n * 16 + d) 0
    if n.isValidChar then some (Char.ofNat n) else none

/-- The character that a backslash and one letter stand for. -/
def ofLetter : Char → Option Char
  | 'b' => some '\x08'
  | 't' => some '\t'
  | 'n' => some '\n'
  | 'f' => some '\x0c'
  | 'r' => some '\r'
  | 'e' => some '\x1b'
  | '"' => some '"'
  | '\\' => some '\\'
  | _ => none

/-- The text up to the closing quote, and what follows it. -/
abbrev Quoted := Option (List Char × List Char)

/-- A character in front of a text. -/
def Quoted.cons (c : Option Char) (q : Quoted) : Quoted :=
  match c, q with
  | some c, some (text, rest) => some (c :: text, rest)
  | _, _ => none

/-- A text on one line with escapes. -/
def basic : List Char → Quoted
  | [] => none
  | '"' :: cs => some ([], cs)
  | '\\' :: 'x' :: a :: b :: cs => (basic cs).cons (ofCode [a, b])
  | '\\' :: 'u' :: a :: b :: c :: d :: cs => (basic cs).cons (ofCode [a, b, c, d])
  | '\\' :: 'U' :: a :: b :: c :: d :: e :: f :: g :: h :: cs =>
    (basic cs).cons (ofCode [a, b, c, d, e, f, g, h])
  | '\\' :: c :: cs => (basic cs).cons (ofLetter c)
  | c :: cs => if isPlain c then (basic cs).cons (some c) else none

/-- A text on one line without escapes. -/
def literal : List Char → Quoted
  | [] => none
  | '\'' :: cs => some ([], cs)
  | c :: cs => if isPlain c then (literal cs).cons (some c) else none

/-- Whether nothing but blanks comes before the end of the line. -/
def isLineEnd (cs : List Char) : Bool :=
  match skipBlanks cs with
  | '\n' :: _ => true
  | '\r' :: '\n' :: _ => true
  | _ => false

/-- A text over several lines with escapes. Line ends are kept as they are. A backslash at the end
of a line takes away all white space up to the next character; `joining` says that this is going
on. Up to two quotes may stand right before the closing three. -/
def longBasic (joining : Bool) : List Char → Quoted
  | [] => none
  | '"' :: '"' :: '"' :: '"' :: '"' :: cs => some (['"', '"'], cs)
  | '"' :: '"' :: '"' :: '"' :: cs => some (['"'], cs)
  | '"' :: '"' :: '"' :: cs => some ([], cs)
  | '\\' :: 'x' :: a :: b :: cs => (longBasic false cs).cons (ofCode [a, b])
  | '\\' :: 'u' :: a :: b :: c :: d :: cs => (longBasic false cs).cons (ofCode [a, b, c, d])
  | '\\' :: 'U' :: a :: b :: c :: d :: e :: f :: g :: h :: cs =>
    (longBasic false cs).cons (ofCode [a, b, c, d, e, f, g, h])
  | '\\' :: c :: cs =>
    if isLineEnd (c :: cs) then longBasic true (c :: cs)
    else (longBasic false cs).cons (ofLetter c)
  | '\r' :: '\n' :: cs =>
    if joining then longBasic true cs
    else ((longBasic false cs).cons (some '\n')).cons (some '\r')
  | '\n' :: cs => if joining then longBasic true cs else (longBasic false cs).cons (some '\n')
  | c :: cs =>
    if joining && isBlank c then longBasic true cs
    else if isPlain c then (longBasic false cs).cons (some c)
    else none

/-- A text over several lines without escapes. -/
def longLiteral : List Char → Quoted
  | [] => none
  | '\'' :: '\'' :: '\'' :: '\'' :: '\'' :: cs => some (['\'', '\''], cs)
  | '\'' :: '\'' :: '\'' :: '\'' :: cs => some (['\''], cs)
  | '\'' :: '\'' :: '\'' :: cs => some ([], cs)
  | '\r' :: '\n' :: cs => ((longLiteral cs).cons (some '\n')).cons (some '\r')
  | '\n' :: cs => (longLiteral cs).cons (some '\n')
  | c :: cs => if isPlain c then (longLiteral cs).cons (some c) else none

/-- A line end right behind the opening quotes does not belong to the text. -/
def dropLineEnd : List Char → List Char
  | '\n' :: cs => cs
  | '\r' :: '\n' :: cs => cs
  | cs => cs

/-- A text in quotes of any of the four kinds, if one starts here. -/
def quoted? : List Char → Option Quoted
  | '"' :: '"' :: '"' :: cs => some (longBasic false (dropLineEnd cs))
  | '"' :: cs => some (basic cs)
  | '\'' :: '\'' :: '\'' :: cs => some (longLiteral (dropLineEnd cs))
  | '\'' :: cs => some (literal cs)
  | _ => none

end Rv32i.Toml
