import Rv32i.Word

namespace Rv32i.Text

/-- The digits of `n` in base `base`, with zeros in front up to `width` places. -/
def digits (base width n : Nat) : String :=
  let ds := Nat.toDigits base n
  String.ofList (List.replicate (width - ds.length) '0' ++ ds)

/-- A natural number in decimal. -/
def decimal (n : Nat) : String :=
  digits 10 0 n

/-- A signed number in decimal, with a minus sign if it is negative. -/
def signed (i : Int) : String :=
  if i < 0 then "-" ++ decimal i.natAbs else decimal i.natAbs

/-- An immediate in decimal. -/
def immediate (i : Int32) : String :=
  signed i.toInt

/-- A hexadecimal number of at least `width` places behind `0x`. -/
def hex (width n : Nat) : String :=
  "0x" ++ digits 16 width n

/-- A word as `0x` and eight hexadecimal places. -/
def hexWord (w : Word) : String :=
  hex 8 w.toNat

/-- A text with blanks behind it up to `width` places. -/
def padRight (width : Nat) (s : String) : String :=
  String.ofList (s.toList.rightpad width ' ')

/-- A value with named parts, such as `Point { x: 1, y: 2 }`. -/
def record (name : String) (fields : List (String × String)) : String :=
  name ++ " \x7b " ++
    String.intercalate ", " (fields.map fun (field, value) => field ++ ": " ++ value) ++ " \x7d"

/-- A value with parts in order, such as `Pair(1, 2)`. -/
def tuple (name : String) (parts : List String) : String :=
  name ++ "(" ++ String.intercalate ", " parts ++ ")"

/-- A list, such as `[1, 2]`. -/
def list (items : List String) : String :=
  "[" ++ String.intercalate ", " items ++ "]"

end Rv32i.Text
