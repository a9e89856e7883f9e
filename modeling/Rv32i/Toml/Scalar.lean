import Rv32i.Text.Scan
import Rv32i.Toml.Quoted
import Rv32i.Toml.Value

namespace Rv32i.Toml

def isDigit (c : Char) : Bool :=
  (Text.digit? 10 c).isSome

/-- Digits of a base with single underscores between them. -/
def isDigits (base : Nat) (cs : List Char) : Bool :=
  (Text.splitOn '_' cs).all fun part =>
    !part.isEmpty && part.all fun c => (Text.digit? base c).isSome

/-- The number that digits stand for, underscores left out. -/
def digitsValue (base : Nat) (cs : List Char) : Nat :=
  cs.foldl (fun n c => match Text.digit? base c with
    | some d => n * base + d
    | none => n) 0

/-- Decimal digits without a zero in front of others. -/
def isDecimal (cs : List Char) : Bool :=
  isDigits 10 cs && (cs.length = 1 || cs.head? ≠ some '0')

/-- Whether a sign makes a number negative, and what follows the sign. -/
def takeSign : List Char → Bool × List Char
  | '-' :: cs => (true, cs)
  | '+' :: cs => (false, cs)
  | cs => (false, cs)

def readInteger (cs : List Char) : Option Int :=
  match cs with
  | '0' :: 'x' :: ds => if isDigits 16 ds then some (digitsValue 16 ds) else none
  | '0' :: 'o' :: ds => if isDigits 8 ds then some (digitsValue 8 ds) else none
  | '0' :: 'b' :: ds => if isDigits 2 ds then some (digitsValue 2 ds) else none
  | _ =>
    let (negative, ds) := takeSign cs
    if isDecimal ds then
      some (if negative then -(digitsValue 10 ds : Int) else digitsValue 10 ds)
    else none

/-- Texts with the form of a whole number that stand for none: a mark of a base without digits, and
decimal digits with underscores and something else behind them, further words after tabs included.
Around an underscore the digits of all bases pass. -/
def isMalformedInteger (cs : List Char) : Bool :=
  let isHex (c : Char) := (Text.digit? 16 c).isSome
  match cs with
  | ['0', 'x'] => true
  | ['0', 'o'] => true
  | ['0', 'b'] => true
  | _ =>
    match Text.splitOn '_' (takeSign cs).2 with
    | whole :: part :: parts =>
      isDecimal whole && whole.head? ≠ some '0' &&
        (part :: parts).all (·.head?.any isHex) &&
        (part :: parts).dropLast.all (·.getLast?.any isHex) &&
        (part :: parts).all (·.all fun c => c ≠ ' ' && c ≠ '.' && c ≠ 'e' && c ≠ 'E')
    | _ => false

/-- What stands before the first character that satisfies `p`, and what follows that character if
there is one. -/
def cut (p : Char → Bool) (cs : List Char) : List Char × Option (List Char) :=
  match cs.dropWhile (!p ·) with
  | [] => (cs, none)
  | _ :: rest => (cs.takeWhile (!p ·), some rest)

/-- The parts of a number with a point or an exponent. -/
structure FloatParts where
  whole : List Char
  fraction : Option (List Char)
  exponent : Option (List Char)

def floatParts (unsigned : List Char) : FloatParts :=
  let (mantissa, exponent) := cut (fun c => c = 'e' || c = 'E') unsigned
  let (whole, fraction) := cut (· = '.') mantissa
  ⟨whole, fraction, exponent⟩

/-- An infinity, or not a number. -/
def isSpecial (unsigned : List Char) : Bool :=
  unsigned = ['i', 'n', 'f'] || unsigned = ['n', 'a', 'n']

/-- A number with a fraction or an exponent, or a special one. -/
def isFloat (cs : List Char) : Bool :=
  let unsigned := (takeSign cs).2
  let parts := floatParts unsigned
  isSpecial unsigned ||
    ((parts.fraction.isSome || parts.exponent.isSome) && isDecimal parts.whole &&
      isDigits 10 (parts.fraction.getD ['0']) &&
      isDigits 10 (takeSign (parts.exponent.getD ['0'])).2)

/-- The least number that is too large for a double, of 309 places in decimal. It lies half a unit
in the last of 53 places above the greatest double. -/
def doubleLimit : Nat :=
  ((1 <<< 54) - 1) <<< 970

/-- Whether `0.d₁d₂…`, with the digits `ds` and the point shifted to the right by `point` places, is
small enough for a double. -/
def fitsDouble (ds : List Char) (point : Int) : Bool :=
  let significant := ds.dropWhile (· = '0')
  let point := point - (ds.length - significant.length : Nat)
  if significant.isEmpty || point < 309 then true
  else if 309 < point then false
  else digitsValue 10 ((significant ++ List.replicate 309 '0').take 309) < doubleLimit

/-- Whether the text of a float stands for a double. -/
def floatFits (cs : List Char) : Bool :=
  let unsigned := (takeSign cs).2
  let parts := floatParts unsigned
  let (negative, power) := takeSign (parts.exponent.getD ['0'])
  let shift : Int := if negative then -(digitsValue 10 power : Int) else digitsValue 10 power
  let whole := parts.whole.filter isDigit
  isSpecial unsigned ||
    fitsDouble (whole ++ (parts.fraction.getD []).filter isDigit) (whole.length + shift)

/-- A number of two digits from `least` to `most`. -/
def isTwoDigits (least most : Nat) (cs : List Char) : Bool :=
  cs.length = 2 && cs.all isDigit && least ≤ digitsValue 10 cs && digitsValue 10 cs ≤ most

def daysOf (year month : Nat) : Nat :=
  if month = 2 then
    if year % 4 = 0 ∧ (year % 100 ≠ 0 ∨ year % 400 = 0) then 29 else 28
  else if month = 4 ∨ month = 6 ∨ month = 9 ∨ month = 11 then 30
  else 31

/-- A date such as `1979-05-27`. -/
def isDate (cs : List Char) : Bool :=
  match Text.splitOn '-' cs with
  | [year, month, day] =>
    year.length = 4 && year.all isDigit && isTwoDigits 1 12 month &&
      isTwoDigits 1 (daysOf (digitsValue 10 year) (digitsValue 10 month)) day
  | _ => false

/-- A time such as `07:32:00.5` or `07:32`. A leap second counts. -/
def isTime (cs : List Char) : Bool :=
  let (clock, fraction) := cut (· = '.') cs
  let fractionOk := match fraction with
    | none => true
    | some ds => !ds.isEmpty && ds.all isDigit
  match Text.splitOn ':' clock with
  | [hour, minute] => isTwoDigits 0 23 hour && isTwoDigits 0 59 minute && fraction.isNone
  | [hour, minute, second] =>
    isTwoDigits 0 23 hour && isTwoDigits 0 59 minute && isTwoDigits 0 60 second && fractionOk
  | _ => false

/-- A time with or without an offset from universal time. -/
def isZonedTime (cs : List Char) : Bool :=
  match cut (fun c => c = 'Z' || c = 'z' || c = '+' || c = '-') cs with
  | (_, none) => isTime cs
  | (time, some offset) =>
    isTime time &&
      if cs.any fun c => c = 'Z' || c = 'z' then offset.isEmpty
      else match Text.splitOn ':' offset with
        | [hour, minute] => isTwoDigits 0 23 hour && isTwoDigits 0 59 minute
        | _ => false

/-- A date, a time, or both. -/
def isDatetime (cs : List Char) : Bool :=
  isDate cs || isTime cs ||
    (isDate (cs.take 10) &&
      match cs.drop 10 with
      | c :: time => (c = 'T' || c = 't' || c = ' ') && isZonedTime time
      | [] => false)

/-- The value of a text without quotes, brackets and braces. -/
def readScalar (cs : List Char) : Option Value :=
  let text := String.ofList cs
  if text = "true" then some (.boolean true)
  else if text = "false" then some (.boolean false)
  else match readInteger cs with
    | some n => some (.integer n)
    | none =>
      if isFloat cs then some (.float text)
      else if isDatetime cs then some (.datetime text)
      else if isMalformedInteger cs then some (.malformed text)
      else none

/-- Whether a value is a number of up to 128 bits, with or without sign, or a double; all values
but numbers are. -/
def Value.isTellable : Value → Bool
  | .integer n =>
    -0x80000000000000000000000000000000 ≤ n && n < 0x100000000000000000000000000000000
  | .malformed _ => false
  | .float text => floatFits text.toList
  | _ => true

/-- Whether a text without quotes ends before this character. -/
def endsScalar (c : Char) : Bool :=
  isBlank c || c = '\n' || c = '\r' || c = ',' || c = '#' || c = '=' ||
    c = '[' || c = ']' || c = '{' || c = '}'

/-- Whether the next thing behind blanks is one more word without quotes. -/
def wordFollows (cs : List Char) : Bool :=
  match skipBlanks cs with
  | [] => false
  | c :: _ => !endsScalar c && c ≠ '"' && c ≠ '\''

/-- The characters of a text without quotes. Blanks between its words belong to it, as between a
date and a time. -/
def takeScalar : List Char → List Char × List Char
  | [] => ([], [])
  | c :: cs =>
    if !endsScalar c || (isBlank c && wordFollows cs) then
      let (text, rest) := takeScalar cs
      (c :: text, rest)
    else ([], c :: cs)

end Rv32i.Toml
