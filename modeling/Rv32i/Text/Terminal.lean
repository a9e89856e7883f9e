namespace Rv32i.Text.Terminal

/-- Where a terminal stands between two bytes: in plain text, behind an escape character, in a
control sequence, in a command to the system, in the head of a device string, or in a string that
only a terminator ends. -/
inductive State where
  | ground
  | escape
  | escapeIntermediate
  | control
  | system
  | deviceEntry
  | deviceParameter
  | deviceIntermediate
  | string
  deriving DecidableEq, Repr

def isWithin (least most b : Nat) : Bool :=
  least ≤ b && b ≤ most

/-- The state after a byte. Cancel, substitute and escape characters count in all states. -/
def next (s : State) (b : Nat) : State :=
  if b = 0x18 ∨ b = 0x1A then .ground
  else if b = 0x1B then .escape
  else match s with
    | .ground => .ground
    | .escape =>
      if isWithin 0x20 0x2F b then .escapeIntermediate
      else if b = 0x5B then .control
      else if b = 0x5D then .system
      else if b = 0x50 then .deviceEntry
      else if b = 0x58 ∨ b = 0x5E ∨ b = 0x5F then .string
      else if isWithin 0x30 0x7E b then .ground
      else s
    | .escapeIntermediate => if isWithin 0x30 0x7E b then .ground else s
    | .control => if isWithin 0x40 0x7E b then .ground else s
    | .system => if b = 0x07 then .ground else s
    | .deviceEntry =>
      if isWithin 0x20 0x2F b then .deviceIntermediate
      else if isWithin 0x30 0x3F b then .deviceParameter
      else if isWithin 0x40 0x7E b then .string
      else s
    | .deviceParameter =>
      if isWithin 0x20 0x2F b then .deviceIntermediate
      else if isWithin 0x3C 0x7E b then .string
      else s
    | .deviceIntermediate => if isWithin 0x30 0x7E b then .string else s
    | .string => if b = 0x9C then .ground else s

/-- Whether an ASCII byte shows. White space also shows within sequences, but not within commands
and strings. -/
def shows (s : State) (b : Nat) : Bool :=
  let white := b = 0x09 || b = 0x0A || b = 0x0C || b = 0x0D
  match s with
  | .ground => white || isWithin 0x20 0x7E b
  | .escape => white
  | .escapeIntermediate => white
  | .control => white
  | _ => false

/-- What shows of a text from a state on. Behind a character that shows, characters show
(`showing`) as in plain text up to the next one that does not, with which the state goes on. -/
def plainFrom : State → Bool → List Char → List Char
  | _, _, [] => []
  | s, showing, c :: cs =>
    let here := if showing then .ground else s
    if c.toNat < 0x80 then
      if shows here c.toNat then c :: plainFrom s true cs
      else plainFrom (next s c.toNat) false cs
    else if here = .ground then c :: plainFrom .ground true cs
    else plainFrom ((String.utf8EncodeChar c).foldl (fun s b => next s b.toNat) s) false cs

/-- A text without control sequences and without control characters other than white space. -/
def plain (s : String) : String :=
  String.ofList (plainFrom .ground false s.toList)

end Rv32i.Text.Terminal
