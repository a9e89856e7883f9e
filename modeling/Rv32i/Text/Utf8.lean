namespace Rv32i.Text.Utf8

/-- Between two characters, or inside one: how many bytes are missing, which values the next one
may have, and the bits so far. -/
inductive State where
  | start
  | inside (missing : Nat) (least most : UInt8) (bits : Nat)

/-- The first byte of a character. After some first bytes the second is limited, so that no
character has two encodings and surrogates and numbers past the last character have none. -/
def lead (b : UInt8) : List (Option Char) × State :=
  if b < 0x80 then ([some (Char.ofNat b.toNat)], .start)
  else if 0xC2 ≤ b ∧ b ≤ 0xDF then ([], .inside 1 0x80 0xBF (b.toNat - 0xC0))
  else if b = 0xE0 then ([], .inside 2 0xA0 0xBF 0)
  else if b = 0xED then ([], .inside 2 0x80 0x9F 13)
  else if 0xE1 ≤ b ∧ b ≤ 0xEF then ([], .inside 2 0x80 0xBF (b.toNat - 0xE0))
  else if b = 0xF0 then ([], .inside 3 0x90 0xBF 0)
  else if 0xF1 ≤ b ∧ b ≤ 0xF3 then ([], .inside 3 0x80 0xBF (b.toNat - 0xF0))
  else if b = 0xF4 then ([], .inside 3 0x80 0x8F 4)
  else ([none], .start)

/-- One byte. A byte that does not go on with a character ends it as undecodable and starts the
next one. -/
def next : State → UInt8 → List (Option Char) × State
  | .start, b => lead b
  | .inside missing least most bits, b =>
    if least ≤ b ∧ b ≤ most then
      let bits := bits * 64 + (b.toNat - 0x80)
      if missing ≤ 1 then ([some (Char.ofNat bits)], .start)
      else ([], .inside (missing - 1) 0x80 0xBF bits)
    else
      let (out, s) := lead b
      (none :: out, s)

/-- The characters of `bytes`, with `none` in the place of what cannot be decoded. -/
def decodeFrom : State → List UInt8 → List (Option Char)
  | .start, [] => []
  | .inside .., [] => [none]
  | s, b :: bytes =>
    let (out, s') := next s b
    out ++ decodeFrom s' bytes

/-- The text of `bytes`, if all of it can be decoded. -/
def decode? (bytes : List UInt8) : Option String :=
  ((decodeFrom .start bytes).mapM id).map String.ofList

/-- The text of `bytes`, with a replacement character for what cannot be decoded. -/
def decodeLossy (bytes : List UInt8) : String :=
  String.ofList ((decodeFrom .start bytes).map (·.getD '�'))

end Rv32i.Text.Utf8
