namespace Rv32i

/-- Registers, addresses and instruction words have 32 bits, and arithmetic on them wraps. -/
abbrev Word := UInt32

namespace Word

/-- The number that the low `width` bits of `w` stand for in two's complement, for `width` from 1 to
32. Moving the top bit of the pattern to bit 31 and back copies it over all higher bits. -/
def signExtend (w : Word) (width : Nat) : Int32 :=
  (w <<< UInt32.ofNat (32 - width)).toInt32 >>> Int32.ofNat (32 - width)

/-- Right shift that keeps the sign; only the low five bits of the amount count. -/
def shiftRightSigned (w amount : Word) : Word :=
  (w.toInt32 >>> (amount &&& 31).toInt32).toUInt32

/-- Two's complement order. -/
def lessSigned (a b : Word) : Bool :=
  a.toInt32 < b.toInt32

/-- A truth value as the word 1 or 0. -/
def ofBool (b : Bool) : Word :=
  if b then 1 else 0

/-- The difference of two words, unless it is negative. -/
def checkedSub (a b : Word) : Option Word :=
  if b ≤ a then some (a - b) else none

/-- The `count` lowest bytes of `w`, the lowest first. -/
def toBytes : Nat → Word → List UInt8
  | 0, _ => []
  | count + 1, w => w.toUInt8 :: toBytes count (w >>> 8)

/-- The word whose bytes are `bytes`, the lowest first. -/
def ofBytes : List UInt8 → Word
  | [] => 0
  | b :: bytes => b.toUInt32 ||| (ofBytes bytes <<< 8)

@[simp] theorem length_toBytes (count : Nat) (w : Word) : (toBytes count w).length = count := by
  induction count generalizing w with
  | zero => rfl
  | succ count ih => simp [toBytes, ih]

end Word

instance : Std.LawfulOrderMax Word where
  max_eq_or v w := by
    change (if v ≤ w then w else v) = v ∨ (if v ≤ w then w else v) = w
    split
    · exact .inr rfl
    · exact .inl rfl
  max_le_iff v w u := by
    change (if v ≤ w then w else v) ≤ u ↔ v ≤ u ∧ w ≤ u
    simp only [UInt32.le_iff_toNat_le]
    split <;> omega

/-- The number that a list of bytes stands for, the lowest byte first. -/
def littleEndian : List UInt8 → Nat
  | [] => 0
  | b :: bytes => b.toNat + 256 * littleEndian bytes

/-- Sizes and offsets are 64-bit numbers. A sum or product of them is one, unless it is too
large. -/
def checkedSize (n : Nat) : Option Nat :=
  if n < UInt64.size then some n else none

end Rv32i
