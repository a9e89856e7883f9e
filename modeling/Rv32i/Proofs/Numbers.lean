import Mathlib.Algebra.Order.Group.Int
import Mathlib.Algebra.Order.Ring.Int
import Mathlib.Tactic.Ring
import Rv32i.Instruction.Basic

namespace Rv32i

/-- Bits `hi` down to `lo` of a number. -/
def slice (n hi lo : Nat) : Nat :=
  n / 2 ^ lo % 2 ^ (hi + 1 - lo)

/-- What a pattern of `width` bits stands for in two's complement. -/
def signed (width n : Nat) : Int :=
  if n < 2 ^ (width - 1) then n else n - 2 ^ width

theorem slice_lt (n hi lo : Nat) : slice n hi lo < 2 ^ (hi + 1 - lo) :=
  Nat.mod_lt _ (Nat.two_pow_pos _)

theorem slice_zero (n hi : Nat) : slice n hi 0 = n % 2 ^ (hi + 1) := by
  rw [slice, pow_zero, Nat.div_one, Nat.sub_zero]

/-- A slice falls into two at each of its bits. -/
theorem slice_split (n mid : Nat) {hi lo : Nat} (h : lo < mid ∧ mid ≤ hi) :
    slice n hi lo = 2 ^ (mid - lo) * slice n hi mid + slice n (mid - 1) lo := by
  have hwidth : hi + 1 - lo = (mid - lo) + (hi + 1 - mid) := by omega
  have hstart : 2 ^ lo * 2 ^ (mid - lo) = 2 ^ mid := by
    rw [← pow_add, Nat.add_sub_of_le h.1.le]
  have hlow : mid - 1 + 1 - lo = mid - lo := by omega
  rw [slice, slice, slice, hwidth, pow_add, Nat.mod_mul, Nat.div_div_eq_div_mul, hstart, hlow,
    Nat.add_comm]

theorem slice_slice (n : Nat) {hi lo a b : Nat} (ha : lo + a ≤ hi) (hb : b ≤ a) :
    slice (slice n hi lo) a b = slice n (lo + a) (lo + b) := by
  have hwidth : 2 ^ (hi + 1 - lo) = 2 ^ b * 2 ^ (hi + 1 - lo - b) := by
    rw [← pow_add, Nat.add_sub_of_le (by omega)]
  have hdvd : 2 ^ (a + 1 - b) ∣ 2 ^ (hi + 1 - lo - b) := pow_dvd_pow 2 (by omega)
  have hsame : lo + a + 1 - (lo + b) = a + 1 - b := by omega
  rw [slice, slice, slice, hwidth, Nat.mod_mul_right_div_self, Nat.mod_mod_of_dvd _ hdvd, hsame,
    Nat.div_div_eq_div_mul, ← pow_add]

/-- Slices that are equal have equal parts. -/
theorem slice_congr {n m hi hi' lo lo' : Nat} (h : slice n hi lo = slice m hi' lo') (a b : Nat)
    (hab : lo + a ≤ hi ∧ lo' + a ≤ hi' ∧ b ≤ a) :
    slice n (lo + a) (lo + b) = slice m (lo' + a) (lo' + b) := by
  obtain ⟨ha, ha', hb⟩ := hab
  rw [← slice_slice n ha hb, h, slice_slice m ha' hb]

/-- `z` is what `width` bits keep of `n`: a number in their range of two's complement that differs
from `n` by a multiple of 2 ^ width. -/
structure Residue (width : Nat) (n z : Int) : Prop where
  lower : -2 ^ (width - 1) ≤ z
  upper : z < 2 ^ (width - 1)
  congr : z % 2 ^ width = n % 2 ^ width

/-- A number with its low `k` bits cleared. -/
def clearLow (k : Nat) (n : Int) : Int :=
  n - n % 2 ^ k

theorem clearLow_of_dvd {k : Nat} {n : Int} (h : 2 ^ k ∣ n) : clearLow k n = n := by
  rw [clearLow, Int.emod_eq_zero_of_dvd h, Int.sub_zero]

theorem Residue.unique {width : Nat} (hw : 1 ≤ width) {n z z' : Int} (h : Residue width n z)
    (h' : Residue width n z') : z = z' := by
  obtain ⟨k, rfl⟩ := Nat.exists_eq_add_of_le' hw
  obtain ⟨hl, hu, hc⟩ := h
  obtain ⟨hl', hu', hc'⟩ := h'
  rw [Nat.add_sub_cancel] at hl hu hl' hu'
  have hdouble : (2 : Int) ^ (k + 1) = 2 * 2 ^ k := pow_succ' 2 k
  have hdvd : (2 : Int) ^ (k + 1) ∣ z - z' :=
    Int.dvd_of_emod_eq_zero (Int.emod_eq_emod_iff_emod_sub_eq_zero.mp (hc.trans hc'.symm))
  have hzero := Int.eq_zero_of_abs_lt_dvd hdvd (by rw [abs_lt]; omega)
  omega

/-- Reading a pattern in two's complement keeps of `n` what the pattern has of it. -/
theorem signed_residue {width p : Nat} {n : Int} (hw : 1 ≤ width) (hp : p < 2 ^ width)
    (hn : (p : Int) % 2 ^ width = n % 2 ^ width) : Residue width n (signed width p) := by
  obtain ⟨k, rfl⟩ := Nat.exists_eq_add_of_le' hw
  have hpos : (0 : Int) < 2 ^ k := pow_pos (by decide) k
  have hdouble : (2 : Int) ^ (k + 1) = 2 * 2 ^ k := pow_succ' 2 k
  have hlt : (p : Int) < 2 ^ (k + 1) := by exact_mod_cast hp
  rw [signed, Nat.add_sub_cancel]
  split
  · rename_i h
    have hlow : (p : Int) < 2 ^ k := by exact_mod_cast h
    refine ⟨?_, ?_, hn⟩ <;> rw [Nat.add_sub_cancel] <;> omega
  · rename_i h
    have hhigh : (2 : Int) ^ k ≤ p := by exact_mod_cast Nat.not_lt.mp h
    refine ⟨?_, ?_, ?_⟩
    · rw [Nat.add_sub_cancel]
      omega
    · rw [Nat.add_sub_cancel]
      omega
    · rw [Int.sub_emod_right, hn]

namespace Word

/-- The word with this number modulo 2 ^ 32. -/
theorem toNat_ofInt (z : Int) : (UInt32.ofInt z).toNat = (z % 2 ^ 32).toNat := by
  have hp : 0 ≤ z % 2 ^ 32 := Int.emod_nonneg z (by decide)
  have hl : z % 2 ^ 32 < 2 ^ 32 := Int.emod_lt_of_pos z (by decide)
  rw [UInt32.ofInt, UInt32.toNat_ofNat']
  omega

/-- A word is the number `z` modulo 2 ^ 32 as soon as its own number is. -/
theorem eq_ofInt {w : Word} {z : Int} (h : (w.toNat : Int) = z % 2 ^ 32) : w = UInt32.ofInt z := by
  rw [← UInt32.toNat_inj, toNat_ofInt]
  omega

theorem ofInt_toNat (w : Word) : UInt32.ofInt w.toNat = w := by
  refine (eq_ofInt ?_).symm
  have h : w.toNat < 2 ^ 32 := w.toNat_lt
  omega

theorem toInt_toInt32 (w : Word) : w.toInt32.toInt = signed 32 w.toNat := by
  have h : w.toInt32.toInt = w.toBitVec.toInt := rfl
  rw [h, BitVec.toInt_eq_toNat_cond, signed]
  change (if 2 * w.toNat < 2 ^ 32 then (w.toNat : Int) else (w.toNat : Int) - (2 ^ 32 : Nat)) = _
  split <;> split <;> omega

theorem toNat_toUInt32 (x : Int32) : (x.toUInt32.toNat : Int) = x.toInt % 2 ^ 32 := by
  have h : x.toInt = signed 32 x.toUInt32.toNat := toInt_toInt32 x.toUInt32
  have hl : x.toUInt32.toNat < 2 ^ 32 := x.toUInt32.toNat_lt
  rw [h, signed]
  split <;> omega

theorem toUInt32_eq_ofInt (x : Int32) : x.toUInt32 = UInt32.ofInt x.toInt :=
  eq_ofInt (toNat_toUInt32 x)

theorem slice_toUInt32 (x : Int32) (hi : Nat) (hhi : hi < 32) :
    (slice x.toUInt32.toNat hi 0 : Int) = x.toInt % 2 ^ (hi + 1) := by
  have hdvd : (2 : Int) ^ (hi + 1) ∣ 2 ^ 32 := pow_dvd_pow 2 hhi
  rw [slice_zero, Int.natCast_emod, Nat.cast_pow, Nat.cast_ofNat, toNat_toUInt32,
    Int.emod_emod_of_dvd _ hdvd]

/-- The low bits of a signed number are the pattern that it was read from. -/
theorem slice_of_signed {x : Int32} {n hi p : Nat} (hn : x.toUInt32.toNat = n)
    (hp : p < 2 ^ (hi + 1)) (hx : x.toInt = signed (hi + 1) p) (hhi : hi < 32) :
    slice n hi 0 = p := by
  have hcongr := (signed_residue (Nat.le_add_left 1 hi) hp rfl).congr
  have hpattern : (p : Int) % 2 ^ (hi + 1) = p :=
    Int.emod_eq_of_lt (Int.natCast_nonneg p) (by exact_mod_cast hp)
  have hslice := slice_toUInt32 x hi hhi
  rw [hn, hx, hcongr, hpattern] at hslice
  exact_mod_cast hslice

/-- The low bits of a number, read in two's complement, are what they keep of it. -/
theorem low_residue (x : Int32) (hi : Nat) (hhi : hi < 32) :
    Residue (hi + 1) x.toInt (signed (hi + 1) (slice x.toUInt32.toNat hi 0)) := by
  refine signed_residue (Nat.le_add_left 1 hi) (slice_lt _ hi 0) ?_
  rw [slice_toUInt32 x hi hhi, Int.emod_emod_of_dvd _ dvd_rfl]

/-- The same for an offset, whose lowest bit is left out. -/
theorem offset_residue (x : Int32) (hi : Nat) (h1 : 1 ≤ hi) (hhi : hi < 32) :
    Residue (hi + 1) (clearLow 1 x.toInt) (signed (hi + 1) (2 * slice x.toUInt32.toNat hi 1)) ∧
      2 ∣ signed (hi + 1) (2 * slice x.toUInt32.toNat hi 1) := by
  have hsplit : slice x.toUInt32.toNat hi 0 =
      2 * slice x.toUInt32.toNat hi 1 + slice x.toUInt32.toNat 0 0 :=
    slice_split _ 1 ⟨Nat.one_pos, h1⟩
  have hlt : slice x.toUInt32.toNat hi 0 < 2 ^ (hi + 1) := slice_lt _ hi 0
  refine ⟨signed_residue (Nat.le_add_left 1 hi) (by omega) ?_, ?_⟩
  · have hbits := slice_toUInt32 x hi hhi
    have hlow := slice_toUInt32 x 0 (by decide)
    have hp : ((2 * slice x.toUInt32.toNat hi 1 : Nat) : Int) =
        x.toInt % 2 ^ (hi + 1) - x.toInt % 2 ^ 1 := by
      rw [← hbits, ← hlow]
      omega
    rw [hp, clearLow, Int.emod_sub_emod]
  · have heven : (2 : Int) ∣ 2 ^ (hi + 1) := dvd_pow_self 2 (Nat.succ_ne_zero hi)
    rw [signed]
    split <;> omega

/-- Adding a signed number to an address, as the addition of integers. -/
theorem add_toUInt32_eq_ofInt (a : Word) (x : Int32) :
    a + x.toUInt32 = UInt32.ofInt (a.toNat + x.toInt) := by
  apply eq_ofInt
  have hx := toNat_toUInt32 x
  rw [UInt32.toNat_add]
  omega

theorem add_four_eq_ofInt (a : Word) : a + 4 = UInt32.ofInt (a.toNat + 4) := by
  apply eq_ofInt
  rw [UInt32.toNat_add, show (4 : Word).toNat = 4 from rfl]
  omega

theorem toNat_and_low (w mask : Word) (k : Nat) (hm : mask.toNat = 2 ^ k - 1) :
    (w &&& mask).toNat = w.toNat % 2 ^ k := by
  rw [UInt32.toNat_and, hm, Nat.and_two_pow_sub_one_eq_mod]

/-- A mask without its `k` low bits rounds down to a multiple of 2 ^ k. -/
theorem toNat_and_high (w mask : Word) (k : Nat) (hm : mask.toNat = 2 ^ k * (2 ^ (32 - k) - 1)) :
    (w &&& mask).toNat = 2 ^ k * (w.toNat / 2 ^ k) := by
  have hw : w.toNat < 2 ^ 32 := w.toNat_lt
  rw [UInt32.toNat_and, hm]
  apply Nat.eq_of_testBit_eq
  intro i
  rw [Nat.testBit_and, Nat.testBit_two_pow_mul, Nat.testBit_two_pow_mul,
    Nat.testBit_two_pow_sub_one, Nat.testBit_div_two_pow]
  by_cases hi : k ≤ i
  · by_cases h32 : i < 32
    · simp [hi, show i - k < 32 - k by omega]
    · have hhigh : w.toNat.testBit i = false := Nat.testBit_lt_two_pow
        (Nat.lt_of_lt_of_le hw (Nat.pow_le_pow_right (by decide) (by omega)))
      simp [hi, hhigh]
  · simp [hi]

/-- A right shift that keeps the sign divides and rounds down. -/
theorem toInt_shiftRight (x : Int32) {n : Nat} (hn : n < 32) :
    (x >>> Int32.ofNat n).toInt = x.toInt / 2 ^ n := by
  have hs : ((Int32.ofNat n).toBitVec.smod 32).toNat = n := by
    have hb : (Int32.ofNat n).toBitVec = BitVec.ofNat 32 n := rfl
    have hl : (BitVec.ofNat 32 n).toNat = n := Nat.mod_eq_of_lt (by omega)
    have hm : (BitVec.ofNat 32 n).msb = false := by
      rw [BitVec.msb_eq_false_iff_two_mul_lt, hl]
      omega
    rw [hb, BitVec.smod_eq, hm, show (32 : BitVec 32).msb = false from rfl]
    exact (congrArg (· % 32) hl).trans (Nat.mod_eq_of_lt hn)
  change (BitVec.sshiftRight x.toBitVec ((Int32.ofNat n).toBitVec.smod 32).toNat).toInt = _
  rw [hs, BitVec.toInt_sshiftRight, Int.shiftRight_eq_div_pow]
  rfl

/-- Shifting a pattern to the top and back gives its number: all bits from `width` on are lost on
the way, and the top one of the others comes back as the sign. -/
theorem toInt_signExtend (w : Word) {width : Nat} (h1 : 1 ≤ width) (h32 : width ≤ 32) :
    (signExtend w width).toInt = signed width (w.toNat % 2 ^ width) := by
  obtain ⟨n, hn⟩ : ∃ n, 32 = width + n := ⟨32 - width, by omega⟩
  have he : 32 - width = n := by omega
  have hpow : 2 ^ width * 2 ^ n = 2 ^ 32 := by rw [← pow_add, ← hn]
  have hhalf : 2 ^ (width - 1) * 2 ^ n = 2 ^ 31 := by
    rw [← pow_add]
    congr 1
    omega
  -- the shift to the left drops what is beyond `width` and moves the sign to the top bit
  have hshift : (w <<< UInt32.ofNat n).toNat = w.toNat % 2 ^ width * 2 ^ n := by
    have hm : n % 32 = n := Nat.mod_eq_of_lt (by omega)
    rw [UInt32.toNat_shiftLeft, UInt32.toNat_ofNat', Nat.shiftLeft_eq,
      Nat.mod_eq_of_lt (show n < 2 ^ 32 by omega), hm, ← hpow, Nat.mul_mod_mul_right]
  have hpos : (0 : Int) < 2 ^ n := pow_pos (by decide) n
  rw [signExtend, he, toInt_shiftRight _ (by omega), toInt_toInt32, hshift, signed, signed]
  by_cases hlt : w.toNat % 2 ^ width < 2 ^ (width - 1)
  · have hlow : w.toNat % 2 ^ width * 2 ^ n < 2 ^ (32 - 1) := by
      rw [← hhalf]
      exact Nat.mul_lt_mul_of_pos_right hlt (Nat.two_pow_pos n)
    rw [if_pos hlt, if_pos hlow, Nat.cast_mul, Nat.cast_pow, Nat.cast_ofNat,
      Int.mul_ediv_cancel _ hpos.ne']
  · have hhigh : ¬ w.toNat % 2 ^ width * 2 ^ n < 2 ^ (32 - 1) := by
      rw [← hhalf, Nat.not_lt]
      exact Nat.mul_le_mul_right _ (Nat.not_lt.mp hlt)
    have hdiff : ((w.toNat % 2 ^ width * 2 ^ n : Nat) : Int) - 2 ^ 32 =
        ((w.toNat % 2 ^ width : Nat) - 2 ^ width) * 2 ^ n := by
      have hz : (2 : Int) ^ 32 = 2 ^ width * 2 ^ n := by exact_mod_cast hpow.symm
      rw [hz, Nat.cast_mul, Nat.cast_pow, Nat.cast_ofNat, sub_mul]
    rw [if_neg hlt, if_neg hhigh, hdiff, Int.mul_ediv_cancel _ hpos.ne']

end Word
end Rv32i
