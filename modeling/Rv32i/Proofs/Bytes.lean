import Mathlib.Data.List.GetD
import Mathlib.Tactic.Ring
import Rv32i.Memory.Basic

namespace Rv32i

/-- The `count` lowest bytes of a number, the lowest first. -/
def digits (count n : Nat) : List UInt8 :=
  (List.range count).map fun i => UInt8.ofNat (n / 256 ^ i)

@[simp] theorem length_digits (count n : Nat) : (digits count n).length = count := by
  simp [digits]

theorem digits_succ (count n : Nat) :
    digits (count + 1) n = UInt8.ofNat n :: digits count (n / 256) := by
  unfold digits
  rw [List.range_succ_eq_map, List.map_cons, List.map_map]
  refine congrArg₂ List.cons (by simp) (List.map_congr_left fun i _ => ?_)
  simp only [Function.comp_apply, Nat.succ_eq_add_one]
  rw [pow_succ', Nat.div_div_eq_div_mul]

theorem littleEndian_lt (bytes : List UInt8) : littleEndian bytes < 256 ^ bytes.length := by
  induction bytes with
  | nil => simp [littleEndian]
  | cons b bytes ih =>
    have hb : b.toNat < 256 := b.toNat_lt
    simp only [littleEndian, List.length_cons, pow_succ']
    omega

namespace Word

/-- Cutting a word into bytes gives the digits of its number to the base 256. -/
theorem toBytes_eq_digits (count : Nat) (w : Word) : toBytes count w = digits count w.toNat := by
  induction count generalizing w with
  | zero => rfl
  | succ count ih =>
    have hs : (w >>> 8).toNat = w.toNat / 256 := by
      simp [UInt32.toNat_shiftRight, Nat.shiftRight_eq_div_pow]
    have hb : w.toUInt8 = UInt8.ofNat w.toNat := by
      rw [← UInt8.toNat_inj]
      simp
    rw [toBytes, digits_succ, ih, hs, hb]

/-- Up to four bytes fit in a word, so no bit is lost when they are put together. -/
theorem toNat_ofBytes (bytes : List UInt8) (hl : bytes.length ≤ 4) :
    (ofBytes bytes).toNat = littleEndian bytes := by
  induction bytes with
  | nil => rfl
  | cons b bytes ih =>
    simp only [List.length_cons] at hl
    have hr : (ofBytes bytes).toNat = littleEndian bytes := ih (by omega)
    have hlt : littleEndian bytes < 2 ^ 24 := by
      have h := littleEndian_lt bytes
      have hp : 256 ^ bytes.length ≤ 256 ^ 3 := Nat.pow_le_pow_right (by decide) (by omega)
      have he : 256 ^ 3 = 2 ^ 24 := by decide
      omega
    have hs : (ofBytes bytes <<< 8).toNat = 2 ^ 8 * littleEndian bytes := by
      simp only [UInt32.toNat_shiftLeft, hr, Nat.shiftLeft_eq]
      change littleEndian bytes * 2 ^ 8 % 2 ^ 32 = _
      omega
    have hb : b.toNat < 2 ^ 8 := b.toNat_lt
    rw [ofBytes, UInt32.toNat_or, UInt8.toNat_toUInt32, hs, Nat.or_comm,
      ← Nat.two_pow_add_eq_or_of_lt hb, littleEndian]
    omega

end Word

namespace Cells

theorem read_eq_map (depth : Nat) (t : Cells) (start count : Nat) :
    read depth t start count = (List.range count).map fun i => get depth t (start + i) := by
  induction count generalizing start with
  | zero => rfl
  | succ count ih =>
    rw [read, ih, List.range_succ_eq_map, List.map_cons, List.map_map]
    refine congrArg₂ List.cons (by simp) (List.map_congr_left fun i _ => ?_)
    simp only [Function.comp_apply]
    congr 1
    omega

/-- A list lies where it was written, and all other cells keep their bytes. -/
theorem get_write (depth : Nat) (t : Cells) (start i : Nat) (bytes : List UInt8)
    (hs : start + bytes.length ≤ capacity depth) (hi : i < capacity depth) :
    get depth (write depth t start bytes) i =
      if start ≤ i ∧ i < start + bytes.length then bytes.getD (i - start) 0 else get depth t i := by
  induction bytes generalizing t start with
  | nil => rw [write, if_neg (by simp only [List.length_nil]; omega)]
  | cons b bytes ih =>
    simp only [List.length_cons] at hs ⊢
    have hm : start % capacity depth = i % capacity depth ↔ start = i := by
      rw [Nat.mod_eq_of_lt (by omega), Nat.mod_eq_of_lt hi]
    rw [write, ih _ _ (by omega), get_set]
    simp only [hm]
    -- the rest goes to the cells after `start`, so it cannot undo what was put there
    by_cases he : start = i
    · subst he
      rw [if_neg (by omega), if_pos rfl, if_pos (by omega), Nat.sub_self, List.getD_cons_zero]
    · by_cases hw : start + 1 ≤ i ∧ i < start + 1 + bytes.length
      · have hsub : i - start = i - (start + 1) + 1 := by omega
        rw [if_pos hw, if_pos (by omega), hsub, List.getD_cons_succ]
      · rw [if_neg hw, if_neg he, if_neg (by omega)]

end Cells
end Rv32i
