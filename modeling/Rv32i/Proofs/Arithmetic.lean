import Rv32i.Proofs.Manual

namespace Rv32i.Manual

/-- Numbers below 2 ^ 32 are words already. -/
theorem eq_ofInt_natCast {w : Word} {n : Nat} (h : w.toNat = n) : w = UInt32.ofInt n := by
  rw [← h, Word.ofInt_toNat]

theorem add_result (a b : Word) : a + b = UInt32.ofInt (Arithmetic.add.result a b) := by
  apply Word.eq_ofInt
  simp only [Arithmetic.result, UInt32.toNat_add]
  omega

theorem sub_result (a b : Word) : a - b = UInt32.ofInt (Arithmetic.sub.result a b) := by
  apply Word.eq_ofInt
  have ha : a.toNat < 2 ^ 32 := a.toNat_lt
  have hb : b.toNat < 2 ^ 32 := b.toNat_lt
  simp only [Arithmetic.result, UInt32.toNat_sub]
  omega

theorem xor_result (a b : Word) : a ^^^ b = UInt32.ofInt (Arithmetic.xor.result a b) :=
  eq_ofInt_natCast (UInt32.toNat_xor a b)

theorem or_result (a b : Word) : a ||| b = UInt32.ofInt (Arithmetic.or.result a b) :=
  eq_ofInt_natCast (UInt32.toNat_or a b)

theorem and_result (a b : Word) : a &&& b = UInt32.ofInt (Arithmetic.and.result a b) :=
  eq_ofInt_natCast (UInt32.toNat_and a b)

/-- The low five bits of a shift amount are its remainder by 32. -/
theorem toNat_amount (b : Word) : (b &&& 31).toNat = b.toNat % 32 := by
  rw [UInt32.toNat_and]
  exact Nat.and_two_pow_sub_one_eq_mod _ 5

theorem sll_result (a b : Word) :
    Base.shiftLeft a b = UInt32.ofInt (Arithmetic.sll.result a b) := by
  apply Word.eq_ofInt
  rw [Base.shiftLeft, UInt32.toNat_shiftLeft, toNat_amount, Nat.mod_mod, Nat.shiftLeft_eq,
    Arithmetic.result]
  push_cast
  rfl

theorem srl_result (a b : Word) :
    Base.shiftRight a b = UInt32.ofInt (Arithmetic.srl.result a b) := by
  apply eq_ofInt_natCast
  rw [Base.shiftRight, UInt32.toNat_shiftRight, toNat_amount, Nat.mod_mod,
    Nat.shiftRight_eq_div_pow]

theorem sra_result (a b : Word) :
    Word.shiftRightSigned a b = UInt32.ofInt (Arithmetic.sra.result a b) := by
  have hamount : (b &&& 31).toInt32 = Int32.ofNat (b.toNat % 32) := by
    have h : b &&& 31 = UInt32.ofNat (b.toNat % 32) := by
      rw [← toNat_amount, UInt32.ofNat_toNat]
    rw [h]
    rfl
  rw [Word.shiftRightSigned, Word.toUInt32_eq_ofInt, hamount,
    Word.toInt_shiftRight _ (Nat.mod_lt _ (by decide)), Word.toInt_toInt32, Arithmetic.result,
    Int.fdiv_eq_ediv_of_nonneg _ (pow_nonneg (by decide) _)]

theorem lessSigned_iff (a b : Word) :
    Word.lessSigned a b = decide (signed 32 a.toNat < signed 32 b.toNat) := by
  rw [Word.lessSigned, ← Word.toInt_toInt32, ← Word.toInt_toInt32]
  exact decide_eq_decide.mpr Int32.lt_iff_toInt_lt

theorem ofBool_decide (p : Prop) [Decidable p] :
    Word.ofBool (decide p) = UInt32.ofInt (if p then 1 else 0) := by
  by_cases h : p
  · rw [decide_eq_true h, if_pos h]
    rfl
  · rw [decide_eq_false h, if_neg h]
    rfl

theorem slt_result (a b : Word) :
    Word.ofBool (Word.lessSigned a b) = UInt32.ofInt (Arithmetic.slt.result a b) := by
  rw [lessSigned_iff, ofBool_decide, Arithmetic.result]

theorem sltu_result (a b : Word) :
    Word.ofBool (decide (a < b)) = UInt32.ofInt (Arithmetic.sltu.result a b) := by
  simp only [UInt32.lt_iff_toNat_lt, ofBool_decide, Arithmetic.result]

theorem eq_holds (a b : Word) : (a == b) = Comparison.eq.holds a b := by
  rw [Comparison.holds, Bool.eq_iff_iff, beq_iff_eq, decide_eq_true_iff, UInt32.toNat_inj]

theorem ne_holds (a b : Word) : (a != b) = Comparison.ne.holds a b := by
  rw [Comparison.holds, Bool.eq_iff_iff, bne_iff_ne, decide_eq_true_iff, ne_eq, ne_eq,
    UInt32.toNat_inj]

theorem lt_holds (a b : Word) : Word.lessSigned a b = Comparison.lt.holds a b :=
  lessSigned_iff a b

theorem ge_holds (a b : Word) : (!Word.lessSigned a b) = Comparison.ge.holds a b := by
  rw [lessSigned_iff, Comparison.holds, ← decide_not]
  exact decide_eq_decide.mpr Int.not_lt

theorem ltu_holds (a b : Word) : decide (a < b) = Comparison.ltu.holds a b :=
  decide_eq_decide.mpr UInt32.lt_iff_toNat_lt

theorem geu_holds (a b : Word) : (!decide (a < b)) = Comparison.geu.holds a b := by
  rw [Comparison.holds, ← decide_not]
  exact decide_eq_decide.mpr (by rw [UInt32.lt_iff_toNat_lt, Nat.not_lt])

/-- Masking bit 0 out of a word makes it even and keeps the rest. -/
theorem clear_low (v : Word) : v &&& ~~~1 = UInt32.ofInt (v.toNat - v.toNat % 2) := by
  apply Word.eq_ofInt
  have hv : v.toNat < 2 ^ 32 := v.toNat_lt
  rw [Word.toNat_and_high v (~~~1) 1 rfl]
  omega

/-- Widening a loaded number with its sign. -/
theorem signExtend_loaded {v : Word} {width : Nat} (h1 : 1 ≤ width) (h32 : width ≤ 32)
    (hv : v.toNat < 2 ^ width) :
    Base.signExtend width v = UInt32.ofInt (signed width v.toNat) := by
  rw [Base.signExtend, Word.toUInt32_eq_ofInt, Word.toInt_signExtend _ h1 h32, Nat.mod_eq_of_lt hv]

/-- A whole word has no bits to fill with its sign. -/
theorem word_loaded (v : Word) : v = UInt32.ofInt (signed 32 v.toNat) := by
  rw [← Word.toInt_toInt32, ← Word.toUInt32_eq_ofInt]
  rfl

end Rv32i.Manual
