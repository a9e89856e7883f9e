import Rv32i.Proofs.Fields

namespace Rv32i

theorem Residue.iff_eq {width : Nat} (hw : 1 ≤ width) {n x z : Int} (h : Residue width n x) :
    Residue width n z ↔ z = x := by
  constructor
  · exact fun hz => hz.unique hw h
  · rintro rfl
    exact h

/-- Numbers have the same remainder by 2 ^ width if and only if they have the same low bits. -/
theorem mod_two_pow_eq_iff {n m width : Nat} :
    n % 2 ^ width = m % 2 ^ width ↔ ∀ i < width, n.testBit i = m.testBit i := by
  constructor
  · intro h i hi
    have hbit := congrArg (Nat.testBit · i) h
    simpa [Nat.testBit_mod_two_pow, hi] using hbit
  · intro h
    apply Nat.eq_of_testBit_eq
    intro i
    rw [Nat.testBit_mod_two_pow, Nat.testBit_mod_two_pow]
    by_cases hi : i < width
    · rw [h i hi]
    · simp [hi]

namespace Word

theorem signExtend_residue (w : Word) {width : Nat} (h1 : 1 ≤ width) (h32 : width ≤ 32) :
    Residue width w.toNat (signExtend w width).toInt := by
  rw [toInt_signExtend w h1 h32]
  refine signed_residue h1 (Nat.mod_lt _ (Nat.two_pow_pos width)) ?_
  push_cast
  exact Int.emod_emod_of_dvd _ dvd_rfl

/-- The low bits decide the number, and the number tells them all. -/
theorem signExtend_inj {v w : Word} {width : Nat} (h1 : 1 ≤ width) (h32 : width ≤ 32) :
    signExtend v width = signExtend w width ↔
      ∀ i < width, v.toNat.testBit i = w.toNat.testBit i := by
  rw [← mod_two_pow_eq_iff, ← Int32.toInt_inj]
  constructor
  · intro h
    -- the one number is congruent to both words
    have hv := (signExtend_residue v h1 h32).congr
    rw [h, (signExtend_residue w h1 h32).congr] at hv
    exact_mod_cast hv.symm
  · intro h
    rw [toInt_signExtend v h1 h32, toInt_signExtend w h1 h32, h]

end Word

namespace Field

/-- The places of bits `hi` down to `lo` of a word, the lowest first. -/
def places (hi lo : Nat) : List (Option Nat) :=
  (List.range' lo (hi + 1 - lo)).map some

/-- The places of the twelve bits of the immediate of layout S, the lowest first. -/
def placesS : List (Option Nat) :=
  places 11 7 ++ places 31 25

/-- The places of the thirteen bits of the immediate of layout B. The lowest bit has none and is
0. -/
def placesB : List (Option Nat) :=
  none :: (places 11 8 ++ (places 30 25 ++ (places 7 7 ++ places 31 31)))

/-- The places of the twenty-one bits of the immediate of layout J. The lowest bit has none and is
0. -/
def placesJ : List (Option Nat) :=
  none :: (places 30 21 ++ (places 20 20 ++ (places 19 12 ++ places 31 31)))

/-- The number whose bits, from the lowest on, stand at these places of `n`. -/
def assemble (n : Nat) : List (Option Nat) → Nat
  | [] => 0
  | place :: rest => (place.any n.testBit).toNat + 2 * assemble n rest

theorem assemble_append (n : Nat) (low high : List (Option Nat)) :
    assemble n (low ++ high) = assemble n low + 2 ^ low.length * assemble n high := by
  induction low with
  | nil => simp [assemble]
  | cons place low ih =>
    rw [List.cons_append, assemble, ih, assemble, List.length_cons, pow_succ]
    ring

/-- Bits that stand next to each other are a slice of the number. -/
theorem assemble_range (n lo count : Nat) :
    assemble n ((List.range' lo count).map some) = n / 2 ^ lo % 2 ^ count := by
  induction count generalizing lo with
  | zero => simp [assemble, Nat.mod_one]
  | succ count ih =>
    have hbit : (Option.any n.testBit (some lo)).toNat = n / 2 ^ lo % 2 := Nat.toNat_testBit n lo
    rw [List.range'_succ, List.map_cons, assemble, ih, hbit, pow_succ' 2 count, Nat.mod_mul,
      Nat.div_div_eq_div_mul, ← pow_succ]

@[simp] theorem assemble_places (n hi lo : Nat) : assemble n (places hi lo) = slice n hi lo :=
  assemble_range n lo (hi + 1 - lo)

@[simp] theorem length_places (hi lo : Nat) : (places hi lo).length = hi + 1 - lo := by
  simp [places]

theorem toNat_patternS_eq_assemble (w : Word) :
    (patternS w).toNat = assemble w.toNat placesS := by
  simp only [toNat_patternS, placesS, assemble_append, assemble_places, length_places]
  omega

theorem toNat_patternB_eq_assemble (w : Word) :
    (patternB w).toNat = assemble w.toNat placesB := by
  simp only [toNat_patternB, placesB, assemble, assemble_append, assemble_places, length_places,
    Option.any_none, Bool.toNat_false]
  omega

theorem toNat_patternJ_eq_assemble (w : Word) :
    (patternJ w).toNat = assemble w.toNat placesJ := by
  simp only [toNat_patternJ, placesJ, assemble, assemble_append, assemble_places, length_places,
    Option.any_none, Bool.toNat_false]
  omega

end Field

namespace Word

/-- Sign extension gives the one number in the range of `width` bits that differs from the word by a
multiple of 2 ^ width. So it looks at the low `width` bits only and loses none of them. The three
immediates that rest on it are the numbers of their bits, taken from their places in the word. -/
theorem signExtend_exact (w : Word) :
    (∀ width, 1 ≤ width → width ≤ 32 →
      (∀ z, Residue width w.toNat z ↔ z = (signExtend w width).toInt) ∧
      ∀ v, signExtend v width = signExtend w width ↔
        ∀ i < width, v.toNat.testBit i = w.toNat.testBit i) ∧
    (∀ z, Residue 12 (Field.assemble w.toNat Field.placesS) z ↔ z = (Field.immS w).toInt) ∧
    (∀ z, Residue 13 (Field.assemble w.toNat Field.placesB) z ↔ z = (Field.immB w).toInt) ∧
    ∀ z, Residue 21 (Field.assemble w.toNat Field.placesJ) z ↔ z = (Field.immJ w).toInt := by
  refine ⟨fun width h1 h32 => ⟨fun z => ?_, fun v => signExtend_inj h1 h32⟩, fun z => ?_,
    fun z => ?_, fun z => ?_⟩
  · exact (signExtend_residue w h1 h32).iff_eq h1
  · rw [← Field.toNat_patternS_eq_assemble]
    exact (signExtend_residue (Field.patternS w) (by decide) (by decide)).iff_eq (by decide)
  · rw [← Field.toNat_patternB_eq_assemble]
    exact (signExtend_residue (Field.patternB w) (by decide) (by decide)).iff_eq (by decide)
  · rw [← Field.toNat_patternJ_eq_assemble]
    exact (signExtend_residue (Field.patternJ w) (by decide) (by decide)).iff_eq (by decide)

/-- One word at the smallest and the largest width, and beside another with the same low bits. -/
theorem signExtend_exact_limits :
    Residue 1 (0x80000801 : Word).toNat (-1) ∧
    Residue 32 (0x80000801 : Word).toNat (-0x7FFFF7FF) ∧
    signExtend 0x7FFFF801 12 = signExtend 0x80000801 12 := by
  refine ⟨?_, ?_, ?_⟩
  · exact (((signExtend_exact 0x80000801).1 1 (by decide) (by decide)).1 _).mpr (by decide)
  · exact (((signExtend_exact 0x80000801).1 32 (by decide) (by decide)).1 _).mpr (by decide)
  · exact (((signExtend_exact 0x80000801).1 12 (by decide) (by decide)).2 _).mpr (by decide)

end Word
end Rv32i
