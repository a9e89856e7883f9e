import Rv32i.Instruction.Encode
import Rv32i.Proofs.Fields

namespace Rv32i

/-- The number of the word with these numbers in its six places, each cut to the width of its
place. Layouts differ in what they put there. -/
def slots (funct7 rs2 rs1 funct3 rd opcode : Nat) : Nat :=
  2 ^ 25 * (funct7 % 2 ^ 7) + 2 ^ 20 * (rs2 % 2 ^ 5) + 2 ^ 15 * (rs1 % 2 ^ 5) +
    2 ^ 12 * (funct3 % 2 ^ 3) + 2 ^ 7 * (rd % 2 ^ 5) + opcode % 2 ^ 7

section
variable (funct7 rs2 rs1 funct3 rd opcode : Nat)

@[simp] theorem slice_slots_funct7 :
    slice (slots funct7 rs2 rs1 funct3 rd opcode) 31 25 = funct7 % 2 ^ 7 := by
  simp only [slice, slots]
  omega

@[simp] theorem slice_slots_rs2 :
    slice (slots funct7 rs2 rs1 funct3 rd opcode) 24 20 = rs2 % 2 ^ 5 := by
  simp only [slice, slots]
  omega

@[simp] theorem slice_slots_rs1 :
    slice (slots funct7 rs2 rs1 funct3 rd opcode) 19 15 = rs1 % 2 ^ 5 := by
  simp only [slice, slots]
  omega

@[simp] theorem slice_slots_funct3 :
    slice (slots funct7 rs2 rs1 funct3 rd opcode) 14 12 = funct3 % 2 ^ 3 := by
  simp only [slice, slots]
  omega

@[simp] theorem slice_slots_rd :
    slice (slots funct7 rs2 rs1 funct3 rd opcode) 11 7 = rd % 2 ^ 5 := by
  simp only [slice, slots]
  omega

@[simp] theorem slice_slots_opcode :
    slice (slots funct7 rs2 rs1 funct3 rd opcode) 6 0 = opcode % 2 ^ 7 := by
  simp only [slice, slots]
  omega

end

section
variable (n : Nat)

/-- Twelve bits fill a place of seven and one of five. -/
theorem slice_immediate : slice n 11 0 = 2 ^ 5 * slice n 11 5 + slice n 4 0 :=
  slice_split n 5 (by decide)

/-- The upper twenty bits fill the four upper places. -/
theorem slice_upper : slice n 31 12 =
    2 ^ 13 * slice n 31 25 + 2 ^ 8 * slice n 24 20 + 2 ^ 3 * slice n 19 15 + slice n 14 12 := by
  have h15 : slice n 31 12 = 2 ^ 3 * slice n 31 15 + slice n 14 12 := slice_split n 15 (by decide)
  have h20 : slice n 31 15 = 2 ^ 5 * slice n 31 20 + slice n 19 15 := slice_split n 20 (by decide)
  have h25 : slice n 31 20 = 2 ^ 5 * slice n 31 25 + slice n 24 20 := slice_split n 25 (by decide)
  omega

theorem slice_funct7 : slice n 31 25 = 2 ^ 6 * slice n 31 31 + slice n 30 25 :=
  slice_split n 31 (by decide)

theorem slice_rs2 : slice n 24 20 = 2 * slice n 24 21 + slice n 20 20 :=
  slice_split n 21 (by decide)

theorem slice_rd : slice n 11 7 = 2 * slice n 11 8 + slice n 7 7 :=
  slice_split n 8 (by decide)

/-- The bits of a branch offset, cut where the word scatters them. -/
theorem slice_branch : slice n 12 1 =
    2 ^ 11 * slice n 12 12 + 2 ^ 10 * slice n 11 11 + 2 ^ 4 * slice n 10 5 + slice n 4 1 := by
  have h5 : slice n 12 1 = 2 ^ 4 * slice n 12 5 + slice n 4 1 := slice_split n 5 (by decide)
  have h11 : slice n 12 5 = 2 ^ 6 * slice n 12 11 + slice n 10 5 := slice_split n 11 (by decide)
  have h12 : slice n 12 11 = 2 * slice n 12 12 + slice n 11 11 := slice_split n 12 (by decide)
  omega

/-- The bits of a jump offset, cut where the word scatters them. -/
theorem slice_jump : slice n 20 1 =
    2 ^ 19 * slice n 20 20 + 2 ^ 11 * slice n 19 12 + 2 ^ 10 * slice n 11 11 + slice n 10 1 := by
  have h11 : slice n 20 1 = 2 ^ 10 * slice n 20 11 + slice n 10 1 := slice_split n 11 (by decide)
  have h12 : slice n 20 11 = 2 * slice n 20 12 + slice n 11 11 := slice_split n 12 (by decide)
  have h20 : slice n 20 12 = 2 ^ 8 * slice n 20 20 + slice n 19 12 := slice_split n 20 (by decide)
  omega

end

/-- A word is what stands in its six places. -/
theorem slots_slices (w : Word) :
    slots (slice w.toNat 31 25) (slice w.toNat 24 20) (slice w.toNat 19 15) (slice w.toNat 14 12)
      (slice w.toNat 11 7) (slice w.toNat 6 0) = w.toNat := by
  have hw : slice w.toNat 31 0 = w.toNat := by
    rw [slice_zero]
    exact Nat.mod_eq_of_lt w.toNat_lt
  have h7 : slice w.toNat 31 0 = 2 ^ 7 * slice w.toNat 31 7 + slice w.toNat 6 0 :=
    slice_split _ 7 (by decide)
  have h12 : slice w.toNat 31 7 = 2 ^ 5 * slice w.toNat 31 12 + slice w.toNat 11 7 :=
    slice_split _ 12 (by decide)
  have hupper := slice_upper w.toNat
  rw [slots, Nat.mod_eq_of_lt (slice_lt w.toNat 31 25), Nat.mod_eq_of_lt (slice_lt w.toNat 24 20),
    Nat.mod_eq_of_lt (slice_lt w.toNat 19 15), Nat.mod_eq_of_lt (slice_lt w.toNat 14 12),
    Nat.mod_eq_of_lt (slice_lt w.toNat 11 7), Nat.mod_eq_of_lt (slice_lt w.toNat 6 0)]
  omega

/-- Parts that do not touch add up: bits from `k` on and bits below `k`. -/
theorem Field.toNat_add {v u : Word} {a b : Nat} (k : Nat) (hv : v.toNat = a) (hu : u.toNat = b)
    (h : 2 ^ k ∣ a ∧ b < 2 ^ k) : (v ||| u).toNat = a + b := by
  obtain ⟨⟨n, rfl⟩, hb⟩ := h
  exact toNat_or k hv hu hb

namespace Encode

theorem toNat_cut (b : UInt8) (mask : Word) (k : Nat) (hm : mask.toNat = 2 ^ k - 1) :
    (b.toUInt32 &&& mask).toNat = b.toNat % 2 ^ k := by
  rw [Word.toNat_and_low _ mask k hm, UInt8.toNat_toUInt32]

theorem toNat_low (opcode rd : UInt8) :
    (low opcode rd).toNat = 2 ^ 7 * (rd.toNat % 2 ^ 5) + opcode.toNat % 2 ^ 7 := by
  have hrd := Field.toNat_shiftLeft 7 (by decide) (toNat_cut rd 0x1F 5 rfl) (by omega)
  exact Field.toNat_add 7 hrd (toNat_cut opcode 0x7F 7 rfl) (by omega)

theorem toNat_middle (funct3 rs1 rs2 : UInt8) :
    (middle funct3 rs1 rs2).toNat =
      2 ^ 20 * (rs2.toNat % 2 ^ 5) + 2 ^ 15 * (rs1.toNat % 2 ^ 5) +
        2 ^ 12 * (funct3.toNat % 2 ^ 3) := by
  have hrs2 := Field.toNat_shiftLeft 20 (by decide) (toNat_cut rs2 0x1F 5 rfl) (by omega)
  have hrs1 := Field.toNat_shiftLeft 15 (by decide) (toNat_cut rs1 0x1F 5 rfl) (by omega)
  have hfunct3 := Field.toNat_shiftLeft 12 (by decide) (toNat_cut funct3 0x7 3 rfl) (by omega)
  have hsources := Field.toNat_add 20 hrs2 hrs1 (by omega)
  exact Field.toNat_add 15 hsources hfunct3 (by omega)

theorem toNat_low_zero (opcode : UInt8) : (low opcode 0).toNat = opcode.toNat % 2 ^ 7 := by
  rw [toNat_low, UInt8.toNat_zero, Nat.zero_mod, Nat.mul_zero, Nat.zero_add]

theorem toNat_middle_zero (funct3 rs1 : UInt8) :
    (middle funct3 rs1 0).toNat =
      2 ^ 15 * (rs1.toNat % 2 ^ 5) + 2 ^ 12 * (funct3.toNat % 2 ^ 3) := by
  rw [toNat_middle, UInt8.toNat_zero, Nat.zero_mod, Nat.mul_zero, Nat.zero_add]

theorem toNat_rType (opcode rd funct3 rs1 rs2 funct7 : UInt8) :
    (rType opcode rd funct3 rs1 rs2 funct7).toNat =
      slots funct7.toNat rs2.toNat rs1.toNat funct3.toNat rd.toNat opcode.toNat := by
  have h7 := Field.toNat_shiftLeft 25 (by decide) (toNat_cut funct7 0x7F 7 rfl) (by omega)
  have hm := Field.toNat_add 25 h7 (toNat_middle funct3 rs1 rs2) (by omega)
  refine (Field.toNat_add 12 hm (toNat_low opcode rd) (by omega)).trans ?_
  rw [slots]
  omega

section
variable {imm : Int32} {n : Nat} (hn : imm.toUInt32.toNat = n)
include hn

theorem toNat_iType (opcode rd funct3 rs1 : UInt8) :
    (iType opcode rd funct3 rs1 imm).toNat =
      slots (slice n 11 5) (slice n 4 0) rs1.toNat funct3.toNat rd.toNat opcode.toNat := by
  have hcut : (imm.toUInt32 &&& 0xFFF).toNat = slice n 11 0 := by
    rw [Word.toNat_and_low _ 0xFFF 12 rfl, hn, slice_zero]
  have hlt := slice_lt n 11 0
  have hi := Field.toNat_shiftLeft 20 (by decide) hcut (by omega)
  have hm := Field.toNat_add 20 hi (toNat_middle_zero funct3 rs1) (by omega)
  refine (Field.toNat_add 12 hm (toNat_low opcode rd) (by omega)).trans ?_
  have hsplit := slice_immediate n
  have h11 := slice_lt n 11 5
  have h4 := slice_lt n 4 0
  rw [slots]
  omega

theorem toNat_sType (opcode funct3 rs1 rs2 : UInt8) :
    (sType opcode funct3 rs1 rs2 imm).toNat =
      slots (slice n 11 5) rs2.toNat rs1.toNat funct3.toNat (slice n 4 0) opcode.toNat := by
  have hcut : (imm.toUInt32 &&& 0xFFF).toNat = slice n 11 0 := by
    rw [Word.toNat_and_low _ 0xFFF 12 rfl, hn, slice_zero]
  have h11 := slice_lt n 11 5
  have h4 := slice_lt n 4 0
  have hsplit := slice_immediate n
  have hupper : ((imm.toUInt32 &&& 0xFFF) >>> 5).toNat = slice n 11 5 := by
    rw [UInt32.toNat_shiftRight, hcut, Nat.shiftRight_eq_div_pow]
    change slice n 11 0 / 2 ^ 5 = slice n 11 5
    omega
  have hlower : ((imm.toUInt32 &&& 0xFFF) &&& 0x1F).toNat = slice n 4 0 := by
    rw [Word.toNat_and_low _ 0x1F 5 rfl, hcut]
    omega
  have ha := Field.toNat_shiftLeft 25 (by decide) hupper (by omega)
  have hb := Field.toNat_shiftLeft 7 (by decide) hlower (by omega)
  have hm := Field.toNat_add 25 ha (toNat_middle funct3 rs1 rs2) (by omega)
  have hmb := Field.toNat_add 12 hm hb (by omega)
  refine (Field.toNat_add 7 hmb (toNat_low_zero opcode) (by omega)).trans ?_
  rw [slots]
  omega

theorem toNat_bType (opcode funct3 rs1 rs2 : UInt8) :
    (bType opcode funct3 rs1 rs2 imm).toNat =
      slots (2 ^ 6 * slice n 12 12 + slice n 10 5) rs2.toNat rs1.toNat funct3.toNat
        (2 * slice n 4 1 + slice n 11 11) opcode.toNat := by
  have h12 := slice_lt n 12 12
  have h10 := slice_lt n 10 5
  have h4 := slice_lt n 4 1
  have h11 := slice_lt n 11 11
  subst hn
  have ha := Field.toNat_shiftLeft 31 (by decide)
    (Field.toNat_shift_mask imm.toUInt32 0x1 12 12 (by decide) rfl) (by omega)
  have hb := Field.toNat_shiftLeft 25 (by decide)
    (Field.toNat_shift_mask imm.toUInt32 0x3F 10 5 (by decide) rfl) (by omega)
  have hc := Field.toNat_shiftLeft 8 (by decide)
    (Field.toNat_shift_mask imm.toUInt32 0xF 4 1 (by decide) rfl) (by omega)
  have hd := Field.toNat_shiftLeft 7 (by decide)
    (Field.toNat_shift_mask imm.toUInt32 0x1 11 11 (by decide) rfl) (by omega)
  have hab := Field.toNat_add 31 ha hb (by omega)
  have hm := Field.toNat_add 25 hab (toNat_middle funct3 rs1 rs2) (by omega)
  have hmc := Field.toNat_add 12 hm hc (by omega)
  have hmcd := Field.toNat_add 8 hmc hd (by omega)
  refine (Field.toNat_add 7 hmcd (toNat_low_zero opcode) (by omega)).trans ?_
  rw [slots]
  omega

theorem toNat_uType (opcode rd : UInt8) :
    (uType opcode rd imm).toNat =
      slots (slice n 31 25) (slice n 24 20) (slice n 19 15) (slice n 14 12) rd.toNat
        opcode.toNat := by
  have hlt : n < 2 ^ 32 := hn ▸ imm.toUInt32.toNat_lt
  have hhigh : (imm.toUInt32 &&& 0xFFFFF000).toNat = 2 ^ 12 * slice n 31 12 := by
    rw [Word.toNat_and_high _ 0xFFFFF000 12 rfl, hn, slice]
    omega
  refine (Field.toNat_add 12 hhigh (toNat_low opcode rd) (by omega)).trans ?_
  have hupper := slice_upper n
  have h25 := slice_lt n 31 25
  have h20 := slice_lt n 24 20
  have h15 := slice_lt n 19 15
  have h12 := slice_lt n 14 12
  rw [slots]
  omega

theorem toNat_jType (opcode rd : UInt8) :
    (jType opcode rd imm).toNat =
      slots (2 ^ 6 * slice n 20 20 + slice n 10 5) (2 * slice n 4 1 + slice n 11 11)
        (slice n 19 15) (slice n 14 12) rd.toNat opcode.toNat := by
  have h20 := slice_lt n 20 20
  have h10 := slice_lt n 10 5
  have h4 := slice_lt n 4 1
  have h11 := slice_lt n 11 11
  have h19 := slice_lt n 19 15
  have h14 := slice_lt n 14 12
  have hlow : slice n 10 1 = 2 ^ 4 * slice n 10 5 + slice n 4 1 := slice_split n 5 (by decide)
  have hmid : slice n 19 12 = 2 ^ 3 * slice n 19 15 + slice n 14 12 := slice_split n 15 (by decide)
  subst hn
  have ha := Field.toNat_shiftLeft 31 (by decide)
    (Field.toNat_shift_mask imm.toUInt32 0x1 20 20 (by decide) rfl) (by omega)
  have hb := Field.toNat_shiftLeft 21 (by decide)
    (Field.toNat_shift_mask imm.toUInt32 0x3FF 10 1 (by decide) rfl) (by omega)
  have hc := Field.toNat_shiftLeft 20 (by decide)
    (Field.toNat_shift_mask imm.toUInt32 0x1 11 11 (by decide) rfl) (by omega)
  have hd := Field.toNat_shiftLeft 12 (by decide)
    (Field.toNat_shift_mask imm.toUInt32 0xFF 19 12 (by decide) rfl) (by omega)
  have hab := Field.toNat_add 31 ha hb (by omega)
  have habc := Field.toNat_add 21 hab hc (by omega)
  have habcd := Field.toNat_add 20 habc hd (by omega)
  refine (Field.toNat_add 12 habcd (toNat_low opcode rd) (by omega)).trans ?_
  rw [slots]
  omega

theorem immI_iType (opcode rd funct3 rs1 : UInt8) :
    Manual.immI (iType opcode rd funct3 rs1 imm).toNat = signed 12 (slice n 11 0) := by
  have h11 := slice_lt n 11 5
  have h4 := slice_lt n 4 0
  rw [toNat_iType hn, Manual.immI, slice_split _ 25 (by decide), slice_slots_funct7,
    slice_slots_rs2, slice_immediate, Nat.mod_eq_of_lt h11, Nat.mod_eq_of_lt h4]

theorem immS_sType (opcode funct3 rs1 rs2 : UInt8) :
    Manual.immS (sType opcode funct3 rs1 rs2 imm).toNat = signed 12 (slice n 11 0) := by
  have h11 := slice_lt n 11 5
  have h4 := slice_lt n 4 0
  rw [toNat_sType hn, Manual.immS, slice_slots_funct7, slice_slots_rd, slice_immediate,
    Nat.mod_eq_of_lt h11, Nat.mod_eq_of_lt h4]

theorem immB_bType (opcode funct3 rs1 rs2 : UInt8) :
    Manual.immB (bType opcode funct3 rs1 rs2 imm).toNat = signed 13 (2 * slice n 12 1) := by
  have h12 := slice_lt n 12 12
  have h10 := slice_lt n 10 5
  have h4 := slice_lt n 4 1
  have h11 := slice_lt n 11 11
  rw [toNat_bType hn]
  generalize hw : slots (2 ^ 6 * slice n 12 12 + slice n 10 5) _ _ _
    (2 * slice n 4 1 + slice n 11 11) _ = w
  have hupper : slice w 31 25 = 2 ^ 6 * slice n 12 12 + slice n 10 5 := by
    rw [← hw, slice_slots_funct7]
    omega
  have hlower : slice w 11 7 = 2 * slice n 4 1 + slice n 11 11 := by
    rw [← hw, slice_slots_rd]
    omega
  rw [slice_funct7] at hupper
  rw [slice_rd] at hlower
  have h30 := slice_lt w 30 25
  have h7 := slice_lt w 7 7
  rw [Manual.immB, slice_branch]
  congr 1
  omega

theorem immU_uType (opcode rd : UInt8) :
    Manual.immU (uType opcode rd imm).toNat = signed 32 (2 ^ 12 * slice n 31 12) := by
  rw [toNat_uType hn, Manual.immU, slice_upper, slice_upper, slice_slots_funct7, slice_slots_rs2,
    slice_slots_rs1, slice_slots_funct3, Nat.mod_eq_of_lt (slice_lt n 31 25),
    Nat.mod_eq_of_lt (slice_lt n 24 20), Nat.mod_eq_of_lt (slice_lt n 19 15),
    Nat.mod_eq_of_lt (slice_lt n 14 12)]

theorem immJ_jType (opcode rd : UInt8) :
    Manual.immJ (jType opcode rd imm).toNat = signed 21 (2 * slice n 20 1) := by
  have h20 := slice_lt n 20 20
  have h10 := slice_lt n 10 5
  have h4 := slice_lt n 4 1
  have h11 := slice_lt n 11 11
  have hlow : slice n 10 1 = 2 ^ 4 * slice n 10 5 + slice n 4 1 := slice_split n 5 (by decide)
  rw [toNat_jType hn]
  generalize hw : slots (2 ^ 6 * slice n 20 20 + slice n 10 5) (2 * slice n 4 1 + slice n 11 11)
    (slice n 19 15) (slice n 14 12) _ _ = w
  have hupper : slice w 31 25 = 2 ^ 6 * slice n 20 20 + slice n 10 5 := by
    rw [← hw, slice_slots_funct7]
    omega
  have hlower : slice w 24 20 = 2 * slice n 4 1 + slice n 11 11 := by
    rw [← hw, slice_slots_rs2]
    omega
  have hmid : slice w 19 12 = slice n 19 12 := by
    rw [slice_split w 15 (by decide), slice_split n 15 (by decide), ← hw, slice_slots_rs1,
      slice_slots_funct3, Nat.mod_eq_of_lt (slice_lt n 19 15), Nat.mod_eq_of_lt (slice_lt n 14 12)]
  have htail : slice w 30 21 = 2 ^ 4 * slice w 30 25 + slice w 24 21 := slice_split w 25 (by decide)
  rw [slice_funct7] at hupper
  rw [slice_rs2] at hlower
  have h30 := slice_lt w 30 25
  have h20' := slice_lt w 20 20
  rw [Manual.immJ, slice_jump]
  congr 1
  omega

end
end Encode
end Rv32i
