import Rv32i.Proofs.Manual

namespace Rv32i.Field

/-- A shift and a mask of ones cut a slice out of a word. -/
theorem toNat_shift_mask (w mask : Word) (hi lo : Nat) (hl : lo < 32)
    (hm : mask.toNat = 2 ^ (hi + 1 - lo) - 1) :
    ((w >>> UInt32.ofNat lo) &&& mask).toNat = slice w.toNat hi lo := by
  have hs : (UInt32.ofNat lo).toNat % 32 = lo := by
    rw [UInt32.toNat_ofNat']
    omega
  rw [UInt32.toNat_and, UInt32.toNat_shiftRight, hs, hm, Nat.and_two_pow_sub_one_eq_mod,
    Nat.shiftRight_eq_div_pow, slice]

theorem toNat_toUInt8 {v : Word} {n : Nat} (hv : v.toNat = n) (hn : n < 256) :
    v.toUInt8.toNat = n := by
  rw [UInt32.toNat_toUInt8, hv]
  exact Nat.mod_eq_of_lt hn

theorem toNat_opcode (w : Word) : (opcode w).toNat = slice w.toNat 6 0 := by
  have hm : (w &&& 0x7F).toNat = w.toNat % 2 ^ 7 := by
    rw [UInt32.toNat_and]
    exact Nat.and_two_pow_sub_one_eq_mod _ 7
  have hs : slice w.toNat 6 0 = w.toNat % 2 ^ 7 := by
    simp only [slice, pow_zero, Nat.div_one, Nat.reduceAdd, Nat.sub_zero]
  rw [hs]
  exact toNat_toUInt8 hm (by omega)

theorem toNat_rd (w : Word) : (rd w).toNat = slice w.toNat 11 7 :=
  toNat_toUInt8 (toNat_shift_mask w 0x1F 11 7 (by decide) rfl)
    (lt_of_lt_of_le (slice_lt w.toNat 11 7) (by decide))

theorem toNat_funct3 (w : Word) : (funct3 w).toNat = slice w.toNat 14 12 :=
  toNat_toUInt8 (toNat_shift_mask w 0x7 14 12 (by decide) rfl)
    (lt_of_lt_of_le (slice_lt w.toNat 14 12) (by decide))

theorem toNat_rs1 (w : Word) : (rs1 w).toNat = slice w.toNat 19 15 :=
  toNat_toUInt8 (toNat_shift_mask w 0x1F 19 15 (by decide) rfl)
    (lt_of_lt_of_le (slice_lt w.toNat 19 15) (by decide))

theorem toNat_rs2 (w : Word) : (rs2 w).toNat = slice w.toNat 24 20 :=
  toNat_toUInt8 (toNat_shift_mask w 0x1F 24 20 (by decide) rfl)
    (lt_of_lt_of_le (slice_lt w.toNat 24 20) (by decide))

theorem toNat_funct7 (w : Word) : (funct7 w).toNat = slice w.toNat 31 25 :=
  toNat_toUInt8 (toNat_shift_mask w 0x7F 31 25 (by decide) rfl)
    (lt_of_lt_of_le (slice_lt w.toNat 31 25) (by decide))

/-- A part of a pattern, moved up to bit `k`. -/
theorem toNat_shiftLeft {v : Word} {n : Nat} (k : Nat) (hk : k < 32) (hv : v.toNat = n)
    (hn : 2 ^ k * n < 2 ^ 32) : (v <<< UInt32.ofNat k).toNat = 2 ^ k * n := by
  have hs : (UInt32.ofNat k).toNat % 32 = k := by
    rw [UInt32.toNat_ofNat']
    omega
  rw [UInt32.toNat_shiftLeft, hs, hv, Nat.shiftLeft_eq, Nat.mul_comm]
  exact Nat.mod_eq_of_lt hn

/-- Parts that do not touch add up: the upper one counts units of 2 ^ k, the lower one is less. -/
theorem toNat_or {v u : Word} {n r : Nat} (k : Nat) (hv : v.toNat = 2 ^ k * n) (hu : u.toNat = r)
    (hr : r < 2 ^ k) : (v ||| u).toNat = 2 ^ k * n + r := by
  rw [UInt32.toNat_or, hv, hu]
  exact (Nat.two_pow_add_eq_or_of_lt hr n).symm

theorem toNat_patternS (w : Word) :
    (patternS w).toNat = 2 ^ 5 * slice w.toNat 31 25 + slice w.toNat 11 7 := by
  have hu : slice w.toNat 31 25 < 2 ^ 7 := slice_lt w.toNat 31 25
  have hl : slice w.toNat 11 7 < 2 ^ 5 := slice_lt w.toNat 11 7
  have upper := toNat_shiftLeft 5 (by decide)
    (toNat_shift_mask w 0x7F 31 25 (by decide) rfl) (by omega)
  have lower := toNat_shift_mask w 0x1F 11 7 (by decide) rfl
  exact toNat_or 5 upper lower hl

theorem toNat_patternB (w : Word) :
    (patternB w).toNat = 2 ^ 12 * slice w.toNat 31 31 + 2 ^ 11 * slice w.toNat 7 7 +
      2 ^ 5 * slice w.toNat 30 25 + 2 * slice w.toNat 11 8 := by
  have ha : slice w.toNat 31 31 < 2 ^ 1 := slice_lt w.toNat 31 31
  have hb : slice w.toNat 7 7 < 2 ^ 1 := slice_lt w.toNat 7 7
  have hc : slice w.toNat 30 25 < 2 ^ 6 := slice_lt w.toNat 30 25
  have hd : slice w.toNat 11 8 < 2 ^ 4 := slice_lt w.toNat 11 8
  have a := toNat_shiftLeft 12 (by decide)
    (toNat_shift_mask w 0x1 31 31 (by decide) rfl) (by omega)
  have b := toNat_shiftLeft 11 (by decide)
    (toNat_shift_mask w 0x1 7 7 (by decide) rfl) (by omega)
  have c := toNat_shiftLeft 5 (by decide)
    (toNat_shift_mask w 0x3F 30 25 (by decide) rfl) (by omega)
  have d := toNat_shiftLeft 1 (by decide)
    (toNat_shift_mask w 0xF 11 8 (by decide) rfl) (by omega)
  have ab := (toNat_or 12 a b (by omega)).trans
    (show _ = 2 ^ 11 * (2 * slice w.toNat 31 31 + slice w.toNat 7 7) by omega)
  have abc := (toNat_or 11 ab c (by omega)).trans
    (show _ = 2 ^ 5 * (2 ^ 6 * (2 * slice w.toNat 31 31 + slice w.toNat 7 7) +
      slice w.toNat 30 25) by omega)
  exact (toNat_or 5 abc d (by omega)).trans (by omega)

theorem toNat_patternJ (w : Word) :
    (patternJ w).toNat = 2 ^ 20 * slice w.toNat 31 31 + 2 ^ 12 * slice w.toNat 19 12 +
      2 ^ 11 * slice w.toNat 20 20 + 2 * slice w.toNat 30 21 := by
  have ha : slice w.toNat 31 31 < 2 ^ 1 := slice_lt w.toNat 31 31
  have hb : slice w.toNat 19 12 < 2 ^ 8 := slice_lt w.toNat 19 12
  have hc : slice w.toNat 20 20 < 2 ^ 1 := slice_lt w.toNat 20 20
  have hd : slice w.toNat 30 21 < 2 ^ 10 := slice_lt w.toNat 30 21
  have a := toNat_shiftLeft 20 (by decide)
    (toNat_shift_mask w 0x1 31 31 (by decide) rfl) (by omega)
  have b := toNat_shiftLeft 12 (by decide)
    (toNat_shift_mask w 0xFF 19 12 (by decide) rfl) (by omega)
  have c := toNat_shiftLeft 11 (by decide)
    (toNat_shift_mask w 0x1 20 20 (by decide) rfl) (by omega)
  have d := toNat_shiftLeft 1 (by decide)
    (toNat_shift_mask w 0x3FF 30 21 (by decide) rfl) (by omega)
  have ab := (toNat_or 20 a b (by omega)).trans
    (show _ = 2 ^ 12 * (2 ^ 8 * slice w.toNat 31 31 + slice w.toNat 19 12) by omega)
  have abc := (toNat_or 12 ab c (by omega)).trans
    (show _ = 2 ^ 11 * (2 * (2 ^ 8 * slice w.toNat 31 31 + slice w.toNat 19 12) +
      slice w.toNat 20 20) by omega)
  exact (toNat_or 11 abc d (by omega)).trans (by omega)

/-- The immediate of layout I needs no pattern of its own: its bits are the top ones. -/
theorem toInt_immI (w : Word) : (immI w).toInt = Manual.immI w.toNat := by
  have hw : w.toNat < 2 ^ 32 := w.toNat_lt
  have hs : slice w.toNat 31 20 = w.toNat / 2 ^ 20 := by
    simp only [slice, Nat.reduceAdd, Nat.reduceSub]
    omega
  have h := Word.toInt_shiftRight w.toInt32 (show 20 < 32 by decide)
  rw [Word.toInt_toInt32] at h
  refine h.trans ?_
  rw [Manual.immI, hs, signed, signed]
  split <;> split <;> omega

theorem toInt_immS (w : Word) : (immS w).toInt = Manual.immS w.toNat := by
  have hu : slice w.toNat 31 25 < 2 ^ 7 := slice_lt w.toNat 31 25
  have hl : slice w.toNat 11 7 < 2 ^ 5 := slice_lt w.toNat 11 7
  rw [immS, Word.toInt_signExtend _ (by decide) (by decide), toNat_patternS, Manual.immS,
    Nat.mod_eq_of_lt (by omega)]

theorem toInt_immB (w : Word) : (immB w).toInt = Manual.immB w.toNat := by
  have ha : slice w.toNat 31 31 < 2 ^ 1 := slice_lt w.toNat 31 31
  have hb : slice w.toNat 7 7 < 2 ^ 1 := slice_lt w.toNat 7 7
  have hc : slice w.toNat 30 25 < 2 ^ 6 := slice_lt w.toNat 30 25
  have hd : slice w.toNat 11 8 < 2 ^ 4 := slice_lt w.toNat 11 8
  rw [immB, Word.toInt_signExtend _ (by decide) (by decide), toNat_patternB, Manual.immB,
    Nat.mod_eq_of_lt (by omega)]

theorem toInt_immJ (w : Word) : (immJ w).toInt = Manual.immJ w.toNat := by
  have ha : slice w.toNat 31 31 < 2 ^ 1 := slice_lt w.toNat 31 31
  have hb : slice w.toNat 19 12 < 2 ^ 8 := slice_lt w.toNat 19 12
  have hc : slice w.toNat 20 20 < 2 ^ 1 := slice_lt w.toNat 20 20
  have hd : slice w.toNat 30 21 < 2 ^ 10 := slice_lt w.toNat 30 21
  rw [immJ, Word.toInt_signExtend _ (by decide) (by decide), toNat_patternJ, Manual.immJ,
    Nat.mod_eq_of_lt (by omega)]

/-- Masking the low twelve bits out leaves the upper twenty in their place. -/
theorem toInt_immU (w : Word) : (immU w).toInt = Manual.immU w.toNat := by
  have hw : w.toNat < 2 ^ 32 := w.toNat_lt
  have hs : slice w.toNat 31 12 = w.toNat / 2 ^ 12 := by
    simp only [slice, Nat.reduceAdd, Nat.reduceSub]
    omega
  rw [immU, Word.toInt_toInt32, Word.toNat_and_high w 0xFFFFF000 12 rfl, Manual.immU, hs]

end Rv32i.Field

namespace Rv32i.Instruction
variable (w : Word)

@[simp] theorem decode_opcode : (decode w).opcode = Field.opcode w := rfl

@[simp] theorem decode_rd : (decode w).rd = Field.rd w := rfl

@[simp] theorem decode_funct3 : (decode w).funct3 = Field.funct3 w := rfl

@[simp] theorem decode_rs1 : (decode w).rs1 = Field.rs1 w := rfl

@[simp] theorem decode_rs2 : (decode w).rs2 = Field.rs2 w := rfl

@[simp] theorem decode_funct7 : (decode w).funct7 = Field.funct7 w := rfl

@[simp] theorem decode_immI : (decode w).immI = Field.immI w := rfl

@[simp] theorem decode_immS : (decode w).immS = Field.immS w := rfl

@[simp] theorem decode_immB : (decode w).immB = Field.immB w := rfl

end Rv32i.Instruction
