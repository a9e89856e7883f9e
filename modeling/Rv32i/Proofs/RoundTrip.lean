import Rv32i.Proofs.Encoding

namespace Rv32i

/-- What the encoders are given. Each layout takes only some of it. -/
structure Operands where
  opcode : UInt8
  rd : UInt8
  funct3 : UInt8
  rs1 : UInt8
  rs2 : UInt8
  funct7 : UInt8
  imm : Int32

namespace Format

def encode (f : Format) (x : Operands) : Word :=
  match f with
  | r => Encode.rType x.opcode x.rd x.funct3 x.rs1 x.rs2 x.funct7
  | i => Encode.iType x.opcode x.rd x.funct3 x.rs1 x.imm
  | s => Encode.sType x.opcode x.funct3 x.rs1 x.rs2 x.imm
  | b => Encode.bType x.opcode x.funct3 x.rs1 x.rs2 x.imm
  | u => Encode.uType x.opcode x.rd x.imm
  | j => Encode.jType x.opcode x.rd x.imm

def hasRd : Format → Bool
  | s | b => false
  | _ => true

/-- The layouts with a first source are those with `funct3`. -/
def hasRs1 : Format → Bool
  | u | j => false
  | _ => true

def hasRs2 : Format → Bool
  | r | s | b => true
  | _ => false

/-- The immediates that a layout can hold. -/
def Takes (f : Format) (imm : Int32) : Prop :=
  match f with
  | r => False
  | i | s => -2 ^ 11 ≤ imm.toInt ∧ imm.toInt < 2 ^ 11
  | b => -2 ^ 12 ≤ imm.toInt ∧ imm.toInt < 2 ^ 12 ∧ 2 ∣ imm.toInt
  | u => 2 ^ 12 ∣ imm.toInt
  | j => -2 ^ 20 ≤ imm.toInt ∧ imm.toInt < 2 ^ 20 ∧ 2 ∣ imm.toInt

/-- Every layout leaves the fields that it has in their places. -/
theorem encode_slots (f : Format) (x : Operands) :
    ∃ a b c d e, (f.encode x).toNat = slots a b c d e x.opcode.toNat ∧
      (f.hasRd = true → e = x.rd.toNat) ∧
      (f.hasRs1 = true → c = x.rs1.toNat ∧ d = x.funct3.toNat) ∧
      (f.hasRs2 = true → b = x.rs2.toNat) ∧ (f = .r → a = x.funct7.toNat) := by
  cases f with
  | r =>
    exact ⟨_, _, _, _, _, Encode.toNat_rType .., fun _ => rfl, fun _ => ⟨rfl, rfl⟩, fun _ => rfl,
      fun _ => rfl⟩
  | i =>
    exact ⟨_, _, _, _, _, Encode.toNat_iType rfl .., fun _ => rfl, fun _ => ⟨rfl, rfl⟩, nofun,
      nofun⟩
  | s =>
    exact ⟨_, _, _, _, _, Encode.toNat_sType rfl .., nofun, fun _ => ⟨rfl, rfl⟩, fun _ => rfl,
      nofun⟩
  | b =>
    exact ⟨_, _, _, _, _, Encode.toNat_bType rfl .., nofun, fun _ => ⟨rfl, rfl⟩, fun _ => rfl,
      nofun⟩
  | u => exact ⟨_, _, _, _, _, Encode.toNat_uType rfl .., fun _ => rfl, nofun, nofun, nofun⟩
  | j => exact ⟨_, _, _, _, _, Encode.toNat_jType rfl .., fun _ => rfl, nofun, nofun, nofun⟩

end Format

namespace Instruction

/-- A word read in a layout that need not be the one of its opcode. -/
def readAs (i : Instruction) (f : Format) : Instruction :=
  { i with format := f }

/-- The operands of a layout stand in their fields, cut to the width of the field. -/
structure HasFields (i : Instruction) (f : Format) (x : Operands) : Prop where
  opcode : i.opcode = x.opcode % 128
  rd : f.hasRd = true → i.rd = x.rd % 32
  funct3 : f.hasRs1 = true → i.funct3 = x.funct3 % 8
  rs1 : f.hasRs1 = true → i.rs1 = x.rs1 % 32
  rs2 : f.hasRs2 = true → i.rs2 = x.rs2 % 32
  funct7 : f = .r → i.funct7 = x.funct7 % 128

/-- And so does what the layout can keep of the immediate: all of it, if it can hold it. -/
structure Carries (i : Instruction) (f : Format) (x : Operands) : Prop extends
    HasFields i f x where
  immI : f = .i → Residue 12 x.imm.toInt i.immI.toInt
  immS : f = .s → Residue 12 x.imm.toInt i.immS.toInt
  immB : f = .b → Residue 13 (clearLow 1 x.imm.toInt) i.immB.toInt ∧ 2 ∣ i.immB.toInt
  immU : f = .u → i.immU.toInt = clearLow 12 x.imm.toInt
  immJ : f = .j → Residue 21 (clearLow 1 x.imm.toInt) i.immJ.toInt ∧ 2 ∣ i.immJ.toInt
  unchanged : f.Takes x.imm → (i.readAs f).imm? = some x.imm

theorem hasFields_encode (f : Format) (x : Operands) : (decode (f.encode x)).HasFields f x := by
  have hmod : ∀ {a b m : UInt8} {n : Nat}, a.toNat = n % m.toNat → n = b.toNat → a = b % m := by
    intro a b m n ha hb
    rw [← UInt8.toNat_inj, UInt8.toNat_mod, ha, hb]
  obtain ⟨a, b, c, d, e, hw, hrd, hrs1, hrs2, hfunct7⟩ := f.encode_slots x
  constructor
  · refine hmod ?_ rfl
    rw [decode_opcode, Field.toNat_opcode, hw]
    exact slice_slots_opcode ..
  · refine fun hf => hmod ?_ (hrd hf)
    rw [decode_rd, Field.toNat_rd, hw]
    exact slice_slots_rd ..
  · refine fun hf => hmod ?_ (hrs1 hf).2
    rw [decode_funct3, Field.toNat_funct3, hw]
    exact slice_slots_funct3 ..
  · refine fun hf => hmod ?_ (hrs1 hf).1
    rw [decode_rs1, Field.toNat_rs1, hw]
    exact slice_slots_rs1 ..
  · refine fun hf => hmod ?_ (hrs2 hf)
    rw [decode_rs2, Field.toNat_rs2, hw]
    exact slice_slots_rs2 ..
  · refine fun hf => hmod ?_ (hfunct7 hf)
    rw [decode_funct7, Field.toNat_funct7, hw]
    exact slice_slots_funct7 ..

end Instruction

namespace Encode
variable (imm : Int32)

theorem immI_residue (opcode rd funct3 rs1 : UInt8) :
    Residue 12 imm.toInt (Field.immI (iType opcode rd funct3 rs1 imm)).toInt := by
  rw [Field.toInt_immI, immI_iType rfl]
  exact Word.low_residue imm 11 (by decide)

theorem immS_residue (opcode funct3 rs1 rs2 : UInt8) :
    Residue 12 imm.toInt (Field.immS (sType opcode funct3 rs1 rs2 imm)).toInt := by
  rw [Field.toInt_immS, immS_sType rfl]
  exact Word.low_residue imm 11 (by decide)

theorem immB_residue (opcode funct3 rs1 rs2 : UInt8) :
    Residue 13 (clearLow 1 imm.toInt) (Field.immB (bType opcode funct3 rs1 rs2 imm)).toInt ∧
      2 ∣ (Field.immB (bType opcode funct3 rs1 rs2 imm)).toInt := by
  rw [Field.toInt_immB, immB_bType rfl]
  exact Word.offset_residue imm 12 (by decide) (by decide)

theorem immU_eq_clearLow (opcode rd : UInt8) :
    (Field.immU (uType opcode rd imm)).toInt = clearLow 12 imm.toInt := by
  have hn : imm.toInt = signed 32 imm.toUInt32.toNat := Word.toInt_toInt32 imm.toUInt32
  have hlt : imm.toUInt32.toNat < 2 ^ 32 := imm.toUInt32.toNat_lt
  rw [Field.toInt_immU, immU_uType rfl, hn, clearLow, slice, signed, signed]
  split <;> split <;> omega

theorem immJ_residue (opcode rd : UInt8) :
    Residue 21 (clearLow 1 imm.toInt) (Field.immJ (jType opcode rd imm)).toInt ∧
      2 ∣ (Field.immJ (jType opcode rd imm)).toInt := by
  rw [Field.toInt_immJ, immJ_jType rfl]
  exact Word.offset_residue imm 20 (by decide) (by decide)

end Encode

namespace Instruction

/-- An immediate that the layout can hold is read back as it was. -/
theorem imm?_encode {f : Format} {x : Operands} (h : f.Takes x.imm) :
    ((decode (f.encode x)).readAs f).imm? = some x.imm := by
  have himm : ∀ {z : Int32}, z.toInt = x.imm.toInt → some z = some x.imm :=
    fun hz => congrArg some (Int32.toInt_inj.mp hz)
  cases f with
  | r => exact h.elim
  | i => exact himm ((Encode.immI_residue ..).unique (by decide) ⟨h.1, h.2, rfl⟩)
  | s => exact himm ((Encode.immS_residue ..).unique (by decide) ⟨h.1, h.2, rfl⟩)
  | b =>
    have hb := (Encode.immB_residue x.imm x.opcode x.funct3 x.rs1 x.rs2).1
    rw [clearLow_of_dvd h.2.2] at hb
    exact himm (hb.unique (by decide) ⟨h.1, h.2.1, rfl⟩)
  | u => exact himm ((Encode.immU_eq_clearLow ..).trans (clearLow_of_dvd h))
  | j =>
    have hj := (Encode.immJ_residue x.imm x.opcode x.rd).1
    rw [clearLow_of_dvd h.2.2] at hj
    exact himm (hj.unique (by decide) ⟨h.1, h.2.1, rfl⟩)

/-- Decoding undoes encoding in every layout, up to what the layout can hold. -/
theorem decode_encode (f : Format) (x : Operands) : (decode (f.encode x)).Carries f x where
  toHasFields := hasFields_encode f x
  immI := by
    rintro rfl
    exact Encode.immI_residue ..
  immS := by
    rintro rfl
    exact Encode.immS_residue ..
  immB := by
    rintro rfl
    exact Encode.immB_residue ..
  immU := by
    rintro rfl
    exact Encode.immU_eq_clearLow ..
  immJ := by
    rintro rfl
    exact Encode.immJ_residue ..
  unchanged := imm?_encode

end Instruction

namespace Encode
variable (w : Word)

theorem rType_fields : rType (Field.opcode w) (Field.rd w) (Field.funct3 w) (Field.rs1 w)
    (Field.rs2 w) (Field.funct7 w) = w := by
  rw [← UInt32.toNat_inj, toNat_rType, Field.toNat_opcode, Field.toNat_rd, Field.toNat_funct3,
    Field.toNat_rs1, Field.toNat_rs2, Field.toNat_funct7, slots_slices]

theorem iType_fields : iType (Field.opcode w) (Field.rd w) (Field.funct3 w) (Field.rs1 w)
    (Field.immI w) = w := by
  generalize hn : (Field.immI w).toUInt32.toNat = n
  have hbits : slice n 11 0 = slice w.toNat 31 20 :=
    Word.slice_of_signed hn (slice_lt _ 31 20) (Field.toInt_immI w) (by decide)
  have hupper : slice n 11 5 = slice w.toNat 31 25 := slice_congr hbits 11 5 (by decide)
  have hlower : slice n 4 0 = slice w.toNat 24 20 := slice_congr hbits 4 0 (by decide)
  rw [← UInt32.toNat_inj, toNat_iType hn, Field.toNat_opcode, Field.toNat_rd, Field.toNat_funct3,
    Field.toNat_rs1, hupper, hlower, slots_slices]

theorem sType_fields : sType (Field.opcode w) (Field.funct3 w) (Field.rs1 w) (Field.rs2 w)
    (Field.immS w) = w := by
  generalize hn : (Field.immS w).toUInt32.toNat = n
  have hu := slice_lt w.toNat 31 25
  have hl := slice_lt w.toNat 11 7
  have hbits : slice n 11 0 = 2 ^ 5 * slice w.toNat 31 25 + slice w.toNat 11 7 :=
    Word.slice_of_signed hn (by omega) (Field.toInt_immS w) (by decide)
  have h4 := slice_lt n 4 0
  rw [slice_immediate] at hbits
  have hupper : slice n 11 5 = slice w.toNat 31 25 := by omega
  have hlower : slice n 4 0 = slice w.toNat 11 7 := by omega
  rw [← UInt32.toNat_inj, toNat_sType hn, Field.toNat_opcode, Field.toNat_funct3,
    Field.toNat_rs1, Field.toNat_rs2, hupper, hlower, slots_slices]

theorem bType_fields : bType (Field.opcode w) (Field.funct3 w) (Field.rs1 w) (Field.rs2 w)
    (Field.immB w) = w := by
  generalize hn : (Field.immB w).toUInt32.toNat = n
  have ha := slice_lt w.toNat 31 31
  have hb := slice_lt w.toNat 7 7
  have hc := slice_lt w.toNat 30 25
  have hd := slice_lt w.toNat 11 8
  have hbits : slice n 12 0 = 2 ^ 12 * slice w.toNat 31 31 + 2 ^ 11 * slice w.toNat 7 7 +
      2 ^ 5 * slice w.toNat 30 25 + 2 * slice w.toNat 11 8 :=
    Word.slice_of_signed hn (by omega) (Field.toInt_immB w) (by decide)
  -- below the four parts, which the word has in another order, there is only a bit that is 0
  have hlowest : slice n 12 0 = 2 * slice n 12 1 + slice n 0 0 := slice_split n 1 (by decide)
  rw [hlowest, slice_branch] at hbits
  have h0 := slice_lt n 0 0
  have h4 := slice_lt n 4 1
  have h10 := slice_lt n 10 5
  have h11 := slice_lt n 11 11
  have hupper : 2 ^ 6 * slice n 12 12 + slice n 10 5 = slice w.toNat 31 25 := by
    rw [slice_funct7 w.toNat]
    omega
  have hlower : 2 * slice n 4 1 + slice n 11 11 = slice w.toNat 11 7 := by
    rw [slice_rd w.toNat]
    omega
  rw [← UInt32.toNat_inj, toNat_bType hn, Field.toNat_opcode, Field.toNat_funct3,
    Field.toNat_rs1, Field.toNat_rs2, hupper, hlower, slots_slices]

theorem uType_fields : uType (Field.opcode w) (Field.rd w) (Field.immU w) = w := by
  generalize hn : (Field.immU w).toUInt32.toNat = n
  have hlt := slice_lt w.toNat 31 12
  have hbits : slice n 31 0 = 2 ^ 12 * slice w.toNat 31 12 :=
    Word.slice_of_signed hn (by omega) (Field.toInt_immU w) (by decide)
  have hsplit : slice n 31 0 = 2 ^ 12 * slice n 31 12 + slice n 11 0 := slice_split n 12 (by decide)
  have hlow := slice_lt n 11 0
  have hsame : slice n 31 12 = slice w.toNat 31 12 := by omega
  have h25 : slice n 31 25 = slice w.toNat 31 25 := slice_congr hsame 19 13 (by decide)
  have h20 : slice n 24 20 = slice w.toNat 24 20 := slice_congr hsame 12 8 (by decide)
  have h15 : slice n 19 15 = slice w.toNat 19 15 := slice_congr hsame 7 3 (by decide)
  have h12 : slice n 14 12 = slice w.toNat 14 12 := slice_congr hsame 2 0 (by decide)
  rw [← UInt32.toNat_inj, toNat_uType hn, Field.toNat_opcode, Field.toNat_rd, h25, h20, h15, h12,
    slots_slices]

theorem jType_fields : jType (Field.opcode w) (Field.rd w) (Field.immJ w) = w := by
  generalize hn : (Field.immJ w).toUInt32.toNat = n
  have ha := slice_lt w.toNat 31 31
  have hb := slice_lt w.toNat 19 12
  have hc := slice_lt w.toNat 20 20
  have hd := slice_lt w.toNat 30 21
  have hbits : slice n 20 0 = 2 ^ 20 * slice w.toNat 31 31 + 2 ^ 12 * slice w.toNat 19 12 +
      2 ^ 11 * slice w.toNat 20 20 + 2 * slice w.toNat 30 21 :=
    Word.slice_of_signed hn (by omega) (Field.toInt_immJ w) (by decide)
  have hlowest : slice n 20 0 = 2 * slice n 20 1 + slice n 0 0 := slice_split n 1 (by decide)
  rw [hlowest, slice_jump] at hbits
  have h0 := slice_lt n 0 0
  have h10 := slice_lt n 10 1
  have h11 := slice_lt n 11 11
  have h19 := slice_lt n 19 12
  have hsign : slice n 20 20 = slice w.toNat 31 31 := by omega
  have hmiddle : slice n 19 12 = slice w.toNat 19 12 := by omega
  have hbit : slice n 11 11 = slice w.toNat 20 20 := by omega
  have hlow : slice n 10 1 = slice w.toNat 30 21 := by omega
  -- two of the parts go over the border between two places of the word
  have h30 : slice n 10 5 = slice w.toNat 30 25 := slice_congr hlow 9 4 (by decide)
  have h24 : slice n 4 1 = slice w.toNat 24 21 := slice_congr hlow 3 0 (by decide)
  have h15 : slice n 19 15 = slice w.toNat 19 15 := slice_congr hmiddle 7 3 (by decide)
  have h12 : slice n 14 12 = slice w.toNat 14 12 := slice_congr hmiddle 2 0 (by decide)
  rw [← UInt32.toNat_inj, toNat_jType hn, Field.toNat_opcode, Field.toNat_rd, hsign, h30, h24, hbit,
    h15, h12, ← slice_funct7, ← slice_rs2, slots_slices]

end Encode

namespace Instruction

/-- The operands of a word in its layout; layout R has no immediate. -/
def operands (i : Instruction) : Operands :=
  ⟨i.opcode, i.rd, i.funct3, i.rs1, i.rs2, i.funct7, i.imm?.getD 0⟩

/-- The word that the layout of `i` makes of the operands. -/
def encode (i : Instruction) : Word :=
  i.format.encode i.operands

/-- No layout loses a bit, whether it is the word's own or another. -/
theorem encode_readAs (w : Word) (f : Format) : ((decode w).readAs f).encode = w := by
  cases f with
  | r => exact Encode.rType_fields w
  | i => exact Encode.iType_fields w
  | s => exact Encode.sType_fields w
  | b => exact Encode.bType_fields w
  | u => exact Encode.uType_fields w
  | j => exact Encode.jType_fields w

/-- Encoding undoes decoding on every word. -/
theorem encode_decode (w : Word) :
    (decode w).encode = w ∧ ∀ f, ((decode w).readAs f).encode = w :=
  ⟨encode_readAs w (decode w).format, encode_readAs w⟩

end Instruction
end Rv32i
