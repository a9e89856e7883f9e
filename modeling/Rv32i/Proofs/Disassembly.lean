import Mathlib.Data.List.Nodup
import Rv32i.Proofs.Assembler
import Rv32i.Proofs.HexText
import Rv32i.Table.Disassembly

namespace Rv32i

namespace Text

/-- Texts that are equal are cut by a character at the same place. -/
theorem append_cons_inj {c : Char} {front front' back back' : List Char} (hc : c ∉ front)
    (hc' : c ∉ front') (h : front ++ c :: back = front' ++ c :: back') :
    front = front' ∧ back = back' := by
  induction front generalizing front' with
  | nil =>
    cases front' with
    | nil => exact ⟨rfl, (List.cons.inj h).2⟩
    | cons b front' =>
      obtain ⟨rfl, -⟩ := List.cons.inj h
      exact absurd List.mem_cons_self hc'
  | cons a front ih =>
    cases front' with
    | nil =>
      obtain ⟨rfl, -⟩ := List.cons.inj h
      exact absurd List.mem_cons_self hc
    | cons b front' =>
      obtain ⟨rfl, hrest⟩ := List.cons.inj h
      obtain ⟨rfl, rfl⟩ :=
        ih (List.not_mem_of_not_mem_cons hc) (List.not_mem_of_not_mem_cons hc') hrest
      exact ⟨rfl, rfl⟩

/-- Parts without the character that opens the gaps between them can be told from the whole. -/
theorem intercalate_inj {c : Char} {gap : List Char} {parts parts' : List (List Char)}
    (hne : parts ≠ []) (hne' : parts' ≠ []) (hc : ∀ p ∈ parts, c ∉ p) (hc' : ∀ p ∈ parts', c ∉ p)
    (h : (c :: gap).intercalate parts = (c :: gap).intercalate parts') : parts = parts' := by
  induction parts generalizing parts' with
  | nil => exact absurd rfl hne
  | cons p ps ih =>
    cases parts' with
    | nil => exact absurd rfl hne'
    | cons p' ps' =>
      obtain ⟨hp, hps⟩ := List.forall_mem_cons.mp hc
      obtain ⟨hp', hps'⟩ := List.forall_mem_cons.mp hc'
      cases ps with
      | nil =>
        cases ps' with
        | nil => simpa using h
        | cons q' qs' =>
          rw [List.intercalate_singleton, List.intercalate_cons_cons] at h
          exact absurd (by simp [h]) hp
      | cons q qs =>
        cases ps' with
        | nil =>
          rw [List.intercalate_singleton, List.intercalate_cons_cons] at h
          exact absurd (by simp [← h]) hp'
        | cons q' qs' =>
          simp only [List.intercalate_cons_cons, List.append_assoc, List.cons_append] at h
          obtain ⟨rfl, hrest⟩ := append_cons_inj hp hp' h
          have hsame : q :: qs = q' :: qs' :=
            ih (by simp) (by simp) hps hps' (List.append_cancel_left hrest)
          rw [hsame]

theorem toList_decimal (n : Nat) : (decimal n).toList = Nat.toDigits 10 n := by
  simp [decimal, digits]

theorem isDigit_of_mem_decimal {n : Nat} {c : Char} (h : c ∈ (decimal n).toList) :
    c.isDigit = true := by
  rw [toList_decimal] at h
  exact Nat.isDigit_of_mem_toDigits (by decide) (by decide) h

theorem decimal_injective : Function.Injective decimal := by
  intro n m h
  have hdigits : Nat.toDigits 10 n = Nat.toDigits 10 m := by
    rw [← toList_decimal, ← toList_decimal, h]
  calc n = Nat.ofDigitChars 10 (Nat.toDigits 10 n) 0 := Nat.ofDigitChars_ten_toDigits.symm
    _ = Nat.ofDigitChars 10 (Nat.toDigits 10 m) 0 := by rw [hdigits]
    _ = m := Nat.ofDigitChars_ten_toDigits

/-- A minus sign is no digit, so it tells the negative numbers from the others. -/
theorem signed_injective : Function.Injective signed := by
  have hsign : ∀ n m, "-" ++ decimal n ≠ decimal m := by
    intro n m h
    have hmem : '-' ∈ (decimal m).toList := by
      rw [← h]
      simp
    exact absurd (isDigit_of_mem_decimal hmem) (by decide)
  intro i j h
  unfold signed at h
  split at h
  · split at h
    · have hsame : decimal i.natAbs = decimal j.natAbs := by
        simpa [String.toList_inj] using congrArg String.toList h
      have habs := decimal_injective hsame
      omega
    · exact absurd h (hsign _ _)
  · split at h
    · exact absurd h.symm (hsign _ _)
    · have habs := decimal_injective h
      omega

theorem hex_injective : Function.Injective (hex 0) := by
  intro n m h
  have hdigits : Nat.toDigits 16 n = Nat.toDigits 16 m := by
    simpa [hex, digits] using congrArg String.toList h
  obtain ⟨ds, hds, hn⟩ := hexDigits_toDigits n
  obtain ⟨ds', hds', hm⟩ := hexDigits_toDigits m
  have hunique : Relator.RightUnique HexDigit := fun c d e hd he =>
    Option.some.inj (hd.digit?.symm.trans he.digit?)
  rw [hdigits] at hds
  rw [← hn, ← hm, List.right_unique_forall₂' hunique hds hds']

theorem immediate_injective : Function.Injective immediate :=
  fun _ _ h => Int32.toInt_inj.mp (signed_injective h)

/-- A character that no number in decimal has. -/
theorem not_mem_decimal {c : Char} (hc : c.isDigit = false) (n : Nat) : c ∉ (decimal n).toList :=
  fun h => Bool.false_ne_true (hc.symm.trans (isDigit_of_mem_decimal h))

theorem not_mem_immediate {c : Char} (hc : c.isDigit = false) (hm : c ≠ '-') (imm : Int32) :
    c ∉ (immediate imm).toList := by
  have hdigits := not_mem_decimal hc imm.toInt.natAbs
  unfold immediate signed
  split
  · simp [hdigits, hm]
  · exact hdigits

theorem comma_not_mem_hex (n : Nat) : ',' ∉ (hex 0 n).toList := by
  obtain ⟨ds, hds, -⟩ := hexDigits_toDigits n
  have hdigits : ',' ∉ Nat.toDigits 16 n := fun h =>
    absurd (Program.digits_plain hds _ h).1 (by decide)
  simp [hex, digits, hdigits]

end Text

namespace Instruction

theorem register_injective : Function.Injective register := by
  intro r r' h
  have hsame : Text.decimal r.toNat = Text.decimal r'.toNat := by
    simpa [register, String.toList_inj] using congrArg String.toList h
  exact UInt8.toNat_inj.mp (Text.decimal_injective hsame)

theorem comma_not_mem_register (r : UInt8) : ',' ∉ (register r).toList := by
  simp [register, Text.not_mem_decimal]

/-- An address in text, as offset and base. -/
def place (offset : Int32) (base : UInt8) : String :=
  Text.immediate offset ++ "(" ++ register base ++ ")"

theorem toList_place (offset : Int32) (base : UInt8) : (place offset base).toList =
    (Text.immediate offset).toList ++ '(' :: ((register base).toList ++ [')']) := by
  simp [place]

theorem place_inj {offset offset' : Int32} {base base' : UInt8}
    (h : place offset base = place offset' base') : offset = offset' ∧ base = base' := by
  have hlist := congrArg String.toList h
  rw [toList_place, toList_place] at hlist
  obtain ⟨hoffset, hbase⟩ := Text.append_cons_inj
    (Text.not_mem_immediate (by decide) (by decide) offset)
    (Text.not_mem_immediate (by decide) (by decide) offset') hlist
  exact ⟨Text.immediate_injective (String.toList_inj.mp hoffset),
    register_injective (String.toList_inj.mp (List.append_cancel_right hbase))⟩

theorem comma_not_mem_place (offset : Int32) (base : UInt8) :
    ',' ∉ (place offset base).toList := by
  simp [toList_place, Text.not_mem_immediate, comma_not_mem_register]

end Instruction

namespace Definition
open Instruction

/-- The operands that the text of a word shows behind its name, if it is not a fence. -/
def shown (d : Definition) (i : Instruction) : List String :=
  match i.format with
  | .r => [register i.rd, register i.rs1, register i.rs2]
  | .i =>
    if i.opcode = Opcode.load.bits ∨ i.opcode = Opcode.jalr.bits then
      [register i.rd, place i.immI i.rs1]
    else if d.selector.funct7?.isSome then
      [register i.rd, register i.rs1, Text.decimal i.shamt.toNat]
    else [register i.rd, register i.rs1, Text.immediate i.immI]
  | .s => [register i.rs2, place i.immS i.rs1]
  | .b => [register i.rs1, register i.rs2, Text.immediate i.immB]
  | .u => [register i.rd, Text.hex 0 (i.immU.toUInt32 >>> 12).toNat]
  | .j => [register i.rd, Text.immediate i.immJ]

variable {d d' : Definition} {i i' : Instruction}

theorem assembly_of_shown (h : i.opcode ≠ Opcode.miscMem.bits) :
    d.assembly i = d.name ++ " " ++ String.intercalate ", " (d.shown i) := by
  unfold assembly shown
  cases i.format with
  | i =>
    simp only [if_neg h]
    split
    · rfl
    · split <;> rfl
  | _ => rfl

theorem assembly_of_fence (hf : i.format = .i) (h : i.opcode = Opcode.miscMem.bits) :
    d.assembly i = d.name := by
  simp only [assembly, hf, if_pos h]

theorem shown_ne_nil : d.shown i ≠ [] := by
  unfold shown
  repeat' split
  all_goals simp

/-- The gaps between operands start with a comma, and no operand has one. -/
theorem comma_not_mem_shown : ∀ p ∈ d.shown i, ',' ∉ p.toList := by
  unfold shown
  repeat' split
  all_goals
    simp [comma_not_mem_register, comma_not_mem_place, Text.comma_not_mem_hex,
      Text.not_mem_decimal, Text.not_mem_immediate]

theorem toList_assembly (h : i.opcode ≠ Opcode.miscMem.bits) : (d.assembly i).toList =
    d.name.toList ++ ' ' :: [',', ' '].intercalate ((d.shown i).map String.toList) := by
  rw [assembly_of_shown h]
  simp [String.toList_intercalate]

/-- Names have no blank, so a text is cut into name and operands in one way only. -/
theorem assembly_inj (hname : ' ' ∉ d.name.toList) (hname' : ' ' ∉ d'.name.toList)
    (hop : i.opcode ≠ Opcode.miscMem.bits) (hop' : i'.opcode ≠ Opcode.miscMem.bits)
    (h : d.assembly i = d'.assembly i') : d.name = d'.name ∧ d.shown i = d'.shown i' := by
  have hlist := congrArg String.toList h
  rw [toList_assembly hop, toList_assembly hop'] at hlist
  obtain ⟨hn, hparts⟩ := Text.append_cons_inj hname hname' hlist
  have hmap := Text.intercalate_inj (by simp [shown_ne_nil]) (by simp [shown_ne_nil])
    (List.forall_mem_map.mpr comma_not_mem_shown) (List.forall_mem_map.mpr comma_not_mem_shown)
    hparts
  exact ⟨String.toList_inj.mp hn,
    List.map_injective_iff.mpr (fun _ _ => String.toList_inj.mp) hmap⟩

end Definition

/-- The upper twenty bits are the whole of an upper immediate. -/
theorem Field.immU_of_shifted {w w' : Word}
    (h : ((immU w).toUInt32 >>> 12).toNat = ((immU w').toUInt32 >>> 12).toNat) :
    immU w = immU w' := by
  have hhigh : ∀ v : Word, (v &&& 0xFFFFF000).toNat = 2 ^ 12 * (v.toNat / 2 ^ 12) := fun v =>
    Word.toNat_and_high v 0xFFFFF000 12 rfl
  have hsame : (w &&& 0xFFFFF000).toNat = (w' &&& 0xFFFFF000).toNat := by
    simp only [immU, UInt32.toUInt32_toInt32, UInt32.toNat_shiftRight, UInt32.reduceToNat, hhigh,
      Nat.shiftRight_eq_div_pow, Nat.reduceMod, Nat.mul_div_cancel_left _ (Nat.two_pow_pos 12)]
      at h ⊢
    rw [h]
  exact congrArg UInt32.toInt32 (UInt32.toNat_inj.mp hsame)

namespace Base

theorem names_nodup : (definitions.map Definition.name).Nodup := by
  decide

theorem blank_not_mem_name : ∀ d ∈ definitions, ' ' ∉ d.name.toList := by
  decide

theorem name_of_miscMem : ∀ d ∈ definitions, d.opcode = Opcode.miscMem.bits → d.name = "fence" := by
  decide

/-- Where `funct7` picks a word, the text shows three registers or a shift amount. -/
theorem layout_of_funct7 : ∀ d ∈ definitions, d.selector.funct7?.isSome = true →
    Instruction.formatOf d.opcode = .r ∨ d.opcode = Opcode.opImm.bits := by
  decide

end Base

namespace Assembler

/-- A mnemonic needs no more of a word than the text shows. -/
theorem Spells.reassemble_congr {h : Helper} {d : Definition} {w w' : Word}
    (hs : Spells h d.opcode d.selector) (hd : d ∈ Base.definitions) (hc : h.isConstant = false)
    (hop : (Instruction.decode w).opcode = d.opcode)
    (hop' : (Instruction.decode w').opcode = d.opcode)
    (hshown : d.shown (.decode w) = d.shown (.decode w')) :
    h.reassemble (.decode w) = h.reassemble (.decode w') := by
  have hlayout := Base.layout_of_funct7 d hd
  obtain ⟨name, opcode, selector, action⟩ := d
  have hformat : (Instruction.decode w).format = Instruction.formatOf opcode :=
    congrArg Instruction.formatOf hop
  have hformat' : (Instruction.decode w').format = Instruction.formatOf opcode :=
    congrArg Instruction.formatOf hop'
  unfold Definition.shown at hshown
  unfold Helper.reassemble Instruction.imm?
  rw [hformat, hformat'] at hshown ⊢
  cases hs with
  | constant => cases hc
  | upper hf =>
    -- the low twelve bits, which the text leaves out, are 0 in every upper immediate
    rw [hf] at hshown ⊢
    simp only [List.cons.injEq, and_true] at hshown
    have hrd := Instruction.register_injective hshown.1
    have himm := Field.immU_of_shifted (Text.hex_injective hshown.2)
    rw [hrd]
    exact congrArg (fun imm => some (Encode.uType _ _ imm)) himm
  | jump hf =>
    rw [hf] at hshown ⊢
    simp only [List.cons.injEq, and_true] at hshown
    rw [Instruction.register_injective hshown.1, Text.immediate_injective hshown.2]
  | immediate hf =>
    rw [hf] at hshown ⊢
    simp only [hop, hop', Selector.funct7?, Option.isSome_none, Bool.false_eq_true, if_false]
      at hshown
    split at hshown
    · simp only [List.cons.injEq, and_true] at hshown
      obtain ⟨himm, hrs1⟩ := Instruction.place_inj hshown.2
      rw [Instruction.register_injective hshown.1, himm, hrs1]
    · simp only [List.cons.injEq, and_true] at hshown
      rw [Instruction.register_injective hshown.1, Instruction.register_injective hshown.2.1,
        Text.immediate_injective hshown.2.2]
  | store hf =>
    rw [hf] at hshown ⊢
    simp only [List.cons.injEq, and_true] at hshown
    obtain ⟨himm, hrs1⟩ := Instruction.place_inj hshown.2
    rw [Instruction.register_injective hshown.1, himm, hrs1]
  | branch hf =>
    rw [hf] at hshown ⊢
    simp only [List.cons.injEq, and_true] at hshown
    rw [Instruction.register_injective hshown.1, Instruction.register_injective hshown.2.1,
      Text.immediate_injective hshown.2.2]
  | three =>
    rcases hlayout rfl with hf | rfl
    · rw [hf] at hshown ⊢
      simp only [List.cons.injEq, and_true] at hshown
      rw [Instruction.register_injective hshown.1, Instruction.register_injective hshown.2.1,
        Instruction.register_injective hshown.2.2]
    · -- a shift by an amount, which stands where the second source does
      have hf : Instruction.formatOf Opcode.opImm.bits = .i := rfl
      have hplace : ¬ (Opcode.opImm.bits = Opcode.load.bits ∨
          Opcode.opImm.bits = Opcode.jalr.bits) := by decide
      rw [hf] at hshown ⊢
      simp only [hop, hop', if_neg hplace, Selector.funct7?, Option.isSome_some, if_true,
        List.cons.injEq, and_true] at hshown
      rw [Instruction.register_injective hshown.1, Instruction.register_injective hshown.2.1,
        UInt8.toNat_inj.mp (Text.decimal_injective hshown.2.2)]

variable {w w' : Word} {d d' : Definition}

theorem assembly_of_lookup_fence (hl : Table.base.lookup (.decode w) = some d)
    (hfence : d.name = "fence") : d.assembly (.decode w) = "fence" := by
  have hop : (Instruction.decode w).opcode = Opcode.miscMem.bits :=
    (isFence_iff_lookup.mpr ⟨d, hl, hfence⟩).1
  have hf : (Instruction.decode w).format = .i := congrArg Instruction.formatOf hop
  rw [Definition.assembly_of_fence hf hop, hfence]

theorem opcode_ne_of_lookup (hl : Table.base.lookup (.decode w) = some d)
    (hfence : d.name ≠ "fence") : (Instruction.decode w).opcode ≠ Opcode.miscMem.bits := by
  obtain ⟨hd, hsel⟩ := (Table.base_separated.lookup_eq_some_iff _ _).mp hl
  rw [Definition.selects, Bool.and_eq_true, beq_iff_eq] at hsel
  exact fun hop => hfence (Base.name_of_miscMem d hd (hsel.1.symm.trans hop))

/-- Only fences show no operands. -/
theorem fence_of_assembly (hl : Table.base.lookup (.decode w) = some d)
    (h : d.assembly (.decode w) = "fence") : d.name = "fence" := by
  by_contra hfence
  have hblank : ' ' ∈ (d.assembly (.decode w)).toList := by
    rw [Definition.toList_assembly (opcode_ne_of_lookup hl hfence)]
    simp
  rw [h] at hblank
  exact absurd hblank (by decide)

/-- The text of a word that is not a fence tells the word. -/
theorem word_of_assembly (hl : Table.base.lookup (.decode w) = some d)
    (hl' : Table.base.lookup (.decode w') = some d') (hfence : d.name ≠ "fence")
    (hfence' : d'.name ≠ "fence") (h : d.assembly (.decode w) = d'.assembly (.decode w')) :
    w = w' := by
  obtain ⟨hd, hsel⟩ := (Table.base_separated.lookup_eq_some_iff _ _).mp hl
  obtain ⟨hd', hsel'⟩ := (Table.base_separated.lookup_eq_some_iff _ _).mp hl'
  obtain ⟨hname, hshown⟩ := Definition.assembly_inj (Base.blank_not_mem_name d hd)
    (Base.blank_not_mem_name d' hd') (opcode_ne_of_lookup hl hfence)
    (opcode_ne_of_lookup hl' hfence') h
  obtain rfl : d = d' := List.inj_on_of_nodup_map Base.names_nodup hd hd' hname
  obtain ⟨⟨name, m⟩, hm, rfl, hs⟩ := exists_of_forall₂ helpers_spell.flip hd
  have hc : m.isConstant = false := by
    rw [← Bool.not_eq_true]
    exact fun hc => hfence (fence_of_isConstant _ hm hc)
  rw [Definition.selects, Bool.and_eq_true, beq_iff_eq] at hsel hsel'
  -- the mnemonic makes both words out of what their text shows
  apply Option.some.inj
  calc some w = m.reassemble (.decode w) := (hs.reassemble hc hsel.1 hsel.2).symm
    _ = m.reassemble (.decode w') := hs.reassemble_congr hd hc hsel.1 hsel'.1 hshown
    _ = some w' := hs.reassemble hc hsel'.1 hsel'.2

end Assembler

namespace Table

/-- Disassembly loses nothing but the operands of fences: words have the same text if and only if
they are the same word or both are fences. -/
theorem disassembly_lossless {w w' : Word} {text text' : String}
    (h : base.disassemble (.decode w) = some text)
    (h' : base.disassemble (.decode w') = some text') :
    text = text' ↔ w = w' ∨ Assembler.IsFence w ∧ Assembler.IsFence w' := by
  obtain ⟨d, hl, rfl⟩ := Option.map_eq_some_iff.mp h
  obtain ⟨d', hl', rfl⟩ := Option.map_eq_some_iff.mp h'
  constructor
  · intro htext
    by_cases hfence : d.name = "fence"
    · have hfence' : d'.name = "fence" := Assembler.fence_of_assembly hl'
        (htext.symm.trans (Assembler.assembly_of_lookup_fence hl hfence))
      exact .inr ⟨Assembler.isFence_iff_lookup.mpr ⟨d, hl, hfence⟩,
        Assembler.isFence_iff_lookup.mpr ⟨d', hl', hfence'⟩⟩
    · have hfence' : d'.name ≠ "fence" := fun hn => hfence (Assembler.fence_of_assembly hl
        (htext.trans (Assembler.assembly_of_lookup_fence hl' hn)))
      exact .inl (Assembler.word_of_assembly hl hl' hfence hfence' htext)
  · rintro (rfl | ⟨hfence, hfence'⟩)
    · exact Option.some.inj (h.symm.trans h')
    · obtain ⟨e, he, hname⟩ := Assembler.isFence_iff_lookup.mp hfence
      obtain ⟨e', he', hname'⟩ := Assembler.isFence_iff_lookup.mp hfence'
      cases hl.symm.trans he
      cases hl'.symm.trans he'
      rw [Assembler.assembly_of_lookup_fence hl hname,
        Assembler.assembly_of_lookup_fence hl' hname']

/-- A fence of everything and one of nothing, and two shifts that differ in one bit. -/
theorem disassembly_lossless_fences :
    (base.disassemble (.decode 0x0FF0000F) = some "fence" ∧
      base.disassemble (.decode 0x0000000F) = some "fence" ∧
      Assembler.IsFence 0x0FF0000F ∧ Assembler.IsFence 0x0000000F) ∧
    base.disassemble (.decode 0x00115093) = some "srli x1, x2, 1" ∧
      base.disassemble (.decode 0x40115093) = some "srai x1, x2, 1" ∧
      (0x00115093 : Word) ≠ 0x40115093 := by
  have hall : base.disassemble (.decode 0x0FF0000F) = some "fence" := by decide
  have hnone : base.disassemble (.decode 0x0000000F) = some "fence" := by decide
  have hlogical : base.disassemble (.decode 0x00115093) = some "srli x1, x2, 1" := by decide
  have harithmetic : base.disassemble (.decode 0x40115093) = some "srai x1, x2, 1" := by decide
  refine ⟨⟨hall, hnone, ?_⟩, hlogical, harithmetic, ?_⟩
  · exact ((disassembly_lossless hall hnone).mp rfl).resolve_left (by decide)
  · intro hsame
    exact absurd ((disassembly_lossless hlogical harithmetic).mpr (.inl hsame)) (by decide)

end Table
end Rv32i
