import Rv32i.Proofs.Lookup
import Rv32i.Proofs.RoundTrip

namespace Rv32i

namespace Selector

/-- A word has room for the fields that the selector names. -/
def FitsWord : Selector → Prop
  | opcode => True
  | funct3 f3 => f3.toNat < 8
  | funct7 f3 f7 => f3.toNat < 8 ∧ f7.toNat < 128

/-- Selectors that overlap agree on the fields that both name. The values of these fields, and 0 for
a field that neither names, fit into a word if those of the selectors do. -/
theorem exists_fields_of_overlaps {s u : Selector} (hs : s.FitsWord) (hu : u.FitsWord)
    (h : s.overlaps u = true) :
    ∃ f3 f7 : UInt8, f3.toNat < 8 ∧ f7.toNat < 128 ∧
      ∀ i : Instruction, i.funct3 = f3 → i.funct7 = f7 →
        s.selects i = true ∧ u.selects i = true := by
  refine ⟨(s.funct3?.or u.funct3?).getD 0, (s.funct7?.or u.funct7?).getD 0, ?_, ?_, ?_⟩
  · cases s <;> cases u <;> simp_all [FitsWord, funct3?]
  · cases s <;> cases u <;> simp_all [FitsWord, funct7?]
  · intro i h3 h7
    cases s <;> cases u <;> simp_all [selects, overlaps, funct3?, funct7?]

end Selector

theorem Opcode.isSome_ofBits?_iff (b : UInt8) : (ofBits? b).isSome = true ↔ b.toNat % 4 = 3 := by
  have hlow : b &&& 3 = 3 ↔ b.toNat % 4 = 3 := by
    rw [← UInt8.toNat_inj, UInt8.toNat_and]
    exact (Nat.and_two_pow_sub_one_eq_mod b.toNat 2) ▸ Iff.rfl
  have hslot : b.toNat / 4 % 32 < all.length := Nat.mod_lt _ (by decide)
  unfold ofBits?
  by_cases h : b &&& 3 = 3
  · rw [if_pos h, List.getElem?_eq_getElem hslot]
    exact iff_of_true rfl (hlow.mp h)
  · rw [if_neg h]
    exact iff_of_false nofun (mt hlow.mpr h)

namespace Definition

/-- The opcode is one of seven bits whose low two are set. -/
def OpcodeValid (d : Definition) : Prop :=
  d.opcode.toNat ≤ 0x7F ∧ d.opcode.toNat % 4 = 3

/-- Two definitions get in each other's way. -/
def Clashes (d e : Definition) : Prop :=
  d.opcode = e.opcode ∧ d.selector.overlaps e.selector = true

theorem hasMajorOpcode_iff (d : Definition) : d.hasMajorOpcode = true ↔ d.OpcodeValid := by
  unfold hasMajorOpcode OpcodeValid
  rw [Bool.and_eq_true, Opcode.isSome_ofBits?_iff, decide_eq_true_iff, UInt8.le_iff_toNat_le]
  rfl

theorem overlaps_eq_false_iff (d e : Definition) : d.overlaps e = false ↔ ¬ d.Clashes e := by
  unfold overlaps Clashes
  rw [← Bool.not_eq_true, Bool.and_eq_true, beq_iff_eq]

/-- The fields of a selector can be put into a word, so selectors that overlap share one. -/
theorem overlaps_iff_exists_word {d e : Definition} (hop : d.opcode = e.opcode)
    (hvalid : d.OpcodeValid) (hd : d.selector.FitsWord) (he : e.selector.FitsWord) :
    d.selector.overlaps e.selector = true ↔
      ∃ w : Word, d.selects (.decode w) = true ∧ e.selects (.decode w) = true := by
  constructor
  · intro h
    obtain ⟨f3, f7, h3, h7, hsel⟩ := Selector.exists_fields_of_overlaps hd he h
    have hcut : ∀ {a m : UInt8}, a.toNat < m.toNat → a % m = a := by
      intro a m ha
      rw [← UInt8.toNat_inj, UInt8.toNat_mod, Nat.mod_eq_of_lt ha]
    let x : Operands := ⟨d.opcode, 0, f3, 0, 0, f7, 0⟩
    have hx := Instruction.hasFields_encode .r x
    have hopcode : (Instruction.decode (Format.r.encode x)).opcode = d.opcode :=
      hx.opcode.trans (hcut (Nat.lt_succ_of_le hvalid.1))
    have hboth := hsel _ ((hx.funct3 rfl).trans (hcut h3)) ((hx.funct7 rfl).trans (hcut h7))
    refine ⟨Format.r.encode x, ?_, ?_⟩
    · rw [selects, hopcode, hboth.1, beq_self_eq_true, Bool.and_self]
    · rw [selects, hopcode, hop, hboth.2, beq_self_eq_true, Bool.and_self]
  · rintro ⟨w, hw, hw'⟩
    have h := overlaps_of_selects hw hw'
    rw [overlaps, Bool.and_eq_true] at h
    exact h.2

end Definition

namespace Table

theorem registerAll_cons_ok_iff (t u : Table) (d : Definition) (defs : List Definition) :
    t.registerAll (d :: defs) = .ok u ↔
      ∃ t', t.register d = .ok t' ∧ t'.registerAll defs = .ok u := by
  rw [registerAll]
  cases t.register d <;> simp

/-- Everything that decides whether a table takes a list of definitions. -/
theorem registerAll_ok_iff (t u : Table) (defs : List Definition) :
    t.registerAll defs = .ok u ↔ (∀ d ∈ defs, d.hasMajorOpcode = true) ∧
      (defs.Pairwise fun d e => d.overlaps e = false) ∧
      (∀ e ∈ t.entries, ∀ d ∈ defs, e.overlaps d = false) ∧ u = ⟨t.entries ++ defs⟩ := by
  induction defs generalizing t with
  | nil =>
    rw [List.append_nil]
    constructor
    · intro h
      cases h
      exact ⟨nofun, List.Pairwise.nil, fun _ _ => nofun, rfl⟩
    · rintro ⟨_, _, _, rfl⟩
      rfl
  | cons d defs ih =>
    rw [registerAll_cons_ok_iff, List.forall_mem_cons, List.pairwise_cons]
    constructor
    · rintro ⟨t', hd, hrest⟩
      obtain ⟨hmajor, hfree, rfl⟩ := (register_ok_iff t t' d).mp hd
      obtain ⟨hmajors, hpair, hfrees, rfl⟩ := (ih _).mp hrest
      refine ⟨⟨hmajor, hmajors⟩, ⟨?_, hpair⟩, fun e he => ?_, ?_⟩
      · exact hfrees d (List.mem_append_right _ List.mem_cons_self)
      · exact List.forall_mem_cons.mpr ⟨hfree e he, hfrees e (List.mem_append_left _ he)⟩
      · rw [List.append_assoc, List.singleton_append]
    · rintro ⟨⟨hmajor, hmajors⟩, ⟨hd, hpair⟩, hfrees, rfl⟩
      refine ⟨⟨t.entries ++ [d]⟩, (register_ok_iff _ _ _).mpr ⟨hmajor, fun e he => ?_, rfl⟩,
        (ih _).mpr ⟨hmajors, hpair, fun e he => ?_, ?_⟩⟩
      · exact hfrees e he d List.mem_cons_self
      · -- the entries now are the old ones and the definition just taken
        rcases List.mem_append.mp he with he | he
        · exact fun f hf => hfrees e he f (List.mem_cons_of_mem d hf)
        · rw [List.mem_singleton.mp he]
          exact hd
      · rw [List.append_assoc, List.singleton_append]

/-- What the base instruction set can be extended by: definitions with opcodes of 32-bit
instructions that clash neither with each other nor with the base. -/
structure Admissible (defs : List Definition) : Prop where
  opcodes : ∀ d ∈ defs, d.OpcodeValid
  apart : defs.Pairwise fun d e => ¬ d.Clashes e
  base : ∀ e ∈ Base.definitions, ∀ d ∈ defs, ¬ e.Clashes d

theorem extended_ok_iff (defs : List Definition) (t : Table) :
    extended defs = .ok t ↔ Admissible defs ∧ t = ⟨Base.definitions ++ defs⟩ := by
  unfold extended
  rw [registerAll_ok_iff]
  simp only [Definition.hasMajorOpcode_iff, Definition.overlaps_eq_false_iff]
  constructor
  · rintro ⟨hop, hpair, hbase, ht⟩
    exact ⟨⟨hop, hpair, hbase⟩, ht⟩
  · rintro ⟨⟨hop, hpair, hbase⟩, ht⟩
    exact ⟨hop, hpair, hbase, ht⟩

theorem exists_extended_iff (defs : List Definition) :
    (∃ t, extended defs = .ok t) ↔ Admissible defs := by
  simp only [extended_ok_iff, exists_and_left, exists_eq, and_true]

theorem Admissible.perm {defs other : List Definition} (h : Admissible defs)
    (hp : other.Perm defs) : Admissible other where
  opcodes := fun d hd => h.opcodes d (hp.mem_iff.mp hd)
  apart := by
    refine h.apart.perm hp.symm ?_
    intro d e hn hc
    rw [← Definition.overlaps_eq_false_iff] at hn
    exact (Definition.overlaps_eq_false_iff e d).mp ((Definition.overlaps_comm e d).trans hn) hc
  base := fun e he d hd => h.base e he d (hp.mem_iff.mp hd)

theorem extended_size {defs : List Definition} {t : Table} (h : extended defs = .ok t) :
    t.size = 38 + defs.length := by
  obtain ⟨_, rfl⟩ := (extended_ok_iff defs t).mp h
  rw [size, List.length_append]
  rfl

theorem extended_lookup_perm {defs other : List Definition} {t u : Table} (hp : other.Perm defs)
    (ht : extended defs = .ok t) (hu : extended other = .ok u) (i : Instruction) :
    t.lookup i = u.lookup i := by
  have hsep : t.Separated := base_separated.registerAll ht
  obtain ⟨_, rfl⟩ := (extended_ok_iff defs t).mp ht
  obtain ⟨_, rfl⟩ := (extended_ok_iff other u).mp hu
  exact ((hsep.unambiguous.anyOrder i _ (hp.append_left _)).1).symm

/-- Whether definitions can be added to the base, and what the words then mean, has nothing to do
with their order. It depends on their opcodes and on which of them clash, and where the fields fit
into a word, to clash is to share a word. -/
theorem extension_ignores_order (defs : List Definition) :
    ((∃ t, extended defs = .ok t) ↔
      (∀ d ∈ defs, d.opcode.toNat ≤ 0x7F ∧ d.opcode.toNat % 4 = 3) ∧
      (defs.Pairwise fun d e =>
        ¬ (d.opcode = e.opcode ∧ d.selector.overlaps e.selector = true)) ∧
      (∀ e ∈ Base.definitions, ∀ d ∈ defs,
        ¬ (e.opcode = d.opcode ∧ e.selector.overlaps d.selector = true))) ∧
    (∀ other : List Definition, other.Perm defs →
      ((∃ t, extended defs = .ok t) ↔ ∃ u, extended other = .ok u) ∧
      ∀ t u, extended defs = .ok t → extended other = .ok u →
        t.size = 38 + defs.length ∧ u.size = 38 + defs.length ∧
        ∀ w : Word, t.lookup (.decode w) = u.lookup (.decode w)) ∧
    (∀ d e : Definition, d.opcode = e.opcode →
      d.opcode.toNat ≤ 0x7F ∧ d.opcode.toNat % 4 = 3 →
      d.selector.FitsWord → e.selector.FitsWord →
        (d.selector.overlaps e.selector = true ↔
          ∃ w : Word, d.selects (.decode w) = true ∧ e.selects (.decode w) = true)) := by
  refine ⟨?_, ?_, ?_⟩
  · rw [exists_extended_iff]
    exact ⟨fun h => ⟨h.opcodes, h.apart, h.base⟩, fun ⟨hop, hpair, hbase⟩ => ⟨hop, hpair, hbase⟩⟩
  · intro other hp
    rw [exists_extended_iff, exists_extended_iff]
    refine ⟨⟨fun h => h.perm hp, fun h => h.perm hp.symm⟩, fun t u ht hu => ?_⟩
    refine ⟨extended_size ht, ?_, fun w => extended_lookup_perm hp ht hu _⟩
    rw [extended_size hu, hp.length_eq]
  · intro d e hop hvalid hd he
    exact Definition.overlaps_iff_exists_word hop hvalid hd he

/-- A multiplication and an instruction of one's own, in both orders. The multiplication shares its
opcode with ten base instructions, and its words are found among theirs in both tables. -/
theorem extension_ignores_order_mul :
    let mul : Definition := ⟨"mul", Opcode.op.bits, .funct7 0 1, Base.register (· * ·)⟩
    let own : Definition := ⟨"own", Opcode.custom1.bits, .opcode, Base.lui⟩
    ∃ t u, extended [mul, own] = .ok t ∧ extended [own, mul] = .ok u ∧ t.size = 40 ∧
      t.lookup (.decode 0x023100B3) = some mul ∧ u.lookup (.decode 0x023100B3) = some mul ∧
      ∀ w : Word, t.lookup (.decode w) = u.lookup (.decode w) := by
  have ht : ∃ t, extended [⟨"mul", Opcode.op.bits, .funct7 0 1, Base.register (· * ·)⟩,
      ⟨"own", Opcode.custom1.bits, .opcode, Base.lui⟩] = .ok t := ⟨_, rfl⟩
  intro mul own
  obtain ⟨_, horder, _⟩ := extension_ignores_order [mul, own]
  obtain ⟨hboth, hsame⟩ := horder [own, mul] (.swap mul own [])
  obtain ⟨t, ht⟩ := ht
  obtain ⟨u, hu⟩ := hboth.mp ⟨t, ht⟩
  obtain ⟨hsize, _, hlookup⟩ := hsame t u ht hu
  have hmul : t.lookup (.decode 0x023100B3) = some mul := by
    rw [(base_separated.registerAll ht).lookup_eq_some_iff]
    obtain ⟨_, rfl⟩ := (extended_ok_iff _ _).mp ht
    exact ⟨List.mem_append_right _ List.mem_cons_self, by decide⟩
  exact ⟨t, u, ht, hu, hsize, hmul, (hlookup _).symm.trans hmul, hlookup⟩

end Table
end Rv32i
