import Mathlib.Data.List.Pairwise
import Rv32i.Table.Base

namespace Rv32i

namespace Instruction

/-- The selectors that pick a word, the most specific first. -/
def selectors (i : Instruction) : List Selector :=
  [.funct7 i.funct3 i.funct7, .funct3 i.funct3, .opcode]

/-- The keys that a word is looked up by, the most specific first. -/
def keys (i : Instruction) : List Key :=
  i.selectors.map (.of i.opcode)

end Instruction

namespace Selector

theorem selects_iff_mem (s : Selector) (i : Instruction) :
    s.selects i = true ↔ s ∈ i.selectors := by
  cases s with
  | opcode => simp [selects, Instruction.selectors]
  | funct3 f3 => simp [selects, Instruction.selectors, eq_comm (a := f3)]
  | funct7 f3 f7 => simp [selects, Instruction.selectors, eq_comm (a := f3), eq_comm (a := f7)]

theorem overlaps_comm (s u : Selector) : s.overlaps u = u.overlaps s := by
  cases s <;> cases u <;> simp [overlaps, Bool.beq_comm]

theorem overlaps_self (s : Selector) : s.overlaps s = true := by
  cases s <;> simp [overlaps]

/-- Selectors that share a word overlap, whatever fields they name. -/
theorem overlaps_of_selects {s u : Selector} {i : Instruction} (hs : s.selects i = true)
    (hu : u.selects i = true) : s.overlaps u = true := by
  cases s <;> cases u <;> simp_all [selects, overlaps]

end Selector

namespace Definition

/-- A word is one of a definition's if it is looked up by the key of the definition. -/
theorem selects_iff_mem (d : Definition) (i : Instruction) :
    d.selects i = true ↔ d.key ∈ i.keys := by
  simp only [selects, Bool.and_eq_true, beq_iff_eq, Selector.selects_iff_mem, Instruction.keys,
    List.mem_map, key, Key.of_inj]
  constructor
  · rintro ⟨hop, hs⟩
    exact ⟨d.selector, hs, hop, rfl⟩
  · rintro ⟨s, hs, hop, rfl⟩
    exact ⟨hop, hs⟩

theorem overlaps_comm (d e : Definition) : d.overlaps e = e.overlaps d := by
  unfold overlaps
  rw [Selector.overlaps_comm, Bool.beq_comm]

instance : Std.Symm fun d e : Definition => d.overlaps e = false :=
  ⟨fun d e h => (overlaps_comm e d).trans h⟩

theorem overlaps_of_key {d e : Definition} (h : d.key = e.key) : d.overlaps e = true := by
  obtain ⟨hop, hs⟩ := Key.of_inj.mp h
  simp [overlaps, hop, hs, Selector.overlaps_self]

theorem overlaps_of_selects {d e : Definition} {i : Instruction} (hd : d.selects i = true)
    (he : e.selects i = true) : d.overlaps e = true := by
  simp only [selects, Bool.and_eq_true, beq_iff_eq] at hd he
  simp only [overlaps, Bool.and_eq_true, beq_iff_eq]
  exact ⟨hd.1.symm.trans he.1, Selector.overlaps_of_selects hd.2 he.2⟩

end Definition

namespace Table

/-- No two entries have a word in common. -/
def Separated (t : Table) : Prop :=
  t.entries.Pairwise fun d e => d.overlaps e = false

theorem empty_separated : empty.Separated :=
  List.Pairwise.nil

/-- Order does not matter for whether the entries have words in common. -/
theorem Separated.perm {t : Table} (ht : t.Separated) {entries : List Definition}
    (hp : entries.Perm t.entries) : (⟨entries⟩ : Table).Separated :=
  List.Pairwise.perm ht hp.symm fun h => (Definition.overlaps_comm _ _).trans h

/-- Everything that an accepted registration says about table and definition. -/
theorem register_ok_iff (t t' : Table) (d : Definition) :
    t.register d = .ok t' ↔ d.hasMajorOpcode = true ∧
      (∀ e ∈ t.entries, e.overlaps d = false) ∧ t' = ⟨t.entries ++ [d]⟩ := by
  unfold register
  split
  · rename_i hm
    split
    · rename_i hf
      have hnone : ∀ e ∈ t.entries, e.overlaps d = false := by
        simpa [List.filter_eq_nil_iff] using hf
      constructor
      · intro h
        cases h
        exact ⟨hm, hnone, rfl⟩
      · rintro ⟨_, _, rfl⟩
        rfl
    · rename_i hf
      constructor
      · intro h
        cases h
      · rintro ⟨_, hnone, _⟩
        exact absurd (by simpa [List.filter_eq_nil_iff] using hnone) hf
  · rename_i hm
    constructor
    · intro h
      cases h
    · rintro ⟨hmajor, _⟩
      exact absurd hmajor hm

/-- One step: an accepted definition shares no word with those before it. -/
theorem Separated.register {t t' : Table} {d : Definition} (ht : t.Separated)
    (h : t.register d = .ok t') : t'.Separated := by
  obtain ⟨_, hnone, rfl⟩ := (register_ok_iff t t' d).mp h
  refine List.pairwise_append.mpr ⟨ht, List.pairwise_singleton _ d, ?_⟩
  intro e he f hf
  rw [List.mem_singleton.mp hf]
  exact hnone e he

theorem Separated.registerAll {t t' : Table} {defs : List Definition} (ht : t.Separated)
    (h : t.registerAll defs = .ok t') : t'.Separated := by
  induction defs generalizing t with
  | nil =>
    cases h
    exact ht
  | cons d defs ih =>
    unfold Table.registerAll at h
    split at h
    · rename_i u hu
      exact ih (ht.register hu) h
    · cases h

theorem base_separated : base.Separated :=
  empty_separated.registerAll registerAll_definitions

/-- Offers definitions one after the other. A refused one leaves the table as it is. -/
def registerEach : Table → List Definition → Table
  | t, [] => t
  | t, d :: defs =>
    match t.register d with
    | .ok t' => registerEach t' defs
    | .error _ => registerEach t defs

/-- An entry was there from the start, or it was offered and accepted at some point. -/
theorem mem_registerEach_iff (t : Table) (defs : List Definition) (e : Definition) :
    e ∈ (t.registerEach defs).entries ↔ e ∈ t.entries ∨
      ∃ front back u, defs = front ++ e :: back ∧ (t.registerEach front).register e = .ok u := by
  induction defs generalizing t with
  | nil => simp [registerEach]
  | cons d defs ih =>
    -- the definition is the one offered first, or one offered after it to what is left then
    have hsplit : (∃ front back u, d :: defs = front ++ e :: back ∧
        (t.registerEach front).register e = .ok u) ↔
        (d = e ∧ ∃ u, t.register e = .ok u) ∨ ∃ front back u, defs = front ++ e :: back ∧
          (t.registerEach (d :: front)).register e = .ok u := by
      constructor
      · rintro ⟨_ | ⟨c, front⟩, back, u, hdefs, hu⟩
        · cases hdefs
          exact .inl ⟨rfl, u, hu⟩
        · cases hdefs
          exact .inr ⟨front, back, u, rfl, hu⟩
      · rintro (⟨rfl, u, hu⟩ | ⟨front, back, u, rfl, hu⟩)
        · exact ⟨[], defs, u, rfl, hu⟩
        · exact ⟨d :: front, back, u, rfl, hu⟩
    rw [hsplit]
    cases hr : t.register d with
    | ok t' =>
      obtain ⟨_, _, rfl⟩ := (register_ok_iff t t' d).mp hr
      simp only [registerEach, hr, ih, List.mem_append, List.mem_singleton, or_assoc]
      refine or_congr_right (or_congr_left ⟨?_, fun h => h.1.symm⟩)
      rintro rfl
      exact ⟨rfl, _, hr⟩
    | error fault =>
      simp only [registerEach, hr, ih]
      refine or_congr_right ⟨.inr, fun h => h.resolve_left ?_⟩
      rintro ⟨rfl, u, hu⟩
      cases hr.symm.trans hu

/-- Whatever is offered, no two entries come to share a word. -/
theorem Separated.registerEach {t : Table} (ht : t.Separated) (defs : List Definition) :
    (t.registerEach defs).Separated := by
  induction defs generalizing t with
  | nil => exact ht
  | cons d defs ih =>
    unfold Table.registerEach
    split
    · rename_i u hu
      exact ih (ht.register hu)
    · exact ih ht

theorem Separated.unique {t : Table} (ht : t.Separated) {d e : Definition} (hd : d ∈ t.entries)
    (he : e ∈ t.entries) (ho : d.overlaps e = true) : d = e := by
  by_contra hne
  have h := List.Pairwise.forall ht hd he hne
  rw [ho] at h
  cases h

/-- An exact key is found wherever its entry stands. -/
theorem Separated.find?_eq_some_iff {t : Table} (ht : t.Separated) (key : Key) (d : Definition) :
    t.find? key = some d ↔ d ∈ t.entries ∧ d.key = key := by
  constructor
  · intro h
    have hk := List.find?_some h
    exact ⟨List.mem_of_find?_eq_some h, beq_iff_eq.mp hk⟩
  · rintro ⟨hd, rfl⟩
    cases h : t.find? d.key with
    | none =>
      have hn := List.find?_eq_none.mp h d hd
      simp at hn
    | some e =>
      have hk := List.find?_some h
      rw [ht.unique (List.mem_of_find?_eq_some h) hd
        (Definition.overlaps_of_key (beq_iff_eq.mp hk))]

/-- Asking for the keys of a word in any order finds the one entry that selects it. -/
theorem Separated.findSome?_eq_some_iff {t : Table} (ht : t.Separated) (i : Instruction)
    {keys : List Key} (hk : ∀ key, key ∈ keys ↔ key ∈ i.keys) (d : Definition) :
    keys.findSome? t.find? = some d ↔ d ∈ t.entries ∧ d.selects i = true := by
  -- whichever key answers first, its entry selects the word, and two such entries are one
  have hsound : ∀ e, keys.findSome? t.find? = some e → e ∈ t.entries ∧ e.selects i = true := by
    intro e h
    obtain ⟨key, hmem, hf⟩ := List.exists_of_findSome?_eq_some h
    obtain ⟨he, rfl⟩ := (ht.find?_eq_some_iff _ _).mp hf
    exact ⟨he, (e.selects_iff_mem i).mpr ((hk _).mp hmem)⟩
  refine ⟨hsound d, ?_⟩
  rintro ⟨hd, hsel⟩
  have hf : t.find? d.key = some d := (ht.find?_eq_some_iff _ _).mpr ⟨hd, rfl⟩
  cases h : keys.findSome? t.find? with
  | none =>
    have hmem := (hk _).mpr ((d.selects_iff_mem i).mp hsel)
    have hnone := List.findSome?_eq_none_iff.mp h _ hmem
    rw [hf] at hnone
    cases hnone
  | some e =>
    obtain ⟨he, hse⟩ := hsound e h
    rw [ht.unique he hd (Definition.overlaps_of_selects hse hsel)]

theorem lookup_eq_findSome? (t : Table) (i : Instruction) :
    t.lookup i = i.keys.findSome? t.find? := by
  unfold lookup Instruction.keys Instruction.selectors
  simp only [List.map_cons, List.map_nil, List.findSome?_cons, List.findSome?_nil]
  cases t.find? (.of i.opcode (.funct7 i.funct3 i.funct7)) <;>
    cases t.find? (.of i.opcode (.funct3 i.funct3)) <;>
      cases t.find? (.of i.opcode .opcode) <;> rfl

theorem Separated.lookup_eq_some_iff {t : Table} (ht : t.Separated) (i : Instruction)
    (d : Definition) : t.lookup i = some d ↔ d ∈ t.entries ∧ d.selects i = true := by
  rw [lookup_eq_findSome?]
  exact ht.findSome?_eq_some_iff i (fun _ => Iff.rfl) d

theorem Separated.lookup_eq_none_iff {t : Table} (ht : t.Separated) (i : Instruction) :
    t.lookup i = none ↔ ∀ d ∈ t.entries, d.selects i = false := by
  rw [Option.eq_none_iff_forall_ne_some]
  simp only [ne_eq, ht.lookup_eq_some_iff, not_and, Bool.not_eq_true]

/-- A scan of all entries finds what the three exact keys find. -/
theorem Separated.scan_eq_some_iff {t : Table} (ht : t.Separated) (i : Instruction)
    (d : Definition) :
    t.entries.find? (·.selects i) = some d ↔ d ∈ t.entries ∧ d.selects i = true := by
  constructor
  · intro h
    have hsel := List.find?_some h
    exact ⟨List.mem_of_find?_eq_some h, hsel⟩
  · rintro ⟨hd, hsel⟩
    cases h : t.entries.find? (·.selects i) with
    | none => exact absurd hsel (List.find?_eq_none.mp h d hd)
    | some e =>
      have hse := List.find?_some h
      rw [ht.unique (List.mem_of_find?_eq_some h) hd (Definition.overlaps_of_selects hse hsel)]

theorem Separated.length_filter_le_one {t : Table} (ht : t.Separated) (i : Instruction) :
    (t.entries.filter (·.selects i)).length ≤ 1 := by
  have hp := ht.filter (·.selects i)
  cases hf : t.entries.filter (·.selects i) with
  | nil => simp
  | cons d rest =>
    cases rest with
    | nil => simp
    | cons e rest =>
      rw [hf] at hp
      have hd : d ∈ t.entries.filter (·.selects i) := by simp [hf]
      have he : e ∈ t.entries.filter (·.selects i) := by simp [hf]
      have hno := List.rel_of_pairwise_cons hp (List.mem_cons_self ..)
      rw [Definition.overlaps_of_selects (List.mem_filter.mp hd).2
        (List.mem_filter.mp he).2] at hno
      cases hno

/-- A table in which every word has one meaning at most, however it is looked up. -/
structure Unambiguous (t : Table) : Prop where
  keys : (t.entries.map Definition.key).Nodup
  atMostOne : ∀ i, (t.entries.filter (·.selects i)).length ≤ 1
  found : ∀ i d, t.lookup i = some d ↔ d ∈ t.entries ∧ d.selects i = true
  missed : ∀ i, t.lookup i = none ↔ ∀ d ∈ t.entries, d.selects i = false
  anyProbes : ∀ (i : Instruction) (probes : List Key), probes.Perm i.keys →
    probes.findSome? t.find? = t.lookup i
  anyOrder : ∀ (i : Instruction) (entries : List Definition), entries.Perm t.entries →
    lookup ⟨entries⟩ i = t.lookup i ∧ entries.find? (·.selects i) = t.lookup i

theorem Separated.unambiguous {t : Table} (ht : t.Separated) : t.Unambiguous where
  keys := by
    refine List.Pairwise.map _ ?_ ht
    intro d e hno hkey
    rw [Definition.overlaps_of_key hkey] at hno
    cases hno
  atMostOne := ht.length_filter_le_one
  found := ht.lookup_eq_some_iff
  missed := ht.lookup_eq_none_iff
  anyProbes := by
    intro i probes hp
    apply Option.ext
    intro d
    rw [ht.findSome?_eq_some_iff i (fun _ => hp.mem_iff), ht.lookup_eq_some_iff]
  anyOrder := by
    intro i entries hp
    have hs := ht.perm hp
    refine ⟨Option.ext fun d => ?_, Option.ext fun d => ?_⟩
    · rw [hs.lookup_eq_some_iff, ht.lookup_eq_some_iff, hp.mem_iff]
    · rw [hs.scan_eq_some_iff, ht.lookup_eq_some_iff, hp.mem_iff]

/-- No history of registrations, accepted or refused, makes a word ambiguous. The entries are those
that were there and those that were accepted, none of which is lost again. -/
theorem registrations_unambiguous (defs : List Definition) :
    (empty.registerEach defs).Unambiguous ∧ (base.registerEach defs).Unambiguous ∧
    ∀ (start : Table) (e : Definition), e ∈ (start.registerEach defs).entries ↔
      e ∈ start.entries ∨ ∃ front back t, defs = front ++ e :: back ∧
        (start.registerEach front).register e = .ok t :=
  ⟨(empty_separated.registerEach defs).unambiguous, (base_separated.registerEach defs).unambiguous,
    fun start e => start.mem_registerEach_iff defs e⟩

end Table
end Rv32i
