import Rv32i.Proofs.Placement

namespace Rv32i

namespace Region

/-- The end of the region takes more than 64 bits. -/
def Overflows (r : Region) : Prop :=
  2 ^ 64 ≤ r.base.toNat + r.size.toNat

theorem check_of_overflows {r : Region} (h : r.Overflows) : r.check = .error .overflow := by
  have h0 : r.size ≠ 0 := by
    intro h0
    have hb : r.base.toNat < 2 ^ 32 := r.base.toNat_lt
    rw [Overflows, h0, UInt64.toNat_zero] at h
    omega
  unfold check
  rw [if_neg h0]
  exact if_pos h

/-- What is wrong with a region is found out, unless the program aborts over its end. -/
theorem check_eq_error_iff (r : Region) (e : RegionError) :
    r.check = .error e ↔
      r.Overflows ∧ e = .overflow ∨ ¬ r.Overflows ∧ ¬ r.Valid ∧ e = r.fault := by
  by_cases ho : r.Overflows
  · simp [check_of_overflows ho, ho, eq_comm]
  · by_cases hv : r.Valid
    · simp [check_of_valid hv, ho, hv]
    · simp [check_of_not_valid (Nat.lt_of_not_le ho) hv, ho, hv, eq_comm]

theorem fault_ne_overflow (r : Region) : r.fault ≠ .overflow := by
  unfold fault
  split
  · exact nofun
  · exact nofun

theorem check_eq_overflow_iff (r : Region) : r.check = .error .overflow ↔ r.Overflows := by
  simp [check_eq_error_iff, r.fault_ne_overflow.symm]

theorem check_eq_fault_iff (r : Region) :
    r.check = .error r.fault ↔ ¬ r.Valid ∧ ¬ r.Overflows := by
  simp [check_eq_error_iff, r.fault_ne_overflow, and_comm]

end Region

/-- Each byte of a region has an address of 32 bits, from which it can be loaded. -/
theorem Memory.Occupies.load_byte {m : Memory} {r : Region} (hm : m.Occupies r) (hr : r.Valid)
    {i : Nat} (hi : i < m.size) :
    ∃ a : Word, a.toNat = m.base.toNat + i ∧
      ∃ v, m.load .byte a = .ok v ∧ v.toNat = (m.byteAt i).toNat := by
  have hstop : m.base.toNat + m.size ≤ 2 ^ 32 := by
    rw [hm.base, hm.size]
    exact hr.2
  have ha : (UInt32.ofNat (m.base.toNat + i)).toNat = m.base.toNat + i := by
    rw [UInt32.toNat_ofNat']
    exact Nat.mod_eq_of_lt (by omega)
  have hwithin : m.view.Within (m.base.toNat + i) 1 := by
    rw [view_within]
    omega
  have hbyte : m.view.load .byte (UInt32.ofNat (m.base.toNat + i)) = .ok (m.byteAt i).toNat := by
    simp only [ByteMap.load, ByteMap.requireAligned, ByteMap.require, Width.bytes, one_dvd, ha,
      if_true, if_pos hwithin]
    simp [ByteMap.bytes, littleEndian, view_byte, hi]
  rw [← view_load] at hbyte
  refine ⟨_, ha, ?_⟩
  cases hl : m.load .byte (UInt32.ofNat (m.base.toNat + i)) with
  | error e =>
    rw [hl] at hbyte
    cases hbyte
  | ok v =>
    rw [hl] at hbyte
    exact ⟨v, rfl, Except.ok.inj hbyte⟩

namespace Load
open Elf Memory

theorem write_occupies {r : Region} {m m' : Memory} (hm : m.Occupies r) {addr : Word}
    {bytes : List UInt8} (h : m.write addr bytes = .ok m') : m'.Occupies r := by
  obtain ⟨hb, hs⟩ := write_geometry h
  exact ⟨hb.trans hm.base, hs.trans hm.size⟩

theorem words_occupies {r : Region} {m : Memory} (hm : m.Occupies r) (addr : Word)
    (ws : List Word) : (words m addr ws).2.Occupies r := by
  unfold words
  split
  · exact hm
  · rename_i h
    exact write_occupies hm h

/-- Loading leaves a region where it is, also if the program is not accepted. -/
theorem program_occupies {r : Region} {m : Memory} (hm : m.Occupies r) (read : Reader)
    (path : String) (format : ProgramFormat) (addr : Word) :
    (program read m path format addr).2.Occupies r := by
  unfold program
  split
  · exact hm
  · split
    · unfold elf
      split
      · exact hm
      · exact hm
      · rw [image_snd]
        exact segments_occupies hm _
    · unfold bytes
      split
      · exact hm
      · rename_i h
        exact write_occupies hm h
    · unfold hex
      split
      · exact hm
      · exact words_occupies hm addr _

end Load

namespace Simulation

/-- Whatever is wrong, it is not the region. -/
def RegionFree {α : Type} (x : Except SetupError α) : Prop :=
  ∀ e, x ≠ .error (.region e)

theorem RegionFree.bind {α β : Type} {x : Except SetupError α} {f : α → Except SetupError β}
    (hx : RegionFree x) (hf : ∀ a, RegionFree (f a)) : RegionFree (x >>= f) := by
  cases x with
  | error e' =>
    intro e h
    cases h
    exact hx e rfl
  | ok a => exact hf a

theorem regionFree_checkMailbox (m : Memory) (role : Role) (addr : Word) :
    RegionFree (checkMailbox m role addr) := by
  unfold checkMailbox
  intro e
  split
  · exact nofun
  · exact nofun

theorem regionFree_clearMailbox (m : Memory) (role : Role) (addr : Word) :
    RegionFree (clearMailbox m role addr) := by
  unfold clearMailbox
  intro e
  cases m.store .word addr 0 with
  | ok m' => exact nofun
  | error e' => exact nofun

theorem regionFree_assemble (config : Config) (m : Memory) (loaded : Option Loaded)
    (extra : List Definition) : RegionFree (assemble config m loaded extra) := by
  rw [assemble_eq]
  refine RegionFree.bind ?_ fun _ => .bind ?_ fun _ => .bind ?_ fun _ => .bind ?_ fun cleared =>
    .bind ?_ fun _ => nofun
  · cases chooseProbe config loaded with
    | none => exact nofun
    | some p => exact regionFree_checkMailbox m p.role p.addr
  · cases loaded.bind (·.fromhost) with
    | none => exact nofun
    | some addr => exact regionFree_checkMailbox m .fromhost addr
  · cases Table.extended extra with
    | ok t => exact nofun
    | error e => exact nofun
  · cases (chooseProbe config loaded).bind Probe.tohost? with
    | none => exact nofun
    | some addr => exact regionFree_clearMailbox m .tohost addr
  · cases loaded.bind (·.fromhost) with
    | none => exact nofun
    | some addr => exact regionFree_clearMailbox cleared .fromhost addr

theorem regionFree_settle (x : Load.Result) : RegionFree (settle x) := by
  obtain ⟨answer, m⟩ := x
  cases answer with
  | ok loaded => exact nofun
  | error e => exact nofun

theorem freshMemory_eq_ok_iff {r : Region} {m : Memory} :
    freshMemory r = .ok m ↔ r.Valid ∧ m = .empty r.base r.size := by
  unfold freshMemory
  split
  · rename_i e h
    refine iff_of_false nofun fun ⟨hv, _⟩ => ?_
    cases h.symm.trans (Region.check_of_valid hv)
  · rename_i h
    have hv : r.Valid := (Region.check_eq_ok_iff r).mp h
    rw [Except.ok.injEq, eq_comm]
    exact ⟨fun hm => ⟨hv, hm⟩, And.right⟩

theorem bind_freshMemory_eq_region_iff {α : Type} (r : Region) {f : Memory → Except SetupError α}
    (hf : ∀ m, RegionFree (f m)) (e : RegionError) :
    (freshMemory r >>= f) = .error (.region e) ↔ r.check = .error e := by
  unfold freshMemory
  cases r.check with
  | error e' =>
    change Except.error (SetupError.region e') = _ ↔ _
    simp
  | ok u => exact iff_of_false (hf _ e) nofun

/-- The answers to the requests for a machine with this configuration. -/
inductive Answers (config : Config) : Except SetupError Simulation → Prop where
  | ofConfig (read : Reader) (extra : List Definition) :
      Answers config (ofConfig read config extra)
  | ofWords (words : List Word) : Answers config (ofWords config words)

section Answers
variable {config : Config} {answer : Except SetupError Simulation}

/-- The region is named as what is wrong if and only if the check refuses it. -/
theorem Answers.region_iff (h : Answers config answer) (e : RegionError) :
    answer = .error (.region e) ↔ config.memory.check = .error e := by
  cases h with
  | ofConfig read extra =>
    refine bind_freshMemory_eq_region_iff config.memory (fun m => ?_) e
    split
    · exact regionFree_assemble config m none extra
    · exact (regionFree_settle _).bind fun _ => regionFree_assemble config _ _ extra
  | ofWords words =>
    refine bind_freshMemory_eq_region_iff config.memory (fun m => ?_) e
    exact (regionFree_settle _).bind fun _ => regionFree_assemble config _ _ []

theorem settle_occupies {r : Region} {x : Load.Result} (hx : x.2.Occupies r) {loaded : Loaded}
    {m : Memory} (h : settle x = .ok (loaded, m)) : m.Occupies r := by
  obtain ⟨result, m'⟩ := x
  cases result with
  | ok loaded' =>
    cases h
    exact hx
  | error e => cases h

theorem assemble_occupies {r : Region} {m : Memory} (hm : m.Occupies r) {loaded : Option Loaded}
    {extra : List Definition} {s : Simulation} (h : assemble config m loaded extra = .ok s) :
    s.memory.Occupies r := by
  obtain ⟨_, _, table, _, rfl⟩ := (assemble_ok_iff _ _ _ _ _).mp h
  obtain ⟨hb, hz⟩ := emptied_geometry m ((chooseProbe config loaded).bind Probe.tohost?)
  obtain ⟨hb', hz'⟩ := emptied_geometry
    (emptied m ((chooseProbe config loaded).bind Probe.tohost?)) (loaded.bind (·.fromhost))
  exact ⟨hb'.trans (hb.trans hm.base), hz'.trans (hz.trans hm.size)⟩

/-- A machine has a valid region for its memory, whatever was loaded. -/
theorem Answers.occupies (h : Answers config answer) {s : Simulation} (hs : answer = .ok s) :
    config.memory.Valid ∧ s.memory.Occupies config.memory := by
  cases h with
  | ofConfig read extra =>
    obtain ⟨m, hm, hs⟩ := (except_bind_eq_ok _ _ _).mp hs
    obtain ⟨hv, rfl⟩ := freshMemory_eq_ok_iff.mp hm
    refine ⟨hv, ?_⟩
    split at hs
    · exact assemble_occupies ⟨rfl, rfl⟩ hs
    · obtain ⟨⟨loaded, m⟩, hl, hs⟩ := (except_bind_eq_ok _ _ _).mp hs
      exact assemble_occupies
        (settle_occupies (Load.program_occupies ⟨rfl, rfl⟩ read _ _ _) hl) hs
  | ofWords words =>
    obtain ⟨m, hm, hs⟩ := (except_bind_eq_ok _ _ _).mp hs
    obtain ⟨hv, rfl⟩ := freshMemory_eq_ok_iff.mp hm
    obtain ⟨⟨loaded, m⟩, hl, hs⟩ := (except_bind_eq_ok _ _ _).mp hs
    exact ⟨hv, assemble_occupies (settle_occupies (Load.words_occupies ⟨rfl, rfl⟩ _ _) hl) hs⟩

end Answers

/-- A region is accepted if and only if it is not empty and all its addresses have 32 bits, and then
each byte of a machine's memory has an address. Any other region is refused for what is wrong with
it, except where its end is no number of 64 bits: there, and only there, the program aborts. -/
theorem regions_refused_iff (config : Config) :
    (config.memory.check = .ok () ↔ config.memory.Valid) ∧
    (config.memory.check = .error .overflow ↔
      2 ^ 64 ≤ config.memory.base.toNat + config.memory.size.toNat) ∧
    ∀ answer, Answers config answer →
      (∀ s, answer = .ok s → config.memory.Valid ∧ s.memory.Occupies config.memory ∧
        ∀ i < s.memory.size, ∃ a : Word, a.toNat = s.memory.base.toNat + i ∧
          ∃ v, s.memory.load .byte a = .ok v ∧ v.toNat = (s.memory.byteAt i).toNat) ∧
      (answer = .error (.region config.memory.fault) ↔ ¬ config.memory.Valid ∧
        config.memory.base.toNat + config.memory.size.toNat < 2 ^ 64) ∧
      (answer = .error (.region .overflow) ↔
        2 ^ 64 ≤ config.memory.base.toNat + config.memory.size.toNat) := by
  refine ⟨config.memory.check_eq_ok_iff, config.memory.check_eq_overflow_iff,
    fun answer h => ⟨fun s hs => ?_, ?_, ?_⟩⟩
  · obtain ⟨hv, hm⟩ := h.occupies hs
    exact ⟨hv, hm, fun i hi => hm.load_byte hv hi⟩
  · rw [h.region_iff, Region.check_eq_fault_iff, Region.Overflows, Nat.not_le]
  · rw [h.region_iff, Region.check_eq_overflow_iff, Region.Overflows]

/-- The last sixteen bytes that have an address make a machine, and one byte more does not. -/
theorem regions_refused_iff_top :
    let top : Config := { memory := ⟨0xFFFFFFF0, 16⟩ }
    let past : Config := { memory := ⟨0xFFFFFFF0, 17⟩ }
    (∃ s, ofWords top [0x00100093] = .ok s ∧ s.memory.Occupies top.memory ∧
      ∃ a : Word, a.toNat = 0xFFFFFFFF ∧ ∃ v, s.memory.load .byte a = .ok v) ∧
    ofWords past [0x00100093] = .error (.region (.tooLarge past.memory)) := by
  intro top past
  have hfits : top.ProgramFits [0x00100093] := .inr ⟨by decide, by decide⟩
  obtain ⟨s, hs, _⟩ := ofWords_of_watched ⟨by decide, by decide⟩ hfits nofun
  obtain ⟨_, hm, hbyte⟩ := ((regions_refused_iff top).2.2 _ (.ofWords [0x00100093])).1 s hs
  obtain ⟨a, ha, v, hv, _⟩ := hbyte 15 (by rw [hm.size]; decide)
  rw [hm.base] at ha
  refine ⟨⟨s, hs, hm, a, ha, v, hv⟩, ?_⟩
  have hlong : ¬ past.memory.Valid := fun h => absurd h.2 (by decide)
  exact ((regions_refused_iff past).2.2 _ (.ofWords [0x00100093])).2.1.mpr ⟨hlong, by decide⟩

/-- A region from address 1 on whose size is one less than 2 ^ 64 has more bytes than there are
addresses, but the program aborts before it can say so. -/
theorem region_end_overflows :
    let config : Config := { memory := ⟨1, 0xFFFFFFFFFFFFFFFF⟩ }
    config.memory.base.toNat + config.memory.size.toNat = 2 ^ 64 ∧
      config.memory.fault = .tooLarge config.memory ∧
      ofWords config [] = .error (.region .overflow) := by
  refine ⟨?_, ?_, ?_⟩
  · decide
  · decide
  · rfl

end Simulation
end Rv32i
