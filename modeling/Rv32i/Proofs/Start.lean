import Rv32i.Proofs.Setup

namespace Rv32i

/-- The byte at place `i` of a list of words, each of them with its lowest byte first. -/
def wordsByte (words : List Word) (i : Nat) : UInt8 :=
  UInt8.ofNat ((words.getD (i / 4) 0).toNat / 256 ^ (i % 4))

namespace Memory

@[simp] theorem length_bytesOfWords (words : List Word) :
    (bytesOfWords words).length = 4 * words.length := by
  induction words with
  | nil => rfl
  | cons w words ih =>
    simp only [bytesOfWords, List.flatMap_cons, List.length_append, Word.length_toBytes,
      List.length_cons] at ih ⊢
    omega

theorem bytesOfWords_eq_nil_iff {words : List Word} : bytesOfWords words = [] ↔ words = [] := by
  rw [← List.length_eq_zero_iff, ← List.length_eq_zero_iff, length_bytesOfWords]
  omega

theorem getD_bytesOfWords (words : List Word) (i : Nat) :
    (bytesOfWords words).getD i 0 = wordsByte words i := by
  induction words generalizing i with
  | nil => simp [bytesOfWords, wordsByte]
  | cons w words ih =>
    have hcons : bytesOfWords (w :: words) = digits 4 w.toNat ++ bytesOfWords words := by
      rw [← Word.toBytes_eq_digits]
      rfl
    rw [hcons]
    by_cases hi : i < 4
    · rw [List.getD_append _ _ _ _ (by rwa [length_digits]), wordsByte, Nat.div_eq_of_lt hi,
        Nat.mod_eq_of_lt hi, List.getD_cons_zero, List.getD_eq_getElem _ _ (by rwa [length_digits])]
      simp [digits]
    · have hdiv : i / 4 = (i - 4) / 4 + 1 := by omega
      have hmod : i % 4 = (i - 4) % 4 := by omega
      rw [List.getD_append_right _ _ _ _ (by rw [length_digits]; omega), length_digits, ih,
        wordsByte, wordsByte, hdiv, hmod, List.getD_cons_succ]

end Memory

namespace Region

/-- There is a byte in the region, and all its addresses have 32 bits. -/
def Valid (r : Region) : Prop :=
  r.size ≠ 0 ∧ r.base.toNat + r.size.toNat ≤ 2 ^ 32

/-- All of `[addr, addr + count)` belongs to the region. -/
def Holds (r : Region) (addr : Word) (count : Nat) : Prop :=
  r.base.toNat ≤ addr.toNat ∧ addr.toNat + count ≤ r.base.toNat + r.size.toNat

/-- What is wrong with a region that is not valid. -/
def fault (r : Region) : RegionError :=
  if r.size = 0 then .empty else .tooLarge r

theorem check_of_valid {r : Region} (h : r.Valid) : r.check = .ok () :=
  (check_eq_ok_iff r).mpr h

/-- Where the end is a number of 64 bits, the check finds out what is wrong. -/
theorem check_of_not_valid {r : Region} (hend : r.base.toNat + r.size.toNat < 2 ^ 64)
    (h : ¬ r.Valid) : r.check = .error r.fault := by
  unfold check fault
  by_cases h0 : r.size = 0
  · rw [if_pos h0, if_pos h0]
  · have hlarge : 2 ^ 32 < r.base.toNat + r.size.toNat := by
      by_contra hle
      exact h ⟨h0, by omega⟩
    have hsum : ¬ UInt64.size ≤ r.base.toNat + r.size.toNat := Nat.not_le_of_lt hend
    rw [if_neg h0, if_neg h0, if_neg hsum]
    exact if_pos hlarge

end Region

namespace Config

/-- The words of a program lie in the region, or there are none. -/
def ProgramFits (config : Config) (words : List Word) : Prop :=
  words = [] ∨ config.memory.Holds config.startAddr (4 * words.length)

/-- What a probe watches is an aligned word of the region. -/
def ProbeFits (config : Config) : Prop :=
  ∀ p ∈ config.result, 4 ∣ p.addr.toNat ∧ config.memory.Holds p.addr 4

/-- The address belongs to the mailbox for messages of the program. -/
def Mailbox (config : Config) (a : Nat) : Prop :=
  ∃ t, config.result = some (.tohost t) ∧ t.toNat ≤ a ∧ a < t.toNat + 4

end Config

theorem Memory.hasWord_iff_holds {r : Region} {m : Memory}
    (hg : m.base = r.base ∧ m.size = r.size.toNat) (addr : Word) :
    m.HasWord addr ↔ 4 ∣ addr.toNat ∧ r.Holds addr 4 := by
  unfold HasWord Region.Holds
  rw [hg.1, hg.2]

namespace Load
open Memory

theorem words_of_within {m : Memory} {addr : Word} {ws : List Word}
    (hw : ws = [] ∨ m.view.Within addr.toNat (4 * ws.length)) :
    ∃ m', words m addr ws = (.ok ⟨addr, 4 * ws.length, none, none⟩, m') ∧
      m'.view = m.view.put addr.toNat (bytesOfWords ws) := by
  rw [← bytesOfWords_eq_nil_iff, ← length_bytesOfWords] at hw
  obtain ⟨m', hm⟩ := write_of_within hw
  have hwrite : m.writeWords addr ws = .ok m' := hm
  exact ⟨m', by rw [words, hwrite], (view_of_write hm).2⟩

theorem words_of_not_within {m : Memory} {addr : Word} {ws : List Word}
    (hw : ¬ (ws = [] ∨ m.view.Within addr.toNat (4 * ws.length))) :
    words m addr ws = (.error (.memory (.outOfRange addr .byte m.base m.size)), m) := by
  rw [← bytesOfWords_eq_nil_iff, ← length_bytesOfWords] at hw
  have hwrite : m.writeWords addr ws = .error (.outOfRange addr .byte m.base m.size) :=
    write_of_not_within hw
  rw [words, hwrite]

end Load

namespace Simulation
open Memory

/-- The machine that starts with `words` as its program: nothing has happened yet, the program lies
where the configuration wants it, and the mailbox is empty even where the program reaches into
it. -/
structure Started (c : Config) (words : List Word) (s : Simulation) : Prop where
  pc : s.hart.pc = c.entryPc.getD c.startAddr
  registers : ∀ r, s.hart.readReg r = 0
  state : s.hart.state = .running
  table : s.hart.table = Table.base
  cycles : s.cycles = 0
  config : s.config = c
  probe : s.probe = c.result
  fromhost : s.fromhost = none
  base : s.memory.base = c.memory.base
  size : s.memory.size = c.memory.size.toNat
  mailbox : ∀ a, c.Mailbox a → s.memory.view.byte a = 0
  program : ∀ i < 4 * words.length, ¬ c.Mailbox (c.startAddr.toNat + i) →
    s.memory.view.byte (c.startAddr.toNat + i) = wordsByte words i
  elsewhere : ∀ a, a < c.startAddr.toNat ∨ c.startAddr.toNat + 4 * words.length ≤ a →
    s.memory.view.byte a = 0

theorem view_emptied {m : Memory} {addr : Word} (h : m.HasWord addr) :
    (emptied m (some addr)).view = m.view.put addr.toNat [0, 0, 0, 0] :=
  view_of_store (store_put h 0)

theorem mailbox_iff {c : Config} {t : Word} (hr : c.result = some (.tohost t)) (a : Nat) :
    c.Mailbox a ↔ t.toNat ≤ a ∧ a < t.toNat + 4 := by
  unfold Config.Mailbox
  rw [hr]
  constructor
  · rintro ⟨_, ⟨⟩, h⟩
    exact h
  · intro h
    exact ⟨t, rfl, h⟩

/-- Of all bytes just those of the mailbox are cleared for a configuration. -/
theorem emptied_byte {m : Memory} {c : Config} (hw : ∀ p ∈ c.result, m.HasWord p.addr) (a : Nat) :
    (c.Mailbox a → (emptied m (c.result.bind Probe.tohost?)).view.byte a = 0) ∧
    (¬ c.Mailbox a →
      (emptied m (c.result.bind Probe.tohost?)).view.byte a = m.view.byte a) := by
  have hother : (∀ t, c.result ≠ some (.tohost t)) → ¬ c.Mailbox a :=
    fun hn ⟨t, ht, _⟩ => hn t ht
  rcases hr : c.result with _ | t | ⟨addr, value⟩
  · exact ⟨fun h => absurd h (hother (by rw [hr]; exact nofun)), fun _ => rfl⟩
  · have hview : (emptied m (some t)).view = m.view.put t.toNat [0, 0, 0, 0] :=
      view_emptied (hw _ hr)
    rw [mailbox_iff hr, Option.bind_some, Probe.tohost?, hview, ByteMap.put_byte]
    refine ⟨fun h => ?_, fun h => if_neg h⟩
    have hlt : a - t.toNat < 4 := by omega
    exact (if_pos h).trans (List.getD_replicate 0 hlt)
  · exact ⟨fun h => absurd h (hother (by rw [hr]; exact nofun)), fun _ => rfl⟩

section Stages
variable {config : Config} {words : List Word}

theorem ofWords_of_not_valid (hsize : config.memory.size.toNat < 2 ^ 63)
    (hv : ¬ config.memory.Valid) :
    ofWords config words = .error (.region config.memory.fault) := by
  have hbase : config.memory.base.toNat < 2 ^ 32 := config.memory.base.toNat_lt
  have hm : freshMemory config.memory = .error (.region config.memory.fault) := by
    rw [freshMemory, Region.check_of_not_valid (by omega) hv]
  rw [ofWords, hm]
  rfl

theorem ofWords_of_valid (hv : config.memory.Valid) :
    ofWords config words = (do
      let (loaded, memory) ← settle (Load.words (.empty config.memory.base config.memory.size)
        config.startAddr words)
      assemble config memory (some loaded) []) := by
  have hm : freshMemory config.memory =
      .ok (.empty config.memory.base config.memory.size) := by
    rw [freshMemory, Region.check_of_valid hv]
  rw [ofWords, hm]
  rfl

theorem ofWords_of_not_fits (hv : config.memory.Valid) (hp : ¬ config.ProgramFits words) :
    ofWords config words = .error (.load (.memory
      (.outOfRange config.startAddr .byte config.memory.base config.memory.size.toNat))) := by
  have hload := Load.words_of_not_within
    (m := .empty config.memory.base config.memory.size) hp
  rw [ofWords_of_valid hv, hload]
  rfl

/-- From here on the program is in memory, and nothing but the probe can go wrong. -/
theorem ofWords_of_fits (hv : config.memory.Valid) (hp : config.ProgramFits words) :
    ∃ m, ofWords config words = assemble config m
        (some ⟨config.startAddr, 4 * words.length, none, none⟩) [] ∧
      (m.base = config.memory.base ∧ m.size = config.memory.size.toNat) ∧
      m.view = (ByteMap.zero config.memory.base config.memory.size.toNat).put
        config.startAddr.toNat (bytesOfWords words) := by
  obtain ⟨m, hload, hview⟩ := Load.words_of_within
    (m := .empty config.memory.base config.memory.size) hp
  rw [view_empty] at hview
  refine ⟨m, ?_, ⟨congrArg ByteMap.base hview, congrArg ByteMap.size hview⟩, hview⟩
  rw [ofWords_of_valid hv, hload]
  rfl

theorem chooseProbe_words (config : Config) (addr : Word) (size : Nat) :
    chooseProbe config (some ⟨addr, size, none, none⟩) = config.result := by
  unfold chooseProbe
  cases config.result <;> rfl

theorem chooseEntry_words (config : Config) (addr : Word) (size : Nat) :
    chooseEntry config (some ⟨addr, size, none, none⟩) = config.entryPc.getD addr := by
  unfold chooseEntry
  cases config.entryPc <;> rfl

/-- A program of plain words brings no mailboxes, so all comes from the configuration. -/
theorem assemble_words {config : Config} {m : Memory}
    (hw : ∀ p ∈ config.result, m.HasWord p.addr) (addr : Word) (size : Nat) :
    assemble config m (some ⟨addr, size, none, none⟩) [] = .ok {
      hart := Hart.new Table.base (config.entryPc.getD addr)
      memory := emptied m (config.result.bind Probe.tohost?)
      config, cycles := 0, probe := config.result, fromhost := none } := by
  refine (assemble_ok_iff _ _ _ _ _).mpr ⟨?_, nofun, Table.base, rfl, ?_⟩
  · rwa [chooseProbe_words]
  · rw [chooseProbe_words, chooseEntry_words]
    rfl

theorem ofWords_of_not_watched (hv : config.memory.Valid) (hp : config.ProgramFits words)
    (hw : ¬ config.ProbeFits) :
    ∃ p, config.result = some p ∧ ofWords config words = .error (.mailbox p.role p.addr
      (.ofWord config.memory.base config.memory.size.toNat p.addr)) := by
  unfold Config.ProbeFits at hw
  push Not at hw
  obtain ⟨p, hr, hword⟩ := hw
  refine ⟨p, hr, ?_⟩
  obtain ⟨m, hof, hg, _⟩ := ofWords_of_fits hv hp
  have hnone : ¬ m.HasWord p.addr := by
    rw [hasWord_iff_holds hg]
    exact fun h => hword h.1 h.2
  have hcheck : checkMailbox m p.role p.addr =
      .error (.mailbox p.role p.addr (.ofWord m.base m.size p.addr)) := by
    rw [checkMailbox, load_word_of_not hnone]
  rw [hof, assemble_eq, chooseProbe_words, hr, ← hg.1, ← hg.2]
  change (checkMailbox m p.role p.addr >>= _) = _
  rw [hcheck]
  rfl

theorem ofWords_of_watched (hv : config.memory.Valid) (hp : config.ProgramFits words)
    (hw : config.ProbeFits) : ∃ s, ofWords config words = .ok s ∧ Started config words s := by
  obtain ⟨m, hof, hg, hview⟩ := ofWords_of_fits hv hp
  have hword : ∀ p ∈ config.result, m.HasWord p.addr :=
    fun p hr => (hasWord_iff_holds hg p.addr).mpr (hw p hr)
  obtain ⟨hbase, hsize⟩ := emptied_geometry m (config.result.bind Probe.tohost?)
  refine ⟨_, hof.trans (assemble_words hword _ _), ?_⟩
  exact {
    pc := rfl
    registers := Registers.read_zero
    state := rfl
    table := rfl
    cycles := rfl
    config := rfl
    probe := rfl
    fromhost := rfl
    base := hbase.trans hg.1
    size := hsize.trans hg.2
    mailbox := fun a => (emptied_byte hword a).1
    program := by
      intro i hi hout
      rw [(emptied_byte hword _).2 hout, hview, ByteMap.put_byte, length_bytesOfWords,
        if_pos (by omega), Nat.add_sub_cancel_left, getD_bytesOfWords]
    elsewhere := by
      intro a ha
      by_cases hin : config.Mailbox a
      · exact (emptied_byte hword a).1 hin
      · rw [(emptied_byte hword a).2 hin, hview, ByteMap.put_byte, length_bytesOfWords,
          if_neg (by omega)]
        rfl }

end Stages

/-- Words become a machine, or the first of three things that can be wrong with them is reported:
the region, the place of the program, the word that the probe watches. -/
theorem ofWords_starts_iff (config : Config) (words : List Word)
    (hsize : config.memory.size.toNat < 2 ^ 63) :
    (ofWords config words = .error (.region config.memory.fault) ↔ ¬ config.memory.Valid) ∧
    (ofWords config words = .error (.load (.memory
        (.outOfRange config.startAddr .byte config.memory.base config.memory.size.toNat))) ↔
      config.memory.Valid ∧ ¬ config.ProgramFits words) ∧
    ((∃ p, config.result = some p ∧ ofWords config words = .error (.mailbox p.role p.addr
        (.ofWord config.memory.base config.memory.size.toNat p.addr))) ↔
      config.memory.Valid ∧ config.ProgramFits words ∧ ¬ config.ProbeFits) ∧
    ((∃ s, ofWords config words = .ok s ∧ Started config words s) ↔
      config.memory.Valid ∧ config.ProgramFits words ∧ config.ProbeFits) := by
  by_cases hv : config.memory.Valid
  · by_cases hp : config.ProgramFits words
    · by_cases hw : config.ProbeFits
      · obtain ⟨s, hs, hstarted⟩ := ofWords_of_watched hv hp hw
        simp [hs, hv, hp, hw, hstarted]
      · obtain ⟨p, hr, hs⟩ := ofWords_of_not_watched hv hp hw
        simp [hs, hr, hv, hp, hw]
    · simp [ofWords_of_not_fits hv hp, hv, hp]
  · simp [ofWords_of_not_valid hsize hv, hv]

/-- A program that starts at no multiple of four and reaches over both ends of the mailbox. -/
theorem ofWords_starts_across_mailbox :
    let config : Config := {
      memory := ⟨0x80000000, 32⟩, loadAddr := some 0x80000006
      result := some (.tohost 0x80000008) }
    ∃ s, ofWords config [0x11223344, 0x55667788] = .ok s ∧ s.hart.pc = 0x80000006 ∧
      s.memory.view.byte 0x80000007 = 0x33 ∧ s.memory.view.byte 0x8000000B = 0 ∧
      s.memory.view.byte 0x8000000C = 0x66 ∧ s.memory.view.byte 0x8000000E = 0 := by
  intro config
  have hmailbox := mailbox_iff (c := config) (t := 0x80000008) rfl
  have hprobe : config.ProbeFits := by
    rintro p ⟨⟩
    exact ⟨by decide, by decide, by decide⟩
  obtain ⟨s, hs, hstarted⟩ := (ofWords_starts_iff config [0x11223344, 0x55667788]
    (by decide)).2.2.2.mpr
    ⟨⟨by decide, by decide⟩, .inr ⟨by decide, by decide⟩, hprobe⟩
  exact ⟨s, hs, hstarted.pc,
    hstarted.program 1 (by decide) (mt (hmailbox _).mp (by decide)),
    hstarted.mailbox _ ((hmailbox _).mpr (by decide)),
    hstarted.program 6 (by decide) (mt (hmailbox _).mp (by decide)),
    hstarted.elsewhere _ (.inr (by decide))⟩

end Simulation
end Rv32i
