import Rv32i.Proofs.Words
import Rv32i.Simulation.Setup

namespace Rv32i

theorem except_bind_eq_ok {ε α β : Type} (x : Except ε α) (f : α → Except ε β) (b : β) :
    (x >>= f) = .ok b ↔ ∃ a, x = .ok a ∧ f a = .ok b := by
  cases x <;> simp [bind, Except.bind]

theorem mapError_eq_ok {ε ε' α : Type} (f : ε → ε') (x : Except ε α) (a : α) :
    x.mapError f = .ok a ↔ x = .ok a := by
  cases x <;> simp [Except.mapError]

/-- The mailbox that is watched for a message, if it is one. -/
def Probe.tohost? : Probe → Option Word
  | tohost addr => some addr
  | sentinel _ _ => none

namespace Simulation
open Memory

theorem store_put {m : Memory} {addr : Word} (h : m.HasWord addr) (value : Word) :
    m.store .word addr value = .ok (put m addr value) := by
  obtain ⟨m', hm⟩ := (store_word_iff m addr value).mpr h
  rw [put, hm]

theorem put_geometry (m : Memory) (addr value : Word) :
    (put m addr value).base = m.base ∧ (put m addr value).size = m.size := by
  unfold put
  split
  · rename_i h
    exact store_geometry h
  · exact ⟨rfl, rfl⟩

/-- Memory with 0 in a mailbox, if there is one. -/
def emptied (m : Memory) (mailbox : Option Word) : Memory :=
  mailbox.elim m fun addr => put m addr 0

theorem emptied_geometry (m : Memory) (mailbox : Option Word) :
    (emptied m mailbox).base = m.base ∧ (emptied m mailbox).size = m.size := by
  cases mailbox with
  | none => exact ⟨rfl, rfl⟩
  | some addr => exact put_geometry m addr 0

theorem load_emptied {m : Memory} {addr : Word} (h : m.HasWord addr) :
    (emptied m (some addr)).load .word addr = .ok 0 :=
  load_store_word (store_put h 0)

/-- Once empty, a mailbox stays empty when another one is emptied. -/
theorem load_emptied_of_empty {m : Memory} {addr : Word} {mailbox : Option Word}
    (hw : ∀ a ∈ mailbox, m.HasWord a) (h : m.load .word addr = .ok 0) :
    (emptied m mailbox).load .word addr = .ok 0 := by
  cases mailbox with
  | none => exact h
  | some a =>
    have haddr := (load_word_iff m addr).mp ⟨0, h⟩
    have hload := load_word_store_word addr (store_put (hw a rfl) 0) haddr
    rw [h, ite_self] at hload
    exact hload

theorem checkMailbox_ok_iff (m : Memory) (role : Role) (addr : Word) :
    checkMailbox m role addr = .ok () ↔ m.HasWord addr := by
  rw [← load_word_iff]
  unfold checkMailbox
  cases m.load .word addr <;> simp

theorem clearMailbox_ok_iff (m m' : Memory) (role : Role) (addr : Word) :
    clearMailbox m role addr = .ok m' ↔ m.HasWord addr ∧ put m addr 0 = m' := by
  rw [clearMailbox, mapError_eq_ok]
  constructor
  · intro h
    have hw := (store_word_iff m addr 0).mp ⟨m', h⟩
    rw [store_put hw] at h
    exact ⟨hw, Except.ok.inj h⟩
  · rintro ⟨hw, rfl⟩
    exact store_put hw 0

/-- The stages of setting up, one after the other: all mailboxes are checked before the instructions
are, and emptied after that. -/
theorem assemble_eq (config : Config) (memory : Memory) (loaded : Option Loaded)
    (extra : List Definition) :
    assemble config memory loaded extra = (do
      (chooseProbe config loaded).elim (.ok ()) fun p => checkMailbox memory p.role p.addr
      (loaded.bind (·.fromhost)).elim (.ok ()) (checkMailbox memory .fromhost)
      let table ← (Table.extended extra).mapError SetupError.table
      let cleared ← ((chooseProbe config loaded).bind Probe.tohost?).elim (.ok memory)
        (clearMailbox memory .tohost)
      let ready ← (loaded.bind (·.fromhost)).elim (.ok cleared) (clearMailbox cleared .fromhost)
      .ok {
        hart := Hart.new table (chooseEntry config loaded), memory := ready, config, cycles := 0,
        probe := chooseProbe config loaded, fromhost := loaded.bind (·.fromhost) }) := by
  unfold assemble
  rcases chooseProbe config loaded with _ | _ | _ <;>
    rcases loaded.bind (·.fromhost) with _ | _ <;> rfl

theorem checkMailbox_elim_iff {α : Type} (m : Memory) (role : α → Role) (addr : α → Word)
    (mailbox : Option α) :
    (mailbox.elim (.ok ()) fun a => checkMailbox m (role a) (addr a)) = .ok () ↔
      ∀ a ∈ mailbox, m.HasWord (addr a) := by
  cases mailbox <;> simp [checkMailbox_ok_iff]

theorem clearMailbox_elim_iff (m m' : Memory) (role : Role) (mailbox : Option Word) :
    mailbox.elim (.ok m) (clearMailbox m role) = .ok m' ↔
      (∀ a ∈ mailbox, m.HasWord a) ∧ emptied m mailbox = m' := by
  cases mailbox <;> simp [clearMailbox_ok_iff, emptied]

/-- Everything that a successful set-up says about the machine. -/
theorem assemble_ok_iff (config : Config) (memory : Memory) (loaded : Option Loaded)
    (extra : List Definition) (s : Simulation) :
    assemble config memory loaded extra = .ok s ↔
      (∀ p ∈ chooseProbe config loaded, memory.HasWord p.addr) ∧
      (∀ a ∈ loaded.bind (·.fromhost), memory.HasWord a) ∧
      ∃ table, Table.extended extra = .ok table ∧ s = {
        hart := Hart.new table (chooseEntry config loaded)
        memory := emptied (emptied memory ((chooseProbe config loaded).bind Probe.tohost?))
          (loaded.bind (·.fromhost))
        config, cycles := 0
        probe := chooseProbe config loaded, fromhost := loaded.bind (·.fromhost) } := by
  rw [assemble_eq]
  constructor
  · intro h
    obtain ⟨⟨⟩, hp, h⟩ := (except_bind_eq_ok _ _ _).mp h
    obtain ⟨⟨⟩, hf, h⟩ := (except_bind_eq_ok _ _ _).mp h
    obtain ⟨table, ht, h⟩ := (except_bind_eq_ok _ _ _).mp h
    obtain ⟨cleared, hc, h⟩ := (except_bind_eq_ok _ _ _).mp h
    obtain ⟨ready, hr, h⟩ := (except_bind_eq_ok _ _ _).mp h
    obtain ⟨_, rfl⟩ := (clearMailbox_elim_iff _ _ _ _).mp hc
    obtain ⟨_, rfl⟩ := (clearMailbox_elim_iff _ _ _ _).mp hr
    exact ⟨(checkMailbox_elim_iff memory Probe.role Probe.addr _).mp hp,
      (checkMailbox_elim_iff memory (fun _ => .fromhost) id _).mp hf, table,
      (mapError_eq_ok _ _ _).mp ht, (Except.ok.inj h).symm⟩
  · rintro ⟨hp, hf, table, ht, rfl⟩
    have hp' := (checkMailbox_elim_iff memory Probe.role Probe.addr _).mpr hp
    have hf' := (checkMailbox_elim_iff memory (fun _ => .fromhost) id _).mpr hf
    have hc : ∀ a ∈ (chooseProbe config loaded).bind Probe.tohost?, memory.HasWord a := by
      intro a ha
      obtain ⟨p, hp₀, ha⟩ := Option.bind_eq_some_iff.mp ha
      cases p with
      | tohost addr =>
        cases ha
        exact hp _ hp₀
      | sentinel addr value => cases ha
    have hg := emptied_geometry memory ((chooseProbe config loaded).bind Probe.tohost?)
    refine (except_bind_eq_ok _ _ _).mpr ⟨(), hp', (except_bind_eq_ok _ _ _).mpr ⟨(), hf', ?_⟩⟩
    refine (except_bind_eq_ok _ _ _).mpr ⟨table, (mapError_eq_ok _ _ _).mpr ht, ?_⟩
    refine (except_bind_eq_ok _ _ _).mpr ⟨_, (clearMailbox_elim_iff _ _ _ _).mpr ⟨hc, rfl⟩, ?_⟩
    exact (except_bind_eq_ok _ _ _).mpr
      ⟨_, (clearMailbox_elim_iff _ _ _ _).mpr ⟨fun a ha => (hf a ha).congr hg, rfl⟩, rfl⟩

theorem ofConfig_of_loaded {read : Reader} (config : Config) (extra : List Definition)
    {path : String} {loaded : Loaded} {empty memory : Memory} (hp : config.program = some path)
    (hm : freshMemory config.memory = .ok empty)
    (hl : Load.program read empty path (config.format.getD (.ofPath path)) config.startAddr =
      (.ok loaded, memory)) :
    ofConfig read config extra = assemble config memory (some loaded) extra := by
  simp only [ofConfig, hm, hp]
  change (settle (Load.program read empty path _ _) >>= _) = _
  rw [hl]
  rfl

/-- The ways a machine comes about, with the instructions that it has beyond the base set. -/
inductive Built : List Definition → Simulation → Prop where
  | ofConfig {read : Reader} {config : Config} {extra : List Definition} {s : Simulation}
      (h : Simulation.ofConfig read config extra = .ok s) : Built extra s
  | ofWords {config : Config} {words : List Word} {s : Simulation}
      (h : Simulation.ofWords config words = .ok s) : Built [] s

theorem Built.assembled {extra : List Definition} {s : Simulation} (hb : Built extra s) :
    ∃ config memory loaded, assemble config memory loaded extra = .ok s := by
  cases hb with
  | ofConfig h =>
    obtain ⟨memory, _, h⟩ := (except_bind_eq_ok _ _ _).mp h
    split at h
    · exact ⟨_, _, _, h⟩
    · obtain ⟨loaded, _, h⟩ := (except_bind_eq_ok _ _ _).mp h
      exact ⟨_, _, _, h⟩
  | ofWords h =>
    obtain ⟨memory, _, h⟩ := (except_bind_eq_ok _ _ _).mp h
    obtain ⟨loaded, _, h⟩ := (except_bind_eq_ok _ _ _).mp h
    exact ⟨_, _, _, h⟩

/-- The addresses by which program and host talk to each other. -/
def mailboxes (s : Simulation) : List Word :=
  (s.probe.map Probe.addr).toList ++ s.fromhost.toList

theorem mem_mailboxes {s : Simulation} {a : Word} :
    a ∈ s.mailboxes ↔ (∃ p, s.probe = some p ∧ p.addr = a) ∨ s.fromhost = some a := by
  simp [mailboxes]

section Built
variable {extra : List Definition} {s : Simulation}

theorem Built.table (hb : Built extra s) : Table.extended extra = .ok s.hart.table := by
  obtain ⟨config, memory, loaded, h⟩ := hb.assembled
  obtain ⟨_, _, table, ht, rfl⟩ := (assemble_ok_iff _ _ _ _ _).mp h
  exact ht

theorem Built.running (hb : Built extra s) : s.hart.state = .running := by
  obtain ⟨config, memory, loaded, h⟩ := hb.assembled
  obtain ⟨_, _, table, _, rfl⟩ := (assemble_ok_iff _ _ _ _ _).mp h
  rfl

theorem Built.hasWord (hb : Built extra s) {a : Word} (ha : a ∈ s.mailboxes) :
    s.memory.HasWord a := by
  obtain ⟨config, memory, loaded, h⟩ := hb.assembled
  obtain ⟨hp, hf, table, _, rfl⟩ := (assemble_ok_iff _ _ _ _ _).mp h
  have hw : memory.HasWord a := by
    obtain ⟨p, hprobe, rfl⟩ | hfrom := mem_mailboxes.mp ha
    · exact hp p hprobe
    · exact hf a hfrom
  exact (hw.congr (emptied_geometry _ _)).congr (emptied_geometry _ _)

/-- Whatever the program has put there, the host finds no message before the first instruction. -/
theorem Built.tohost_empty (hb : Built extra s) {a : Word} (hp : s.probe = some (.tohost a)) :
    s.memory.load .word a = .ok 0 := by
  obtain ⟨config, memory, loaded, h⟩ := hb.assembled
  obtain ⟨hw, hf, table, _, rfl⟩ := (assemble_ok_iff _ _ _ _ _).mp h
  change chooseProbe config loaded = _ at hp
  change (emptied (emptied memory ((chooseProbe config loaded).bind Probe.tohost?)) _).load _ _ = _
  rw [hp] at hw ⊢
  exact load_emptied_of_empty (fun b hb => (hf b hb).congr (emptied_geometry _ _))
    (load_emptied (hw _ rfl))

end Built
end Simulation
end Rv32i
