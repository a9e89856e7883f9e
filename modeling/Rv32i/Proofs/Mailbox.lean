import Rv32i.Proofs.Completion
import Rv32i.Proofs.Setup
import Rv32i.Proofs.Traps

namespace Rv32i

/-- Whatever an action stores, memory stays where it is. -/
theorem Action.perform_geometry {a : Action} {h h' : Hart} {m m' : Memory} {r : Option Cause}
    (hp : a.perform h m = (r, h', m')) : m'.base = m.base ∧ m'.size = m.size := by
  refine perform_keeps (P := fun _ n => n.base = m.base ∧ n.size = m.size) (fun _ _ _ _ hk => hk)
    (fun _ _ _ hk => hk) ?_ hp ⟨rfl, rfl⟩
  intro _ _ _ _ _ _ hk hs
  obtain ⟨hb, hz⟩ := Memory.store_geometry hs
  exact ⟨hb.trans hk.1, hz.trans hk.2⟩

namespace Hart

theorem step_geometry (h : Hart) (m : Memory) :
    (h.step m).2.base = m.base ∧ (h.step m).2.size = m.size := by
  cases hr : h.state with
  | halted t =>
    rw [step_halted m hr]
    exact ⟨rfl, rfl⟩
  | running =>
    generalize hs : h.step m = s
    cases hs ▸ stepped m hr with
    | unfetched => exact ⟨rfl, rfl⟩
    | unknown => exact ⟨rfl, rfl⟩
    | trapped _ _ hp => exact Action.perform_geometry hp
    | completed _ _ hp => exact Action.perform_geometry hp

theorem iterate_geometry (k : Nat) (s : Hart × Memory) :
    (tick^[k] s).2.base = s.2.base ∧ (tick^[k] s).2.size = s.2.size := by
  refine Function.Iterate.rec (fun r : Hart × Memory => r.2.base = s.2.base ∧ r.2.size = s.2.size)
    ⟨rfl, rfl⟩ ?_ k
  intro r hr
  obtain ⟨hb, hz⟩ := step_geometry r.1 r.2
  exact ⟨hb.trans hr.1, hz.trans hr.2⟩

theorem run_geometry (h : Hart) (m : Memory) (budget : Nat) :
    (h.run m budget).2.2.base = m.base ∧ (h.run m budget).2.2.size = m.size := by
  rcases hrun : h.run m budget with ⟨k, h', m'⟩
  obtain ⟨_, hlast, _⟩ := run_iterates hrun
  have hg := iterate_geometry k (h, m)
  rw [hlast] at hg
  exact hg

end Hart

namespace Simulation
open Memory

/-- Memory and mailboxes of `r` are where those of `s` are. -/
structure Wired (s r : Simulation) : Prop where
  base : r.memory.base = s.memory.base
  size : r.memory.size = s.memory.size
  probe : r.probe = s.probe
  fromhost : r.fromhost = s.fromhost

theorem Wired.refl (s : Simulation) : Wired s s :=
  ⟨rfl, rfl, rfl, rfl⟩

theorem Wired.trans {s r q : Simulation} (h : Wired s r) (h' : Wired r q) : Wired s q :=
  ⟨h'.base.trans h.base, h'.size.trans h.size, h'.probe.trans h.probe,
    h'.fromhost.trans h.fromhost⟩

theorem Wired.mailboxes {s r : Simulation} (h : Wired s r) : r.mailboxes = s.mailboxes := by
  unfold Simulation.mailboxes
  rw [h.probe, h.fromhost]

theorem Wired.hasWord {s r : Simulation} (h : Wired s r) {a : Word} (ha : s.memory.HasWord a) :
    r.memory.HasWord a :=
  ha.congr ⟨h.base, h.size⟩

theorem Wired.hasWords {s r : Simulation} (h : Wired s r)
    (hs : ∀ a ∈ s.mailboxes, s.memory.HasWord a) : ∀ a ∈ r.mailboxes, r.memory.HasWord a := by
  intro a ha
  rw [h.mailboxes] at ha
  exact h.hasWord (hs a ha)

theorem step_wired (s : Simulation) : Wired s s.step := by
  cases hr : s.hart.state with
  | halted t =>
    rw [step_of_halted hr]
    exact .refl s
  | running =>
    obtain ⟨hb, hz⟩ := s.hart.step_geometry s.memory
    simp only [step, hr]
    exact ⟨hb, hz, rfl, rfl⟩

theorem run_wired (s : Simulation) (budget : Nat) : Wired s (s.run budget).2 := by
  obtain ⟨hb, hz⟩ := s.hart.run_geometry s.memory budget
  exact ⟨hb, hz, rfl, rfl⟩

theorem Acknowledged.wired {s : Simulation} {tohost value : Word} {m : Memory}
    (h : s.Acknowledged tohost value m) : Wired s { s with memory := m } := by
  cases h with
  | cleared _ hc =>
    obtain ⟨hb, hz⟩ := store_geometry hc
    exact ⟨hb, hz, rfl, rfl⟩
  | handedBack _ hc hb =>
    obtain ⟨hb, hz⟩ := store_geometry hb
    obtain ⟨hb', hz'⟩ := store_geometry hc
    exact ⟨hb.trans hb', hz.trans hz', rfl, rfl⟩
  | lost _ hc _ =>
    obtain ⟨hb, hz⟩ := store_geometry hc
    exact ⟨hb, hz, rfl, rfl⟩

theorem checkProbe_wired (s : Simulation) : Wired s s.checkProbe.2 := by
  rcases hc : s.checkProbe with ⟨_ | o, s'⟩
  · rw [checkProbe_of_none hc]
    exact .refl s
  · cases reports_of_checkProbe hc with
    | passed _ _ ha => exact ha.wired
    | failed _ _ _ ha => exact ha.wired
    | found => exact .refl s

/-- What every step and every look at the probe keep, a run keeps to its end. -/
theorem completeWithin_keeps {P : Simulation → Prop} (hstep : ∀ s, P s → P s.step)
    (hcheck : ∀ s, P s → P s.checkProbe.2) (budget : Nat) {s : Simulation} (hs : P s) :
    P (completeWithin budget s).2 := by
  induction budget generalizing s with
  | zero => exact hs
  | succ budget ih =>
    have hnext := hcheck _ (hstep _ hs)
    unfold completeWithin
    split
    · rename_i hc
      rw [hc] at hnext
      exact hnext
    · rename_i hc
      rw [hc] at hnext
      split
      · exact hnext
      · exact ih hnext

theorem complete_wired (s : Simulation) : Wired s s.complete.2 :=
  completeWithin_keeps (fun r hr => hr.trans r.step_wired) (fun r hr => hr.trans r.checkProbe_wired)
    s.config.budget (.refl s)

/-- What can be asked of a machine from outside: to run, to look at the probe, and to serve a call on
its memory. -/
inductive Request where
  | step
  | run (budget : Nat)
  | complete
  | checkProbe
  | access (call : Call)

def Request.serve (s : Simulation) : Request → Simulation
  | step => s.step
  | run budget => (s.run budget).2
  | complete => s.complete.2
  | checkProbe => s.checkProbe.2
  | access call => { s with memory := (s.memory.call call).2 }

theorem Request.serve_wired (s : Simulation) (request : Request) : Wired s (request.serve s) := by
  cases request with
  | step => exact s.step_wired
  | run budget => exact s.run_wired budget
  | complete => exact s.complete_wired
  | checkProbe => exact s.checkProbe_wired
  | access call =>
    obtain ⟨hb, hz⟩ := call_geometry s.memory call
    exact ⟨hb, hz, rfl, rfl⟩

theorem serveAll_wired (s : Simulation) (requests : List Request) :
    Wired s (requests.foldl Request.serve s) := by
  induction requests generalizing s with
  | nil => exact .refl s
  | cons request requests ih => exact (request.serve_wired s).trans (ih _)

/-- The ways a look at the probe can go if no access is refused. -/
inductive Looked (s : Simulation) : Option Outcome × Simulation → Prop where
  | unwatched (hp : s.probe = none) : Looked s (none, s)
  | compared {addr value found : Word} (hp : s.probe = some (.sentinel addr value))
      (hl : s.memory.load .word addr = .ok found) :
      Looked s (if found = value then some .passed else none, s)
  | empty {addr : Word} (hp : s.probe = some (.tohost addr))
      (hl : s.memory.load .word addr = .ok 0) : Looked s (none, s)
  | taken {addr value : Word} {o : Outcome} {m : Memory} (hp : s.probe = some (.tohost addr))
      (hl : s.memory.load .word addr = .ok value) (ho : Outcome.ofTohost? value = some o)
      (hf : s.fromhost = none) (hc : s.memory.store .word addr 0 = .ok m) :
      Looked s (some o, { s with memory := m })
  | handedBack {addr value fromhost : Word} {o : Outcome} {m m' : Memory}
      (hp : s.probe = some (.tohost addr)) (hl : s.memory.load .word addr = .ok value)
      (ho : Outcome.ofTohost? value = some o) (hf : s.fromhost = some fromhost)
      (hc : s.memory.store .word addr 0 = .ok m) (hb : m.store .word fromhost value = .ok m') :
      Looked s (some o, { s with memory := m' })

theorem looked {s : Simulation} (hw : ∀ a ∈ s.mailboxes, s.memory.HasWord a) :
    Looked s s.checkProbe := by
  cases hp : s.probe with
  | none =>
    rw [checkProbe, hp]
    exact .unwatched hp
  | some p =>
    have hword : s.memory.HasWord p.addr := hw _ (mem_mailboxes.mpr (.inl ⟨p, hp, rfl⟩))
    obtain ⟨value, hl⟩ := (load_word_iff _ _).mpr hword
    cases p with
    | sentinel addr expected =>
      change s.memory.load .word addr = _ at hl
      simp only [checkProbe, hp, hl]
      exact .compared hp hl
    | tohost addr =>
      change s.memory.load .word addr = _ at hl
      simp only [checkProbe, hp, hl]
      cases ho : Outcome.ofTohost? value with
      | none =>
        rw [Outcome.ofTohost?_eq_none_iff.mp ho] at hl
        exact .empty hp hl
      | some o =>
        have hc := store_put hword 0
        cases hf : s.fromhost with
        | none =>
          simp only [acknowledge_of_none hf]
          exact .taken hp hl ho hf hc
        | some fromhost =>
          have hword' := hw _ (mem_mailboxes.mpr (.inr hf))
          simp only [acknowledge_of_some hf]
          exact .handedBack hp hl ho hf hc
            (store_put (hword'.congr (put_geometry _ _ _)) value)

/-- What a look at the probe hands back, and what it leaves alone. -/
structure Discreet (s : Simulation) : Prop where
  looked : Looked s s.checkProbe
  handedBack : ∀ addr fromhost value, s.probe = some (.tohost addr) → s.fromhost = some fromhost →
    s.memory.load .word addr = .ok value → s.checkProbe.1 ≠ none →
    s.checkProbe.2.memory.load .word fromhost = .ok value
  hart : s.checkProbe.2.hart = s.hart
  cycles : s.checkProbe.2.cycles = s.cycles
  elsewhere : ∀ a, (∀ b ∈ s.mailboxes, a < b.toNat ∨ b.toNat + 4 ≤ a) →
    s.checkProbe.2.memory.view.byte a = s.memory.view.byte a
  unchanged : (s.checkProbe.1 = none ∨ ∃ addr value, s.probe = some (.sentinel addr value)) →
    s.checkProbe.2 = s

theorem Looked.hart_cycles {s s' : Simulation} {answer : Option Outcome}
    (h : Looked s (answer, s')) : s'.hart = s.hart ∧ s'.cycles = s.cycles := by
  cases h <;> exact ⟨rfl, rfl⟩

theorem Looked.unchanged {s s' : Simulation} {answer : Option Outcome}
    (h : Looked s (answer, s'))
    (hq : answer = none ∨ ∃ addr value, s.probe = some (.sentinel addr value)) : s' = s := by
  cases h with
  | unwatched => rfl
  | compared => rfl
  | empty => rfl
  | taken hp =>
    obtain hn | ⟨_, _, hs⟩ := hq
    · cases hn
    · cases hp.symm.trans hs
  | handedBack hp =>
    obtain hn | ⟨_, _, hs⟩ := hq
    · cases hn
    · cases hp.symm.trans hs

theorem Looked.load_fromhost {s s' : Simulation} {answer : Option Outcome}
    (h : Looked s (answer, s')) {addr fromhost value : Word} (hp : s.probe = some (.tohost addr))
    (hf : s.fromhost = some fromhost) (hl : s.memory.load .word addr = .ok value)
    (ha : answer ≠ none) : s'.memory.load .word fromhost = .ok value := by
  cases h with
  | unwatched => exact absurd rfl ha
  | compared hp' => cases hp.symm.trans hp'
  | empty => exact absurd rfl ha
  | taken _ _ _ hf' => cases hf.symm.trans hf'
  | handedBack hp' hl' _ hf' _ hb =>
    cases hp.symm.trans hp'
    cases hf.symm.trans hf'
    cases hl.symm.trans hl'
    exact load_store_word hb

theorem Looked.byte_elsewhere {s s' : Simulation} {answer : Option Outcome}
    (h : Looked s (answer, s')) {a : Nat}
    (ha : ∀ b ∈ s.mailboxes, a < b.toNat ∨ b.toNat + 4 ≤ a) :
    s'.memory.view.byte a = s.memory.view.byte a := by
  cases h with
  | unwatched => rfl
  | compared => rfl
  | empty => rfl
  | taken hp _ _ _ hc =>
    exact byte_store_of_outside hc (ha _ (mem_mailboxes.mpr (.inl ⟨_, hp, rfl⟩)))
  | handedBack hp _ _ hf hc hb =>
    exact (byte_store_of_outside hb (ha _ (mem_mailboxes.mpr (.inr hf)))).trans
      (byte_store_of_outside hc (ha _ (mem_mailboxes.mpr (.inl ⟨_, hp, rfl⟩))))

theorem Looked.discreet {s : Simulation} (h : Looked s s.checkProbe) : Discreet s where
  looked := h
  handedBack _ _ _ hp hf hl ha := h.load_fromhost hp hf hl ha
  hart := h.hart_cycles.1
  cycles := h.hart_cycles.2
  elsewhere _ ha := h.byte_elsewhere ha
  unchanged hq := h.unchanged hq

/-- Whatever is done with a machine, its mailboxes remain words in memory, and looking at the probe
never meets a refused access and touches nothing else. -/
theorem mailboxes_stay_usable {extra : List Definition} {s : Simulation} (hb : Built extra s)
    (requests : List Request) :
    let r := requests.foldl Request.serve s
    Wired s r ∧
    (∀ a ∈ r.mailboxes, r.memory.HasWord a ∧ (∃ v, r.memory.load .word a = .ok v) ∧
      ∀ v, ∃ m, r.memory.store .word a v = .ok m) ∧
    Discreet r := by
  intro r
  have hwired : Wired s r := serveAll_wired s requests
  have hw : ∀ a ∈ r.mailboxes, r.memory.HasWord a := by
    intro a ha
    rw [hwired.mailboxes] at ha
    exact hwired.hasWord (hb.hasWord ha)
  refine ⟨hwired, fun a ha => ?_, (looked hw).discreet⟩
  exact ⟨hw a ha, (load_word_iff _ _).mpr (hw a ha), fun v => (store_word_iff _ _ v).mpr (hw a ha)⟩

/-- A file with nothing but the symbols of two mailboxes. The hart stops at once, a message is put
into one mailbox from outside, and the host hands it back by the other. -/
theorem mailboxes_stay_usable_symbols :
    let file := bytesOfWords
      [0x464C457F, 0x10101, 0, 0, 0xF30002, 1, 0, 0, 52, 0, 0x200034, 0x280000, 2,
       0, 2, 0, 0, 132, 32, 1, 0, 4, 16, 0, 3, 0, 0, 164, 16, 0, 0, 1, 0,
       0, 16, 4, 0x10000, 7, 24, 4, 0x10000, 0x6F686F74, 0x66007473, 0x686D6F72, 0x74736F]
    let requests := [Request.step, .access (.store .word 16 7)]
    ∃ s, ofConfig (fun _ => .ok file)
        { program := some "p", format := some .elf, memory := ⟨0, 32⟩ } [] = .ok s ∧
      s.mailboxes = [16, 24] ∧ (requests.foldl Request.serve s).hart.state ≠ .running ∧
      (requests.foldl Request.serve s).checkProbe.1 = some (.failed 3) ∧
      (requests.foldl Request.serve s).checkProbe.2.memory.load .word 24 = .ok 7 := by
  intro file requests
  have hload : Load.program (fun _ => .ok file) (.empty 0 32) "p" .elf 0 =
      (.ok ⟨0, 0, some 16, some 24⟩, .empty 0 32) := by decide +kernel
  have hset := ofConfig_of_loaded
    { program := some "p", format := some .elf, memory := ⟨0, 32⟩ } [] rfl rfl hload
  have hs : ∃ s, ofConfig (fun _ => .ok file)
        { program := some "p", format := some .elf, memory := ⟨0, 32⟩ } [] = .ok s ∧
      s.mailboxes = [16, 24] ∧ (requests.foldl Request.serve s).hart.state ≠ .running ∧
      (requests.foldl Request.serve s).checkProbe.1 = some (.failed 3) ∧
      (requests.foldl Request.serve s).memory.load .word 16 = .ok 7 ∧
      (requests.foldl Request.serve s).probe = some (.tohost 16) ∧
      (requests.foldl Request.serve s).fromhost = some 24 := by
    rw [hset]
    exact ⟨_, rfl, by decide, by decide, by decide, by decide, by decide, by decide⟩
  obtain ⟨s, hs, hm, hh, ho, hl, hp, hf⟩ := hs
  obtain ⟨_, _, hd⟩ := mailboxes_stay_usable (.ofConfig hs) requests
  exact ⟨s, hs, hm, hh, ho, hd.handedBack 16 24 7 hp hf hl (by rw [ho]; exact nofun)⟩

end Simulation
end Rv32i
