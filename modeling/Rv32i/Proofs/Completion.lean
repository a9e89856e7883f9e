import Mathlib.Logic.Function.Iterate
import Mathlib.Order.Bounds.Basic
import Rv32i.Proofs.Words
import Rv32i.Simulation.Basic

namespace Rv32i

/-- A message of 1 is a pass, and every greater one carries the number of a failed test. -/
theorem Outcome.ofTohost?_eq_some_iff {value : Word} {o : Outcome} :
    ofTohost? value = some o ↔
      value = 1 ∧ o = passed ∨ 2 ≤ value ∧ o = failed (value >>> 1) := by
  have hlarge : value ≠ 0 → value ≠ 1 → 2 ≤ value := by
    intro h0 h1
    rw [ne_eq, ← UInt32.toNat_inj] at h0 h1
    rw [UInt32.le_iff_toNat_le]
    change ¬ value.toNat = 0 at h0
    change ¬ value.toNat = 1 at h1
    change 2 ≤ value.toNat
    omega
  have hsmall : 2 ≤ value → value ≠ 0 ∧ value ≠ 1 := by
    intro h
    refine ⟨?_, ?_⟩
    · rintro rfl
      exact absurd h (by decide)
    · rintro rfl
      exact absurd h (by decide)
  unfold ofTohost?
  split
  · rename_i h0
    simp [h0]
  · rename_i h0
    split
    · rename_i h1
      simp [h1, eq_comm]
    · rename_i h1
      simp [h1, hlarge h0 h1, eq_comm]

namespace Simulation
open Memory

theorem put_of_ok {m m' : Memory} {addr value : Word} (h : m.store .word addr value = .ok m') :
    put m addr value = m' := by
  rw [put, h]

theorem put_of_error {m : Memory} {addr value : Word} {e : AccessError}
    (h : m.store .word addr value = .error e) : put m addr value = m := by
  rw [put, h]

theorem acknowledge_of_none {s : Simulation} (hf : s.fromhost = none) (tohost value : Word) :
    s.acknowledge tohost value = { s with memory := put s.memory tohost 0 } := by
  unfold acknowledge
  split
  · rfl
  · rename_i h
    cases hf.symm.trans h

theorem acknowledge_of_some {s : Simulation} {fromhost : Word} (hf : s.fromhost = some fromhost)
    (tohost value : Word) : s.acknowledge tohost value =
      { s with memory := put (put s.memory tohost 0) fromhost value } := by
  unfold acknowledge
  split
  · rename_i h
    cases hf.symm.trans h
  · rename_i h
    cases hf.symm.trans h
    rfl

/-- Memory once the message `value` is acknowledged: its mailbox is cleared, and the message is
handed back by the other mailbox. It is lost if that one is not a word in memory. -/
inductive Acknowledged (s : Simulation) (tohost value : Word) : Memory → Prop where
  | cleared {m : Memory} (hf : s.fromhost = none) (hc : s.memory.store .word tohost 0 = .ok m) :
      Acknowledged s tohost value m
  | handedBack {fromhost : Word} {m m' : Memory} (hf : s.fromhost = some fromhost)
      (hc : s.memory.store .word tohost 0 = .ok m)
      (hb : m.store .word fromhost value = .ok m') : Acknowledged s tohost value m'
  | lost {fromhost : Word} {m : Memory} {e : AccessError} (hf : s.fromhost = some fromhost)
      (hc : s.memory.store .word tohost 0 = .ok m)
      (hb : m.store .word fromhost value = .error e) : Acknowledged s tohost value m

theorem Acknowledged.eq {s : Simulation} {tohost value : Word} {m : Memory}
    (h : s.Acknowledged tohost value m) :
    s.acknowledge tohost value = { s with memory := m } := by
  cases h with
  | cleared hf hc => rw [acknowledge_of_none hf, put_of_ok hc]
  | handedBack hf hc hb => rw [acknowledge_of_some hf, put_of_ok hc, put_of_ok hb]
  | lost hf hc hb => rw [acknowledge_of_some hf, put_of_ok hc, put_of_error hb]

/-- A mailbox with a message is a word in memory, so it can be cleared. -/
theorem exists_acknowledged {s : Simulation} {tohost value : Word}
    (hl : s.memory.load .word tohost = .ok value) : ∃ m, s.Acknowledged tohost value m := by
  obtain ⟨m, hc⟩ := (store_word_iff _ _ 0).mpr ((load_word_iff _ _).mp ⟨value, hl⟩)
  cases hf : s.fromhost with
  | none => exact ⟨m, .cleared hf hc⟩
  | some fromhost =>
    cases hb : m.store .word fromhost value with
    | ok m' => exact ⟨m', .handedBack hf hc hb⟩
    | error e => exact ⟨m, .lost hf hc hb⟩

/-- What the probe reports, and the machine once the report is acknowledged. A sentinel is left
alone. -/
inductive Reports (s : Simulation) : Outcome → Simulation → Prop where
  | passed {addr : Word} {m : Memory} (hp : s.probe = some (.tohost addr))
      (hl : s.memory.load .word addr = .ok 1) (ha : s.Acknowledged addr 1 m) :
      Reports s .passed { s with memory := m }
  | failed {addr value : Word} {m : Memory} (hp : s.probe = some (.tohost addr))
      (hl : s.memory.load .word addr = .ok value) (hv : 2 ≤ value)
      (ha : s.Acknowledged addr value m) :
      Reports s (.failed (value >>> 1)) { s with memory := m }
  | found {addr value : Word} (hp : s.probe = some (.sentinel addr value))
      (hl : s.memory.load .word addr = .ok value) : Reports s .passed s

theorem checkProbe_of_reports {s s' : Simulation} {o : Outcome} (h : s.Reports o s') :
    s.checkProbe = (some o, s') := by
  cases h with
  | passed hp hl ha => simp [checkProbe, hp, hl, Outcome.ofTohost?, ha.eq]
  | failed hp hl hv ha =>
    have ho := Outcome.ofTohost?_eq_some_iff.mpr (.inr ⟨hv, rfl⟩)
    simp [checkProbe, hp, hl, ho, ha.eq]
  | found hp hl => simp [checkProbe, hp, hl]

theorem reports_of_checkProbe {s s' : Simulation} {o : Outcome}
    (h : s.checkProbe = (some o, s')) : s.Reports o s' := by
  unfold checkProbe at h
  split at h
  · cases h
  · rename_i addr hp
    split at h
    · cases h
    · rename_i value hl
      split at h
      · cases h
      · rename_i ho
        cases h
        obtain ⟨m, ha⟩ := exists_acknowledged hl
        rw [ha.eq]
        obtain ⟨rfl, rfl⟩ | ⟨hv, rfl⟩ := Outcome.ofTohost?_eq_some_iff.mp ho
        · exact .passed hp hl ha
        · exact .failed hp hl hv ha
  · rename_i addr value hp
    split at h
    · cases h
    · rename_i found hl
      split at h
      · rename_i hf
        cases h
        exact .found hp (hf ▸ hl)
      · cases h

theorem checkProbe_of_silent {s : Simulation} (h : ¬ ∃ o s', s.Reports o s') :
    s.checkProbe = (none, s) := by
  rcases hc : s.checkProbe with ⟨_ | o, s'⟩
  · rw [checkProbe_of_none hc]
  · exact absurd ⟨o, s', reports_of_checkProbe hc⟩ h

/-- An acknowledgement is not an instruction. -/
theorem Reports.cycles {s s' : Simulation} {o : Outcome} (h : s.Reports o s') :
    s'.cycles = s.cycles := by
  cases h with
  | passed => rfl
  | failed => rfl
  | found => rfl

/-- There is something to stop for: a report, or a hart that has stopped. -/
def Event (s : Simulation) : Prop :=
  (∃ o s', s.Reports o s') ∨ ∃ t, s.hart.state = .halted t

theorem completeWithin_of_reports {s s' : Simulation} {o : Outcome} (h : s.step.Reports o s')
    (budget : Nat) : completeWithin (budget + 1) s = (o, s') := by
  rw [completeWithin, checkProbe_of_reports h]

theorem completeWithin_of_halted {s : Simulation} {t : Trap}
    (hs : ¬ ∃ o s', s.step.Reports o s') (hh : s.step.hart.state = .halted t) (budget : Nat) :
    completeWithin (budget + 1) s = (.crashed t, s.step) := by
  rw [completeWithin, checkProbe_of_silent hs]
  simp only [hh]

theorem completeWithin_of_quiet {s : Simulation} (hq : ¬ s.step.Event) (budget : Nat) :
    completeWithin (budget + 1) s = completeWithin budget s.step := by
  obtain ⟨hs, hh⟩ := not_or.mp hq
  rw [completeWithin, checkProbe_of_silent hs]
  cases hr : s.step.hart.state with
  | running => simp only [hr]
  | halted t => exact absurd ⟨t, hr⟩ hh

/-- To stop takes no cycle, whatever the run stops for. -/
theorem completeWithin_cycles {s : Simulation} (he : s.step.Event) (budget : Nat) :
    (completeWithin (budget + 1) s).2.cycles = s.step.cycles := by
  by_cases hs : ∃ o s', s.step.Reports o s'
  · obtain ⟨o, s', h⟩ := hs
    rw [completeWithin_of_reports h]
    exact h.cycles
  · obtain ⟨t, hh⟩ := he.resolve_left hs
    rw [completeWithin_of_halted hs hh]

/-- A run goes on through every step after which there is nothing to stop for. -/
theorem completeWithin_skip {s : Simulation} {n : Nat}
    (hq : ∀ i, 1 ≤ i → i ≤ n → ¬ (step^[i] s).Event) (budget : Nat) :
    completeWithin (n + budget) s = completeWithin budget (step^[n] s) := by
  induction n generalizing budget with
  | zero => rw [Nat.zero_add, Function.iterate_zero_apply]
  | succ n ih =>
    have hlast := hq (n + 1) (Nat.le_add_left 1 n) (Nat.le_refl _)
    rw [Function.iterate_succ_apply'] at hlast
    calc completeWithin (n + 1 + budget) s
        = completeWithin (n + (budget + 1)) s := by rw [Nat.add_assoc, Nat.add_comm 1 budget]
      _ = completeWithin (budget + 1) (step^[n] s) :=
          ih (fun i h1 hn => hq i h1 (Nat.le_succ_of_le hn)) _
      _ = completeWithin budget (step (step^[n] s)) := completeWithin_of_quiet hlast budget
      _ = completeWithin budget (step^[n + 1] s) := by rw [Function.iterate_succ_apply']

/-- How many of the next `n` steps start from a running hart. -/
def runningSteps (s : Simulation) (n : Nat) : Nat :=
  (List.range n).countP fun i => (step^[i] s).hart.state.isRunning

theorem step_cycles (s : Simulation) :
    s.step.cycles = s.cycles + if s.hart.state.isRunning then 1 else 0 := by
  cases hr : s.hart.state with
  | running => simp [step, hr, HartState.isRunning, HartState.trap?]
  | halted t => simp [step, hr, HartState.isRunning, HartState.trap?]

theorem iterate_cycles (s : Simulation) (n : Nat) :
    (step^[n] s).cycles = s.cycles + s.runningSteps n := by
  induction n with
  | zero => rfl
  | succ n ih =>
    rw [Function.iterate_succ_apply', step_cycles, ih, runningSteps, runningSteps,
      List.range_succ, List.countP_append, List.countP_singleton, Nat.add_assoc]

/-- A run ends with the first step that gives something to stop for, and a report goes before a
trap. If there is no such step it takes all of its budget. -/
theorem complete_ends_first_event (s : Simulation) :
    let budget := if s.config.maxCycles = 0 then UInt64.size - 1 else s.config.maxCycles.toNat
    (∀ k, IsLeast {i | 1 ≤ i ∧ i ≤ budget ∧ (step^[i] s).Event} k →
      (∀ o s', (step^[k] s).Reports o s' → s.complete = (o, s')) ∧
      (∀ t, (¬ ∃ o s', (step^[k] s).Reports o s') → (step^[k] s).hart.state = .halted t →
        s.complete = (.crashed t, step^[k] s)) ∧
      s.complete.2.cycles = s.cycles + s.runningSteps k) ∧
    ((∀ i, 1 ≤ i → i ≤ budget → ¬ (step^[i] s).Event) →
      s.complete = (.cycleLimit, step^[budget] s) ∧
      s.complete.2.cycles = s.cycles + s.runningSteps budget) := by
  intro budget
  have hbudget : s.complete = completeWithin budget s := rfl
  refine ⟨fun k hk => ?_, fun hq => ?_⟩
  · obtain ⟨⟨hpos, hle, hevent⟩, hleast⟩ := hk
    obtain ⟨n, rfl⟩ := Nat.exists_eq_add_of_le' hpos
    obtain ⟨rest, hrest⟩ := Nat.exists_eq_add_of_le hle
    have hquiet : ∀ i, 1 ≤ i → i ≤ n → ¬ (step^[i] s).Event := by
      intro i h1 hn he
      have := hleast ⟨h1, by omega, he⟩
      omega
    -- all that is left of the run is the step with the event and what the budget has to spare
    have hskip : s.complete = completeWithin (rest + 1) (step^[n] s) := by
      rw [hbudget, hrest, show n + 1 + rest = n + (rest + 1) by omega, completeWithin_skip hquiet]
    rw [Function.iterate_succ_apply'] at hevent ⊢
    refine ⟨fun o s' h => ?_, fun t hs hh => ?_, ?_⟩
    · exact hskip.trans (completeWithin_of_reports h rest)
    · exact hskip.trans (completeWithin_of_halted hs hh rest)
    · rw [hskip, completeWithin_cycles hevent, ← iterate_cycles, Function.iterate_succ_apply']
  · have hend : s.complete = (.cycleLimit, step^[budget] s) :=
      hbudget.trans (completeWithin_skip hq 0)
    exact ⟨hend, by rw [hend, iterate_cycles]⟩

-- the hart stops at a word of zeros, and what the sentinel waits for is there all the same
example :
    let s : Simulation := ⟨.new Table.base 0, .empty 0 8, {}, 0, some (.sentinel 4 0), none⟩
    s.complete.1 = .passed ∧ s.complete.2.hart.state.isRunning = false := by
  decide

end Simulation
end Rv32i
