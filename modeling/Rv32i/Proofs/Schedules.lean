import Rv32i.Proofs.WordPrograms

namespace Rv32i.Simulation

/-- A call that drives a machine on: one instruction, or up to so many at once. -/
inductive Drive where
  | step
  | run (budget : Nat)

def Drive.budget : Drive → Nat
  | step => 1
  | run budget => budget

/-- Serves the call and tells how many instructions it took. -/
def Drive.serve (s : Simulation) : Drive → Nat × Simulation
  | step => (if s.hart.state.isRunning then 1 else 0, s.step)
  | run budget => s.run budget

/-- Serves calls one after the other and adds up the instructions they took. -/
def drive : Simulation → List Drive → Nat × Simulation
  | s, [] => (0, s)
  | s, d :: ds =>
    let (count, s') := d.serve s
    let (rest, last) := drive s' ds
    (count + rest, last)

/-- How many instructions the calls may take together. -/
def totalBudget : List Drive → Nat
  | [] => 0
  | d :: ds => d.budget + totalBudget ds

theorem iterate_of_halted {s : Simulation} {t : Trap} (hh : s.hart.state = .halted t) (n : Nat) :
    step^[n] s = s :=
  Function.iterate_fixed (step_of_halted hh) n

/-- The loop with its own count does what single steps do. `start` is what the cycles were when the
count was 0. -/
theorem runFrom_eq_iterate {s : Simulation} {start count : Nat} (hc : s.cycles = start + count)
    (n : Nat) :
    { s with
      hart := (Hart.runFrom count n s.hart s.memory).2.1
      memory := (Hart.runFrom count n s.hart s.memory).2.2
      cycles := start + (Hart.runFrom count n s.hart s.memory).1 } = step^[n] s := by
  induction n generalizing s count with
  | zero =>
    simp only [Hart.runFrom, ← hc]
    rfl
  | succ n ih =>
    cases hr : s.hart.state with
    | halted t =>
      rw [Hart.runFrom_halted count (n + 1) s.memory hr, iterate_of_halted hr, ← hc]
    | running =>
      have hstep : s.step = { s with
          hart := (s.hart.step s.memory).1
          memory := (s.hart.step s.memory).2
          cycles := s.cycles + 1 } := by
        simp only [step, hr]
      have hnext : s.step.cycles = start + (count + 1) := by
        rw [hstep, ← Nat.add_assoc, ← hc]
      rw [Function.iterate_succ_apply, ← ih hnext, Hart.runFrom_running count n s.memory hr, hstep]

theorem run_snd (s : Simulation) (n : Nat) : (s.run n).2 = step^[n] s :=
  runFrom_eq_iterate (Nat.add_zero s.cycles).symm n

theorem run_fst (s : Simulation) (n : Nat) : (s.run n).1 = s.runningSteps n := by
  have hrun : (s.run n).2.cycles = s.cycles + (s.run n).1 := rfl
  rw [run_snd, iterate_cycles] at hrun
  exact (Nat.add_left_cancel hrun).symm

/-- A run is so many steps, of which those count that started from a running hart. -/
theorem run_eq_iterate (s : Simulation) (n : Nat) : s.run n = (s.runningSteps n, step^[n] s) :=
  Prod.ext (s.run_fst n) (s.run_snd n)

theorem runningSteps_add (s : Simulation) (a b : Nat) :
    s.runningSteps (a + b) = s.runningSteps a + (step^[a] s).runningSteps b := by
  have hsum := s.iterate_cycles (a + b)
  rw [Nat.add_comm a b, Function.iterate_add_apply, iterate_cycles, iterate_cycles,
    Nat.add_comm b a] at hsum
  omega

theorem runningSteps_one (s : Simulation) :
    s.runningSteps 1 = if s.hart.state.isRunning then 1 else 0 := by
  have h := s.iterate_cycles 1
  rw [Function.iterate_one, step_cycles] at h
  exact (Nat.add_left_cancel h).symm

theorem serve_eq_iterate (s : Simulation) (d : Drive) :
    d.serve s = (s.runningSteps d.budget, step^[d.budget] s) := by
  cases d with
  | step => rw [Drive.serve, Drive.budget, runningSteps_one, Function.iterate_one]
  | run budget => exact s.run_eq_iterate budget

/-- However the calls cut it up, it is the same row of steps. -/
theorem drive_eq_iterate (s : Simulation) (drives : List Drive) :
    s.drive drives = (s.runningSteps (totalBudget drives), step^[totalBudget drives] s) := by
  induction drives generalizing s with
  | nil => rfl
  | cons d ds ih =>
    rw [drive, serve_eq_iterate]
    simp only [ih, totalBudget]
    rw [runningSteps_add, Nat.add_comm d.budget, Function.iterate_add_apply]

theorem runningSteps_of_running {s : Simulation} {n : Nat}
    (h : ∀ k < n, (step^[k] s).hart.state = .running) : s.runningSteps n = n := by
  induction n with
  | zero => rfl
  | succ n ih =>
    have hlast := h n (Nat.lt_succ_self n)
    have hone : (step^[n] s).runningSteps 1 = 1 := by
      rw [runningSteps_one, hlast]
      rfl
    rw [runningSteps_add, hone, ih fun k hk => h k (Nat.lt_succ_of_lt hk)]

theorem runningSteps_of_halted {s : Simulation} {t : Trap} (hh : s.hart.state = .halted t)
    (n : Nat) : s.runningSteps n = 0 := by
  have h := s.iterate_cycles n
  rw [iterate_of_halted hh] at h
  omega

/-- A hart that has stopped remains so. -/
theorem iterate_halted_of_le {s : Simulation} {t : Trap} {j k : Nat} (hle : j ≤ k)
    (hh : (step^[j] s).hart.state = .halted t) : step^[k] s = step^[j] s := by
  obtain ⟨d, rfl⟩ := Nat.exists_eq_add_of_le' hle
  rw [Function.iterate_add_apply, iterate_of_halted hh]

theorem running_of_le {s : Simulation} {j k : Nat} (hle : j ≤ k)
    (hr : (step^[k] s).hart.state = .running) : (step^[j] s).hart.state = .running := by
  cases hj : (step^[j] s).hart.state with
  | running => rfl
  | halted t =>
    rw [iterate_halted_of_le hle hj, hj] at hr
    cases hr

/-- The step that stops the hart is the last one that counts. -/
theorem runningSteps_isLeast {s : Simulation} {n : Nat} {t : Trap}
    (hh : (step^[n] s).hart.state = .halted t) :
    IsLeast {k | (step^[k] s).hart.state = .halted t} (s.runningSteps n) := by
  have hex : ∃ k, (step^[k] s).hart.state = .halted t := ⟨n, hh⟩
  have hfirst := Nat.find_spec hex
  have hle : Nat.find hex ≤ n := Nat.find_min' hex hh
  have hbefore : ∀ k < Nat.find hex, (step^[k] s).hart.state = .running := by
    intro k hk
    cases hr : (step^[k] s).hart.state with
    | running => rfl
    | halted t' =>
      -- it would be stopped by the same trap still, and earlier than at first
      have hsame := iterate_halted_of_le (Nat.le_of_lt hk) hr
      rw [hsame, hr] at hfirst
      exact absurd (hr.trans hfirst) (Nat.find_min hex hk)
  have hcount : s.runningSteps n = Nat.find hex := by
    obtain ⟨d, hd⟩ := Nat.exists_eq_add_of_le hle
    rw [hd, runningSteps_add, runningSteps_of_running hbefore, runningSteps_of_halted hfirst,
      Nat.add_zero]
  rw [hcount]
  exact ⟨hfirst, fun k hk => Nat.find_min' hex hk⟩

/-- How a run ends that no probe ends. -/
def unwatchedOutcome : HartState → Outcome
  | .running => .cycleLimit
  | .halted t => .crashed t

theorem not_reports_of_unwatched {s : Simulation} (hp : s.probe = none) :
    ¬ ∃ o s', s.Reports o s' := by
  rintro ⟨o, s', h⟩
  cases h with
  | passed hp' => cases hp.symm.trans hp'
  | failed hp' => cases hp.symm.trans hp'
  | found hp' => cases hp.symm.trans hp'

theorem completeWithin_succ_unwatched {s : Simulation} (hp : s.probe = none) (n : Nat) :
    completeWithin (n + 1) s =
      match s.step.hart.state with
      | .halted t => (.crashed t, s.step)
      | .running => completeWithin n s.step := by
  have hs := not_reports_of_unwatched (s.step_wired.probe.trans hp)
  cases hr : s.step.hart.state with
  | halted t => exact completeWithin_of_halted hs hr n
  | running =>
    refine completeWithin_of_quiet ?_ n
    rintro (h | ⟨t, h⟩)
    · exact hs h
    · cases hr.symm.trans h

/-- Without a probe, running to the end is running. -/
theorem completeWithin_unwatched {s : Simulation} (hp : s.probe = none) (n : Nat) :
    completeWithin (n + 1) s =
      (unwatchedOutcome (step^[n + 1] s).hart.state, step^[n + 1] s) := by
  induction n generalizing s with
  | zero =>
    rw [completeWithin_succ_unwatched hp, Function.iterate_one]
    cases hr : s.step.hart.state <;> rfl
  | succ n ih =>
    rw [completeWithin_succ_unwatched hp, Function.iterate_succ_apply]
    cases hr : s.step.hart.state with
    | halted t =>
      rw [iterate_of_halted hr, hr]
      rfl
    | running => exact ih (s.step_wired.probe.trans hp)

/-- It does not matter how a machine is driven: calls of any kind that may take `n` instructions
together leave it where one run of `n` does and take as many instructions. These are what the cycles
count: all `n`, unless the hart stops, and then those up to the one that stops it. Without a probe
a run to the end comes to the same. -/
theorem drives_agree_with_run (s : Simulation) (drives : List Drive) :
    let n := totalBudget drives
    s.drive drives = s.run n ∧
    (s.run n).2.cycles = s.cycles + (s.run n).1 ∧
    ((s.run n).2.hart.state = .running → (s.run n).1 = n) ∧
    (∀ t, (s.run n).2.hart.state = .halted t →
      IsLeast {k | (step^[k] s).hart.state = .halted t} (s.run n).1) ∧
    ∀ config : Config, s.probe = none → 1 ≤ n → config.maxCycles.toNat = n →
      ({ s with config } : Simulation).complete =
        (unwatchedOutcome (s.run n).2.hart.state, { (s.run n).2 with config }) := by
  intro n
  rw [run_eq_iterate]
  refine ⟨s.drive_eq_iterate drives, s.iterate_cycles n, fun hr => ?_, fun t hh => ?_, ?_⟩
  · exact runningSteps_of_running fun k hk => running_of_le (Nat.le_of_lt hk) hr
  · exact runningSteps_isLeast hh
  · intro config hp hn hmax
    have hbudget : config.budget = n := by
      unfold Config.budget
      split
      · rename_i h0
        rw [h0] at hmax
        exact absurd hmax (Nat.ne_of_lt hn)
      · exact hmax
    obtain ⟨k, hk⟩ := Nat.exists_eq_add_of_le' hn
    rw [complete, hbudget, completeWithin_reconfigured, hk, completeWithin_unwatched hp]

/-- Two additions and a word that is no instruction, driven by steps, by a run of nothing and by
runs that go on when the hart has stopped. -/
theorem drives_agree_with_run_past_trap :
    let m : Memory := ⟨0, 16, (Cells.flat 0).write 4 0
      [0x93, 0x00, 0x10, 0x00, 0x13, 0x81, 0x20, 0x00]⟩
    let s : Simulation := ⟨.new Table.base 0, m, {}, 7, none, none⟩
    let drives : List Drive := [.step, .run 0, .run 3, .step, .run 2]
    let t : Trap := ⟨.illegalInstruction, 8, 0⟩
    s.drive drives = s.run 7 ∧ (s.run 7).1 = 3 ∧ (s.run 7).2.cycles = 10 ∧
      (s.run 7).2.hart.state = .halted t ∧
      ({ s with config := { maxCycles := 7 } } : Simulation).complete =
        (.crashed t, { (s.run 7).2 with config := { maxCycles := 7 } }) := by
  intro m s drives t
  have htotal : totalBudget drives = 7 := rfl
  have hh : (s.run 7).2.hart.state = .halted t := by decide
  obtain ⟨hdrive, -, -, -, hcomplete⟩ := drives_agree_with_run s drives
  have hend := hcomplete { maxCycles := 7 } rfl (by decide) (by decide)
  rw [htotal, hh] at hend
  exact ⟨hdrive, by decide, by decide, hh, hend⟩

end Rv32i.Simulation
