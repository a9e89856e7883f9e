import Rv32i.Config.Basic
import Rv32i.Hart.Basic

namespace Rv32i

/-- A hart with its memory, the number of instructions tried so far, and the words by which the
program talks to its host. -/
structure Simulation where
  hart : Hart
  memory : Memory
  config : Config
  cycles : Nat
  probe : Option Probe
  fromhost : Option Word

namespace Simulation

/-- Carries out one instruction. Only a running hart counts it. -/
def step (s : Simulation) : Simulation :=
  match s.hart.state with
  | .halted _ => s
  | .running =>
    let (hart, memory) := s.hart.step s.memory
    { s with hart, memory, cycles := s.cycles + 1 }

/-- A simulation whose hart has stopped stays as it is. -/
theorem step_of_halted {s : Simulation} {t : Trap} (h : s.hart.state = .halted t) :
    s.step = s := by
  simp [step, h]

/-- Carries out up to `budget` instructions, without regard to the probe, and tells how many. -/
def run (s : Simulation) (budget : Nat) : Nat × Simulation :=
  let (executed, hart, memory) := s.hart.run s.memory budget
  (executed, { s with hart, memory, cycles := s.cycles + executed })

/-- Stores a word where it fits. -/
def put (m : Memory) (addr value : Word) : Memory :=
  match m.store .word addr value with
  | .ok m' => m'
  | .error _ => m

/-- Clears the message `value` and hands it back by the other mailbox. -/
def acknowledge (s : Simulation) (tohost value : Word) : Simulation :=
  let cleared := put s.memory tohost 0
  match s.fromhost with
  | none => { s with memory := cleared }
  | some addr => { s with memory := put cleared addr value }

/-- Looks at the probe. A message found in the mailbox is acknowledged. -/
def checkProbe (s : Simulation) : Option Outcome × Simulation :=
  match s.probe with
  | none => (none, s)
  | some (.tohost addr) =>
    match s.memory.load .word addr with
    | .error _ => (none, s)
    | .ok value =>
      match Outcome.ofTohost? value with
      | none => (none, s)
      | some outcome => (some outcome, s.acknowledge addr value)
  | some (.sentinel addr value) =>
    match s.memory.load .word addr with
    | .error _ => (none, s)
    | .ok found => (if found = value then some .passed else none, s)

/-- A probe that reports nothing has changed nothing. -/
theorem checkProbe_of_none {s s' : Simulation} (h : s.checkProbe = (none, s')) : s' = s := by
  unfold checkProbe at h
  split at h
  · cases h; rfl
  · split at h
    · cases h; rfl
    · split at h
      · cases h; rfl
      · cases h
  · split at h
    · cases h; rfl
    · exact (Prod.mk.inj h).2.symm

/-- Carries out up to `budget` instructions with a look at the probe after each. What the probe
reports goes before a trap. -/
def completeWithin : Nat → Simulation → Outcome × Simulation
  | 0, s => (.cycleLimit, s)
  | budget + 1, s =>
    match s.step.checkProbe with
    | (some outcome, s') => (outcome, s')
    | (none, s') =>
      match s'.hart.state with
      | .halted trap => (.crashed trap, s')
      | .running => completeWithin budget s'

/-- Runs until the probe reports, the hart stops or the limit of the configuration is reached. -/
def complete (s : Simulation) : Outcome × Simulation :=
  completeWithin s.config.budget s

end Simulation
end Rv32i
