import Rv32i.Registers
import Rv32i.Table.Base

namespace Rv32i

/-- A hart runs until its first trap. -/
inductive HartState where
  | running
  | halted (trap : Trap)
  deriving DecidableEq, Repr

namespace HartState

def trap? : HartState → Option Trap
  | running => none
  | halted t => some t

def isRunning (s : HartState) : Bool :=
  s.trap?.isNone

end HartState

/-- One core: registers, the address of the instruction at hand, the address to go on at, whether
it still runs, and the instructions it knows. -/
structure Hart where
  registers : Registers
  pc : Word
  nextPc : Word
  state : HartState
  table : Table

namespace Hart

/-- A hart with cleared registers that starts at `entry`. -/
def new (table : Table) (entry : Word) : Hart where
  registers := .zero
  pc := entry
  nextPc := entry + 4
  state := .running
  table := table

def readReg (h : Hart) (r : UInt8) : Word :=
  h.registers.read r

def writeReg (h : Hart) (r : UInt8) (value : Word) : Hart :=
  { h with registers := h.registers.write r value }

def setNextPc (h : Hart) (target : Word) : Hart :=
  { h with nextPc := target }

/-- Stops the hart. The address of the instruction at hand stays. -/
def halt (h : Hart) (trap : Trap) : Hart :=
  { h with nextPc := trap.pc, state := .halted trap }

end Hart

/-- Carries out an action on any kind of memory. What it has changed before a trap stays changed. -/
def Action.perform {μ : Type} [Bus μ] : Action → Hart → μ → Option Cause × Hart × μ
  | done, h, m => (none, h, m)
  | trap cause, h, m => (some cause, h, m)
  | readReg r next, h, m => (next (h.readReg r)).perform h m
  | writeReg r value next, h, m => next.perform (h.writeReg r value) m
  | readPc next, h, m => (next h.pc).perform h m
  | setNextPc target next, h, m => next.perform (h.setNextPc target) m
  | load width addr next, h, m => (next (Bus.load m width addr)).perform h m
  | store width addr value next, h, m =>
    let (answer, m') := Bus.store m width addr value
    (next answer).perform h m'

namespace Hart
variable {μ : Type} [Bus μ]

/-- Carries out a decoded word where the hart stands, without going on to the next one. -/
def execute (h : Hart) (m : μ) (i : Instruction) : Option Cause × Hart × μ :=
  match h.table.lookup i with
  | some d => (d.action i).perform h m
  | none => (some .illegalInstruction, h, m)

/-- Fetches and carries out one instruction. A trap stops the hart on that instruction, and a hart
that has stopped does nothing. -/
def step (h : Hart) (m : μ) : Hart × μ :=
  match h.state with
  | .halted _ => (h, m)
  | .running =>
    match Bus.load m .word h.pc with
    | .error e => (h.halt ⟨.fetchFault e, h.pc, 0⟩, m)
    | .ok raw =>
      match (h.setNextPc (h.pc + 4)).execute m (Instruction.decode raw) with
      | (none, h', m') => ({ h' with pc := h'.nextPc }, m')
      | (some cause, h', m') => (h'.halt ⟨cause, h.pc, raw⟩, m')

/-- Steps until the hart stops, at most `budget` times, and adds the steps taken to `count`. -/
def runFrom (count : Nat) : Nat → Hart → μ → Nat × Hart × μ
  | 0, h, m => (count, h, m)
  | budget + 1, h, m =>
    match h.state with
    | .halted _ => (count, h, m)
    | .running =>
      let (h', m') := h.step m
      runFrom (count + 1) budget h' m'

/-- Steps until the hart stops, at most `budget` times. The step that stops it counts. -/
def run (h : Hart) (m : μ) (budget : Nat) : Nat × Hart × μ :=
  runFrom 0 budget h m

end Hart
end Rv32i
