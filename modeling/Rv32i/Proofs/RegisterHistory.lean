import Mathlib.Data.List.Induction
import Rv32i.Proofs.Traps

namespace Rv32i

namespace Registers

/-- A value on its way to a register. The number may be any, of which five bits count. -/
structure Write where
  reg : UInt8
  value : Word

/-- The registers after some writes, the first of them first. -/
def replay (x : Registers) (ws : List Write) : Registers :=
  ws.foldl (fun x w => x.write w.reg w.value) x

/-- What the last write to a register with this number modulo 32 has brought, if there was one. -/
def lastValue (ws : List Write) (r : UInt8) : Option Word :=
  (ws.reverse.find? fun w => w.reg.toNat % 32 == r.toNat % 32).map Write.value

theorem replay_append (x : Registers) (ws vs : List Write) :
    x.replay (ws ++ vs) = (x.replay ws).replay vs :=
  List.foldl_append

theorem index_eq_iff {r s : UInt8} : index r = index s ↔ r.toNat % 32 = s.toNat % 32 :=
  Fin.ext_iff

theorem index_eq_zero_iff {r : UInt8} : index r = 0 ↔ r.toNat % 32 = 0 :=
  Fin.ext_iff

theorem lastValue_concat (ws : List Write) (w : Write) (r : UInt8) :
    lastValue (ws ++ [w]) r =
      if w.reg.toNat % 32 = r.toNat % 32 then some w.value else lastValue ws r := by
  rw [lastValue, List.reverse_append, List.reverse_singleton, List.singleton_append]
  by_cases h : w.reg.toNat % 32 = r.toNat % 32
  · rw [List.find?_cons_of_pos (by simpa using h), if_pos h]
    rfl
  · rw [List.find?_cons_of_neg (by simpa using h), if_neg h]
    rfl

/-- A register other than 0 holds what was written last, or what it held before. -/
theorem read_replay (x : Registers) (ws : List Write) (r : UInt8) :
    (x.replay ws).read r =
      if r.toNat % 32 = 0 then x.read r else (lastValue ws r).getD (x.read r) := by
  induction ws using List.reverseRecOn with
  | nil => simp [replay, lastValue]
  | append_singleton ws w ih =>
    rw [replay_append, lastValue_concat]
    change ((x.replay ws).write w.reg w.value).read r = _
    simp only [read_write, ih, index_eq_iff, index_eq_zero_iff, ne_eq]
    by_cases hw : w.reg.toNat % 32 = r.toNat % 32
    · by_cases h0 : r.toNat % 32 = 0
      · simp [hw, h0]
      · simp [hw, h0]
    · simp [hw]

theorem toList_head? (x : Registers) : x.toList.head? = some (x.read 0) := by
  rw [toList, List.head?_eq_getElem?, Vector.getElem?_toList]
  exact Vector.getElem?_eq_getElem (by decide)

end Registers

/-- The writes to registers that an action makes, in their order. -/
def Action.writes {μ : Type} [Bus μ] : Action → Hart → μ → List Registers.Write
  | done, _, _ => []
  | trap _, _, _ => []
  | readReg r next, h, m => (next (h.readReg r)).writes h m
  | writeReg r value next, h, m => ⟨r, value⟩ :: next.writes (h.writeReg r value) m
  | readPc next, h, m => (next h.pc).writes h m
  | setNextPc target next, h, m => next.writes (h.setNextPc target) m
  | load width addr next, h, m => (next (Bus.load m width addr)).writes h m
  | store width addr value next, h, m =>
    let (answer, m') := Bus.store m width addr value
    (next answer).writes h m'

/-- Of all that an action does, only its writes change registers, whatever memory answers. -/
theorem Action.perform_registers {μ : Type} [Bus μ] (a : Action) (h : Hart) (m : μ) :
    (a.perform h m).2.1.registers = h.registers.replay (a.writes h m) := by
  induction a generalizing h m with
  | done => rfl
  | trap cause => rfl
  | readReg r next ih => exact ih _ h m
  | writeReg r value next ih => exact ih (h.writeReg r value) m
  | readPc next ih => exact ih _ h m
  | setNextPc target next ih => exact ih (h.setNextPc target) m
  | load width addr next ih => exact ih _ h m
  | store width addr value next ih => exact ih _ h _

namespace Hart
open Registers

section Bus
variable {μ : Type} [Bus μ]

/-- The writes of a decoded word, if the hart knows it. -/
def executeWrites (h : Hart) (m : μ) (i : Instruction) : List Write :=
  match h.table.lookup i with
  | some d => (d.action i).writes h m
  | none => []

/-- The writes of one step. -/
def stepWrites (h : Hart) (m : μ) : List Write :=
  match h.state with
  | .halted _ => []
  | .running =>
    match Bus.load m .word h.pc with
    | .error _ => []
    | .ok raw => (h.setNextPc (h.pc + 4)).executeWrites m (.decode raw)

/-- The writes of so many steps. -/
def runWrites : Nat → Hart → μ → List Write
  | 0, _, _ => []
  | n + 1, h, m => h.stepWrites m ++ runWrites n (h.step m).1 (h.step m).2

theorem execute_registers (h : Hart) (m : μ) (i : Instruction) :
    (h.execute m i).2.1.registers = h.registers.replay (h.executeWrites m i) := by
  unfold execute executeWrites
  cases h.table.lookup i with
  | some d => exact (d.action i).perform_registers h m
  | none => rfl

/-- What was written before a trap stays. -/
theorem step_registers (h : Hart) (m : μ) :
    (h.step m).1.registers = h.registers.replay (h.stepWrites m) := by
  unfold step stepWrites
  cases h.state with
  | halted t => rfl
  | running =>
    cases hl : Bus.load m .word h.pc with
    | error e => rfl
    | ok raw =>
      have hx := (h.setNextPc (h.pc + 4)).execute_registers m (.decode raw)
      rcases he : (h.setNextPc (h.pc + 4)).execute m (.decode raw) with ⟨answer, h', m'⟩
      rw [he] at hx
      simp only [he]
      cases answer with
      | none => exact hx
      | some cause => exact hx

theorem runFrom_registers (count n : Nat) (h : Hart) (m : μ) :
    (runFrom count n h m).2.1.registers = h.registers.replay (runWrites n h m) := by
  induction n generalizing count h m with
  | zero => rfl
  | succ n ih =>
    rw [runWrites, replay_append, ← step_registers]
    cases hr : h.state with
    | running => rw [runFrom_running count n m hr, ih]
    | halted t =>
      rw [runFrom_halted count (n + 1) m hr, ← ih count, step_halted m hr,
        runFrom_halted count n m hr]

end Bus

/-- What can be done with a hart from outside. Each time it may be given another memory, of another
kind, which answers loads and stores as it likes. -/
inductive Use : Type 1 where
  | step {μ : Type} [Bus μ] (m : μ)
  | run {μ : Type} [Bus μ] (m : μ) (budget : Nat)
  | execute {μ : Type} [Bus μ] (m : μ) (i : Instruction)
  | writeReg (r : UInt8) (value : Word)
  | setNextPc (target : Word)

namespace Use

def serve (h : Hart) : Use → Hart
  | step m => (h.step m).1
  | run m budget => (h.run m budget).2.1
  | execute m i => (h.execute m i).2.1
  | writeReg r value => h.writeReg r value
  | setNextPc target => h.setNextPc target

/-- The writes to registers that one use makes. -/
def writes (h : Hart) : Use → List Write
  | step m => h.stepWrites m
  | run m budget => runWrites budget h m
  | execute m i => h.executeWrites m i
  | writeReg r value => [⟨r, value⟩]
  | setNextPc _ => []

theorem serve_registers (h : Hart) (u : Use) :
    (u.serve h).registers = h.registers.replay (u.writes h) := by
  cases u with
  | step m => exact h.step_registers m
  | run m budget => exact runFrom_registers 0 budget h m
  | execute m i => exact h.execute_registers m i
  | writeReg r value => rfl
  | setNextPc target => rfl

end Use

/-- All writes of uses one after the other. -/
def history : Hart → List Use → List Write
  | _, [] => []
  | h, u :: us => u.writes h ++ history (u.serve h) us

theorem serveAll_registers (h : Hart) (uses : List Use) :
    (uses.foldl Use.serve h).registers = h.registers.replay (history h uses) := by
  induction uses generalizing h with
  | nil => rfl
  | cons u us ih => rw [List.foldl_cons, ih, history, replay_append, Use.serve_registers]

/-- Whatever instructions a hart knows, whatever is done with it and whatever memory answers, a
register holds what was last written to it, under any of its numbers, and 0 before the first write.
Register 0 holds 0. -/
theorem registers_hold_last_write (table : Table) (entry : Word) (uses : List Use) :
    let h := uses.foldl Use.serve (.new table entry)
    let ws := history (.new table entry) uses
    h.registers.toList.head? = some 0 ∧
    ∀ r : UInt8, h.readReg r = if r.toNat % 32 = 0 then 0 else (lastValue ws r).getD 0 := by
  intro h ws
  have hread (r : UInt8) :
      h.readReg r = if r.toNat % 32 = 0 then 0 else (lastValue ws r).getD 0 := by
    rw [readReg, serveAll_registers, read_replay]
    change (if _ then zero.read r else (lastValue ws r).getD (zero.read r)) = _
    rw [read_zero]
  refine ⟨?_, hread⟩
  rw [toList_head?]
  exact congrArg some (hread 0)

end Hart
end Rv32i
