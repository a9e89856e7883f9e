import Rv32i.Program.Format
import Rv32i.Simulation.Outcome
import Rv32i.Simulation.Region

namespace Rv32i

/-- What to run and how. What is left open comes from the program file. -/
structure Config where
  program : Option String := none
  format : Option ProgramFormat := none
  loadAddr : Option Word := none
  entryPc : Option Word := none
  memory : Region := {}
  maxCycles : UInt64 := 1000000
  result : Option Probe := none
  deriving DecidableEq, Repr

namespace Config

/-- Programs without addresses of their own go to the start of memory. -/
def startAddr (c : Config) : Word :=
  c.loadAddr.getD c.memory.base

/-- How many instructions a run may take. A limit of 0 stands for none but the greatest. -/
def budget (c : Config) : Nat :=
  if c.maxCycles = 0 then UInt64.size - 1 else c.maxCycles.toNat

theorem budget_pos (c : Config) : 0 < c.budget := by
  unfold budget
  split
  · decide
  · rename_i h
    have : c.maxCycles.toNat ≠ 0 := fun h' => h (UInt64.toNat.inj h')
    omega

end Config
end Rv32i
