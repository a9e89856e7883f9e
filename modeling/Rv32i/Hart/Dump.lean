import Rv32i.Hart.Basic

namespace Rv32i

def HartState.text : HartState → String
  | running => "Running"
  | halted t => Text.tuple "Halted" [t.text]

def Registers.text (x : Registers) : String :=
  Text.record "RegFile" [("regs", Text.list (x.toList.map fun w => Text.decimal w.toNat))]

namespace Hart

/-- A register with its number, its calling-convention name in four places, and its value. -/
def dumpCell (number : Nat) (name : String) (value : Word) : String :=
  "x" ++ Text.digits 10 2 number ++ "/" ++ Text.padRight 4 name ++ " " ++ Text.hexWord value

/-- Cells from `number` on, four in a line. -/
def dumpCells : Nat → List (String × Word) → String
  | _, [] => ""
  | number, (name, value) :: cells =>
    dumpCell number name value ++ (if number % 4 = 3 then "\n" else "  ") ++
      dumpCells (number + 1) cells

/-- Address, state and all registers as lines of text. -/
def dump (h : Hart) : String :=
  "pc: " ++ Text.hexWord h.pc ++ "  state: " ++ h.state.text ++ "\n" ++
    dumpCells 0 (Registers.abiNames.zip h.registers.toList)

/-- The whole hart on one line. -/
def text (h : Hart) : String :=
  Text.record "CpuCore" [("pc", Text.hexWord h.pc), ("state", h.state.text),
    ("regs", h.registers.text)]

end Hart
end Rv32i
