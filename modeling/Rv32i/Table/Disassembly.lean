import Rv32i.Table.Basic

namespace Rv32i

/-- The operands of a word in assembly text, with the mnemonic of the definition it belongs to.
Fences show no operands, loads and `jalr` show their address as offset and base, and words picked
by `funct7` show the shift amount instead of an immediate. -/
def Definition.assembly (d : Definition) (i : Instruction) : String :=
  let rd := Instruction.register i.rd
  let rs1 := Instruction.register i.rs1
  let rs2 := Instruction.register i.rs2
  let operands (parts : List String) := d.name ++ " " ++ String.intercalate ", " parts
  match i.format with
  | .r => operands [rd, rs1, rs2]
  | .i =>
    if i.opcode = Opcode.miscMem.bits then d.name
    else if i.opcode = Opcode.load.bits ∨ i.opcode = Opcode.jalr.bits then
      operands [rd, Text.immediate i.immI ++ "(" ++ rs1 ++ ")"]
    else if d.selector.funct7?.isSome then operands [rd, rs1, Text.decimal i.shamt.toNat]
    else operands [rd, rs1, Text.immediate i.immI]
  | .s => operands [rs2, Text.immediate i.immS ++ "(" ++ rs1 ++ ")"]
  | .b => operands [rs1, rs2, Text.immediate i.immB]
  | .u => operands [rd, Text.hex 0 (i.immU.toUInt32 >>> 12).toNat]
  | .j => operands [rd, Text.immediate i.immJ]

/-- The assembly text of a word, if the table knows it. -/
def Table.disassemble (t : Table) (i : Instruction) : Option String :=
  (t.lookup i).map (·.assembly i)

end Rv32i
