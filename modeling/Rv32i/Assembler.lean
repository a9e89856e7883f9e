import Rv32i.Instruction.Encode
import Rv32i.Instruction.Opcode

namespace Rv32i.Assembler

def lui (rd : UInt8) (imm : Int32) : Word :=
  Encode.uType Opcode.lui.bits rd imm

def auipc (rd : UInt8) (imm : Int32) : Word :=
  Encode.uType Opcode.auipc.bits rd imm

def jal (rd : UInt8) (offset : Int32) : Word :=
  Encode.jType Opcode.jal.bits rd offset

def jalr (rd rs1 : UInt8) (offset : Int32) : Word :=
  Encode.iType Opcode.jalr.bits rd 0 rs1 offset

def beq (rs1 rs2 : UInt8) (offset : Int32) : Word :=
  Encode.bType Opcode.branch.bits 0 rs1 rs2 offset

def bne (rs1 rs2 : UInt8) (offset : Int32) : Word :=
  Encode.bType Opcode.branch.bits 1 rs1 rs2 offset

def blt (rs1 rs2 : UInt8) (offset : Int32) : Word :=
  Encode.bType Opcode.branch.bits 4 rs1 rs2 offset

def bge (rs1 rs2 : UInt8) (offset : Int32) : Word :=
  Encode.bType Opcode.branch.bits 5 rs1 rs2 offset

def bltu (rs1 rs2 : UInt8) (offset : Int32) : Word :=
  Encode.bType Opcode.branch.bits 6 rs1 rs2 offset

def bgeu (rs1 rs2 : UInt8) (offset : Int32) : Word :=
  Encode.bType Opcode.branch.bits 7 rs1 rs2 offset

def lb (rd rs1 : UInt8) (offset : Int32) : Word :=
  Encode.iType Opcode.load.bits rd 0 rs1 offset

def lh (rd rs1 : UInt8) (offset : Int32) : Word :=
  Encode.iType Opcode.load.bits rd 1 rs1 offset

def lw (rd rs1 : UInt8) (offset : Int32) : Word :=
  Encode.iType Opcode.load.bits rd 2 rs1 offset

def lbu (rd rs1 : UInt8) (offset : Int32) : Word :=
  Encode.iType Opcode.load.bits rd 4 rs1 offset

def lhu (rd rs1 : UInt8) (offset : Int32) : Word :=
  Encode.iType Opcode.load.bits rd 5 rs1 offset

/-- Stores take the base register first and the stored register second. -/
def sb (rs1 rs2 : UInt8) (offset : Int32) : Word :=
  Encode.sType Opcode.store.bits 0 rs1 rs2 offset

def sh (rs1 rs2 : UInt8) (offset : Int32) : Word :=
  Encode.sType Opcode.store.bits 1 rs1 rs2 offset

def sw (rs1 rs2 : UInt8) (offset : Int32) : Word :=
  Encode.sType Opcode.store.bits 2 rs1 rs2 offset

def addi (rd rs1 : UInt8) (imm : Int32) : Word :=
  Encode.iType Opcode.opImm.bits rd 0 rs1 imm

def slti (rd rs1 : UInt8) (imm : Int32) : Word :=
  Encode.iType Opcode.opImm.bits rd 2 rs1 imm

def sltiu (rd rs1 : UInt8) (imm : Int32) : Word :=
  Encode.iType Opcode.opImm.bits rd 3 rs1 imm

def xori (rd rs1 : UInt8) (imm : Int32) : Word :=
  Encode.iType Opcode.opImm.bits rd 4 rs1 imm

def ori (rd rs1 : UInt8) (imm : Int32) : Word :=
  Encode.iType Opcode.opImm.bits rd 6 rs1 imm

def andi (rd rs1 : UInt8) (imm : Int32) : Word :=
  Encode.iType Opcode.opImm.bits rd 7 rs1 imm

/-- Immediate shifts are laid out like register operations, the amount in the second source. -/
def slli (rd rs1 shamt : UInt8) : Word :=
  Encode.rType Opcode.opImm.bits rd 1 rs1 shamt 0

def srli (rd rs1 shamt : UInt8) : Word :=
  Encode.rType Opcode.opImm.bits rd 5 rs1 shamt 0

def srai (rd rs1 shamt : UInt8) : Word :=
  Encode.rType Opcode.opImm.bits rd 5 rs1 shamt 0x20

def add (rd rs1 rs2 : UInt8) : Word :=
  Encode.rType Opcode.op.bits rd 0 rs1 rs2 0

def sub (rd rs1 rs2 : UInt8) : Word :=
  Encode.rType Opcode.op.bits rd 0 rs1 rs2 0x20

def sll (rd rs1 rs2 : UInt8) : Word :=
  Encode.rType Opcode.op.bits rd 1 rs1 rs2 0

def slt (rd rs1 rs2 : UInt8) : Word :=
  Encode.rType Opcode.op.bits rd 2 rs1 rs2 0

def sltu (rd rs1 rs2 : UInt8) : Word :=
  Encode.rType Opcode.op.bits rd 3 rs1 rs2 0

def xor (rd rs1 rs2 : UInt8) : Word :=
  Encode.rType Opcode.op.bits rd 4 rs1 rs2 0

def srl (rd rs1 rs2 : UInt8) : Word :=
  Encode.rType Opcode.op.bits rd 5 rs1 rs2 0

def sra (rd rs1 rs2 : UInt8) : Word :=
  Encode.rType Opcode.op.bits rd 5 rs1 rs2 0x20

def or (rd rs1 rs2 : UInt8) : Word :=
  Encode.rType Opcode.op.bits rd 6 rs1 rs2 0

def and (rd rs1 rs2 : UInt8) : Word :=
  Encode.rType Opcode.op.bits rd 7 rs1 rs2 0

/-- The fence that orders all reads and writes before it with all after it. -/
def fence : Word :=
  Encode.iType Opcode.miscMem.bits 0 0 0 0xFF

/-- The operands that a mnemonic takes, with the word it makes of them. -/
inductive Helper where
  | constant (word : Word)
  | upper (word : UInt8 → Int32 → Word)
  | immediate (word : UInt8 → UInt8 → Int32 → Word)
  | three (word : UInt8 → UInt8 → UInt8 → Word)

/-- Every mnemonic by its name. -/
def helpers : List (String × Helper) :=
  [("lui", .upper lui), ("auipc", .upper auipc), ("jal", .upper jal), ("jalr", .immediate jalr),
   ("beq", .immediate beq), ("bne", .immediate bne), ("blt", .immediate blt),
   ("bge", .immediate bge), ("bltu", .immediate bltu), ("bgeu", .immediate bgeu),
   ("lb", .immediate lb), ("lh", .immediate lh), ("lw", .immediate lw), ("lbu", .immediate lbu),
   ("lhu", .immediate lhu), ("sb", .immediate sb), ("sh", .immediate sh), ("sw", .immediate sw),
   ("addi", .immediate addi), ("slti", .immediate slti), ("sltiu", .immediate sltiu),
   ("xori", .immediate xori), ("ori", .immediate ori), ("andi", .immediate andi),
   ("slli", .three slli), ("srli", .three srli), ("srai", .three srai), ("add", .three add),
   ("sub", .three sub), ("sll", .three sll), ("slt", .three slt), ("sltu", .three sltu),
   ("xor", .three xor), ("srl", .three srl), ("sra", .three sra), ("or", .three or),
   ("and", .three and), ("fence", .constant fence)]

end Rv32i.Assembler
