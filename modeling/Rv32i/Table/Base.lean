import Rv32i.Table.Basic

namespace Rv32i.Base

/-- Writes an operation on a register and the immediate. -/
def immediate (f : Word → Word → Word) (i : Instruction) : Action :=
  .readReg i.rs1 fun a => .writeReg i.rd (f a i.immI.toUInt32) .done

/-- Writes a shift of a register by the amount in the word. -/
def shift (f : Word → Word → Word) (i : Instruction) : Action :=
  .readReg i.rs1 fun a => .writeReg i.rd (f a i.shamt.toUInt32) .done

/-- Writes an operation on two registers. -/
def register (f : Word → Word → Word) (i : Instruction) : Action :=
  .readReg i.rs1 fun a => .readReg i.rs2 fun b => .writeReg i.rd (f a b) .done

/-- Goes on at an offset from the branch itself if the two registers satisfy `p`. -/
def branch (p : Word → Word → Bool) (i : Instruction) : Action :=
  .readReg i.rs1 fun a => .readReg i.rs2 fun b =>
    if p a b then .readPc fun pc => .setNextPc (pc + i.immB.toUInt32) .done else .done

/-- Loads from a register plus offset and widens the number to a word. -/
def load (width : Width) (widen : Word → Word) (i : Instruction) : Action :=
  .readReg i.rs1 fun a =>
    .loadOrTrap width (a + i.immI.toUInt32) fun v => .writeReg i.rd (widen v) .done

/-- Stores the low bytes of a register at a register plus offset. -/
def store (width : Width) (i : Instruction) : Action :=
  .readReg i.rs1 fun a => .readReg i.rs2 fun b => .storeOrTrap width (a + i.immS.toUInt32) b

def lui (i : Instruction) : Action :=
  .writeReg i.rd i.immU.toUInt32 .done

def auipc (i : Instruction) : Action :=
  .readPc fun pc => .writeReg i.rd (pc + i.immU.toUInt32) .done

def jal (i : Instruction) : Action :=
  .readPc fun pc => .writeReg i.rd (pc + 4) (.setNextPc (pc + i.immJ.toUInt32) .done)

/-- The target is taken from the source register before the link is written, so the two may be the
same register. -/
def jalr (i : Instruction) : Action :=
  .readReg i.rs1 fun a => .readPc fun pc =>
    .writeReg i.rd (pc + 4) (.setNextPc ((a + i.immI.toUInt32) &&& ~~~1) .done)

/-- A fence orders nothing on a machine that does one thing after the other. -/
def fence (_ : Instruction) : Action :=
  .done

def signExtend (width : Nat) (v : Word) : Word :=
  (Word.signExtend v width).toUInt32

/-- Only the low five bits of a shift amount count. -/
def shiftLeft (a b : Word) : Word :=
  a <<< (b &&& 31)

def shiftRight (a b : Word) : Word :=
  a >>> (b &&& 31)

/-- The base integer instruction set. -/
def definitions : List Definition :=
  [⟨"lui", Opcode.lui.bits, .opcode, lui⟩,
   ⟨"auipc", Opcode.auipc.bits, .opcode, auipc⟩,
   ⟨"jal", Opcode.jal.bits, .opcode, jal⟩,
   ⟨"jalr", Opcode.jalr.bits, .funct3 0, jalr⟩,
   ⟨"beq", Opcode.branch.bits, .funct3 0, branch (· == ·)⟩,
   ⟨"bne", Opcode.branch.bits, .funct3 1, branch (· != ·)⟩,
   ⟨"blt", Opcode.branch.bits, .funct3 4, branch Word.lessSigned⟩,
   ⟨"bge", Opcode.branch.bits, .funct3 5, branch fun a b => !Word.lessSigned a b⟩,
   ⟨"bltu", Opcode.branch.bits, .funct3 6, branch fun a b => decide (a < b)⟩,
   ⟨"bgeu", Opcode.branch.bits, .funct3 7, branch fun a b => !decide (a < b)⟩,
   ⟨"lb", Opcode.load.bits, .funct3 0, load .byte (signExtend 8)⟩,
   ⟨"lh", Opcode.load.bits, .funct3 1, load .half (signExtend 16)⟩,
   ⟨"lw", Opcode.load.bits, .funct3 2, load .word id⟩,
   ⟨"lbu", Opcode.load.bits, .funct3 4, load .byte id⟩,
   ⟨"lhu", Opcode.load.bits, .funct3 5, load .half id⟩,
   ⟨"sb", Opcode.store.bits, .funct3 0, store .byte⟩,
   ⟨"sh", Opcode.store.bits, .funct3 1, store .half⟩,
   ⟨"sw", Opcode.store.bits, .funct3 2, store .word⟩,
   ⟨"addi", Opcode.opImm.bits, .funct3 0, immediate (· + ·)⟩,
   ⟨"slti", Opcode.opImm.bits, .funct3 2, immediate fun a b => .ofBool (Word.lessSigned a b)⟩,
   ⟨"sltiu", Opcode.opImm.bits, .funct3 3, immediate fun a b => .ofBool (decide (a < b))⟩,
   ⟨"xori", Opcode.opImm.bits, .funct3 4, immediate (· ^^^ ·)⟩,
   ⟨"ori", Opcode.opImm.bits, .funct3 6, immediate (· ||| ·)⟩,
   ⟨"andi", Opcode.opImm.bits, .funct3 7, immediate (· &&& ·)⟩,
   ⟨"slli", Opcode.opImm.bits, .funct7 1 0, shift shiftLeft⟩,
   ⟨"srli", Opcode.opImm.bits, .funct7 5 0, shift shiftRight⟩,
   ⟨"srai", Opcode.opImm.bits, .funct7 5 0x20, shift Word.shiftRightSigned⟩,
   ⟨"add", Opcode.op.bits, .funct7 0 0, register (· + ·)⟩,
   ⟨"sub", Opcode.op.bits, .funct7 0 0x20, register (· - ·)⟩,
   ⟨"sll", Opcode.op.bits, .funct7 1 0, register shiftLeft⟩,
   ⟨"slt", Opcode.op.bits, .funct7 2 0, register fun a b => .ofBool (Word.lessSigned a b)⟩,
   ⟨"sltu", Opcode.op.bits, .funct7 3 0, register fun a b => .ofBool (decide (a < b))⟩,
   ⟨"xor", Opcode.op.bits, .funct7 4 0, register (· ^^^ ·)⟩,
   ⟨"srl", Opcode.op.bits, .funct7 5 0, register shiftRight⟩,
   ⟨"sra", Opcode.op.bits, .funct7 5 0x20, register Word.shiftRightSigned⟩,
   ⟨"or", Opcode.op.bits, .funct7 6 0, register (· ||| ·)⟩,
   ⟨"and", Opcode.op.bits, .funct7 7 0, register (· &&& ·)⟩,
   ⟨"fence", Opcode.miscMem.bits, .funct3 0, fence⟩]

end Rv32i.Base

namespace Rv32i.Table

/-- The table of the base instruction set. -/
def base : Table :=
  ⟨Base.definitions⟩

/-- The base instructions can be registered in their order, each beside all others. -/
theorem registerAll_definitions : empty.registerAll Base.definitions = .ok base := by
  rfl

/-- The base instruction set with definitions of one's own. -/
def extended (extra : List Definition) : Except RegisterError Table :=
  base.registerAll extra

end Rv32i.Table
