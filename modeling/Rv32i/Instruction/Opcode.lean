namespace Rv32i

/-- The six layouts of an instruction word. They differ in where the immediate lies. -/
inductive Format where
  | r | i | s | b | u | j
  deriving DecidableEq, Repr

namespace Format

/-- The letter by which the manual calls the layout. -/
def letter : Format → String
  | r => "R"
  | i => "I"
  | s => "S"
  | b => "B"
  | u => "U"
  | j => "J"

end Format

/-- The major opcodes of 32-bit instructions, in the order of bits 6 to 2. -/
inductive Opcode where
  | load | loadFp | custom0 | miscMem | opImm | auipc | opImm32 | long48Lo
  | store | storeFp | custom1 | amo | op | lui | op32 | long64
  | madd | msub | nmsub | nmadd | opFp | reserved57 | custom2 | long48Hi
  | branch | jalr | reserved6b | jal | system | reserved77 | custom3 | long80
  deriving DecidableEq, Repr

namespace Opcode

/-- Every major opcode once, each at the index given by its bits 6 to 2. -/
def all : List Opcode :=
  [load, loadFp, custom0, miscMem, opImm, auipc, opImm32, long48Lo,
   store, storeFp, custom1, amo, op, lui, op32, long64,
   madd, msub, nmsub, nmadd, opFp, reserved57, custom2, long48Hi,
   branch, jalr, reserved6b, jal, system, reserved77, custom3, long80]

/-- The opcode of a word whose low byte is `b`. Bits 1 and 0 are set in every 32-bit instruction,
and bit 7 belongs to the next field. -/
def ofBits? (b : UInt8) : Option Opcode :=
  if b &&& 3 = 3 then all[(b.toNat / 4) % 32]? else none

/-- The seven bits of the opcode field. -/
def bits (o : Opcode) : UInt8 :=
  UInt8.ofNat (4 * all.idxOf o + 3)

/-- The manual's name. The three reserved slots share one name, and so do the two of the 48-bit
space. -/
def name : Opcode → String
  | load => "LOAD"
  | loadFp => "LOAD_FP"
  | custom0 => "CUSTOM_0"
  | miscMem => "MISC_MEM"
  | opImm => "OP_IMM"
  | auipc => "AUIPC"
  | opImm32 => "OP_IMM_32"
  | long48Lo => "LONG_48"
  | store => "STORE"
  | storeFp => "STORE_FP"
  | custom1 => "CUSTOM_1"
  | amo => "AMO"
  | op => "OP"
  | lui => "LUI"
  | op32 => "OP_32"
  | long64 => "LONG_64"
  | madd => "MADD"
  | msub => "MSUB"
  | nmsub => "NMSUB"
  | nmadd => "NMADD"
  | opFp => "OP_FP"
  | reserved57 => "RESERVED"
  | custom2 => "CUSTOM_2"
  | long48Hi => "LONG_48"
  | branch => "BRANCH"
  | jalr => "JALR"
  | reserved6b => "RESERVED"
  | jal => "JAL"
  | system => "SYSTEM"
  | reserved77 => "RESERVED"
  | custom3 => "CUSTOM_3"
  | long80 => "LONG_80"

/-- The layout of the words of an opcode. Opcodes without a layout of their own are read as
register operations. -/
def format : Opcode → Format
  | load | loadFp | miscMem | opImm | opImm32 | jalr | system => .i
  | store | storeFp => .s
  | branch => .b
  | lui | auipc => .u
  | jal => .j
  | _ => .r

/-- The slots set aside for extensions of one's own. -/
def isCustom : Opcode → Bool
  | custom0 | custom1 | custom2 | custom3 => true
  | _ => false

/-- The slots that the manual keeps for later. -/
def isReserved : Opcode → Bool
  | reserved57 | reserved6b | reserved77 => true
  | _ => false

theorem ofBits?_bits (o : Opcode) : ofBits? o.bits = some o := by
  cases o <;> decide

end Opcode
end Rv32i
