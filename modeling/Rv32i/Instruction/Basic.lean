import Rv32i.Instruction.Fields
import Rv32i.Instruction.Opcode
import Rv32i.Text.Print

namespace Rv32i

/-- A word taken apart. All fields and the immediates of all layouts are there, whatever the opcode;
`format` says which immediate the opcode has. -/
structure Instruction where
  raw : Word
  opcode : UInt8
  rd : UInt8
  funct3 : UInt8
  rs1 : UInt8
  rs2 : UInt8
  funct7 : UInt8
  format : Format
  immI : Int32
  immS : Int32
  immB : Int32
  immU : Int32
  immJ : Int32
  deriving DecidableEq, Repr

namespace Instruction

/-- The layout that goes with the low byte of a word. -/
def formatOf (opcode : UInt8) : Format :=
  match Opcode.ofBits? opcode with
  | some o => o.format
  | none => .r

/-- Every word can be taken apart. Whether it means anything is up to the table that executes it. -/
def decode (w : Word) : Instruction where
  raw := w
  opcode := Field.opcode w
  rd := Field.rd w
  funct3 := Field.funct3 w
  rs1 := Field.rs1 w
  rs2 := Field.rs2 w
  funct7 := Field.funct7 w
  format := formatOf (Field.opcode w)
  immI := Field.immI w
  immS := Field.immS w
  immB := Field.immB w
  immU := Field.immU w
  immJ := Field.immJ w

/-- The major opcode, if the word lies in the space of 32-bit instructions. -/
def major? (i : Instruction) : Option Opcode :=
  Opcode.ofBits? i.opcode

/-- The immediate of the word's own layout; layout R has none. -/
def imm? (i : Instruction) : Option Int32 :=
  match i.format with
  | .r => none
  | .i => some i.immI
  | .s => some i.immS
  | .b => some i.immB
  | .u => some i.immU
  | .j => some i.immJ

/-- The amount of an immediate shift. -/
def shamt (i : Instruction) : UInt8 :=
  i.rs2

/-- A register in text. -/
def register (r : UInt8) : String :=
  "x" ++ Text.decimal r.toNat

private def head (i : Instruction) : String :=
  match i.major? with
  | some o => o.name ++ "(" ++ i.format.letter ++ ")"
  | none => "opcode=0b" ++ Text.digits 2 7 i.opcode.toNat

private def fields (i : Instruction) : String :=
  let rd := " rd=" ++ register i.rd
  let rs1 := " rs1=" ++ register i.rs1
  let rs2 := " rs2=" ++ register i.rs2
  let funct3 := " funct3=" ++ Text.decimal i.funct3.toNat
  match i.format with
  | .r => rd ++ rs1 ++ rs2 ++ funct3 ++ " funct7=" ++ Text.hex 2 i.funct7.toNat
  | .i => rd ++ rs1 ++ funct3 ++ " imm=" ++ Text.immediate i.immI
  | .s => rs1 ++ rs2 ++ funct3 ++ " imm=" ++ Text.immediate i.immS
  | .b => rs1 ++ rs2 ++ funct3 ++ " imm=" ++ Text.immediate i.immB
  | .u => rd ++ " imm=" ++ Text.hexWord i.immU.toUInt32
  | .j => rd ++ " imm=" ++ Text.immediate i.immJ

/-- The word, its opcode and the fields of its layout on one line. -/
def text (i : Instruction) : String :=
  Text.hexWord i.raw ++ " " ++ head i ++ fields i

end Instruction
end Rv32i
