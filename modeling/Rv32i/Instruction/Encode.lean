import Rv32i.Word

namespace Rv32i.Encode

/-- The opcode and the destination in their places, cut to the width of their fields. -/
def low (opcode rd : UInt8) : Word :=
  ((rd.toUInt32 &&& 0x1F) <<< 7) ||| (opcode.toUInt32 &&& 0x7F)

/-- The minor opcode and the two sources in their places. -/
def middle (funct3 rs1 rs2 : UInt8) : Word :=
  ((rs2.toUInt32 &&& 0x1F) <<< 20) ||| ((rs1.toUInt32 &&& 0x1F) <<< 15) |||
    ((funct3.toUInt32 &&& 0x7) <<< 12)

/-- A word of layout R. -/
def rType (opcode rd funct3 rs1 rs2 funct7 : UInt8) : Word :=
  ((funct7.toUInt32 &&& 0x7F) <<< 25) ||| middle funct3 rs1 rs2 ||| low opcode rd

/-- A word of layout I. The immediate takes the place of the second source and `funct7`. -/
def iType (opcode rd funct3 rs1 : UInt8) (imm : Int32) : Word :=
  ((imm.toUInt32 &&& 0xFFF) <<< 20) ||| middle funct3 rs1 0 ||| low opcode rd

/-- A word of layout S. The immediate takes the places of the destination and `funct7`. -/
def sType (opcode funct3 rs1 rs2 : UInt8) (imm : Int32) : Word :=
  let imm := imm.toUInt32 &&& 0xFFF
  ((imm >>> 5) <<< 25) ||| middle funct3 rs1 rs2 ||| ((imm &&& 0x1F) <<< 7) ||| low opcode 0

/-- A word of layout B. The offset counts bytes, and its lowest bit is dropped. -/
def bType (opcode funct3 rs1 rs2 : UInt8) (offset : Int32) : Word :=
  let imm := offset.toUInt32
  (((imm >>> 12) &&& 0x1) <<< 31) ||| (((imm >>> 5) &&& 0x3F) <<< 25) ||| middle funct3 rs1 rs2 |||
    (((imm >>> 1) &&& 0xF) <<< 8) ||| (((imm >>> 11) &&& 0x1) <<< 7) ||| low opcode 0

/-- A word of layout U. The upper twenty bits of the immediate stay where they are. -/
def uType (opcode rd : UInt8) (imm : Int32) : Word :=
  (imm.toUInt32 &&& 0xFFFFF000) ||| low opcode rd

/-- A word of layout J. The offset counts bytes, and its lowest bit is dropped. -/
def jType (opcode rd : UInt8) (offset : Int32) : Word :=
  let imm := offset.toUInt32
  (((imm >>> 20) &&& 0x1) <<< 31) ||| (((imm >>> 1) &&& 0x3FF) <<< 21) |||
    (((imm >>> 11) &&& 0x1) <<< 20) ||| (((imm >>> 12) &&& 0xFF) <<< 12) ||| low opcode rd

end Rv32i.Encode
