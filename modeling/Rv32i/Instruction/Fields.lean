import Rv32i.Word

namespace Rv32i.Field

/-- Bits 6 to 0. -/
def opcode (w : Word) : UInt8 :=
  (w &&& 0x7F).toUInt8

/-- Bits 11 to 7. -/
def rd (w : Word) : UInt8 :=
  ((w >>> 7) &&& 0x1F).toUInt8

/-- Bits 14 to 12. -/
def funct3 (w : Word) : UInt8 :=
  ((w >>> 12) &&& 0x7).toUInt8

/-- Bits 19 to 15. -/
def rs1 (w : Word) : UInt8 :=
  ((w >>> 15) &&& 0x1F).toUInt8

/-- Bits 24 to 20. -/
def rs2 (w : Word) : UInt8 :=
  ((w >>> 20) &&& 0x1F).toUInt8

/-- Bits 31 to 25. -/
def funct7 (w : Word) : UInt8 :=
  ((w >>> 25) &&& 0x7F).toUInt8

/-- The shift amount of an immediate shift stands where other words have the second source. -/
def shamt (w : Word) : UInt8 :=
  rs2 w

/-- The immediate of layout I: bits 31 to 20, signed. -/
def immI (w : Word) : Int32 :=
  w.toInt32 >>> 20

/-- The twelve bits of the immediate of layout S, put together. -/
def patternS (w : Word) : Word :=
  (((w >>> 25) &&& 0x7F) <<< 5) ||| ((w >>> 7) &&& 0x1F)

/-- The immediate of layout S: bits 31 to 25 over bits 11 to 7, signed. -/
def immS (w : Word) : Int32 :=
  Word.signExtend (patternS w) 12

/-- The thirteen bits of the immediate of layout B, put together. The lowest is 0. -/
def patternB (w : Word) : Word :=
  (((w >>> 31) &&& 0x1) <<< 12) ||| (((w >>> 7) &&& 0x1) <<< 11) |||
    (((w >>> 25) &&& 0x3F) <<< 5) ||| (((w >>> 8) &&& 0xF) <<< 1)

/-- The immediate of layout B: an even branch offset, signed. -/
def immB (w : Word) : Int32 :=
  Word.signExtend (patternB w) 13

/-- The immediate of layout U: bits 31 to 12 in their place. -/
def immU (w : Word) : Int32 :=
  (w &&& 0xFFFFF000).toInt32

/-- The twenty-one bits of the immediate of layout J, put together. The lowest is 0. -/
def patternJ (w : Word) : Word :=
  (((w >>> 31) &&& 0x1) <<< 20) ||| (((w >>> 12) &&& 0xFF) <<< 12) |||
    (((w >>> 20) &&& 0x1) <<< 11) ||| (((w >>> 21) &&& 0x3FF) <<< 1)

/-- The immediate of layout J: an even jump offset, signed. -/
def immJ (w : Word) : Int32 :=
  Word.signExtend (patternJ w) 21

end Rv32i.Field
