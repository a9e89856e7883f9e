import Rv32i.Memory.Basic
import Rv32i.Text.Print

namespace Rv32i

/-- Why an instruction cannot be carried out. -/
inductive Cause where
  | illegalInstruction
  | fetchFault (error : AccessError)
  | loadFault (error : AccessError)
  | storeFault (error : AccessError)
  deriving DecidableEq, Repr

namespace Cause

/-- The exception code of the privileged architecture. -/
def code : Cause → Nat
  | fetchFault (.unaligned ..) => 0
  | fetchFault (.outOfRange ..) => 1
  | illegalInstruction => 2
  | loadFault (.unaligned ..) => 4
  | loadFault (.outOfRange ..) => 5
  | storeFault (.unaligned ..) => 6
  | storeFault (.outOfRange ..) => 7

/-- The refused access, if there is one behind the cause. -/
def error? : Cause → Option AccessError
  | illegalInstruction => none
  | fetchFault e | loadFault e | storeFault e => some e

def isIllegal (c : Cause) : Bool :=
  c = illegalInstruction

def isMemoryFault (c : Cause) : Bool :=
  c.error?.isSome

def message : Cause → String
  | illegalInstruction => "illegal instruction"
  | fetchFault e => "instruction fetch fault: " ++ e.message
  | loadFault e => "load fault: " ++ e.message
  | storeFault e => "store fault: " ++ e.message

end Cause

/-- A cause with the address and the word of the instruction. The word is 0 if it could not be
fetched. -/
structure Trap where
  cause : Cause
  pc : Word
  raw : Word
  deriving DecidableEq, Repr

def Trap.message (t : Trap) : String :=
  t.cause.message ++ " at pc=" ++ Text.hexWord t.pc ++ " (instr=" ++ Text.hexWord t.raw ++ ")"

/-- The parts of a refused access, numbers in decimal. -/
def AccessError.text : AccessError → String
  | unaligned a w => Text.record "Unaligned" [("addr", Text.decimal a.toNat), ("access", w.name)]
  | outOfRange a w base size =>
    Text.record "OutOfRange" [("addr", Text.decimal a.toNat), ("access", w.name),
      ("base", Text.decimal base.toNat), ("size", Text.decimal size)]

def Cause.text : Cause → String
  | illegalInstruction => "IllegalInstruction"
  | fetchFault e => Text.tuple "FetchFault" [e.text]
  | loadFault e => Text.tuple "LoadFault" [e.text]
  | storeFault e => Text.tuple "StoreFault" [e.text]

/-- The parts of a trap, numbers in decimal. -/
def Trap.text (t : Trap) : String :=
  Text.record "Trap" [("cause", t.cause.text), ("pc", Text.decimal t.pc.toNat),
    ("raw", Text.decimal t.raw.toNat)]

end Rv32i
