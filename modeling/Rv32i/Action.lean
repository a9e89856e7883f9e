import Rv32i.Trap

namespace Rv32i

/-- What an instruction does, as a program over what a hart lets an instruction see and change: the
registers, its own address, the address of the next instruction, and memory. -/
inductive Action where
  | done
  | trap (cause : Cause)
  | readReg (r : UInt8) (next : Word → Action)
  | writeReg (r : UInt8) (value : Word) (next : Action)
  | readPc (next : Word → Action)
  | setNextPc (target : Word) (next : Action)
  | load (width : Width) (addr : Word) (next : Except AccessError Word → Action)
  | store (width : Width) (addr value : Word) (next : Except AccessError Unit → Action)

namespace Action

/-- Loads a number, or traps if the access is refused. -/
def loadOrTrap (width : Width) (addr : Word) (next : Word → Action) : Action :=
  load width addr fun
    | .ok value => next value
    | .error e => trap (.loadFault e)

/-- Stores a number and is done, or traps if the access is refused. -/
def storeOrTrap (width : Width) (addr value : Word) : Action :=
  store width addr value fun
    | .ok () => done
    | .error e => trap (.storeFault e)

end Action
end Rv32i
