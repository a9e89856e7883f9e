import Rv32i.Hart.Basic
import Rv32i.Proofs.ByteMap
import Rv32i.Proofs.Numbers

namespace Rv32i.Manual

/-- The immediate of layout I, from the bits of the instruction word. -/
def immI (w : Nat) : Int :=
  signed 12 (slice w 31 20)

def immS (w : Nat) : Int :=
  signed 12 (2 ^ 5 * slice w 31 25 + slice w 11 7)

/-- Bit 0 of a branch offset is not in the word. -/
def immB (w : Nat) : Int :=
  signed 13 (2 ^ 12 * slice w 31 31 + 2 ^ 11 * slice w 7 7 + 2 ^ 5 * slice w 30 25 +
    2 * slice w 11 8)

def immU (w : Nat) : Int :=
  signed 32 (2 ^ 12 * slice w 31 12)

/-- Bit 0 of a jump offset is not in the word. -/
def immJ (w : Nat) : Int :=
  signed 21 (2 ^ 20 * slice w 31 31 + 2 ^ 12 * slice w 19 12 + 2 ^ 11 * slice w 20 20 +
    2 * slice w 30 21)

/-- The tests of the conditional branches. -/
inductive Comparison where
  | eq | ne | lt | ge | ltu | geu

/-- Signed tests compare two's complement values, all others plain numbers. -/
def Comparison.holds (c : Comparison) (a b : Word) : Bool :=
  match c with
  | eq => a.toNat = b.toNat
  | ne => a.toNat ≠ b.toNat
  | lt => signed 32 a.toNat < signed 32 b.toNat
  | ge => signed 32 b.toNat ≤ signed 32 a.toNat
  | ltu => a.toNat < b.toNat
  | geu => b.toNat ≤ a.toNat

/-- The operations of the integer unit. -/
inductive Arithmetic where
  | add | sub | sll | slt | sltu | xor | srl | sra | or | and

/-- The result as an integer; a register keeps it modulo 2 ^ 32. Shifts take their amount modulo 32,
to the left they multiply and to the right they divide and round down. -/
def Arithmetic.result (o : Arithmetic) (a b : Word) : Int :=
  match o with
  | add => a.toNat + b.toNat
  | sub => a.toNat - b.toNat
  | sll => a.toNat * 2 ^ (b.toNat % 32)
  | slt => if signed 32 a.toNat < signed 32 b.toNat then 1 else 0
  | sltu => if a.toNat < b.toNat then 1 else 0
  | xor => (a.toNat ^^^ b.toNat : Nat)
  | srl => (a.toNat / 2 ^ (b.toNat % 32) : Nat)
  | sra => Int.fdiv (signed 32 a.toNat) (2 ^ (b.toNat % 32))
  | or => (a.toNat ||| b.toNat : Nat)
  | and => (a.toNat &&& b.toNat : Nat)

/-- The 38 instructions by what they do. -/
inductive Operation where
  | lui
  | auipc
  | jal
  | jalr
  | branch (c : Comparison)
  | load (width : Width) (signExtended : Bool)
  | store (width : Width)
  | immediate (o : Arithmetic)
  | shift (o : Arithmetic)
  | register (o : Arithmetic)
  | fence

def branchOf : Nat → Option Comparison
  | 0b000 => some .eq
  | 0b001 => some .ne
  | 0b100 => some .lt
  | 0b101 => some .ge
  | 0b110 => some .ltu
  | 0b111 => some .geu
  | _ => none

def loadOf : Nat → Option (Width × Bool)
  | 0b000 => some (.byte, true)
  | 0b001 => some (.half, true)
  | 0b010 => some (.word, true)
  | 0b100 => some (.byte, false)
  | 0b101 => some (.half, false)
  | _ => none

def storeOf : Nat → Option Width
  | 0b000 => some .byte
  | 0b001 => some .half
  | 0b010 => some .word
  | _ => none

/-- Shifts by an immediate use only five of its bits and fix the other seven. -/
def immediateOf (funct3 funct7 : Nat) : Option Operation :=
  match funct3 with
  | 0b000 => some (.immediate .add)
  | 0b001 => if funct7 = 0b0000000 then some (.shift .sll) else none
  | 0b010 => some (.immediate .slt)
  | 0b011 => some (.immediate .sltu)
  | 0b100 => some (.immediate .xor)
  | 0b101 =>
    if funct7 = 0b0000000 then some (.shift .srl)
    else if funct7 = 0b0100000 then some (.shift .sra)
    else none
  | 0b110 => some (.immediate .or)
  | 0b111 => some (.immediate .and)
  | _ => none

def registerOf (funct3 funct7 : Nat) : Option Arithmetic :=
  if funct7 = 0b0000000 then
    match funct3 with
    | 0b000 => some .add
    | 0b001 => some .sll
    | 0b010 => some .slt
    | 0b011 => some .sltu
    | 0b100 => some .xor
    | 0b101 => some .srl
    | 0b110 => some .or
    | 0b111 => some .and
    | _ => none
  else if funct7 = 0b0100000 then
    match funct3 with
    | 0b000 => some .sub
    | 0b101 => some .sra
    | _ => none
  else none

/-- Which instruction the three selecting fields name, if any. -/
def operationOf (opcode funct3 funct7 : Nat) : Option Operation :=
  match opcode with
  | 0b0110111 => some .lui
  | 0b0010111 => some .auipc
  | 0b1101111 => some .jal
  | 0b1100111 => if funct3 = 0b000 then some .jalr else none
  | 0b1100011 => (branchOf funct3).map .branch
  | 0b0000011 => (loadOf funct3).map fun (width, signExtended) => .load width signExtended
  | 0b0100011 => (storeOf funct3).map .store
  | 0b0010011 => immediateOf funct3 funct7
  | 0b0110011 => (registerOf funct3 funct7).map .register
  | 0b0001111 => if funct3 = 0b000 then some .fence else none
  | _ => none

def operation (w : Nat) : Option Operation :=
  operationOf (slice w 6 0) (slice w 14 12) (slice w 31 25)

/-- What a program can see of a hart and its memory. -/
@[ext] structure State where
  x : Fin 32 → Word
  pc : Word
  memory : ByteMap
  status : HartState

namespace State

/-- Register 0 is hardwired to zero. -/
def reg (s : State) (r : Nat) : Word :=
  if r = 0 then 0 else s.x ⟨r % 32, Nat.mod_lt r (by decide)⟩

def setReg (s : State) (r : Nat) (value : Int) : State :=
  { s with x := fun k => if k.val = r ∧ r ≠ 0 then UInt32.ofInt value else s.x k }

def goto (s : State) (target : Int) : State :=
  { s with pc := UInt32.ofInt target }

def next (s : State) : State :=
  s.goto (s.pc.toNat + 4)

def halt (s : State) (cause : Cause) (raw : Nat) : State :=
  { s with status := .halted ⟨cause, s.pc, UInt32.ofNat raw⟩ }

end State

/-- Carries out the instruction `o` whose word is `w`. A refused access has no other effect. -/
def execute (s : State) (w : Nat) (o : Operation) : Except Cause State :=
  let rd := slice w 11 7
  let rs1 := s.reg (slice w 19 15)
  let rs2 := s.reg (slice w 24 20)
  match o with
  | .lui => .ok (s.setReg rd (immU w)).next
  | .auipc => .ok (s.setReg rd (s.pc.toNat + immU w)).next
  | .jal => .ok ((s.setReg rd (s.pc.toNat + 4)).goto (s.pc.toNat + immJ w))
  | .jalr =>
    let target := (UInt32.ofInt (rs1.toNat + immI w)).toNat
    .ok ((s.setReg rd (s.pc.toNat + 4)).goto (target - target % 2))
  | .branch c => .ok (if c.holds rs1 rs2 then s.goto (s.pc.toNat + immB w) else s.next)
  | .load width signExtended =>
    match s.memory.load width (UInt32.ofInt (rs1.toNat + immI w)) with
    | .ok n => .ok (s.setReg rd (if signExtended then signed (8 * width.bytes) n else n)).next
    | .error e => .error (.loadFault e)
  | .store width =>
    match s.memory.store width (UInt32.ofInt (rs1.toNat + immS w)) rs2.toNat with
    | .ok memory => .ok ({ s with memory := memory } : State).next
    | .error e => .error (.storeFault e)
  | .immediate o => .ok (s.setReg rd (o.result rs1 (UInt32.ofInt (immI w)))).next
  | .shift o => .ok (s.setReg rd (o.result rs1 (UInt32.ofInt (slice w 24 20)))).next
  | .register o => .ok (s.setReg rd (o.result rs1 rs2)).next
  | .fence => .ok s.next

/-- One instruction. A trap stops the machine where it stands and changes nothing else. -/
def step (s : State) : State :=
  match s.status with
  | .halted _ => s
  | .running =>
    match s.memory.load .word s.pc with
    | .error e => s.halt (.fetchFault e) 0
    | .ok w =>
      match operation w with
      | none => s.halt .illegalInstruction w
      | some o =>
        match execute s w o with
        | .ok s' => s'
        | .error cause => s.halt cause w

end Rv32i.Manual
