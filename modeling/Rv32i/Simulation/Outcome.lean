import Rv32i.Trap

namespace Rv32i

/-- How a program reports its result: by a message in a mailbox, or by a word with a given value. -/
inductive Probe where
  | tohost (addr : Word)
  | sentinel (addr value : Word)
  deriving DecidableEq, Repr

/-- What a word of memory serves for. -/
inductive Role where
  | tohost | fromhost | sentinel
  deriving DecidableEq, Repr

def Role.name : Role → String
  | tohost => "tohost"
  | fromhost => "fromhost"
  | sentinel => "sentinel"

namespace Probe

def addr : Probe → Word
  | tohost a => a
  | sentinel a _ => a

def role : Probe → Role
  | tohost _ => .tohost
  | sentinel _ _ => .sentinel

end Probe

/-- How a run ends. -/
inductive Outcome where
  | passed
  | failed (test : Word)
  | crashed (trap : Trap)
  | cycleLimit
  deriving DecidableEq, Repr

namespace Outcome

/-- The outcome that a word in the mailbox reports. There is no message as long as it is 0. -/
def ofTohost? (value : Word) : Option Outcome :=
  if value = 0 then none
  else if value = 1 then some passed
  else some (failed (value >>> 1))

theorem ofTohost?_eq_none_iff {value : Word} : ofTohost? value = none ↔ value = 0 := by
  unfold ofTohost?
  split
  · simp_all
  · split <;> simp_all

def isSuccess (o : Outcome) : Bool :=
  o = passed

def text : Outcome → String
  | passed => "PASS"
  | failed n => "FAIL (test " ++ Text.decimal n.toNat ++ ")"
  | crashed t => "CRASH: " ++ t.message
  | cycleLimit => "cycle limit reached"

end Outcome
end Rv32i
