import Rv32i.Action
import Rv32i.Instruction.Basic
import Rv32i.Text.Quoted

namespace Rv32i

/-- Which fields besides the opcode pick a definition. -/
inductive Selector where
  | opcode
  | funct3 (f3 : UInt8)
  | funct7 (f3 f7 : UInt8)
  deriving DecidableEq, Repr

namespace Selector

/-- Whether one word could be picked by both. -/
def overlaps : Selector → Selector → Bool
  | opcode, _ => true
  | _, opcode => true
  | funct3 a, funct3 b => a == b
  | funct3 a, funct7 b _ => a == b
  | funct7 a _, funct3 b => a == b
  | funct7 a3 a7, funct7 b3 b7 => a3 == b3 && a7 == b7

/-- Whether the minor fields of a word fit. -/
def selects (s : Selector) (i : Instruction) : Bool :=
  match s with
  | opcode => true
  | funct3 f3 => i.funct3 == f3
  | funct7 f3 f7 => i.funct3 == f3 && i.funct7 == f7

def funct3? : Selector → Option UInt8
  | opcode => none
  | funct3 f3 => some f3
  | funct7 f3 _ => some f3

def funct7? : Selector → Option UInt8
  | funct7 _ f7 => some f7
  | _ => none

def text : Selector → String
  | opcode => "Opcode"
  | funct3 f3 => Text.tuple "Funct3" [Text.decimal f3.toNat]
  | funct7 f3 f7 => Text.tuple "Funct7" [Text.decimal f3.toNat, Text.decimal f7.toNat]

end Selector

/-- What a table is searched by: the opcode, and the minor fields that have to have a given
value. -/
structure Key where
  opcode : UInt8
  funct3 : Option UInt8
  funct7 : Option UInt8
  deriving DecidableEq, Repr

namespace Key

def of (opcode : UInt8) (s : Selector) : Key :=
  ⟨opcode, s.funct3?, s.funct7?⟩

/-- A key tells both of the parts that it is made of. -/
theorem of_inj {op op' : UInt8} {s s' : Selector} : of op s = of op' s' ↔ op = op' ∧ s = s' := by
  rw [of, of, mk.injEq]
  refine and_congr_right' ⟨fun h => ?_, fun h => h ▸ ⟨rfl, rfl⟩⟩
  obtain ⟨h3, h7⟩ := h
  cases s <;> cases s' <;> simp_all [Selector.funct3?, Selector.funct7?]

end Key

/-- An instruction with the fields that pick it and the action it stands for. -/
structure Definition where
  name : String
  opcode : UInt8
  selector : Selector
  action : Instruction → Action

namespace Definition

/-- What the definition is found by. -/
def key (d : Definition) : Key :=
  .of d.opcode d.selector

/-- Whether a word is one of the words of this definition. -/
def selects (d : Definition) (i : Instruction) : Bool :=
  i.opcode == d.opcode && d.selector.selects i

/-- Whether two definitions have a word in common. -/
def overlaps (d e : Definition) : Bool :=
  d.opcode == e.opcode && d.selector.overlaps e.selector

/-- Whether the opcode is one of the 32 major opcodes. -/
def hasMajorOpcode (d : Definition) : Bool :=
  d.opcode ≤ 0x7F && (Opcode.ofBits? d.opcode).isSome

def text (d : Definition) : String :=
  Text.record "InstrDef" [("name", Text.quote d.name), ("opcode", Text.hex 2 d.opcode.toNat),
    ("discriminant", d.selector.text)]

end Definition

/-- Why a definition is refused. -/
inductive RegisterError where
  | invalidOpcode (name : String) (opcode : UInt8)
  | conflict (new : String) (existing : List String) (opcode : UInt8)
  deriving DecidableEq, Repr

/-- The wording of a refusal. A conflict is put into words if it is with one definition only. -/
def RegisterError.message? : RegisterError → Option String
  | invalidOpcode name opcode =>
    some (name ++ ": " ++ Text.hex 2 opcode.toNat ++ " is not a 32-bit major opcode")
  | conflict new [existing] opcode =>
    some (new ++ " overlaps " ++ existing ++ " on opcode " ++ Text.hex 2 opcode.toNat)
  | conflict _ _ _ => none

/-- The instructions that a hart knows. -/
structure Table where
  entries : List Definition

namespace Table

def empty : Table :=
  ⟨[]⟩

/-- Adds a definition, unless one of its words is taken. -/
def register (t : Table) (d : Definition) : Except RegisterError Table :=
  if d.hasMajorOpcode then
    match t.entries.filter (·.overlaps d) with
    | [] => .ok ⟨t.entries ++ [d]⟩
    | taken => .error (.conflict d.name (taken.map Definition.name) d.opcode)
  else
    .error (.invalidOpcode d.name d.opcode)

/-- Adds definitions one after the other, up to the first refusal. -/
def registerAll : Table → List Definition → Except RegisterError Table
  | t, [] => .ok t
  | t, d :: defs =>
    match t.register d with
    | .ok t' => registerAll t' defs
    | .error e => .error e

/-- The definition with exactly this key. -/
def find? (t : Table) (key : Key) : Option Definition :=
  t.entries.find? (·.key == key)

/-- The definition that a word belongs to, the most specific key first. -/
def lookup (t : Table) (i : Instruction) : Option Definition :=
  (t.find? (.of i.opcode (.funct7 i.funct3 i.funct7))).or
    ((t.find? (.of i.opcode (.funct3 i.funct3))).or (t.find? (.of i.opcode .opcode)))

def size (t : Table) : Nat :=
  t.entries.length

/-- The mnemonics in the order of their characters; a name registered twice stands twice. -/
def names (t : Table) : List String :=
  (t.entries.map Definition.name).mergeSort fun a b => decide (a ≤ b)

def text (t : Table) : String :=
  Text.record "DispatchTable" [("entries", Text.list (t.names.map Text.quote))]

end Table
end Rv32i
