import Rv32i.Proofs.Arithmetic
import Rv32i.Proofs.Fields
import Rv32i.Proofs.Lookup

namespace Rv32i
open Manual

/-- Every word with the fields of this definition is an instance of the instruction `o`. -/
def Definition.Names (d : Definition) (o : Operation) : Prop :=
  match d.selector with
  | .opcode => ∀ f3 f7, operationOf d.opcode.toNat f3 f7 = some o
  | .funct3 f3 => ∀ f7, operationOf d.opcode.toNat f3.toNat f7 = some o
  | .funct7 f3 f7 => operationOf d.opcode.toNat f3.toNat f7.toNat = some o

/-- How the actions of the base set come about: each class of actions with what its parameter has to
do for the action to be an instance of the instruction. -/
inductive Corresponds : (Instruction → Action) → Operation → Prop where
  | lui : Corresponds Base.lui .lui
  | auipc : Corresponds Base.auipc .auipc
  | jal : Corresponds Base.jal .jal
  | jalr : Corresponds Base.jalr .jalr
  | branch {p : Word → Word → Bool} {c : Comparison} (hp : ∀ a b, p a b = c.holds a b) :
      Corresponds (Base.branch p) (.branch c)
  | load {width : Width} {widen : Word → Word} {signExtended : Bool}
      (hw : ∀ v : Word, v.toNat < 2 ^ (8 * width.bytes) → widen v =
        UInt32.ofInt (if signExtended then signed (8 * width.bytes) v.toNat else v.toNat)) :
      Corresponds (Base.load width widen) (.load width signExtended)
  | store {width : Width} : Corresponds (Base.store width) (.store width)
  | immediate {f : Word → Word → Word} {o : Arithmetic}
      (hf : ∀ a b, f a b = UInt32.ofInt (o.result a b)) :
      Corresponds (Base.immediate f) (.immediate o)
  | shift {f : Word → Word → Word} {o : Arithmetic}
      (hf : ∀ a b, f a b = UInt32.ofInt (o.result a b)) : Corresponds (Base.shift f) (.shift o)
  | register {f : Word → Word → Word} {o : Arithmetic}
      (hf : ∀ a b, f a b = UInt32.ofInt (o.result a b)) :
      Corresponds (Base.register f) (.register o)
  | fence : Corresponds Base.fence .fence

/-- Row by row, the base set has the fields and the meaning of one instruction of the manual. -/
theorem definitions_correspond :
    ∀ d ∈ Base.definitions, ∃ o, d.Names o ∧ Corresponds d.action o := by
  simp only [Base.definitions, List.forall_mem_cons]
  exact ⟨
    ⟨.lui, fun _ _ => rfl, .lui⟩,
    ⟨.auipc, fun _ _ => rfl, .auipc⟩,
    ⟨.jal, fun _ _ => rfl, .jal⟩,
    ⟨.jalr, fun _ => rfl, .jalr⟩,
    ⟨.branch .eq, fun _ => rfl, .branch eq_holds⟩,
    ⟨.branch .ne, fun _ => rfl, .branch ne_holds⟩,
    ⟨.branch .lt, fun _ => rfl, .branch lt_holds⟩,
    ⟨.branch .ge, fun _ => rfl, .branch ge_holds⟩,
    ⟨.branch .ltu, fun _ => rfl, .branch ltu_holds⟩,
    ⟨.branch .geu, fun _ => rfl, .branch geu_holds⟩,
    ⟨.load .byte true, fun _ => rfl, .load fun _ => signExtend_loaded (by decide) (by decide)⟩,
    ⟨.load .half true, fun _ => rfl, .load fun _ => signExtend_loaded (by decide) (by decide)⟩,
    ⟨.load .word true, fun _ => rfl, .load fun v _ => word_loaded v⟩,
    ⟨.load .byte false, fun _ => rfl, .load fun v _ => (Word.ofInt_toNat v).symm⟩,
    ⟨.load .half false, fun _ => rfl, .load fun v _ => (Word.ofInt_toNat v).symm⟩,
    ⟨.store .byte, fun _ => rfl, .store⟩,
    ⟨.store .half, fun _ => rfl, .store⟩,
    ⟨.store .word, fun _ => rfl, .store⟩,
    ⟨.immediate .add, fun _ => rfl, .immediate add_result⟩,
    ⟨.immediate .slt, fun _ => rfl, .immediate slt_result⟩,
    ⟨.immediate .sltu, fun _ => rfl, .immediate sltu_result⟩,
    ⟨.immediate .xor, fun _ => rfl, .immediate xor_result⟩,
    ⟨.immediate .or, fun _ => rfl, .immediate or_result⟩,
    ⟨.immediate .and, fun _ => rfl, .immediate and_result⟩,
    ⟨.shift .sll, rfl, .shift sll_result⟩,
    ⟨.shift .srl, rfl, .shift srl_result⟩,
    ⟨.shift .sra, rfl, .shift sra_result⟩,
    ⟨.register .add, rfl, .register add_result⟩,
    ⟨.register .sub, rfl, .register sub_result⟩,
    ⟨.register .sll, rfl, .register sll_result⟩,
    ⟨.register .slt, rfl, .register slt_result⟩,
    ⟨.register .sltu, rfl, .register sltu_result⟩,
    ⟨.register .xor, rfl, .register xor_result⟩,
    ⟨.register .srl, rfl, .register srl_result⟩,
    ⟨.register .sra, rfl, .register sra_result⟩,
    ⟨.register .or, rfl, .register or_result⟩,
    ⟨.register .and, rfl, .register and_result⟩,
    ⟨.fence, fun _ => rfl, .fence⟩,
    List.forall_mem_nil _⟩

theorem operation_decode (w : Word) :
    operation w.toNat = operationOf (Instruction.decode w).opcode.toNat
      (Instruction.decode w).funct3.toNat (Instruction.decode w).funct7.toNat := by
  simp only [operation, Instruction.decode_opcode, Instruction.decode_funct3,
    Instruction.decode_funct7, Field.toNat_opcode, Field.toNat_funct3, Field.toNat_funct7]

theorem Definition.Names.operation {d : Definition} {o : Operation} {w : Word} (hn : d.Names o)
    (hs : d.selects (.decode w) = true) : operation w.toNat = some o := by
  simp only [selects, Bool.and_eq_true, beq_iff_eq] at hs
  obtain ⟨hop, hs⟩ := hs
  rw [operation_decode, hop]
  unfold Names at hn
  cases hsel : d.selector with
  | opcode =>
    rw [hsel] at hn
    exact hn _ _
  | funct3 f3 =>
    rw [hsel] at hn hs
    rw [Selector.selects, beq_iff_eq] at hs
    rw [hs]
    exact hn _
  | funct7 f3 f7 =>
    rw [hsel] at hn hs
    rw [Selector.selects, Bool.and_eq_true, beq_iff_eq, beq_iff_eq] at hs
    rw [hs.1, hs.2]
    exact hn

/-- `Definition.selects` on fields given as numbers. -/
def Definition.fits (d : Definition) (opcode funct3 funct7 : Nat) : Bool :=
  opcode == d.opcode.toNat &&
    match d.selector with
    | .opcode => true
    | .funct3 f3 => funct3 == f3.toNat
    | .funct7 f3 f7 => funct3 == f3.toNat && funct7 == f7.toNat

theorem Definition.fits_toNat (d : Definition) (i : Instruction) :
    d.fits i.opcode.toNat i.funct3.toNat i.funct7.toNat = d.selects i := by
  have hb : ∀ a b : UInt8, (a.toNat == b.toNat) = (a == b) := by
    intro a b
    rw [Bool.eq_iff_iff, beq_iff_eq, beq_iff_eq, UInt8.toNat_inj]
  unfold fits selects Selector.selects
  cases d.selector <;> simp only [hb]

/-- The base set leaves out no instruction of the manual. -/
theorem definitions_cover {opcode funct3 funct7 : Nat} {o : Operation}
    (h : operationOf opcode funct3 funct7 = some o) :
    Base.definitions.any (·.fits opcode funct3 funct7) = true := by
  unfold operationOf at h
  split at h
  · rfl
  · rfl
  · rfl
  · split at h
    · subst funct3
      rfl
    · cases h
  · obtain ⟨c, hc, _⟩ := Option.map_eq_some_iff.mp h
    unfold branchOf at hc
    split at hc <;> first | rfl | cases hc
  · obtain ⟨access, ha, _⟩ := Option.map_eq_some_iff.mp h
    unfold loadOf at ha
    split at ha <;> first | rfl | cases ha
  · obtain ⟨width, hw, _⟩ := Option.map_eq_some_iff.mp h
    unfold storeOf at hw
    split at hw <;> first | rfl | cases hw
  · unfold immediateOf at h
    repeat' first | split at h | cases h
    all_goals subst_vars
    all_goals rfl
  · obtain ⟨r, hr, _⟩ := Option.map_eq_some_iff.mp h
    unfold registerOf at hr
    repeat' first | split at hr | cases hr
    all_goals subst_vars
    all_goals rfl
  · split at h
    · subst funct3
      rfl
    · cases h
  · cases h

namespace Table

/-- What the base table finds for a word is the manual's instruction. -/
theorem operation_of_lookup {w : Word} {d : Definition} (h : base.lookup (.decode w) = some d) :
    ∃ o, operation w.toNat = some o ∧ Corresponds d.action o := by
  obtain ⟨hd, hs⟩ := (base_separated.lookup_eq_some_iff _ _).mp h
  obtain ⟨o, hn, hc⟩ := definitions_correspond d hd
  exact ⟨o, hn.operation hs, hc⟩

theorem lookup_eq_none_iff_operation (w : Word) :
    base.lookup (.decode w) = none ↔ operation w.toNat = none := by
  constructor
  · intro h
    have hnone := (base_separated.lookup_eq_none_iff _).mp h
    cases ho : operation w.toNat with
    | none => rfl
    | some o =>
      rw [operation_decode] at ho
      obtain ⟨d, hd, hf⟩ := List.any_eq_true.mp (definitions_cover ho)
      rw [d.fits_toNat, hnone d hd] at hf
      cases hf
  · intro h
    cases hl : base.lookup (.decode w) with
    | none => rfl
    | some d =>
      obtain ⟨o, ho, _⟩ := operation_of_lookup hl
      rw [h] at ho
      cases ho

end Table

namespace Hart

/-- On to the next instruction, as a step does when nothing has trapped. -/
def advance (h : Hart) : Hart :=
  { h with pc := h.nextPc }

/-- The ways one step of a running hart can go. -/
inductive Stepped (h : Hart) (m : Memory) : Hart × Memory → Prop where
  | unfetched {e : AccessError} (hl : m.load .word h.pc = .error e) :
      Stepped h m (h.halt ⟨.fetchFault e, h.pc, 0⟩, m)
  | unknown {raw : Word} (hl : m.load .word h.pc = .ok raw)
      (hd : h.table.lookup (.decode raw) = none) :
      Stepped h m ((h.setNextPc (h.pc + 4)).halt ⟨.illegalInstruction, h.pc, raw⟩, m)
  | trapped {raw : Word} {d : Definition} {cause : Cause} {h' : Hart} {m' : Memory}
      (hl : m.load .word h.pc = .ok raw) (hd : h.table.lookup (.decode raw) = some d)
      (hp : (d.action (.decode raw)).perform (h.setNextPc (h.pc + 4)) m = (some cause, h', m')) :
      Stepped h m (h'.halt ⟨cause, h.pc, raw⟩, m')
  | completed {raw : Word} {d : Definition} {h' : Hart} {m' : Memory}
      (hl : m.load .word h.pc = .ok raw) (hd : h.table.lookup (.decode raw) = some d)
      (hp : (d.action (.decode raw)).perform (h.setNextPc (h.pc + 4)) m = (none, h', m')) :
      Stepped h m (h'.advance, m')

theorem stepped {h : Hart} (m : Memory) (hr : h.state = .running) : Stepped h m (h.step m) := by
  simp only [step, hr, Memory.bus_load]
  cases hl : m.load .word h.pc with
  | error e => exact .unfetched hl
  | ok raw =>
    simp only [execute]
    cases hd : (h.setNextPc (h.pc + 4)).table.lookup (.decode raw) with
    | none => exact .unknown hl hd
    | some d =>
      simp only
      rcases hp : (d.action (.decode raw)).perform (h.setNextPc (h.pc + 4)) m with
        ⟨_ | cause, h', m'⟩
      · exact .completed hl hd hp
      · exact .trapped hl hd hp

/-- There is one way only that a step can go. -/
theorem Stepped.step_eq {h : Hart} {m : Memory} {s : Hart × Memory} (hs : Stepped h m s)
    (hr : h.state = .running) : h.step m = s := by
  simp only [step, hr, Memory.bus_load]
  cases hs with
  | unfetched hl => simp only [hl]
  | unknown hl hd =>
    have hd' : (h.setNextPc (h.pc + 4)).table.lookup _ = none := hd
    simp only [hl, execute, hd']
  | trapped hl hd hp =>
    have hd' : (h.setNextPc (h.pc + 4)).table.lookup _ = some _ := hd
    simp only [hl, execute, hd', hp]
  | completed hl hd hp =>
    have hd' : (h.setNextPc (h.pc + 4)).table.lookup _ = some _ := hd
    simp only [hl, execute, hd', hp]
    rfl

end Hart

namespace Base

theorem perform_branch (p : Word → Word → Bool) (i : Instruction) (h : Hart) (m : Memory) :
    (branch p i).perform h m = (none,
      if p (h.readReg i.rs1) (h.readReg i.rs2) then h.setNextPc (h.pc + i.immB.toUInt32) else h,
      m) := by
  cases hp : p (h.readReg i.rs1) (h.readReg i.rs2) with
  | true => simp only [branch, Action.perform, hp, if_true]
  | false => simp only [branch, Action.perform, hp, Bool.false_eq_true, if_false]

/-- A refused load changes nothing, and a load that is served only the destination. -/
theorem perform_load (width : Width) (widen : Word → Word) (i : Instruction) (h : Hart)
    (m : Memory) :
    (load width widen i).perform h m =
      match m.load width (h.readReg i.rs1 + i.immI.toUInt32) with
      | .ok v => (none, h.writeReg i.rd (widen v), m)
      | .error e => (some (.loadFault e), h, m) := by
  cases he : m.load width (h.readReg i.rs1 + i.immI.toUInt32) with
  | ok v => simp only [load, Action.perform, Action.loadOrTrap, Memory.bus_load, he]
  | error e => simp only [load, Action.perform, Action.loadOrTrap, Memory.bus_load, he]

theorem perform_store (width : Width) (i : Instruction) (h : Hart) (m : Memory) :
    (store width i).perform h m =
      match m.store width (h.readReg i.rs1 + i.immS.toUInt32) (h.readReg i.rs2) with
      | .ok m' => (none, h, m')
      | .error e => (some (.storeFault e), h, m) := by
  cases he : m.store width (h.readReg i.rs1 + i.immS.toUInt32) (h.readReg i.rs2) with
  | ok m' =>
    simp only [store, Action.perform, Action.storeOrTrap, Memory.bus_store, Memory.attempt, he]
  | error e =>
    simp only [store, Action.perform, Action.storeOrTrap, Memory.bus_store, Memory.attempt, he]

end Base
end Rv32i
