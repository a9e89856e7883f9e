import Rv32i.Proofs.Execution

namespace Rv32i
open Manual

namespace Hart

/-- What the manual sees of a hart and its memory. -/
def view (h : Hart) (m : Memory) : State where
  x := fun r => h.registers.values[r]
  pc := h.pc
  memory := m.view
  status := h.state

@[simp] theorem view_pc (h : Hart) (m : Memory) : (h.view m).pc = h.pc := rfl

@[simp] theorem view_memory (h : Hart) (m : Memory) : (h.view m).memory = m.view := rfl

@[simp] theorem view_status (h : Hart) (m : Memory) : (h.view m).status = h.state := rfl

theorem view_reg {h : Hart} (m : Memory) (h0 : h.readReg 0 = 0) {r : UInt8} {n : Nat}
    (hr : r.toNat = n) : (h.view m).reg n = h.readReg r := by
  subst hr
  unfold State.reg
  split
  · rename_i hz
    have he : r = 0 := UInt8.toNat_inj.mp hz
    rw [he, h0]
  · rfl

theorem view_writeReg (h : Hart) (m : Memory) {r : UInt8} {n : Nat} {v : Word} {z : Int}
    (hr : r.toNat = n) (hlt : n < 32) (hv : v = UInt32.ofInt z) :
    (h.writeReg r v).view m = (h.view m).setReg n z := by
  subst hr hv
  -- a field of five bits is its own index, so only register 0 has index 0
  have hval : (Registers.index r).val = r.toNat := Nat.mod_eq_of_lt hlt
  have hi : Registers.index r = 0 ↔ r.toNat = 0 := by
    rw [Fin.ext_iff, hval]
    rfl
  refine State.ext (funext fun k => ?_) rfl rfl rfl
  change (h.registers.write r (UInt32.ofInt z)).values[k] =
    if k.val = r.toNat ∧ r.toNat ≠ 0 then UInt32.ofInt z else h.registers.values[k]
  unfold Registers.write
  by_cases hz : Registers.index r = 0
  · rw [if_pos hz, if_neg (fun hk => hk.2 (hi.mp hz))]
  · rw [if_neg hz]
    by_cases hk : k = Registers.index r
    · subst hk
      rw [if_pos ⟨hval, mt hi.mpr hz⟩]
      simp
    · have hne : (Registers.index r).val ≠ k.val := fun e => hk (Fin.ext e.symm)
      rw [if_neg (fun hc => hne (hval.trans hc.1.symm))]
      simp [hne]

theorem view_advance_next {h : Hart} (m : Memory) (hn : h.nextPc = h.pc + 4) :
    h.advance.view m = (h.view m).next :=
  State.ext rfl (hn.trans (Word.add_four_eq_ofInt h.pc)) rfl rfl

theorem view_advance_goto (h : Hart) (m : Memory) {target : Word} {t : Int}
    (ht : target = UInt32.ofInt t) : (h.setNextPc target).advance.view m = (h.view m).goto t :=
  State.ext rfl ht rfl rfl

/-- A result in the destination register, and on to the next instruction. -/
theorem view_write_next {h : Hart} (m : Memory) (hn : h.nextPc = h.pc + 4) {w v : Word} {z : Int}
    (hv : v = UInt32.ofInt z) :
    (h.writeReg (Field.rd w) v).advance.view m =
      ((h.view m).setReg (slice w.toNat 11 7) z).next := by
  rw [view_advance_next (h := h.writeReg (Field.rd w) v) m hn,
    h.view_writeReg m (Field.toNat_rd w) (slice_lt w.toNat 11 7) hv]

/-- A link in the destination register, and on to the target. -/
theorem view_write_goto {h : Hart} (m : Memory) {w v target : Word} {z t : Int}
    (hv : v = UInt32.ofInt z) (ht : target = UInt32.ofInt t) :
    ((h.writeReg (Field.rd w) v).setNextPc target).advance.view m =
      ((h.view m).setReg (slice w.toNat 11 7) z).goto t := by
  rw [view_advance_goto _ m ht,
    h.view_writeReg m (Field.toNat_rd w) (slice_lt w.toNat 11 7) hv]

theorem view_halt (h : Hart) (m : Memory) (cause : Cause) (raw : Word) :
    (h.halt ⟨cause, h.pc, raw⟩).view m = (h.view m).halt cause raw.toNat := by
  unfold State.halt
  rw [UInt32.ofNat_toNat]
  rfl

/-- The manual's step of a hart, with the word fetched from the region itself. -/
theorem manual_step {h : Hart} (m : Memory) (hr : h.state = .running) :
    Manual.step (h.view m) =
      match m.load .word h.pc with
      | .error e => (h.view m).halt (.fetchFault e) 0
      | .ok raw =>
        match operation raw.toNat with
        | none => (h.view m).halt .illegalInstruction raw.toNat
        | some o =>
          match Manual.execute (h.view m) raw.toNat o with
          | .ok s => s
          | .error cause => (h.view m).halt cause raw.toNat := by
  have hl := m.view_load .word h.pc
  unfold Manual.step
  rw [view_status, hr, view_memory, view_pc, ← hl]
  cases m.load .word h.pc <;> rfl

end Hart

/-- What the manual says of an instruction beside what its action did: both are done and agree on the
state, or both trap and nothing has changed. -/
inductive Agrees (h : Hart) (m : Memory) :
    Except Cause State → Option Cause × Hart × Memory → Prop where
  | done {s : State} {h' : Hart} {m' : Memory} (hs : h'.advance.view m' = s) :
      Agrees h m (.ok s) (none, h', m')
  | trapped (cause : Cause) : Agrees h m (.error cause) (some cause, h, m)

theorem Agrees.of_none {h h' : Hart} {m m' : Memory} {expected : Except Cause State}
    (ha : Agrees h m expected (none, h', m')) : expected = .ok (h'.advance.view m') := by
  cases ha with
  | done hs => rw [hs]

theorem Agrees.of_some {h h' : Hart} {m m' : Memory} {expected : Except Cause State} {cause : Cause}
    (ha : Agrees h m expected (some cause, h', m')) :
    expected = .error cause ∧ h' = h ∧ m' = m := by
  cases ha with
  | trapped => exact ⟨rfl, rfl, rfl⟩

section Classes
variable {h : Hart} (m : Memory) (w : Word)

/-- A conditional branch goes to its own address plus the offset, or on. -/
theorem branch_agrees {p : Word → Word → Bool} {c : Comparison} (hp : ∀ a b, p a b = c.holds a b)
    (h0 : h.readReg 0 = 0) (hn : h.nextPc = h.pc + 4) :
    Agrees h m (execute (h.view m) w.toNat (.branch c))
      ((Base.branch p (.decode w)).perform h m) := by
  have ht : h.pc + (Field.immB w).toUInt32 = UInt32.ofInt (h.pc.toNat + immB w.toNat) := by
    rw [Word.add_toUInt32_eq_ofInt, Field.toInt_immB]
  rw [Base.perform_branch, Instruction.decode_rs1, Instruction.decode_rs2,
    Instruction.decode_immB, hp]
  simp only [execute, Hart.view_reg m h0 (Field.toNat_rs1 w), Hart.view_reg m h0 (Field.toNat_rs2 w)]
  by_cases hc : c.holds (h.readReg (Field.rs1 w)) (h.readReg (Field.rs2 w)) = true
  · rw [if_pos hc, if_pos hc]
    exact .done (h.view_advance_goto m ht)
  · rw [if_neg hc, if_neg hc]
    exact .done (Hart.view_advance_next m hn)

theorem load_agrees {width : Width} {widen : Word → Word} {signExtended : Bool}
    (hw : ∀ v : Word, v.toNat < 2 ^ (8 * width.bytes) → widen v =
      UInt32.ofInt (if signExtended then signed (8 * width.bytes) v.toNat else v.toNat))
    (h0 : h.readReg 0 = 0) (hn : h.nextPc = h.pc + 4) :
    Agrees h m (execute (h.view m) w.toNat (.load width signExtended))
      ((Base.load width widen (.decode w)).perform h m) := by
  have hview := m.view_load width (h.readReg (Field.rs1 w) + (Field.immI w).toUInt32)
  rw [Base.perform_load, Instruction.decode_rs1, Instruction.decode_immI, Instruction.decode_rd]
  simp only [execute, Hart.view_reg m h0 (Field.toNat_rs1 w)]
  rw [← Field.toInt_immI, ← Word.add_toUInt32_eq_ofInt, Hart.view_memory, ← hview]
  cases hl : m.load width (h.readReg (Field.rs1 w) + (Field.immI w).toUInt32) with
  | ok v => exact .done (Hart.view_write_next m hn (hw v (Memory.load_toNat_lt hl)))
  | error e => exact .trapped _

theorem store_agrees {width : Width} (h0 : h.readReg 0 = 0) (hn : h.nextPc = h.pc + 4) :
    Agrees h m (execute (h.view m) w.toNat (.store width))
      ((Base.store width (.decode w)).perform h m) := by
  have hview := m.view_store width (h.readReg (Field.rs1 w) + (Field.immS w).toUInt32)
    (h.readReg (Field.rs2 w))
  rw [Base.perform_store, Instruction.decode_rs1, Instruction.decode_immS, Instruction.decode_rs2]
  simp only [execute, Hart.view_reg m h0 (Field.toNat_rs1 w), Hart.view_reg m h0 (Field.toNat_rs2 w)]
  rw [← Field.toInt_immS, ← Word.add_toUInt32_eq_ofInt, Hart.view_memory, ← hview]
  cases m.store width (h.readReg (Field.rs1 w) + (Field.immS w).toUInt32)
      (h.readReg (Field.rs2 w)) with
  | ok m' => exact .done (Hart.view_advance_next m' hn)
  | error e => exact .trapped _

end Classes

/-- An action of the base set does what the manual says of its instruction. -/
theorem Corresponds.agrees {action : Instruction → Action} {o : Operation} (hc : Corresponds action o)
    {h : Hart} (m : Memory) (w : Word) (h0 : h.readReg 0 = 0) (hn : h.nextPc = h.pc + 4) :
    Agrees h m (execute (h.view m) w.toNat o) ((action (.decode w)).perform h m) := by
  have hrs1 := Hart.view_reg m h0 (Field.toNat_rs1 w)
  have hrs2 := Hart.view_reg m h0 (Field.toNat_rs2 w)
  cases hc with
  | lui =>
    have hv : (Field.immU w).toUInt32 = UInt32.ofInt (immU w.toNat) := by
      rw [Word.toUInt32_eq_ofInt, Field.toInt_immU]
    exact .done (Hart.view_write_next m hn hv)
  | auipc =>
    have hv : h.pc + (Field.immU w).toUInt32 = UInt32.ofInt (h.pc.toNat + immU w.toNat) := by
      rw [Word.add_toUInt32_eq_ofInt, Field.toInt_immU]
    exact .done (Hart.view_write_next m hn hv)
  | jal =>
    have ht : h.pc + (Field.immJ w).toUInt32 = UInt32.ofInt (h.pc.toNat + immJ w.toNat) := by
      rw [Word.add_toUInt32_eq_ofInt, Field.toInt_immJ]
    exact .done (Hart.view_write_goto m (Word.add_four_eq_ofInt h.pc) ht)
  | jalr =>
    have ht := clear_low (h.readReg (Field.rs1 w) + (Field.immI w).toUInt32)
    simp only [execute, hrs1, ← Field.toInt_immI, ← Word.add_toUInt32_eq_ofInt]
    exact .done (Hart.view_write_goto m (Word.add_four_eq_ofInt h.pc) ht)
  | branch hp => exact branch_agrees m w hp h0 hn
  | load hw => exact load_agrees m w hw h0 hn
  | store => exact store_agrees m w h0 hn
  | immediate hf =>
    simp only [execute, hrs1, ← Field.toInt_immI, ← Word.toUInt32_eq_ofInt]
    exact .done (Hart.view_write_next m hn (hf _ _))
  | shift hf =>
    have hs : (Field.rs2 w).toUInt32 = UInt32.ofInt (slice w.toNat 24 20) := by
      apply eq_ofInt_natCast
      rw [UInt8.toNat_toUInt32, Field.toNat_rs2]
    simp only [execute, hrs1, ← hs]
    exact .done (Hart.view_write_next m hn (hf _ _))
  | register hf =>
    simp only [execute, hrs1, hrs2]
    exact .done (Hart.view_write_next m hn (hf _ _))
  | fence => exact .done (Hart.view_advance_next m hn)

/-- The same for whatever the base table finds, where a step has set the next address. -/
theorem Table.lookup_agrees {h : Hart} (m : Memory) {w : Word} {d : Definition}
    (hd : base.lookup (.decode w) = some d) (h0 : h.readReg 0 = 0) :
    ∃ o, operation w.toNat = some o ∧
      Agrees (h.setNextPc (h.pc + 4)) m (execute (h.view m) w.toNat o)
        ((d.action (.decode w)).perform (h.setNextPc (h.pc + 4)) m) := by
  obtain ⟨o, ho, hc⟩ := operation_of_lookup hd
  exact ⟨o, ho, hc.agrees (h := h.setNextPc (h.pc + 4)) m w h0 rfl⟩

/-- One step of a hart with the base table is one step of the manual. -/
theorem Hart.step_refines_manual (h : Hart) (m : Memory) (ht : h.table = Table.base)
    (h0 : h.readReg 0 = 0) : (h.step m).1.view (h.step m).2 = Manual.step (h.view m) := by
  cases hs : h.state with
  | halted t =>
    unfold Manual.step Hart.step
    rw [view_status, hs]
  | running =>
    rw [manual_step m hs]
    -- each way to step has one way through the manual: the lookup and the access decide both
    generalize hr : h.step m = r
    cases hr ▸ stepped m hs with
    | unfetched hl =>
      rw [hl]
      exact h.view_halt m _ 0
    | unknown hl hd =>
      simp only [hl, (Table.lookup_eq_none_iff_operation _).mp (ht ▸ hd)]
      exact h.view_halt m _ _
    | @trapped raw d cause h' m' hl hd hp =>
      obtain ⟨o, ho, ha⟩ := Table.lookup_agrees m (ht ▸ hd) h0
      rw [hp] at ha
      obtain ⟨he, rfl, rfl⟩ := ha.of_some
      simp only [hl, ho, he]
      exact h.view_halt m' cause raw
    | @completed raw d h' m' hl hd hp =>
      obtain ⟨o, ho, ha⟩ := Table.lookup_agrees m (ht ▸ hd) h0
      rw [hp] at ha
      simp only [hl, ho, ha.of_none]

/-- A jump through the register that it also links, from an odd address: the target comes from the
old value. -/
theorem Hart.step_refines_manual_jalr :
    let h := (Hart.new Table.base 0x1000).writeReg 1 0x2009
    let m : Memory := ⟨0x1000, 4, (Cells.flat 0).write 2 0 [0xe7, 0x80, 0xc0, 0xff]⟩
    h.table = Table.base ∧ h.readReg 0 = 0 ∧
      ((h.step m).1.pc, (h.step m).1.readReg 1) = (0x2004, 0x1004) ∧
      (h.step m).1.view (h.step m).2 = Manual.step (h.view m) := by
  intro h m
  exact ⟨rfl, by decide, by decide, step_refines_manual h m rfl (by decide)⟩

end Rv32i
