import Rv32i.Proofs.Traps

namespace Rv32i

namespace Table

/-- Whatever `t` finds, `u` finds too. -/
def Extends (u t : Table) : Prop :=
  ∀ i d, t.lookup i = some d → u.lookup i = some d

theorem registerAll_entries {t t' : Table} {defs : List Definition}
    (h : t.registerAll defs = .ok t') : t'.entries = t.entries ++ defs := by
  induction defs generalizing t with
  | nil =>
    cases h
    exact (List.append_nil _).symm
  | cons d defs ih =>
    unfold registerAll at h
    split at h
    · rename_i u hu
      obtain ⟨_, _, rfl⟩ := (register_ok_iff t u d).mp hu
      rw [ih h, List.append_assoc, List.singleton_append]
    · cases h

/-- Definitions that were accepted take no word away from those that were there before. -/
theorem Separated.extends_of_registerAll {t u : Table} {defs : List Definition}
    (ht : t.Separated) (h : t.registerAll defs = .ok u) : u.Extends t := by
  intro i d hd
  obtain ⟨hmem, hsel⟩ := (ht.lookup_eq_some_iff i d).mp hd
  refine ((ht.registerAll h).lookup_eq_some_iff i d).mpr ⟨?_, hsel⟩
  rw [registerAll_entries h]
  exact List.mem_append_left defs hmem

end Table

namespace Hart

/-- The same hart with other instructions. -/
def equip (t : Table) (h : Hart) : Hart :=
  { h with table := t }

end Hart

/-- What an action does to a hart has nothing to do with the other instructions the hart knows. -/
theorem Action.perform_equip (t : Table) (a : Action) (h : Hart) (m : Memory) :
    a.perform (h.equip t) m = Prod.map id (Prod.map (Hart.equip t) id) (a.perform h m) := by
  induction a generalizing h m with
  | done => rfl
  | trap cause => rfl
  | readReg r next ih => exact ih _ h m
  | writeReg r value next ih => exact ih (h.writeReg r value) m
  | readPc next ih => exact ih _ h m
  | setNextPc target next ih => exact ih (h.setNextPc target) m
  | load width addr next ih => exact ih _ h m
  | store width addr value next ih => exact ih _ h _

namespace Hart

/-- One step: unless the word is unknown, the hart that knows more does the same. -/
theorem step_equip {t : Table} {h : Hart} {m : Memory} (hx : t.Extends h.table)
    (hr : h.state = .running)
    (hlegal : ∀ trap, (h.step m).1.state = .halted trap → trap.cause ≠ .illegalInstruction) :
    (h.equip t).step m = Prod.map (equip t) id (h.step m) := by
  have hperform : ∀ {a : Action} {r : Option Cause} {h' : Hart} {m' : Memory},
      a.perform (h.setNextPc (h.pc + 4)) m = (r, h', m') →
      a.perform ((h.equip t).setNextPc (h.pc + 4)) m = (r, h'.equip t, m') := by
    intro a r h' m' hp
    have he := a.perform_equip t (h.setNextPc (h.pc + 4)) m
    rw [hp] at he
    exact he
  refine Stepped.step_eq ?_ hr
  generalize hs : h.step m = s at hlegal ⊢
  cases hs ▸ stepped m hr with
  | unfetched hl => exact .unfetched hl
  | unknown => exact absurd rfl (hlegal _ rfl)
  | trapped hl hd hp => exact Stepped.trapped (h := h.equip t) hl (hx _ _ hd) (hperform hp)
  | completed hl hd hp => exact Stepped.completed (h := h.equip t) hl (hx _ _ hd) (hperform hp)

/-- A run that meets no unknown word is, up to each of its steps, a run of the hart that knows
more. -/
theorem runFrom_equip {t : Table} {n j : Nat} (hj : j ≤ n) {count : Nat} {h : Hart} {m : Memory}
    (hx : t.Extends h.table)
    (hlegal : h.state = .running → ∀ trap, (runFrom count n h m).2.1.state = .halted trap →
      trap.cause ≠ .illegalInstruction) :
    runFrom count j (h.equip t) m = Prod.map id (Prod.map (equip t) id) (runFrom count j h m) := by
  induction j generalizing n count h m with
  | zero => rfl
  | succ j ih =>
    obtain ⟨n, rfl⟩ := Nat.exists_eq_add_of_le' (Nat.lt_of_lt_of_le (Nat.succ_pos j) hj)
    cases hr : h.state with
    | halted trap =>
      rw [runFrom_halted count _ m hr, runFrom_halted (h := h.equip t) count _ m hr]
      rfl
    | running =>
      have hrest := hlegal hr
      rw [runFrom_running count n m hr] at hrest
      -- a trap in this step is still there when the run ends
      have hstep : ∀ trap, (h.step m).1.state = .halted trap →
          trap.cause ≠ .illegalInstruction := by
        intro trap hh
        refine hrest trap ?_
        rw [runFrom_halted _ _ _ hh]
        exact hh
      have hx' : t.Extends (h.step m).1.table := by rwa [step_table]
      rw [runFrom_running count j m hr, runFrom_running (h := h.equip t) count j m hr,
        step_equip hx hr hstep]
      exact ih (Nat.le_of_succ_le_succ hj) hx' fun _ => hrest

/-- Instructions of one's own change nothing for programs of the base set: their words keep their
meaning, and a run that meets no unknown word goes the same way step by step. -/
theorem extension_conservative {extra : List Definition} {t : Table}
    (ht : Table.extended extra = .ok t) :
    (∀ i d, Table.base.lookup i = some d → t.lookup i = some d) ∧
    ∀ (h : Hart) (m : Memory) (n : Nat),
      (h.state = .running → ∀ trap, ((h.equip Table.base).run m n).2.1.state = .halted trap →
        trap.cause ≠ .illegalInstruction) →
      ∀ j ≤ n, ∀ k h' m', (h.equip Table.base).run m j = (k, h', m') →
        (h.equip t).run m j = (k, h'.equip t, m') := by
  have hx : t.Extends Table.base := Table.base_separated.extends_of_registerAll ht
  refine ⟨hx, fun h m n hlegal j hj k h' m' hrun => ?_⟩
  have he : (h.equip t).run m j =
      Prod.map id (Prod.map (equip t) id) ((h.equip Table.base).run m j) :=
    runFrom_equip (h := h.equip Table.base) hj hx hlegal
  rw [he, hrun]
  rfl

/-- With a multiplication on the opcode of the addition, two numbers are added, the sum is stored,
and a word is loaded from an odd address. -/
theorem extension_conservative_mul :
    let mul : Definition := ⟨"mul", Opcode.op.bits, .funct7 0 1, Base.register (· * ·)⟩
    let t : Table := ⟨Base.definitions ++ [mul]⟩
    let h : Hart := { Hart.new Table.base 0 with registers := Registers.zero.write 1 5 }
    let m : Memory := ⟨0, 16, (Cells.flat 0).write 4 0
      [0x33, 0x81, 0x10, 0x00, 0x23, 0x26, 0x20, 0x00, 0x83, 0x21, 0x10, 0x00]⟩
    let trap : Trap := ⟨.loadFault (.unaligned 1 .word), 8, 0x00102183⟩
    let plain := (h.equip Table.base).run m 5
    Table.extended [mul] = .ok t ∧ h.state = .running ∧ plain.1 = 3 ∧
      plain.2.1.state = .halted trap ∧ plain.2.1.readReg 2 = 10 ∧ plain.2.2.load .word 12 = .ok 10 ∧
      (h.equip t).run m 5 = (plain.1, plain.2.1.equip t, plain.2.2) := by
  have ht : Table.extended [⟨"mul", Opcode.op.bits, .funct7 0 1, Base.register (· * ·)⟩] =
      .ok ⟨Base.definitions ++
        [⟨"mul", Opcode.op.bits, .funct7 0 1, Base.register (· * ·)⟩]⟩ := by rfl
  intro mul t h m trap plain
  have hh : plain.2.1.state = .halted trap := by decide
  refine ⟨ht, rfl, by decide, hh, by decide, by decide, ?_⟩
  refine (extension_conservative ht).2 h m 5 (fun _ trap' h' => ?_) 5 (Nat.le_refl 5) _ _ _ rfl
  cases hh.symm.trans h'
  decide

end Hart
end Rv32i
