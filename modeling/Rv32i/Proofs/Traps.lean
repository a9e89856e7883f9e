import Mathlib.Logic.Function.Iterate
import Rv32i.Proofs.Execution

namespace Rv32i
open Manual

/-- What every change that an action can make keeps, the action keeps. -/
theorem Action.perform_keeps {P : Hart → Memory → Prop}
    (hreg : ∀ h m r v, P h m → P (h.writeReg r v) m)
    (hpc : ∀ h m target, P h m → P (h.setNextPc target) m)
    (hstore : ∀ h m m' width addr v, P h m → m.store width addr v = .ok m' → P h m')
    {a : Action} {h h' : Hart} {m m' : Memory} {r : Option Cause}
    (hp : a.perform h m = (r, h', m')) (h0 : P h m) : P h' m' := by
  induction a generalizing h m with
  | done =>
    cases hp
    exact h0
  | trap cause =>
    cases hp
    exact h0
  | readReg r next ih => exact ih _ hp h0
  | writeReg r value next ih => exact ih hp (hreg _ _ _ _ h0)
  | readPc next ih => exact ih _ hp h0
  | setNextPc target next ih => exact ih hp (hpc _ _ _ h0)
  | load width addr next ih => exact ih _ hp h0
  | store width addr value next ih =>
    rw [perform, Memory.bus_store] at hp
    cases hs : m.store width addr value with
    | ok m' =>
      rw [hs] at hp
      exact ih _ hp (hstore _ _ _ _ _ _ h0 hs)
    | error e =>
      rw [hs] at hp
      exact ih _ hp h0

/-- No action stops the hart or changes what it knows. -/
theorem Action.perform_frame {a : Action} {h h' : Hart} {m m' : Memory} {r : Option Cause}
    (hp : a.perform h m = (r, h', m')) : h'.state = h.state ∧ h'.table = h.table :=
  perform_keeps (P := fun g _ => g.state = h.state ∧ g.table = h.table) (fun _ _ _ _ hk => hk)
    (fun _ _ _ hk => hk) (fun _ _ _ _ _ _ hk _ => hk) hp ⟨rfl, rfl⟩

/-- The access that an instruction asks for is refused. -/
inductive Refused (x : Registers) (m : Memory) (i : Instruction) : Operation → Cause → Prop where
  | load {width : Width} {signExtended : Bool} {e : AccessError}
      (he : m.load width (x.read i.rs1 + i.immI.toUInt32) = .error e) :
      Refused x m i (.load width signExtended) (.loadFault e)
  | store {width : Width} {e : AccessError}
      (he : m.store width (x.read i.rs1 + i.immS.toUInt32) (x.read i.rs2) = .error e) :
      Refused x m i (.store width) (.storeFault e)

/-- An action of the base set traps on a refused access only, and before it has changed anything. -/
theorem Corresponds.refused {action : Instruction → Action} {o : Operation}
    (hc : Corresponds action o) {i : Instruction} {h h' : Hart} {m m' : Memory} {cause : Cause}
    (hp : (action i).perform h m = (some cause, h', m')) :
    h' = h ∧ m' = m ∧ Refused h.registers m i o cause := by
  cases hc with
  | branch =>
    rw [Base.perform_branch] at hp
    cases hp
  | load =>
    rw [Base.perform_load] at hp
    split at hp
    · cases hp
    · rename_i he
      cases hp
      exact ⟨rfl, rfl, .load he⟩
  | store =>
    rw [Base.perform_store] at hp
    split at hp
    · cases hp
    · rename_i he
      cases hp
      exact ⟨rfl, rfl, .store he⟩
  | lui => cases hp
  | auipc => cases hp
  | jal => cases hp
  | jalr => cases hp
  | immediate => cases hp
  | shift => cases hp
  | register => cases hp
  | fence => cases hp

namespace Hart

/-- The instruction at an address cannot be carried out with these registers and this memory, and the
trap that says so. -/
inductive Blocked (x : Registers) (pc : Word) (m : Memory) : Trap → Prop where
  | unfetched {e : AccessError} (hl : m.load .word pc = .error e) :
      Blocked x pc m ⟨.fetchFault e, pc, 0⟩
  | unknown {raw : Word} (hl : m.load .word pc = .ok raw) (ho : operation raw.toNat = none) :
      Blocked x pc m ⟨.illegalInstruction, pc, raw⟩
  | refused {raw : Word} {o : Operation} {cause : Cause} (hl : m.load .word pc = .ok raw)
      (ho : operation raw.toNat = some o) (hx : Refused x m (.decode raw) o cause) :
      Blocked x pc m ⟨cause, pc, raw⟩

theorem Blocked.unique {x : Registers} {pc : Word} {m : Memory} {t t' : Trap}
    (hb : Blocked x pc m t) (hb' : Blocked x pc m t') : t = t' := by
  cases hb with
  | unfetched hl =>
    cases hb' with
    | unfetched hl' => rw [Except.error.inj (hl.symm.trans hl')]
    | unknown hl' => cases hl.symm.trans hl'
    | refused hl' => cases hl.symm.trans hl'
  | unknown hl ho =>
    cases hb' with
    | unfetched hl' => cases hl.symm.trans hl'
    | unknown hl' => rw [Except.ok.inj (hl.symm.trans hl')]
    | refused hl' ho' =>
      cases Except.ok.inj (hl.symm.trans hl')
      cases ho.symm.trans ho'
  | refused hl ho hx =>
    cases hb' with
    | unfetched hl' => cases hl.symm.trans hl'
    | unknown hl' ho' =>
      cases Except.ok.inj (hl.symm.trans hl')
      cases ho.symm.trans ho'
    | refused hl' ho' hx' =>
      cases Except.ok.inj (hl.symm.trans hl')
      cases Option.some.inj (ho.symm.trans ho')
      cases hx with
      | load he =>
        cases hx' with
        | load he' => rw [Except.error.inj (he.symm.trans he')]
      | store he =>
        cases hx' with
        | store he' => rw [Except.error.inj (he.symm.trans he')]

/-- A step that stops the hart does nothing else. -/
theorem step_blocked {h h' : Hart} {m m' : Memory} {t : Trap} (ht : h.table = Table.base)
    (hr : h.state = .running) (hs : h.step m = (h', m')) (hh : h'.state = .halted t) :
    h'.registers = h.registers ∧ h'.pc = h.pc ∧ m' = m ∧ Blocked h.registers h.pc m t := by
  cases hs ▸ stepped m hr with
  | unfetched hl =>
    cases hh
    exact ⟨rfl, rfl, rfl, .unfetched hl⟩
  | unknown hl hd =>
    cases hh
    exact ⟨rfl, rfl, rfl, .unknown hl ((Table.lookup_eq_none_iff_operation _).mp (ht ▸ hd))⟩
  | trapped hl hd hp =>
    cases hh
    obtain ⟨o, ho, hc⟩ := Table.operation_of_lookup (ht ▸ hd)
    obtain ⟨rfl, rfl, hx⟩ := hc.refused hp
    exact ⟨rfl, rfl, rfl, .refused hl ho hx⟩
  | completed hl hd hp =>
    -- no action stops the hart, so this way it is still running
    have hrun := (Action.perform_frame hp).1.trans hr
    cases hrun.symm.trans hh

theorem step_table (h : Hart) (m : Memory) : (h.step m).1.table = h.table := by
  cases hr : h.state with
  | halted t =>
    unfold step
    rw [hr]
  | running =>
    generalize hs : h.step m = s
    cases hs ▸ stepped m hr with
    | unfetched => rfl
    | unknown => rfl
    | trapped _ _ hp => exact (Action.perform_frame hp).2
    | completed _ _ hp => exact (Action.perform_frame hp).2

section Bus
variable {μ : Type} [Bus μ]

theorem step_halted {h : Hart} (m : μ) {t : Trap} (hh : h.state = .halted t) :
    h.step m = (h, m) := by
  unfold step
  rw [hh]

theorem runFrom_halted (count budget : Nat) {h : Hart} (m : μ) {t : Trap}
    (hh : h.state = .halted t) : runFrom count budget h m = (count, h, m) := by
  cases budget with
  | zero => rfl
  | succ budget => simp only [runFrom, hh]

theorem runFrom_running (count budget : Nat) {h : Hart} (m : μ) (hr : h.state = .running) :
    runFrom count (budget + 1) h m = runFrom (count + 1) budget (h.step m).1 (h.step m).2 := by
  simp only [runFrom, hr]

theorem run_halted {h : Hart} (m : μ) {t : Trap} (hh : h.state = .halted t) (budget : Nat) :
    h.run m budget = (0, h, m) :=
  runFrom_halted 0 budget m hh

end Bus

/-- One step of a hart together with its memory. -/
def tick (s : Hart × Memory) : Hart × Memory :=
  s.1.step s.2

/-- A run is as many steps as it says, and the hart is running before each of them. -/
theorem runFrom_eq_iterate (count budget : Nat) (h : Hart) (m : Memory) :
    ∃ k ≤ budget, runFrom count budget h m = (count + k, tick^[k] (h, m)) ∧
      (∀ j < k, (tick^[j] (h, m)).1.state = .running) := by
  induction budget generalizing count h m with
  | zero => exact ⟨0, Nat.le_refl 0, rfl, fun j hj => absurd hj (Nat.not_lt_zero j)⟩
  | succ budget ih =>
    cases hr : h.state with
    | halted t =>
      refine ⟨0, Nat.zero_le _, ?_, fun j hj => absurd hj (Nat.not_lt_zero j)⟩
      simp only [runFrom, hr]
      rfl
    | running =>
      -- the run that is left starts after one step, so its step `j` is step `j + 1` of this one
      obtain ⟨k, hk, hrun, hj⟩ := ih (count + 1) (h.step m).1 (h.step m).2
      refine ⟨k + 1, Nat.succ_le_succ hk, ?_, ?_⟩
      · simp only [runFrom, hr]
        rw [hrun, Nat.add_assoc, Nat.add_comm 1 k, Function.iterate_succ_apply]
        rfl
      · intro j hlt
        cases j with
        | zero => exact hr
        | succ j => exact hj j (Nat.lt_of_succ_lt_succ hlt)

theorem run_iterates {h : Hart} {m : Memory} {n k : Nat} {s : Hart × Memory}
    (hrun : h.run m n = (k, s)) :
    k ≤ n ∧ tick^[k] (h, m) = s ∧ ∀ j < k, (tick^[j] (h, m)).1.state = .running := by
  obtain ⟨steps, hle, hsteps, hbefore⟩ := runFrom_eq_iterate 0 n h m
  rw [Nat.zero_add] at hsteps
  cases hrun.symm.trans hsteps
  exact ⟨hle, rfl, hbefore⟩

theorem iterate_table (j : Nat) (s : Hart × Memory) : (tick^[j] s).1.table = s.1.table := by
  induction j with
  | zero => rfl
  | succ j ih =>
    rw [Function.iterate_succ_apply']
    exact (step_table _ _).trans ih

/-- What a trap says of the hart and the memory that it stopped, and when it says so. -/
structure Explains (t : Trap) (h : Hart) (m : Memory) : Prop where
  pc : t.pc = h.pc
  raw : t.raw = match m.load .word h.pc with
    | .ok w => w
    | .error _ => 0
  fetchFault : ∀ e, t.cause = .fetchFault e ↔ m.load .word h.pc = .error e
  illegal : t.cause = .illegalInstruction ↔
    ∃ w, m.load .word h.pc = .ok w ∧ ∀ d ∈ h.table.entries, d.selects (.decode w) = false
  loadFault : ∀ e, t.cause = .loadFault e ↔
    ∃ w width signExtended, m.load .word h.pc = .ok w ∧
      operation w.toNat = some (.load width signExtended) ∧
      m.load width (h.readReg (Field.rs1 w) + (Field.immI w).toUInt32) = .error e
  storeFault : ∀ e, t.cause = .storeFault e ↔
    ∃ w width, m.load .word h.pc = .ok w ∧ operation w.toNat = some (.store width) ∧
      m.store width (h.readReg (Field.rs1 w) + (Field.immS w).toUInt32)
        (h.readReg (Field.rs2 w)) = .error e

-- To the right by looking at how the hart is blocked, to the left because there is only one way.
theorem Blocked.explains {h : Hart} {m : Memory} {t : Trap} (hb : Blocked h.registers h.pc m t)
    (ht : h.table = Table.base) : Explains t h m where
  pc := by cases hb <;> rfl
  raw := by
    cases hb with
    | unfetched hl => rw [hl]
    | unknown hl => rw [hl]
    | refused hl => rw [hl]
  fetchFault e := by
    refine ⟨fun hc => ?_, fun hl => by rw [hb.unique (.unfetched hl)]⟩
    cases hb with
    | unfetched hl =>
      cases hc
      exact hl
    | unknown => cases hc
    | refused _ _ hx => cases hx <;> cases hc
  illegal := by
    have hnone : ∀ w : Word, (∀ d ∈ h.table.entries, d.selects (.decode w) = false) ↔
        operation w.toNat = none := by
      intro w
      rw [ht, ← Table.base_separated.lookup_eq_none_iff, Table.lookup_eq_none_iff_operation]
    simp only [hnone]
    refine ⟨fun hc => ?_, fun ⟨w, hl, ho⟩ => by rw [hb.unique (.unknown hl ho)]⟩
    cases hb with
    | unfetched => cases hc
    | unknown hl ho => exact ⟨_, hl, ho⟩
    | refused _ _ hx => cases hx <;> cases hc
  loadFault e := by
    refine ⟨fun hc => ?_, fun ⟨w, width, signExtended, hl, ho, he⟩ => by
      rw [hb.unique (.refused hl ho (.load he))]⟩
    cases hb with
    | unfetched => cases hc
    | unknown => cases hc
    | refused hl ho hx =>
      cases hx with
      | load he =>
        cases hc
        exact ⟨_, _, _, hl, ho, he⟩
      | store => cases hc
  storeFault e := by
    refine ⟨fun hc => ?_, fun ⟨w, width, hl, ho, he⟩ => by
      rw [hb.unique (.refused hl ho (.store he))]⟩
    cases hb with
    | unfetched => cases hc
    | unknown => cases hc
    | refused hl ho hx =>
      cases hx with
      | load => cases hc
      | store he =>
        cases hc
        exact ⟨_, _, hl, ho, he⟩

/-- What can be asked of a hart from outside. -/
inductive Request where
  | step
  | run (budget : Nat)
  | writeReg (r : UInt8) (value : Word)
  | setNextPc (target : Word)

def Request.serve (s : Hart × Memory) : Request → Hart × Memory
  | step => tick s
  | run budget => (s.1.run s.2 budget).2
  | writeReg r value => (s.1.writeReg r value, s.2)
  | setNextPc target => (s.1.setNextPc target, s.2)

/-- Stopped by the trap `t` at `pc`, with the memory `m`. -/
structure Stopped (t : Trap) (pc : Word) (m : Memory) (s : Hart × Memory) : Prop where
  state : s.1.state = .halted t
  pc : s.1.pc = pc
  memory : s.2 = m

theorem Stopped.serve {t : Trap} {pc : Word} {m : Memory} {s : Hart × Memory}
    (hs : Stopped t pc m s) (request : Request) : Stopped t pc m (request.serve s) := by
  cases request with
  | step =>
    have he : tick s = s := step_halted s.2 hs.state
    rw [Request.serve, he]
    exact hs
  | run budget =>
    rw [Request.serve, run_halted s.2 hs.state]
    exact hs
  | writeReg r value => exact ⟨hs.state, hs.pc, hs.memory⟩
  | setNextPc target => exact ⟨hs.state, hs.pc, hs.memory⟩

theorem Stopped.serveAll {t : Trap} {pc : Word} {m : Memory} {s : Hart × Memory}
    (hs : Stopped t pc m s) (requests : List Request) :
    Stopped t pc m (requests.foldl Request.serve s) := by
  induction requests generalizing s with
  | nil => exact hs
  | cons request requests ih => exact ih (hs.serve request)

/-- Traps are precise: a run ends in one only on an instruction that cannot be carried out, before
which all others were, and which has changed nothing. And they are final. -/
theorem run_traps_precisely {h h' : Hart} {m m' : Memory} {n k : Nat} {t : Trap}
    (ht : h.table = Table.base) (hr : h.state = .running) (hrun : h.run m n = (k, h', m'))
    (hh : h'.state = .halted t) :
    (∃ i, k = i + 1 ∧ k ≤ n ∧ (∀ j ≤ i, (tick^[j] (h, m)).1.state = .running) ∧
      tick (tick^[i] (h, m)) = (h', m') ∧ h'.registers = (tick^[i] (h, m)).1.registers ∧
      h'.pc = (tick^[i] (h, m)).1.pc ∧ m' = (tick^[i] (h, m)).2) ∧
    Explains t h' m' ∧
    ∀ requests : List Request,
      let s := requests.foldl Request.serve (h', m')
      Stopped t h'.pc m' s ∧ (s.1.step s.2).1.state = .halted t := by
  obtain ⟨hle, hlast, hbefore⟩ := run_iterates hrun
  have hbase : h'.table = Table.base := by
    rw [← ht, ← iterate_table k (h, m), hlast]
  cases k with
  | zero =>
    cases hlast
    cases hr.symm.trans hh
  | succ i =>
    have htable := (iterate_table i (h, m)).trans ht
    rw [Function.iterate_succ_apply'] at hlast
    obtain ⟨hx, hpc, hm, hb⟩ := step_blocked htable (hbefore i (Nat.lt_succ_self i)) hlast hh
    rw [← hx, ← hpc, ← hm] at hb
    refine ⟨⟨i, rfl, hle, fun j hj => hbefore j (Nat.lt_succ_of_le hj), hlast, hx, hpc, hm⟩,
      hb.explains hbase, fun requests => ?_⟩
    have hstop : Stopped t h'.pc m' (h', m') := ⟨hh, rfl, rfl⟩
    exact ⟨hstop.serveAll requests, ((hstop.serveAll requests).serve .step).state⟩

/-- A register is set to 1 and then a word loaded from there, with steps to spare. -/
theorem run_traps_precisely_unaligned :
    let h := Hart.new Table.base 0
    let m : Memory :=
      ⟨0, 8, (Cells.flat 0).write 3 0 [0x93, 0x00, 0x10, 0x00, 0x03, 0xa1, 0x00, 0x00]⟩
    let t : Trap := ⟨.loadFault (.unaligned 1 .word), 4, 0x0000a103⟩
    h.table = Table.base ∧ h.state = .running ∧ (h.run m 5).1 = 2 ∧
      (h.run m 5).2.1.state = .halted t ∧ Explains t (h.run m 5).2.1 (h.run m 5).2.2 := by
  intro h m t
  have hh : (h.run m 5).2.1.state = .halted t := by decide
  exact ⟨rfl, rfl, by decide, hh, (run_traps_precisely rfl rfl rfl hh).2.1⟩

end Hart
end Rv32i
