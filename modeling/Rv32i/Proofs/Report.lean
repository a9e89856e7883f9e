import Rv32i.Proofs.Mailbox

namespace Rv32i
open Manual

/-- An instruction of the base set that is carried out changes memory only if it is a store. -/
theorem Corresponds.stores {action : Instruction → Action} {o : Operation}
    (hc : Corresponds action o) {i : Instruction} {h h' : Hart} {m m' : Memory}
    (hp : (action i).perform h m = (none, h', m')) (hm : m' ≠ m) :
    ∃ width, o = .store width ∧
      m.store width (h.readReg i.rs1 + i.immS.toUInt32) (h.readReg i.rs2) = .ok m' := by
  cases hc with
  | store =>
    rw [Base.perform_store] at hp
    split at hp
    · rename_i hs
      cases hp
      exact ⟨_, rfl, hs⟩
    · cases hp
  | load =>
    rw [Base.perform_load] at hp
    split at hp
    · cases hp
      exact absurd rfl hm
    · cases hp
  | branch =>
    rw [Base.perform_branch] at hp
    cases hp
    exact absurd rfl hm
  | lui => cases hp; exact absurd rfl hm
  | auipc => cases hp; exact absurd rfl hm
  | jal => cases hp; exact absurd rfl hm
  | jalr => cases hp; exact absurd rfl hm
  | immediate => cases hp; exact absurd rfl hm
  | shift => cases hp; exact absurd rfl hm
  | register => cases hp; exact absurd rfl hm
  | fence => cases hp; exact absurd rfl hm

namespace Hart

/-- The instruction at hand is a store to `addr`, and `m'` is what it makes of the memory `m`. -/
structure Stores (h : Hart) (m : Memory) (raw : Word) (width : Width) (addr : Word) (m' : Memory) :
    Prop where
  fetched : m.load .word h.pc = .ok raw
  operation : operation raw.toNat = some (.store width)
  target : h.readReg (Field.rs1 raw) + (Field.immS raw).toUInt32 = addr
  stored : m.store width addr (h.readReg (Field.rs2 raw)) = .ok m'

/-- A step that changes memory is a store that was carried out. -/
theorem step_stores {h h' : Hart} {m m' : Memory} (ht : h.table = Table.base)
    (hr : h.state = .running) (hs : h.step m = (h', m')) (hm : m' ≠ m) :
    h'.state = .running ∧ ∃ raw width addr, h.Stores m raw width addr m' := by
  cases hs ▸ stepped m hr with
  | unfetched => exact absurd rfl hm
  | unknown => exact absurd rfl hm
  | trapped hl hd hp =>
    obtain ⟨o, _, hc⟩ := Table.operation_of_lookup (ht ▸ hd)
    exact absurd (hc.refused hp).2.1 hm
  | completed hl hd hp =>
    obtain ⟨o, ho, hc⟩ := Table.operation_of_lookup (ht ▸ hd)
    obtain ⟨width, rfl, hstore⟩ := hc.stores hp hm
    exact ⟨(Action.perform_frame hp).1.trans hr, _, width, _, hl, ho, rfl, hstore⟩

/-- A store that changes a word has a byte in common with it. -/
theorem Stores.overlaps {h : Hart} {m m' : Memory} {raw addr t : Word} {width : Width}
    (hs : h.Stores m raw width addr m') (hne : m'.load .word t ≠ m.load .word t) :
    addr.toNat < t.toNat + 4 ∧ t.toNat < addr.toNat + width.bytes := by
  by_contra hd
  refine hne (Memory.load_store_of_disjoint hs.stored ?_)
  change t.toNat + 4 ≤ addr.toNat ∨ addr.toNat + width.bytes ≤ t.toNat
  omega

end Hart

namespace Simulation

theorem step_stores {s : Simulation} (ht : s.hart.table = Table.base)
    (hm : s.step.memory ≠ s.memory) :
    s.step.hart.state = .running ∧
      ∃ raw width addr, s.hart.Stores s.memory raw width addr s.step.memory := by
  cases hr : s.hart.state with
  | halted t =>
    rw [step_of_halted hr] at hm
    exact absurd rfl hm
  | running =>
    simp only [step, hr] at hm ⊢
    exact Hart.step_stores ht hr rfl hm

theorem step_table (s : Simulation) : s.step.hart.table = s.hart.table := by
  cases hr : s.hart.state with
  | halted t => rw [step_of_halted hr]
  | running =>
    simp only [step, hr]
    exact s.hart.step_table s.memory

theorem iterate_table (k : Nat) (s : Simulation) : (step^[k] s).hart.table = s.hart.table :=
  Function.Iterate.rec (fun r : Simulation => r.hart.table = s.hart.table) rfl
    (fun r hr => r.step_table.trans hr) k

theorem iterate_wired (k : Nat) (s : Simulation) : Wired s (step^[k] s) :=
  Function.Iterate.rec (Wired s) (.refl s) (fun r hr => hr.trans r.step_wired) k

/-- A result other than a trap or the limit comes from the probe, after the first step after which
there is something to stop for. -/
theorem reported_of_completeWithin {budget : Nat} {s s' : Simulation} {o : Outcome}
    (hc : completeWithin budget s = (o, s')) (ho : o = .passed ∨ ∃ n, o = .failed n) :
    ∃ k < budget, (∀ i, 1 ≤ i → i ≤ k → ¬ (step^[i] s).Event) ∧ (step^[k + 1] s).Reports o s' := by
  induction budget generalizing s with
  | zero =>
    cases hc
    obtain h | ⟨n, h⟩ := ho <;> cases h
  | succ budget ih =>
    by_cases hr : ∃ o s', s.step.Reports o s'
    · obtain ⟨o₁, s₁, hr⟩ := hr
      cases (completeWithin_of_reports hr budget).symm.trans hc
      exact ⟨0, Nat.succ_pos budget, fun i h1 h0 => absurd (h1.trans h0) (by decide), hr⟩
    · cases hh : s.step.hart.state with
      | halted t =>
        cases (completeWithin_of_halted hr hh budget).symm.trans hc
        obtain h | ⟨n, h⟩ := ho <;> cases h
      | running =>
        have hquiet : ¬ s.step.Event := by
          rintro (h | ⟨t, h⟩)
          · exact hr h
          · cases hh.symm.trans h
        rw [completeWithin_of_quiet hquiet] at hc
        obtain ⟨k, hk, hq, hrep⟩ := ih hc
        refine ⟨k + 1, Nat.succ_lt_succ hk, fun i h1 hi => ?_, hrep⟩
        cases i with
        | zero => exact absurd h1 (by decide)
        | succ i =>
          cases i with
          | zero => exact hquiet
          | succ i => exact hq (i + 1) (Nat.succ_pos i) (Nat.le_of_succ_le_succ hi)

theorem running_of_quiet {s : Simulation} (hq : ¬ s.Event) : s.hart.state = .running := by
  cases hr : s.hart.state with
  | running => rfl
  | halted t => exact absurd (.inr ⟨t, hr⟩) hq

theorem empty_of_quiet {s : Simulation} {t : Word} (hp : s.probe = some (.tohost t))
    (hw : s.memory.HasWord t) (hq : ¬ s.Event) : s.memory.load .word t = .ok 0 := by
  obtain ⟨v, hl⟩ := (Memory.load_word_iff _ _).mpr hw
  cases ho : Outcome.ofTohost? v with
  | none => rw [hl, Outcome.ofTohost?_eq_none_iff.mp ho]
  | some o =>
    refine absurd (.inl ?_) hq
    obtain ⟨m, ha⟩ := exists_acknowledged hl
    obtain ⟨rfl, rfl⟩ | ⟨hv, rfl⟩ := Outcome.ofTohost?_eq_some_iff.mp ho
    · exact ⟨_, _, .passed hp hl ha⟩
    · exact ⟨_, _, .failed hp hl hv ha⟩

/-- The message `v` comes into the mailbox `t` by step `k + 1`, which is a store to bytes of the
mailbox; up to then the mailbox is empty. -/
structure Delivers (s : Simulation) (t : Word) (k : Nat) (v : Word) : Prop where
  before : ∀ j ≤ k, (step^[j] s).hart.state = .running ∧
    (step^[j] s).memory.load .word t = .ok 0
  store : ∃ raw width addr,
    (step^[k] s).hart.Stores (step^[k] s).memory raw width addr (step^[k + 1] s).memory ∧
      addr.toNat < t.toNat + 4 ∧ t.toNat < addr.toNat + width.bytes
  running : (step^[k + 1] s).hart.state = .running
  message : (step^[k + 1] s).memory.load .word t = .ok v

theorem Built.base_table {s : Simulation} (hb : Built [] s) : s.hart.table = Table.base :=
  (Except.ok.inj hb.table).symm

theorem Built.delivers {s : Simulation} (hb : Built [] s) {t : Word}
    (hp : s.probe = some (.tohost t)) {k : Nat}
    (hq : ∀ i, 1 ≤ i → i ≤ k → ¬ (step^[i] s).Event) {v : Word}
    (hl : (step^[k + 1] s).memory.load .word t = .ok v) (hv : v ≠ 0) : Delivers s t k v := by
  have hw : s.memory.HasWord t := hb.hasWord (mem_mailboxes.mpr (.inl ⟨_, hp, rfl⟩))
  have hbefore : ∀ j ≤ k, (step^[j] s).hart.state = .running ∧
      (step^[j] s).memory.load .word t = .ok 0 := by
    intro j hj
    cases j with
    | zero => exact ⟨hb.running, hb.tohost_empty hp⟩
    | succ j =>
      have hwired := iterate_wired (j + 1) s
      have hquiet := hq (j + 1) (Nat.succ_pos j) hj
      exact ⟨running_of_quiet hquiet,
        empty_of_quiet (hwired.probe.trans hp) (hwired.hasWord hw) hquiet⟩
  have hne : (step^[k + 1] s).memory.load .word t ≠ (step^[k] s).memory.load .word t := by
    rw [hl, (hbefore k (Nat.le_refl k)).2]
    exact fun h => hv (Except.ok.inj h)
  have htable := (iterate_table k s).trans hb.base_table
  -- the word has changed, so memory has, and only a store does that
  obtain ⟨hr, raw, width, addr, hs⟩ := step_stores htable (s := step^[k] s) (by
    intro he
    rw [Function.iterate_succ_apply', he] at hne
    exact hne rfl)
  rw [← Function.iterate_succ_apply' step k s] at hr hs
  exact ⟨hbefore, ⟨raw, width, addr, hs, hs.overlaps hne⟩, hr, hl⟩

/-- Nothing but the program's own store makes the host see a message: a result by mailbox follows
the first step that put something there, and that step went well. -/
theorem tohost_result_was_stored {s s' : Simulation} {t : Word} {o : Outcome} (hb : Built [] s)
    (hp : s.probe = some (.tohost t)) (hc : s.complete = (o, s'))
    (ho : o = .passed ∨ ∃ n, o = .failed n) :
    ∃ k v, k < s.config.budget ∧ Delivers s t k v ∧
      (o = .passed ∧ v = 1 ∨ o = .failed (v >>> 1) ∧ 2 ≤ v) ∧
      s' = (step^[k + 1] s).acknowledge t v ∧ s'.hart.state = .running := by
  obtain ⟨k, hk, hq, hr⟩ := reported_of_completeWithin hc ho
  have hprobe := (iterate_wired (k + 1) s).probe.trans hp
  cases hr with
  | passed hp' hl ha =>
    cases hprobe.symm.trans hp'
    have hd := hb.delivers hp hq hl (by decide)
    exact ⟨k, 1, hk, hd, .inl ⟨rfl, rfl⟩, ha.eq.symm, hd.running⟩
  | failed hp' hl hv ha =>
    cases hprobe.symm.trans hp'
    have hd := hb.delivers hp hq hl (by rintro rfl; exact absurd hv (by decide))
    exact ⟨k, _, hk, hd, .inr ⟨rfl, hv⟩, ha.eq.symm, hd.running⟩
  | found hp' => cases hprobe.symm.trans hp'

/-- The program brings a message of its own along, which does not count, and then puts a byte into
the mailbox. -/
theorem tohost_result_was_stored_byte :
    ∃ s, ofWords { memory := ⟨0, 32⟩, result := some (.tohost 16) }
        [0x00700093, 0x001008A3, 0, 0, 1] = .ok s ∧
      s.complete.1 = .failed 896 ∧ ∃ k v, Delivers s 16 k v ∧ v >>> 1 = 896 := by
  have hs : ∃ s, ofWords { memory := ⟨0, 32⟩, result := some (.tohost 16) }
        [0x00700093, 0x001008A3, 0, 0, 1] = .ok s ∧
      s.complete.1 = .failed 896 ∧ s.probe = some (.tohost 16) := ⟨_, rfl, by decide, rfl⟩
  obtain ⟨s, hs, ho, hp⟩ := hs
  have hc : s.complete = (.failed 896, s.complete.2) := by rw [← ho]
  obtain ⟨k, v, _, hd, hv, _⟩ :=
    tohost_result_was_stored (.ofWords hs) hp hc (.inr ⟨896, rfl⟩)
  obtain ⟨hv, _⟩ | ⟨hv, _⟩ := hv
  · cases hv
  · exact ⟨s, hs, ho, k, v, hd, (Outcome.failed.inj hv).symm⟩

theorem step_memory_of_trapped {s : Simulation} (ht : s.hart.table = Table.base)
    (hh : s.step.hart.state ≠ .running) : s.step.memory = s.memory := by
  by_contra hm
  exact hh (step_stores ht hm).1

/-- There is one way for a trap to be taken for a pass: what the sentinel waits for was in memory
from the start, and the first instruction traps. -/
theorem passed_though_trapped_iff {s : Simulation} (hb : Built [] s) :
    (s.complete.1 = .passed ∧ s.complete.2.hart.state ≠ .running) ↔
      (∃ addr value, s.probe = some (.sentinel addr value) ∧
        s.memory.load .word addr = .ok value) ∧ s.step.hart.state ≠ .running := by
  constructor
  · rintro ⟨hpass, hh⟩
    rcases hc : s.complete with ⟨o, s'⟩
    rw [hc] at hpass hh
    obtain ⟨k, _, hq, hr⟩ := reported_of_completeWithin hc (.inl hpass)
    cases hpass
    have hprobe := (iterate_wired (k + 1) s).probe.symm
    have htable := (iterate_table k s).trans hb.base_table
    cases hr with
    | passed hp hl =>
      have hd := hb.delivers (hprobe.trans hp) hq hl (by decide)
      exact absurd hd.running hh
    | found hp hl =>
      rw [Function.iterate_succ_apply'] at hh hl
      rw [step_memory_of_trapped htable hh] at hl
      -- the trap has left memory alone, so the word was there one step earlier
      cases k with
      | zero => exact ⟨⟨_, _, hprobe.trans hp, hl⟩, hh⟩
      | succ k =>
        have hp' := (iterate_wired (k + 1) s).probe.trans (hprobe.trans hp)
        exact absurd (.inl ⟨_, _, .found hp' hl⟩) (hq (k + 1) (Nat.succ_pos k) (Nat.le_refl _))
  · rintro ⟨⟨addr, value, hp, hl⟩, hh⟩
    have hr : s.step.Reports .passed s.step := by
      refine .found (s.step_wired.probe.trans hp) ?_
      rw [step_memory_of_trapped hb.base_table hh]
      exact hl
    obtain ⟨n, hn⟩ := Nat.exists_eq_add_of_le' s.config.budget_pos
    have hc : s.complete = (.passed, s.step) := by
      rw [complete, hn]
      exact completeWithin_of_reports hr n
    rw [hc]
    exact ⟨rfl, hh⟩

/-- A word of zeros passes for a result although the first word of the program is no instruction. -/
theorem sentinel_passes_on_trap :
    ∃ s, ofWords { memory := ⟨0, 256⟩, result := some (.sentinel 128 0) } [0x57] = .ok s ∧
      s.complete.1 = .passed ∧
      s.complete.2.hart.state = .halted ⟨.illegalInstruction, 0, 0x57⟩ :=
  ⟨_, rfl, by decide, by decide⟩

theorem passed_though_trapped_iff_zero :
    ∃ s, ofWords { memory := ⟨0, 256⟩, result := some (.sentinel 128 0) } [0x57] = .ok s ∧
      s.complete.1 = .passed ∧ s.complete.2.hart.state ≠ .running := by
  have hs : ∃ s, ofWords { memory := ⟨0, 256⟩, result := some (.sentinel 128 0) } [0x57] = .ok s ∧
      s.probe = some (.sentinel 128 0) ∧ s.memory.load .word 128 = .ok 0 ∧
      s.step.hart.state ≠ .running := ⟨_, rfl, rfl, by decide, by decide⟩
  obtain ⟨s, hs, hp, hl, hh⟩ := hs
  exact ⟨s, hs, (passed_though_trapped_iff (.ofWords hs)).mpr ⟨⟨128, 0, hp, hl⟩, hh⟩⟩

end Simulation
end Rv32i
