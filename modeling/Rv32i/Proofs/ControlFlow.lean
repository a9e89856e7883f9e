import Rv32i.Proofs.Traps
import Rv32i.Proofs.Words

namespace Rv32i
open Manual

/-- A jump has been taken from `h` to `h'` by the word `w`: a branch whose test holds, or one of the
two that leave the address behind their own in a register, unless that is register 0. -/
inductive Jumps (h : Hart) (w : Word) (h' : Hart) : Prop where
  | branch {c : Comparison} (ho : operation w.toNat = some (.branch c))
      (hc : c.holds (h.readReg (Field.rs1 w)) (h.readReg (Field.rs2 w)) = true)
      (htarget : h'.pc = UInt32.ofInt (h.pc.toNat + immB w.toNat))
  | jal (ho : operation w.toNat = some .jal)
      (htarget : h'.pc = UInt32.ofInt (h.pc.toNat + immJ w.toNat))
      (hlink : Field.rd w ≠ 0 → h'.readReg (Field.rd w) = UInt32.ofInt (h.pc.toNat + 4))
  | jalr {sum : Word} (ho : operation w.toNat = some .jalr)
      (hsum : sum = UInt32.ofInt ((h.readReg (Field.rs1 w)).toNat + immI w.toNat))
      (htarget : h'.pc.toNat = sum.toNat - sum.toNat % 2)
      (hlink : Field.rd w ≠ 0 → h'.readReg (Field.rd w) = UInt32.ofInt (h.pc.toNat + 4))

namespace Word

theorem even_ofInt {z : Int} (h : 2 ∣ z) : 2 ∣ (UInt32.ofInt z).toNat := by
  rw [toNat_ofInt]
  omega

theorem four_dvd_add_four {a : Word} (h : 4 ∣ a.toNat) : 4 ∣ (a + 4).toNat := by
  rw [add_four_eq_ofInt, toNat_ofInt]
  omega

end Word

namespace Manual

/-- A pattern with bit 0 clear stands for an even number. -/
theorem even_signed {width n : Nat} (hw : 1 ≤ width) (h : 2 ∣ n) : 2 ∣ signed width n := by
  have hpow : (2 : Int) ∣ 2 ^ width := dvd_pow_self 2 (Nat.ne_of_gt hw)
  unfold signed
  split
  · omega
  · omega

theorem even_immB (w : Nat) : 2 ∣ immB w :=
  even_signed (by decide) (by omega)

theorem even_immJ (w : Nat) : 2 ∣ immJ w :=
  even_signed (by decide) (by omega)

end Manual

/-- Branches and jumps lead from even addresses to even ones. Where a register has a say, bit 0 of
the sum is cleared. -/
theorem Jumps.even {h h' : Hart} {w : Word} (hj : Jumps h w h') (heven : 2 ∣ h.pc.toNat) :
    2 ∣ h'.pc.toNat := by
  cases hj with
  | branch ho hc htarget =>
    rw [htarget]
    exact Word.even_ofInt (Int.dvd_add (by omega) (even_immB _))
  | jal ho htarget hlink =>
    rw [htarget]
    exact Word.even_ofInt (Int.dvd_add (by omega) (even_immJ _))
  | jalr ho hsum htarget hlink =>
    rw [htarget]
    omega

/-- A hart that is still where the jump led, with the same registers, has taken it too. -/
theorem Jumps.congr {h h' g : Hart} {w : Word} (hj : Jumps h w h') (hpc : g.pc = h'.pc)
    (hx : g.registers = h'.registers) : Jumps h w g := by
  have hreg : g.readReg (Field.rd w) = h'.readReg (Field.rd w) := by
    rw [Hart.readReg, Hart.readReg, hx]
  cases hj with
  | branch ho hc htarget => exact .branch ho hc (hpc.trans htarget)
  | jal ho htarget hlink => exact .jal ho (hpc.trans htarget) (hreg ▸ hlink)
  | jalr ho hsum htarget hlink => exact .jalr ho hsum (hpc ▸ htarget) (hreg ▸ hlink)

/-- The field of the destination has five bits, so it is 0 only for register 0. -/
theorem index_rd_ne_zero {w : Word} (h : Field.rd w ≠ 0) : Registers.index (Field.rd w) ≠ 0 := by
  have hlt : (Field.rd w).toNat < 32 := by
    rw [Field.toNat_rd]
    exact slice_lt w.toNat 11 7
  intro hi
  have hval : (Field.rd w).toNat % 32 = 0 := congrArg Fin.val hi
  rw [Nat.mod_eq_of_lt hlt] at hval
  exact h (UInt8.toNat_inj.mp hval)

theorem readReg_link {h : Hart} {w : Word} (hrd : Field.rd w ≠ 0) (target : Word) :
    (((h.writeReg (Field.rd w) (h.pc + 4)).setNextPc target).advance).readReg (Field.rd w) =
      UInt32.ofInt (h.pc.toNat + 4) := by
  rw [← Word.add_four_eq_ofInt]
  have hread := h.registers.read_write (Field.rd w) (Field.rd w) (h.pc + 4)
  rw [if_pos ⟨rfl, index_rd_ne_zero hrd⟩] at hread
  exact hread

/-- Where an action of the base set goes on: behind its own address, unless it is a jump that is
taken. -/
theorem Corresponds.goes_on {action : Instruction → Action} {o : Operation}
    (hc : Corresponds action o) {w : Word} (ho : operation w.toNat = some o) {h h' : Hart}
    {m m' : Memory}
    (hp : (action (.decode w)).perform (h.setNextPc (h.pc + 4)) m = (none, h', m')) :
    h'.nextPc = h.pc + 4 ∨ Jumps h w h'.advance := by
  cases hc with
  | branch hp' =>
    rw [Base.perform_branch] at hp
    split at hp
    · rename_i htaken
      cases hp
      rw [hp'] at htaken
      refine .inr (.branch ho htaken ?_)
      rw [← Field.toInt_immB, ← Word.add_toUInt32_eq_ofInt]
      rfl
    · cases hp
      exact .inl rfl
  | jal =>
    cases hp
    refine .inr (.jal ho ?_ fun hrd => readReg_link hrd _)
    rw [← Field.toInt_immJ, ← Word.add_toUInt32_eq_ofInt]
    rfl
  | jalr =>
    cases hp
    have hsum : h.readReg (Field.rs1 w) + (Field.immI w).toUInt32 =
        UInt32.ofInt ((h.readReg (Field.rs1 w)).toNat + immI w.toNat) := by
      rw [Word.add_toUInt32_eq_ofInt, Field.toInt_immI]
    refine .inr (.jalr ho hsum ?_ fun hrd => readReg_link hrd _)
    have hclear := Word.toNat_and_high (h.readReg (Field.rs1 w) + (Field.immI w).toUInt32) (~~~1) 1
      (by decide)
    refine hclear.trans ?_
    omega
  | load =>
    rw [Base.perform_load] at hp
    split at hp
    · cases hp
      exact .inl rfl
    · cases hp
  | store =>
    rw [Base.perform_store] at hp
    split at hp
    · cases hp
      exact .inl rfl
    · cases hp
  | lui =>
    cases hp
    exact .inl rfl
  | auipc =>
    cases hp
    exact .inl rfl
  | immediate =>
    cases hp
    exact .inl rfl
  | shift =>
    cases hp
    exact .inl rfl
  | register =>
    cases hp
    exact .inl rfl
  | fence =>
    cases hp
    exact .inl rfl

namespace Hart

/-- A step that leaves the hart running has fetched a word, and leads on or to the target of a
jump. -/
theorem step_goes_on {h h' : Hart} {m m' : Memory} (ht : h.table = Table.base)
    (hr : h.state = .running) (hs : h.step m = (h', m')) (hr' : h'.state = .running) :
    ∃ w, m.load .word h.pc = .ok w ∧ (h'.pc = h.pc + 4 ∨ Jumps h w h') := by
  cases hs ▸ stepped m hr with
  | unfetched => cases hr'
  | unknown => cases hr'
  | trapped => cases hr'
  | completed hl hd hp =>
    obtain ⟨o, ho, hc⟩ := Table.operation_of_lookup (ht ▸ hd)
    exact ⟨_, hl, hc.goes_on ho hp⟩

theorem step_even {h h' : Hart} {m m' : Memory} (ht : h.table = Table.base)
    (hs : h.step m = (h', m')) (heven : 2 ∣ h.pc.toNat) : 2 ∣ h'.pc.toNat := by
  cases hr : h.state with
  | halted t =>
    rw [step_halted m hr] at hs
    cases hs
    exact heven
  | running =>
    cases hr' : h'.state with
    | halted t =>
      obtain ⟨_, hpc, _⟩ := step_blocked ht hr hs hr'
      rw [hpc]
      exact heven
    | running =>
      obtain ⟨w, _, hpc | hj⟩ := step_goes_on ht hr hs hr'
      · rw [hpc, Word.add_four_eq_ofInt]
        exact Word.even_ofInt (by omega)
      · exact hj.even heven

/-- The invariant of every run: the address of the instruction at hand is even. -/
theorem iterate_even {s : Hart × Memory} (ht : s.1.table = Table.base) (heven : 2 ∣ s.1.pc.toNat)
    (j : Nat) : 2 ∣ (tick^[j] s).1.pc.toNat := by
  induction j with
  | zero => exact heven
  | succ j ih =>
    rw [Function.iterate_succ_apply']
    rcases hs : tick (tick^[j] s) with ⟨h', m'⟩
    exact step_even ((iterate_table j s).trans ht) hs ih

/-- An instruction that is refused as not aligned is not at a multiple of four. -/
theorem unaligned_of_blocked {x : Registers} {pc a : Word} {m : Memory} {t : Trap} {width : Width}
    (hb : Blocked x pc m t) (hc : t.cause = .fetchFault (.unaligned a width)) :
    ¬ 4 ∣ pc.toNat ∧ t.pc = pc ∧ a = pc := by
  cases hb with
  | unfetched hl =>
    cases hc
    have hnone : ¬ m.HasWord pc := by
      rw [← Memory.load_word_iff, hl]
      exact nofun
    rw [Memory.load_word_of_not hnone, AccessError.ofWord] at hl
    split at hl
    · cases hl
    · rename_i hdvd
      cases hl
      exact ⟨hdvd, rfl, rfl⟩
  | unknown => cases hc
  | refused _ _ hx => cases hx <;> cases hc

/-- Two steps from a hart that can fetch its instruction to one that stands at no multiple of four:
the first of them was a jump. -/
theorem jumps_of_misaligned {h g : Hart} {m m' : Memory} (ht : h.table = Table.base)
    (hr : h.state = .running) (hs : h.step m = (g, m')) (hr' : g.state = .running)
    (hg : ¬ 4 ∣ g.pc.toNat) : ∃ w, m.load .word h.pc = .ok w ∧ Jumps h w g := by
  obtain ⟨w, hl, hpc | hj⟩ := step_goes_on ht hr hs hr'
  · have hword : m.HasWord h.pc := (Memory.load_word_iff m h.pc).mp ⟨w, hl⟩
    rw [hpc] at hg
    exact absurd (Word.four_dvd_add_four hword.1) hg
  · exact ⟨w, hl, hj⟩

/-- Control flow stays at even addresses. A fetch is refused as not aligned only halfway between two
words, and if the run started at a word, only right after a jump to there, which has left its link
by then. -/
theorem run_misaligned_after_jump {h h' : Hart} {m m' : Memory} {n k : Nat}
    (ht : h.table = Table.base) (hr : h.state = .running) (heven : 2 ∣ h.pc.toNat)
    (hrun : h.run m n = (k, h', m')) :
    2 ∣ h'.pc.toNat ∧
    ∀ t a width, h'.state = .halted t → t.cause = .fetchFault (.unaligned a width) →
      h'.pc.toNat % 4 = 2 ∧ t.pc = h'.pc ∧ a = h'.pc ∧
      (4 ∣ h.pc.toNat → ∃ i w, k = i + 2 ∧
        let s := tick^[i] (h, m)
        s.1.state = .running ∧ s.2.load .word s.1.pc = .ok w ∧
        (tick s).1.state = .running ∧ (tick s).1.pc = h'.pc ∧ Jumps s.1 w h') := by
  obtain ⟨_, hlast, hbefore⟩ := run_iterates hrun
  have hpc : 2 ∣ h'.pc.toNat := by
    have hend := iterate_even (s := (h, m)) ht heven k
    rwa [hlast] at hend
  refine ⟨hpc, fun t a width hh hc => ?_⟩
  cases k with
  | zero =>
    cases hlast
    cases hr.symm.trans hh
  | succ j =>
    have htable := (iterate_table j (h, m)).trans ht
    rw [Function.iterate_succ_apply'] at hlast
    obtain ⟨hx, hsame, _, hb⟩ := step_blocked htable (hbefore j (Nat.lt_succ_self j)) hlast hh
    obtain ⟨hdvd, htpc, ha⟩ := unaligned_of_blocked hb hc
    rw [← hsame] at hdvd htpc ha
    refine ⟨by omega, htpc, ha, fun hentry => ?_⟩
    cases j with
    | zero =>
      -- the fetch at the entry is the only one without a step before it
      rw [hsame] at hdvd
      exact absurd hentry hdvd
    | succ i =>
      have htable' := (iterate_table i (h, m)).trans ht
      have hjump := hbefore (i + 1) (Nat.lt_succ_self _)
      rw [Function.iterate_succ_apply'] at hx hsame hjump
      rw [hsame] at hdvd
      obtain ⟨w, hl, hj⟩ := jumps_of_misaligned htable' (hbefore i (by omega)) rfl hjump hdvd
      exact ⟨i, w, rfl, hbefore i (by omega), hl, hjump, hsame.symm, hj.congr hsame hx⟩

/-- A jump from address 0 to address 6 that is linked in register 1, with steps to spare. -/
theorem run_misaligned_after_jump_jal :
    let h := Hart.new Table.base 0
    let m : Memory := ⟨0, 8, (Cells.flat 0).write 3 0 [0xef, 0x00, 0x60, 0x00]⟩
    let t : Trap := ⟨.fetchFault (.unaligned 6 .word), 6, 0⟩
    (h.run m 5).1 = 2 ∧ (h.run m 5).2.1.state = .halted t ∧ (h.run m 5).2.1.readReg 1 = 4 ∧
      (h.run m 5).2.1.pc.toNat % 4 = 2 ∧ Jumps h 0x006000ef (h.run m 5).2.1 := by
  intro h m t
  have hrun : h.run m 5 = (2, (h.run m 5).2) := Prod.ext (by decide) rfl
  have hh : (h.run m 5).2.1.state = .halted t := by decide
  obtain ⟨_, hfault⟩ := run_misaligned_after_jump rfl rfl (by decide) hrun
  obtain ⟨hpc, _, _, hjump⟩ := hfault t 6 .word hh rfl
  obtain ⟨i, w, hk, _, hl, _, _, hj⟩ := hjump (by decide)
  obtain rfl : i = 0 := by omega
  cases hl.symm.trans (show m.load .word 0 = .ok 0x006000ef by decide)
  exact ⟨congrArg Prod.fst hrun, hh, by decide, hpc, hj⟩

end Hart
end Rv32i
