import Rv32i.Proofs.Report

namespace Rv32i
open Manual

namespace Cells

theorem set_set_comm {depth i j : Nat} (h : i % capacity depth ≠ j % capacity depth) (t : Cells)
    (v w : UInt8) :
    set depth (set depth t i v) j w = set depth (set depth t j w) i v := by
  induction depth generalizing t with
  | zero => exact absurd (by simp [capacity, Nat.mod_one]) h
  | succ depth ih =>
    rw [ne_eq, mod_capacity_succ_eq_iff, not_and] at h
    -- cells in different halves do not meet, and those in one half differ there
    cases hi : i.testBit depth with
    | true =>
      cases hj : j.testBit depth with
      | true => simp [set, hi, hj, ih (h (hi.trans hj.symm))]
      | false => simp [set, hi, hj]
    | false =>
      cases hj : j.testBit depth with
      | true => simp [set, hi, hj]
      | false => simp [set, hi, hj, ih (h (hi.trans hj.symm))]

theorem write_set_comm {depth i start : Nat} {bytes : List UInt8} (hi : i < capacity depth)
    (hs : start + bytes.length ≤ capacity depth) (hd : i < start ∨ start + bytes.length ≤ i)
    (t : Cells) (v : UInt8) :
    write depth (set depth t i v) start bytes = set depth (write depth t start bytes) i v := by
  induction bytes generalizing t start with
  | nil => rfl
  | cons b bytes ih =>
    simp only [List.length_cons] at hs hd
    have hne : i % capacity depth ≠ start % capacity depth := by
      rw [Nat.mod_eq_of_lt hi, Nat.mod_eq_of_lt (by omega)]
      omega
    rw [write, write, set_set_comm hne, ih (by omega) (by omega)]

theorem write_write_comm {depth start start' : Nat} {bytes bytes' : List UInt8}
    (hs : start + bytes.length ≤ capacity depth) (hs' : start' + bytes'.length ≤ capacity depth)
    (hd : start + bytes.length ≤ start' ∨ start' + bytes'.length ≤ start) (t : Cells) :
    write depth (write depth t start bytes) start' bytes' =
      write depth (write depth t start' bytes') start bytes := by
  induction bytes generalizing t start with
  | nil => rfl
  | cons b bytes ih =>
    simp only [List.length_cons] at hs hd
    rw [write, write, ih (by omega) (by omega),
      write_set_comm (by omega) hs' (by omega)]

end Cells

theorem ByteMap.requireAligned_congr {α : Type} {b b' : ByteMap} (hb : b'.base = b.base)
    (hz : b'.size = b.size) (addr : Word) (width : Width) (answer : α) :
    b'.requireAligned addr width answer = b.requireAligned addr width answer := by
  cases b
  cases b'
  cases hb
  cases hz
  rfl

namespace Memory

/-- The regions have the same place, and the same bytes wherever `S` says. -/
structure SameOn (S : Nat → Prop) (m m' : Memory) : Prop where
  base : m'.base = m.base
  size : m'.size = m.size
  byte : ∀ a, S a → m'.view.byte a = m.view.byte a

/-- The addresses of a number in memory. -/
def Spans (addr : Word) (width : Width) (a : Nat) : Prop :=
  addr.toNat ≤ a ∧ a < addr.toNat + width.bytes

/-- Whether an access is refused has to do with the place of the region only. -/
theorem locateAligned_congr {m m' : Memory} (hb : m'.base = m.base) (hz : m'.size = m.size)
    (addr : Word) (width : Width) : m'.locateAligned addr width = m.locateAligned addr width := by
  unfold locateAligned locate
  rw [hb, hz]

theorem load_error_congr {m m' : Memory} (hb : m'.base = m.base) (hz : m'.size = m.size)
    {width : Width} {addr : Word} {e : AccessError} (h : m.load width addr = .error e) :
    m'.load width addr = .error e := by
  unfold load at h ⊢
  rw [locateAligned_congr hb hz]
  split at h
  · cases h
  · exact h

theorem store_error_congr {m m' : Memory} (hb : m'.base = m.base) (hz : m'.size = m.size)
    {width : Width} {addr value : Word} {e : AccessError}
    (h : m.store width addr value = .error e) : m'.store width addr value = .error e := by
  unfold store at h ⊢
  rw [locateAligned_congr hb hz]
  split at h
  · cases h
  · exact h

/-- A number is loaded from its own bytes. -/
theorem load_ok_congr {S : Nat → Prop} {m m' : Memory} (ha : SameOn S m m') {width : Width}
    {addr v : Word} (h : m.load width addr = .ok v) (hs : ∀ a, Spans addr width a → S a) :
    m'.load width addr = .ok v := by
  have hbytes : m'.view.bytes addr.toNat width.bytes = m.view.bytes addr.toNat width.bytes := by
    refine List.map_congr_left fun i hi => ha.byte _ (hs _ ⟨Nat.le_add_right _ i, ?_⟩)
    exact Nat.add_lt_add_left (List.mem_range.mp hi) _
  rw [← h]
  apply toNat_map_inj
  rw [view_load, view_load, ByteMap.load, ByteMap.load, hbytes]
  exact ByteMap.requireAligned_congr ha.base ha.size addr width _

theorem store_ok_congr {m m' m₁ : Memory} (hb : m'.base = m.base) (hz : m'.size = m.size)
    {width : Width} {addr value : Word} (h : m.store width addr value = .ok m₁) :
    ∃ m₂, m'.store width addr value = .ok m₂ := by
  unfold store at h ⊢
  rw [locateAligned_congr hb hz]
  split at h
  · exact ⟨_, rfl⟩
  · cases h

/-- What a store that is served does: it writes bytes that the region has. -/
theorem store_eq_ok {m m' : Memory} {width : Width} {addr value : Word}
    (h : m.store width addr value = .ok m') :
    m.base.toNat ≤ addr.toNat ∧ addr.toNat - m.base.toNat + width.bytes ≤ m.size ∧
      m' = { m with
        cells :=
          m.cells.write m.depth (addr.toNat - m.base.toNat) (Word.toBytes width.bytes value) } := by
  unfold store at h
  split at h
  · rename_i offset hl
    cases h
    rw [locateAligned_eq_require] at hl
    unfold ByteMap.requireAligned ByteMap.require at hl
    repeat' first | split at hl | cases hl
    rename_i hw
    obtain ⟨hbase, hstop⟩ := (view_within m _ _).mp hw
    exact ⟨hbase, by omega, rfl⟩
  · cases h

/-- Stores that share no byte can be made in either order. -/
theorem store_store_comm {m m₁ m₂ : Memory} {width width' : Width} {addr addr' value value' : Word}
    (h₁ : m.store width addr value = .ok m₁) (h₂ : m.store width' addr' value' = .ok m₂)
    (hd : addr.toNat + width.bytes ≤ addr'.toNat ∨ addr'.toNat + width'.bytes ≤ addr.toNat) :
    m₁.store width' addr' value' = m₂.store width addr value := by
  obtain ⟨m₃, h₃⟩ := store_ok_congr (store_geometry h₁).1 (store_geometry h₁).2 h₂
  obtain ⟨m₄, h₄⟩ := store_ok_congr (store_geometry h₂).1 (store_geometry h₂).2 h₁
  rw [h₃, h₄]
  obtain ⟨hb, hz, rfl⟩ := store_eq_ok h₁
  obtain ⟨hb', hz', rfl⟩ := store_eq_ok h₂
  obtain ⟨-, -, rfl⟩ := store_eq_ok h₃
  obtain ⟨-, -, rfl⟩ := store_eq_ok h₄
  have hcap := m.size_le_capacity
  have hcells : ∀ {bytes bytes' : List UInt8}, bytes.length = width.bytes →
      bytes'.length = width'.bytes →
      (m.cells.write m.depth (addr.toNat - m.base.toNat) bytes).write m.depth
          (addr'.toNat - m.base.toNat) bytes' =
        (m.cells.write m.depth (addr'.toNat - m.base.toNat) bytes').write m.depth
          (addr.toNat - m.base.toNat) bytes := fun hlen hlen' =>
    Cells.write_write_comm (by omega) (by omega) (by omega) m.cells
  exact congrArg (fun cells => Except.ok { m with cells })
    (hcells (Word.length_toBytes ..) (Word.length_toBytes ..))

end Memory

/-- A store that an instruction makes. -/
structure Write where
  width : Width
  addr : Word
  value : Word

namespace Write
open Memory

def apply (m : Memory) (w : Write) : Memory :=
  match m.store w.width w.addr w.value with
  | .ok m' => m'
  | .error _ => m

/-- The store that a step makes, if it makes one. -/
def applyTo (m : Memory) : Option Write → Memory
  | none => m
  | some w => w.apply m

/-- The region has a place for it. -/
def Served (w : Write) (m : Memory) : Prop :=
  ∃ m', m.store w.width w.addr w.value = .ok m'

theorem Served.store {w : Write} {m : Memory} (h : w.Served m) :
    m.store w.width w.addr w.value = .ok (w.apply m) := by
  obtain ⟨m', h⟩ := h
  rw [apply, h]

theorem Served.congr {w : Write} {m m' : Memory} (h : w.Served m) (hb : m'.base = m.base)
    (hz : m'.size = m.size) : w.Served m' :=
  store_ok_congr hb hz h.store

theorem apply_comm {w w' : Write} {m : Memory} (h : w.Served m) (h' : w'.Served m)
    (hd : ∀ a, Spans w.addr w.width a → ¬ Spans w'.addr w'.width a) :
    w'.apply (w.apply m) = w.apply (w'.apply m) := by
  have hpos : ∀ width : Width, 0 < width.bytes := by
    intro width
    cases width <;> decide
  have hspans : w.addr.toNat + w.width.bytes ≤ w'.addr.toNat ∨
      w'.addr.toNat + w'.width.bytes ≤ w.addr.toNat := by
    by_contra hmeet
    have hw := hpos w.width
    have hw' := hpos w'.width
    refine hd (max w.addr.toNat w'.addr.toNat) ⟨?_, ?_⟩ ⟨?_, ?_⟩ <;> omega
  obtain ⟨hb, hz⟩ := store_geometry h.store
  obtain ⟨hb', hz'⟩ := store_geometry h'.store
  have hthen := (h'.congr hb hz).store
  rw [store_store_comm h.store h'.store hspans, (h.congr hb' hz').store] at hthen
  exact (Except.ok.inj hthen).symm

/-- A store leaves a region that agrees with the old one wherever it does not write. -/
theorem Served.sameOn {w : Write} {m : Memory} (h : w.Served m) {S : Nat → Prop}
    (hd : ∀ a, Spans w.addr w.width a → ¬ S a) : SameOn S m (w.apply m) where
  base := (store_geometry h.store).1
  size := (store_geometry h.store).2
  byte a ha := by
    refine byte_store_of_outside h.store ?_
    have hout : ¬ Spans w.addr w.width a := fun hs => hd a hs ha
    unfold Spans at hout
    omega

end Write

open Memory in
/-- What an action of the base set does it does to every memory that has the same place and, where
it loads, the same number: the same to the hart, and to the memory at most one store. -/
theorem Corresponds.effect {action : Instruction → Action} {o : Operation}
    (hc : Corresponds action o) {i : Instruction} {h h' : Hart} {m m₁ : Memory} {r : Option Cause}
    (hp : (action i).perform h m = (r, h', m₁)) :
    ∃ e : Option Write,
      (∀ w ∈ e, o = .store w.width ∧ w.addr = h.readReg i.rs1 + i.immS.toUInt32 ∧
        w.value = h.readReg i.rs2 ∧ w.Served m) ∧
      ∀ m', m'.base = m.base → m'.size = m.size →
        (∀ width signExtended v, o = .load width signExtended →
          m.load width (h.readReg i.rs1 + i.immI.toUInt32) = .ok v →
          m'.load width (h.readReg i.rs1 + i.immI.toUInt32) = .ok v) →
        (action i).perform h m' = (r, h', Write.applyTo m' e) := by
  cases hc with
  | load =>
    rw [Base.perform_load] at hp
    split at hp
    · rename_i hl
      cases hp
      refine ⟨none, nofun, fun m' hb hz hsame => ?_⟩
      rw [Base.perform_load, hsame _ _ _ rfl hl]
      rfl
    · rename_i he
      cases hp
      refine ⟨none, nofun, fun m' hb hz _ => ?_⟩
      rw [Base.perform_load, load_error_congr hb hz he]
      rfl
  | @store width =>
    rw [Base.perform_store] at hp
    split at hp
    · rename_i hs
      cases hp
      let w : Write := ⟨width, h.readReg i.rs1 + i.immS.toUInt32, h.readReg i.rs2⟩
      have hw : w.Served m := ⟨_, hs⟩
      refine ⟨some w, ?_, fun m' hb hz _ => ?_⟩
      · rintro w' ⟨⟩
        exact ⟨rfl, rfl, rfl, hw⟩
      · have hs' : m'.store width (h.readReg i.rs1 + i.immS.toUInt32) (h.readReg i.rs2) =
            .ok (w.apply m') := (hw.congr hb hz).store
        rw [Base.perform_store, hs']
        rfl
    · rename_i he
      cases hp
      refine ⟨none, nofun, fun m' hb hz _ => ?_⟩
      rw [Base.perform_store, store_error_congr hb hz he]
      rfl
  | branch =>
    rw [Base.perform_branch] at hp
    cases hp
    exact ⟨none, nofun, fun m' _ _ _ => Base.perform_branch _ i h m'⟩
  | lui => cases hp; exact ⟨none, nofun, fun _ _ _ _ => rfl⟩
  | auipc => cases hp; exact ⟨none, nofun, fun _ _ _ _ => rfl⟩
  | jal => cases hp; exact ⟨none, nofun, fun _ _ _ _ => rfl⟩
  | jalr => cases hp; exact ⟨none, nofun, fun _ _ _ _ => rfl⟩
  | immediate => cases hp; exact ⟨none, nofun, fun _ _ _ _ => rfl⟩
  | shift => cases hp; exact ⟨none, nofun, fun _ _ _ _ => rfl⟩
  | register => cases hp; exact ⟨none, nofun, fun _ _ _ _ => rfl⟩
  | fence => cases hp; exact ⟨none, nofun, fun _ _ _ _ => rfl⟩

namespace Hart
open Memory

/-- The next step writes the byte at `a`. -/
def Writes (h : Hart) (m : Memory) (a : Nat) : Prop :=
  h.state = .running ∧ ∃ raw width addr m', h.Stores m raw width addr m' ∧ Spans addr width a

/-- The next step reads or writes the byte at `a`, as one of the instruction or of what it loads or
stores. A refused access touches nothing, and neither does a hart that has stopped. -/
inductive Touches (h : Hart) (m : Memory) (a : Nat) : Prop where
  | fetched {raw : Word} (hr : h.state = .running) (hl : m.load .word h.pc = .ok raw)
      (ha : Spans h.pc .word a)
  | loaded {raw addr v : Word} {width : Width} {signExtended : Bool} (hr : h.state = .running)
      (hl : m.load .word h.pc = .ok raw)
      (ho : operation raw.toNat = some (.load width signExtended))
      (ht : h.readReg (Field.rs1 raw) + (Field.immI raw).toUInt32 = addr)
      (hv : m.load width addr = .ok v) (ha : Spans addr width a)
  | stored (hw : h.Writes m a)

section
variable {h : Hart} {m : Memory} {raw addr : Word} {width : Width} {a : Nat}

theorem Writes.spans (hw : h.Writes m a) (hl : m.load .word h.pc = .ok raw)
    (ho : operation raw.toNat = some (.store width))
    (ht : h.readReg (Field.rs1 raw) + (Field.immS raw).toUInt32 = addr) : Spans addr width a := by
  obtain ⟨-, raw', width', addr', m', hs, ha⟩ := hw
  cases hl.symm.trans hs.fetched
  cases ho.symm.trans hs.operation
  cases ht.symm.trans hs.target
  exact ha

/-- A store touches its own word and what it writes. -/
theorem Touches.spans (hx : h.Touches m a) (hl : m.load .word h.pc = .ok raw)
    (ho : operation raw.toNat = some (.store width))
    (ht : h.readReg (Field.rs1 raw) + (Field.immS raw).toUInt32 = addr) :
    Spans h.pc .word a ∨ Spans addr width a := by
  cases hx with
  | fetched _ _ ha => exact .inl ha
  | loaded _ hl' ho' =>
    cases hl.symm.trans hl'
    cases ho.symm.trans ho'
  | stored hw => exact .inr (hw.spans hl ho ht)

end

/-- All that the next step does: it leaves the hart `h'` and makes the store `e`, if any, and it
would do so with every memory that agrees on the bytes it touches. -/
structure Does (h : Hart) (m : Memory) (h' : Hart) (e : Option Write) : Prop where
  served : ∀ w ∈ e, w.Served m
  writes : ∀ w ∈ e, ∀ a, Spans w.addr w.width a → h.Writes m a
  step : ∀ m', SameOn (h.Touches m) m m' → h.step m' = (h', Write.applyTo m' e)

theorem does_of_perform {h h' : Hart} {m m₁ : Memory} {raw : Word} {d : Definition}
    {r : Option Cause} (ht : h.table = Table.base) (hr : h.state = .running)
    (hl : m.load .word h.pc = .ok raw) (hd : h.table.lookup (.decode raw) = some d)
    (hp : (d.action (.decode raw)).perform (h.setNextPc (h.pc + 4)) m = (r, h', m₁)) :
    ∃ e : Option Write, (∀ w ∈ e, w.Served m) ∧
      (∀ w ∈ e, ∀ a, Spans w.addr w.width a → h.Writes m a) ∧
      ∀ m', SameOn (h.Touches m) m m' →
        (d.action (.decode raw)).perform (h.setNextPc (h.pc + 4)) m' =
          (r, h', Write.applyTo m' e) := by
  obtain ⟨o, ho, hc⟩ := Table.operation_of_lookup (ht ▸ hd)
  obtain ⟨e, hstore, hsame⟩ := hc.effect hp
  refine ⟨e, fun w hw => (hstore w hw).2.2.2, fun w hw a ha => ?_, fun m' hm' => ?_⟩
  · obtain ⟨rfl, haddr, hvalue, m', hs⟩ := hstore w hw
    rw [hvalue] at hs
    exact ⟨hr, raw, w.width, w.addr, m', ⟨hl, ho, haddr.symm, hs⟩, ha⟩
  · refine hsame m' hm'.base hm'.size ?_
    rintro width signExtended v rfl hv
    exact load_ok_congr hm' hv fun a ha => .loaded hr hl ho rfl hv ha

/-- A step goes by what it touches. -/
theorem exists_does {h : Hart} (ht : h.table = Table.base) (m : Memory) :
    ∃ h' e, h.Does m h' e := by
  cases hr : h.state with
  | halted t => exact ⟨h, none, nofun, nofun, fun m' _ => step_halted m' hr⟩
  | running =>
    have hfetch : ∀ {raw}, m.load .word h.pc = .ok raw → ∀ {m'}, SameOn (h.Touches m) m m' →
        m'.load .word h.pc = .ok raw :=
      fun hl _ hm' => load_ok_congr hm' hl fun _ ha => .fetched hr hl ha
    have hstep := stepped m hr
    generalize h.step m = s at hstep
    cases hstep with
    | unfetched hl =>
      exact ⟨_, none, nofun, nofun, fun m' hm' =>
        (Stepped.unfetched (load_error_congr hm'.base hm'.size hl)).step_eq hr⟩
    | unknown hl hd =>
      exact ⟨_, none, nofun, nofun, fun m' hm' =>
        (Stepped.unknown (hfetch hl hm') hd).step_eq hr⟩
    | trapped hl hd hp =>
      obtain ⟨e, hserved, hwrites, hsame⟩ := does_of_perform ht hr hl hd hp
      exact ⟨_, e, hserved, hwrites, fun m' hm' =>
        (Stepped.trapped (hfetch hl hm') hd (hsame m' hm')).step_eq hr⟩
    | completed hl hd hp =>
      obtain ⟨e, hserved, hwrites, hsame⟩ := does_of_perform ht hr hl hd hp
      exact ⟨_, e, hserved, hwrites, fun m' hm' =>
        (Stepped.completed (hfetch hl hm') hd (hsame m' hm')).step_eq hr⟩

theorem Does.step_self {h h' : Hart} {m : Memory} {e : Option Write} (hd : h.Does m h' e) :
    h.step m = (h', Write.applyTo m e) :=
  hd.step m ⟨rfl, rfl, fun _ _ => rfl⟩

/-- What a step leaves of memory agrees with what was there wherever it has not written. -/
theorem Does.sameOn {h h' : Hart} {m : Memory} {e : Option Write} (hd : h.Does m h' e)
    {S : Nat → Prop} (hout : ∀ a, h.Writes m a → ¬ S a) : SameOn S m (Write.applyTo m e) := by
  cases e with
  | none => exact ⟨rfl, rfl, fun _ _ => rfl⟩
  | some w => exact (hd.served w rfl).sameOn fun a ha => hout a (hd.writes w rfl a ha)

theorem Does.applyTo_comm {h h' k k' : Hart} {m : Memory} {e f : Option Write}
    (hd : h.Does m h' e) (kd : k.Does m k' f) (hout : ∀ a, h.Writes m a → ¬ k.Touches m a) :
    Write.applyTo (Write.applyTo m e) f = Write.applyTo (Write.applyTo m f) e := by
  cases e with
  | none => rfl
  | some w =>
    cases f with
    | none => rfl
    | some v =>
      refine Write.apply_comm (hd.served w rfl) (kd.served v rfl) fun a ha ha' => ?_
      exact hout a (hd.writes w rfl a ha) (.stored (kd.writes v rfl a ha'))

end Hart

/-- Two harts that share a memory. -/
structure Shared where
  first : Hart
  second : Hart
  memory : Memory

namespace Shared

def stepFirst (s : Shared) : Shared :=
  let (first, memory) := s.first.step s.memory
  { s with first, memory }

def stepSecond (s : Shared) : Shared :=
  let (second, memory) := s.second.step s.memory
  { s with second, memory }

/-- Neither hart writes what the other touches. -/
structure Independent (s : Shared) : Prop where
  first : ∀ a, s.first.Writes s.memory a → ¬ s.second.Touches s.memory a
  second : ∀ a, s.second.Writes s.memory a → ¬ s.first.Touches s.memory a

theorem not_writes {h : Hart} {m : Memory}
    (hn : ∀ raw width, m.load .word h.pc = .ok raw → operation raw.toNat ≠ some (.store width))
    (a : Nat) : ¬ h.Writes m a := by
  rintro ⟨-, raw, width, addr, m', hs, -⟩
  exact hn raw width hs.fetched hs.operation

theorem stepSecond_stepFirst {s : Shared} (h1 : s.first.table = Table.base)
    (h2 : s.second.table = Table.base) (hi : s.Independent) :
    s.stepFirst.stepSecond = s.stepSecond.stepFirst := by
  obtain ⟨first, e, hfirst⟩ := Hart.exists_does h1 s.memory
  obtain ⟨second, f, hsecond⟩ := Hart.exists_does h2 s.memory
  -- each does the same when the other has gone first
  have hthen := hsecond.step _ (hfirst.sameOn hi.first)
  have hthen' := hfirst.step _ (hsecond.sameOn hi.second)
  have hcomm := hfirst.applyTo_comm hsecond hi.first
  simp only [stepFirst, stepSecond, hfirst.step_self, hsecond.step_self, hthen, hthen', hcomm]

/-- Two harts of the base set can take a step each in either order, if neither stores to what the
other touches; and so they can if neither is about to store. -/
theorem steps_commute {s : Shared} (h1 : s.first.table = Table.base)
    (h2 : s.second.table = Table.base) :
    (s.Independent → s.stepFirst.stepSecond = s.stepSecond.stepFirst) ∧
    ((∀ h ∈ [s.first, s.second], ∀ raw width, s.memory.load .word h.pc = .ok raw →
        operation raw.toNat ≠ some (.store width)) →
      s.stepFirst.stepSecond = s.stepSecond.stepFirst) := by
  refine ⟨stepSecond_stepFirst h1 h2, fun hn => stepSecond_stepFirst h1 h2 ⟨?_, ?_⟩⟩
  · exact fun a ha => absurd ha (not_writes (hn _ (by simp)) a)
  · exact fun a ha => absurd ha (not_writes (hn _ (by simp)) a)

/-- A byte goes next to the other hart's instruction, and a half word next to the byte. -/
theorem steps_commute_neighbours :
    let m : Memory := ⟨0, 16, (Cells.flat 0).write 4 0
      [0x23, 0x04, 0x10, 0x00, 0x23, 0x15, 0x20, 0x00]⟩
    let s : Shared := ⟨(Hart.new Table.base 0).writeReg 1 0x1234,
      (Hart.new Table.base 4).writeReg 2 0x56789, m⟩
    s.Independent ∧ s.stepFirst.stepSecond = s.stepSecond.stepFirst ∧
      s.stepFirst.stepSecond.memory.load .word 8 = .ok 0x67890034 := by
  intro m s
  have hl : m.load .word 0 = .ok 0x00100423 := by decide
  have hl' : m.load .word 4 = .ok 0x00201523 := by decide
  have ht : s.first.readReg 0 + (Field.immS 0x00100423).toUInt32 = 8 := by decide
  have ht' : s.second.readReg 0 + (Field.immS 0x00201523).toUInt32 = 10 := by decide
  have hi : s.Independent := by
    refine ⟨fun a hw hx => ?_, fun a hw hx => ?_⟩
    · have hspan : 8 ≤ a ∧ a < 8 + 1 := hw.spans hl rfl ht
      have hspans : 4 ≤ a ∧ a < 4 + 4 ∨ 10 ≤ a ∧ a < 10 + 2 := hx.spans hl' rfl ht'
      omega
    · have hspan : 10 ≤ a ∧ a < 10 + 2 := hw.spans hl' rfl ht'
      have hspans : 0 ≤ a ∧ a < 0 + 4 ∨ 8 ≤ a ∧ a < 8 + 1 := hx.spans hl rfl ht
      omega
  exact ⟨hi, (steps_commute rfl rfl).1 hi, by decide⟩

end Shared
end Rv32i
