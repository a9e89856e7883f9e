import Rv32i.Proofs.Bytes

namespace Rv32i

/-- A region as the plain thing it is: one byte for each of the `size` addresses from `base` on.
Addresses are numbers without a bound, so nothing wraps. -/
@[ext] structure ByteMap where
  base : Word
  size : Nat
  byte : Nat → UInt8

namespace ByteMap

def zero (base : Word) (size : Nat) : ByteMap :=
  ⟨base, size, fun _ => 0⟩

/-- All of `[addr, addr + count)` belongs to the region. -/
def Within (b : ByteMap) (addr count : Nat) : Prop :=
  b.base.toNat ≤ addr ∧ addr + count ≤ b.base.toNat + b.size

instance (b : ByteMap) (addr count : Nat) : Decidable (b.Within addr count) :=
  inferInstanceAs (Decidable (_ ∧ _))

/-- The bytes at `[addr, addr + count)`. -/
def bytes (b : ByteMap) (addr count : Nat) : List UInt8 :=
  (List.range count).map fun i => b.byte (addr + i)

/-- New bytes from `addr` on, and every other byte as it was. -/
def put (b : ByteMap) (addr : Nat) (bytes : List UInt8) : ByteMap :=
  { b with byte := fun a =>
      if addr ≤ a ∧ a < addr + bytes.length then bytes.getD (a - addr) 0 else b.byte a }

theorem put_byte (b : ByteMap) (addr a : Nat) (bytes : List UInt8) :
    (b.put addr bytes).byte a =
      if addr ≤ a ∧ a < addr + bytes.length then bytes.getD (a - addr) 0 else b.byte a := rfl

/-- Refuses a range that leaves the region. -/
def require {α : Type} (b : ByteMap) (addr : Word) (count : Nat) (width : Width) (answer : α) :
    Except AccessError α :=
  if b.Within addr.toNat count then .ok answer else .error (.outOfRange addr width b.base b.size)

/-- Refuses an address that is no multiple of the width, wherever it lies, and then a range that
leaves the region. -/
def requireAligned {α : Type} (b : ByteMap) (addr : Word) (width : Width) (answer : α) :
    Except AccessError α :=
  if width.bytes ∣ addr.toNat then b.require addr width.bytes width answer
  else .error (.unaligned addr width)

/-- What is done with an answer matters only where the range lies in the region. -/
theorem map_require {α β : Type} {b : ByteMap} {addr : Word} {count : Nat} {width : Width}
    {f : α → β} {x : α} {y : β} (h : b.Within addr.toNat count → f x = y) :
    (b.require addr count width x).map f = b.require addr count width y := by
  unfold require
  split
  · rename_i hw
    exact congrArg Except.ok (h hw)
  · rfl

theorem map_requireAligned {α β : Type} {b : ByteMap} {addr : Word} {width : Width}
    {f : α → β} {x : α} {y : β} (h : b.Within addr.toNat width.bytes → f x = y) :
    (b.requireAligned addr width x).map f = b.requireAligned addr width y := by
  unfold requireAligned
  split
  · exact map_require h
  · rfl

def load (b : ByteMap) (width : Width) (addr : Word) : Except AccessError Nat :=
  b.requireAligned addr width (littleEndian (b.bytes addr.toNat width.bytes))

def store (b : ByteMap) (width : Width) (addr : Word) (value : Nat) : Except AccessError ByteMap :=
  b.requireAligned addr width (b.put addr.toNat (digits width.bytes value))

def read (b : ByteMap) (addr : Word) (count : Nat) : Except AccessError (List UInt8) :=
  if count = 0 then .ok [] else b.require addr count .byte (b.bytes addr.toNat count)

def write (b : ByteMap) (addr : Word) (bytes : List UInt8) : Except AccessError ByteMap :=
  if bytes = [] then .ok b else b.require addr bytes.length .byte (b.put addr.toNat bytes)

def fill (b : ByteMap) (addr : Word) (count : Nat) (value : UInt8) : Except AccessError ByteMap :=
  b.write addr (List.replicate count value)

def writeWords (b : ByteMap) (addr : Word) (words : List Word) : Except AccessError ByteMap :=
  b.write addr (words.flatMap fun w => digits 4 w.toNat)

end ByteMap

namespace Memory

/-- The byte map that a region stands for. No operation reaches an address outside of it. -/
def view (m : Memory) : ByteMap where
  base := m.base
  size := m.size
  byte := fun a =>
    if m.base.toNat ≤ a ∧ a < m.base.toNat + m.size then m.byteAt (a - m.base.toNat) else 0

@[simp] theorem view_base (m : Memory) : m.view.base = m.base := rfl

@[simp] theorem view_size (m : Memory) : m.view.size = m.size := rfl

theorem view_byte {m : Memory} {a : Nat} (hl : m.base.toNat ≤ a)
    (hu : a < m.base.toNat + m.size) : m.view.byte a = m.byteAt (a - m.base.toNat) :=
  if_pos ⟨hl, hu⟩

theorem view_empty (base : Word) (length : UInt64) :
    (empty base length).view = .zero base length.toNat := by
  refine ByteMap.ext rfl rfl (funext fun a => ?_)
  simp [view, empty, byteAt, ByteMap.zero]

theorem view_within (m : Memory) (addr count : Nat) : m.view.Within addr count ↔
    m.base.toNat ≤ addr ∧ addr + count ≤ m.base.toNat + m.size := Iff.rfl

/-- The test by offsets is the test by addresses. -/
theorem locate_eq_require (m : Memory) (addr : Word) (count : Nat) (width : Width) :
    m.locate addr count width =
      m.view.require addr count width (addr.toNat - m.base.toNat) := by
  rw [locate_eq_ite, ByteMap.require]
  have hc : (m.base.toNat ≤ addr.toNat ∧ addr.toNat - m.base.toNat + count ≤ m.size) ↔
      m.view.Within addr.toNat count := by
    rw [view_within]
    omega
  by_cases h : m.view.Within addr.toNat count
  · rw [if_pos (hc.mpr h), if_pos h]
  · rw [if_neg (mt hc.mp h), if_neg h, view_base, view_size]

theorem locateAligned_eq_require (m : Memory) (addr : Word) (width : Width) :
    m.locateAligned addr width =
      m.view.requireAligned addr width (addr.toNat - m.base.toNat) := by
  unfold locateAligned ByteMap.requireAligned
  simp only [Nat.dvd_iff_mod_eq_zero, locate_eq_require]

/-- Offsets into the region are indices that the cells tell apart. -/
theorem offset_lt_capacity {m : Memory} {i : Nat} (hi : i < m.size) :
    i < Cells.capacity m.depth :=
  Nat.lt_of_lt_of_le hi m.size_le_capacity

theorem read_cells {m : Memory} {addr count : Nat} (hw : m.view.Within addr count) :
    m.cells.read m.depth (addr - m.base.toNat) count = m.view.bytes addr count := by
  obtain ⟨hl, hu⟩ := (view_within m _ _).mp hw
  rw [Cells.read_eq_map, ByteMap.bytes]
  apply List.map_congr_left
  intro i hi
  have hlt : i < count := List.mem_range.mp hi
  rw [view_byte (by omega) (by omega), byteAt]
  congr 1
  omega

/-- Cells that differ from those of a region by a run of bytes make up the region with these bytes
put in. -/
theorem view_with_cells {m : Memory} {addr : Nat} {bytes : List UInt8} (cells : Cells)
    (hw : m.view.Within addr bytes.length)
    (hc : ∀ i < m.size, cells.get m.depth i =
      if addr - m.base.toNat ≤ i ∧ i < addr - m.base.toNat + bytes.length then
        bytes.getD (i - (addr - m.base.toNat)) 0
      else m.cells.get m.depth i) :
    ({ m with cells := cells } : Memory).view = m.view.put addr bytes := by
  obtain ⟨hl, hu⟩ := (view_within m _ _).mp hw
  refine ByteMap.ext rfl rfl (funext fun a => ?_)
  by_cases ha : m.base.toNat ≤ a ∧ a < m.base.toNat + m.size
  · have hget := hc (a - m.base.toNat) (by omega)
    have hb : ({ m with cells := cells } : Memory).view.byte a =
        cells.get m.depth (a - m.base.toNat) := view_byte ha.1 ha.2
    have hold : m.view.byte a = m.cells.get m.depth (a - m.base.toNat) := view_byte ha.1 ha.2
    rw [hb, hget, ByteMap.put_byte, hold]
    by_cases hi : addr ≤ a ∧ a < addr + bytes.length
    · have hsub : a - m.base.toNat - (addr - m.base.toNat) = a - addr := by omega
      rw [if_pos (by omega), if_pos hi, hsub]
    · rw [if_neg (by omega), if_neg hi]
  · -- outside of the region both maps hold 0, and nothing is put there
    have hb : ({ m with cells := cells } : Memory).view.byte a = 0 := if_neg ha
    have hold : m.view.byte a = 0 := if_neg ha
    rw [hb, ByteMap.put_byte, if_neg (by omega), hold]

theorem view_write_cells {m : Memory} {addr : Nat} {bytes : List UInt8}
    (hw : m.view.Within addr bytes.length) :
    ({ m with cells := m.cells.write m.depth (addr - m.base.toNat) bytes } : Memory).view =
      m.view.put addr bytes := by
  have hcap := m.size_le_capacity
  refine view_with_cells _ hw fun i hi => Cells.get_write _ _ _ _ _ ?_ (offset_lt_capacity hi)
  obtain ⟨hl, hu⟩ := (view_within m _ _).mp hw
  omega

theorem view_fill_cells {m : Memory} {addr count : Nat} {value : UInt8}
    (hw : m.view.Within addr count) :
    ({ m with
        cells := m.cells.fill m.depth (addr - m.base.toNat) (addr - m.base.toNat + count) value } :
      Memory).view = m.view.put addr (List.replicate count value) := by
  have hlen : (List.replicate count value).length = count := List.length_replicate
  refine view_with_cells _ (by rwa [hlen]) fun i hi => ?_
  rw [Cells.get_fill _ _ _ _ _ _ (offset_lt_capacity hi), hlen]
  by_cases h : addr - m.base.toNat ≤ i ∧ i < addr - m.base.toNat + count
  · have hlt : i - (addr - m.base.toNat) < count := by omega
    rw [if_pos h, if_pos h, List.getD_replicate value hlt]
  · rw [if_neg h, if_neg h]

/-- The number loaded is the one that the bytes of the map stand for. -/
theorem view_load (m : Memory) (width : Width) (addr : Word) :
    (m.load width addr).map UInt32.toNat = m.view.load width addr := by
  have hm : (m.load width addr).map UInt32.toNat = (m.locateAligned addr width).map fun offset =>
      (Word.ofBytes (m.cells.read m.depth offset width.bytes)).toNat := by
    unfold load
    cases m.locateAligned addr width <;> rfl
  have hl : (m.view.bytes addr.toNat width.bytes).length ≤ 4 := by
    cases width <;> simp [ByteMap.bytes, Width.bytes]
  rw [hm, locateAligned_eq_require]
  refine ByteMap.map_requireAligned fun hw => ?_
  rw [read_cells hw, Word.toNat_ofBytes _ hl]

theorem load_toNat_lt {m : Memory} {width : Width} {addr v : Word} (h : m.load width addr = .ok v) :
    v.toNat < 2 ^ (8 * width.bytes) := by
  have hv := m.view_load width addr
  rw [h] at hv
  unfold ByteMap.load ByteMap.requireAligned ByteMap.require at hv
  repeat' first | split at hv | cases hv
  have hlen : (m.view.bytes addr.toNat width.bytes).length = width.bytes := by simp [ByteMap.bytes]
  have hlt := littleEndian_lt (m.view.bytes addr.toNat width.bytes)
  rw [hlen] at hlt
  rw [pow_mul]
  exact (Except.ok.inj hv) ▸ hlt

theorem view_store (m : Memory) (width : Width) (addr value : Word) :
    (m.store width addr value).map view = m.view.store width addr value.toNat := by
  have hm : (m.store width addr value).map view = (m.locateAligned addr width).map fun offset =>
      ({ m with cells := m.cells.write m.depth offset (Word.toBytes width.bytes value) } :
        Memory).view := by
    unfold store
    cases m.locateAligned addr width <;> rfl
  rw [hm, locateAligned_eq_require, ByteMap.store, ← Word.toBytes_eq_digits]
  exact ByteMap.map_requireAligned fun hw => view_write_cells (by rwa [Word.length_toBytes])

theorem view_read (m : Memory) (addr : Word) (count : Nat) :
    m.read addr count = m.view.read addr count := by
  by_cases he : count = 0
  · rw [read, ByteMap.read, if_pos he, if_pos he]
  · have hm : m.read addr count =
        (m.locate addr count .byte).map fun offset => m.cells.read m.depth offset count := by
      rw [read, if_neg he]
      cases m.locate addr count .byte <;> rfl
    rw [hm, locate_eq_require, ByteMap.read, if_neg he]
    exact ByteMap.map_require fun hw => read_cells hw

theorem view_write (m : Memory) (addr : Word) (bytes : List UInt8) :
    (m.write addr bytes).map view = m.view.write addr bytes := by
  by_cases he : bytes = []
  · simp [write, ByteMap.write, he, Except.map]
  · have hm : (m.write addr bytes).map view =
        (m.locate addr bytes.length .byte).map fun offset =>
          ({ m with cells := m.cells.write m.depth offset bytes } : Memory).view := by
      rw [write, if_neg (by simpa using he)]
      cases m.locate addr bytes.length .byte <;> rfl
    rw [hm, locate_eq_require, ByteMap.write, if_neg he]
    exact ByteMap.map_require fun hw => view_write_cells hw

theorem view_fill (m : Memory) (addr : Word) (count : Nat) (value : UInt8) :
    (m.fill addr count value).map view = m.view.fill addr count value := by
  by_cases he : count = 0
  · simp [fill, ByteMap.fill, ByteMap.write, he, Except.map]
  · have hm : (m.fill addr count value).map view =
        (m.locate addr count .byte).map fun offset =>
          ({ m with cells := m.cells.fill m.depth offset (offset + count) value } :
            Memory).view := by
      rw [fill, if_neg he]
      cases m.locate addr count .byte <;> rfl
    rw [hm, locate_eq_require, ByteMap.fill, ByteMap.write, if_neg (by simpa using he),
      List.length_replicate]
    exact ByteMap.map_require fun hw => view_fill_cells hw

theorem bytesOfWords_eq_digits (words : List Word) :
    bytesOfWords words = words.flatMap fun w => digits 4 w.toNat := by
  rw [bytesOfWords, show Word.toBytes 4 = fun w => digits 4 w.toNat from
    funext fun w => Word.toBytes_eq_digits 4 w]

theorem view_writeWords (m : Memory) (addr : Word) (words : List Word) :
    (m.writeWords addr words).map view = m.view.writeWords addr words := by
  rw [writeWords, view_write, bytesOfWords_eq_digits, ByteMap.writeWords]

end Memory

/-- One call on a region. Words and bytes are what a caller can pass; counts have no bound. -/
inductive Call where
  | load (width : Width) (addr : Word)
  | store (width : Width) (addr value : Word)
  | read (addr : Word) (count : Nat)
  | write (addr : Word) (bytes : List UInt8)
  | fill (addr : Word) (count : Nat) (value : UInt8)
  | writeWords (addr : Word) (words : List Word)

inductive Answer where
  | number (n : Nat)
  | bytes (bytes : List UInt8)
  | done
  | refused (error : AccessError)

/-- What a caller sees of a question, which leaves the region alone. -/
def answerQuestion {α σ : Type} (found : α → Answer) (s : σ) :
    Except AccessError α → Answer × σ
  | .ok a => (found a, s)
  | .error e => (.refused e, s)

/-- What a caller sees of a change. A refused change leaves the region `s` as it was. -/
def answerChange {σ : Type} (s : σ) : Except AccessError σ → Answer × σ
  | .ok s' => (.done, s')
  | .error e => (.refused e, s)

def Memory.call (m : Memory) : Call → Answer × Memory
  | .load width addr => answerQuestion (fun w => .number w.toNat) m (m.load width addr)
  | .store width addr value => answerChange m (m.store width addr value)
  | .read addr count => answerQuestion .bytes m (m.read addr count)
  | .write addr bytes => answerChange m (m.write addr bytes)
  | .fill addr count value => answerChange m (m.fill addr count value)
  | .writeWords addr words => answerChange m (m.writeWords addr words)

def ByteMap.call (b : ByteMap) : Call → Answer × ByteMap
  | .load width addr => answerQuestion .number b (b.load width addr)
  | .store width addr value => answerChange b (b.store width addr value.toNat)
  | .read addr count => answerQuestion .bytes b (b.read addr count)
  | .write addr bytes => answerChange b (b.write addr bytes)
  | .fill addr count value => answerChange b (b.fill addr count value)
  | .writeWords addr words => answerChange b (b.writeWords addr words)

/-- Serves calls one after the other and keeps every answer. -/
def serve {σ : Type} (call : σ → Call → Answer × σ) : σ → List Call → List Answer × σ
  | s, [] => ([], s)
  | s, c :: cs =>
    let (a, s') := call s c
    let (rest, last) := serve call s' cs
    (a :: rest, last)

namespace Memory

theorem answerQuestion_view {α β : Type} (m : Memory) (found : β → Answer) (f : α → β)
    (r : Except AccessError α) :
    answerQuestion found m.view (r.map f) =
      Prod.map id view (answerQuestion (fun a => found (f a)) m r) := by
  cases r <;> rfl

theorem answerChange_view (m : Memory) (r : Except AccessError Memory) :
    answerChange m.view (r.map view) = Prod.map id view (answerChange m r) := by
  cases r <;> rfl

/-- One call: the same answer, and the byte map of the region that is left. -/
theorem call_view (m : Memory) (c : Call) : m.view.call c = Prod.map id view (m.call c) := by
  cases c with
  | load width addr => rw [ByteMap.call, ← view_load, answerQuestion_view, call]
  | store width addr value => rw [ByteMap.call, ← view_store, answerChange_view, call]
  | read addr count =>
    rw [ByteMap.call, ← view_read, call]
    cases m.read addr count <;> rfl
  | write addr bytes => rw [ByteMap.call, ← view_write, answerChange_view, call]
  | fill addr count value => rw [ByteMap.call, ← view_fill, answerChange_view, call]
  | writeWords addr words => rw [ByteMap.call, ← view_writeWords, answerChange_view, call]

/-- Any number of calls, from any region on. -/
theorem serve_view (m : Memory) (calls : List Call) :
    serve ByteMap.call m.view calls = Prod.map id view (serve call m calls) := by
  induction calls generalizing m with
  | nil => rfl
  | cons c cs ih =>
    simp only [serve, call_view, Prod.map_fst, Prod.map_snd, id_eq]
    rw [ih]
    rfl

theorem store_geometry {m m' : Memory} {width : Width} {addr value : Word}
    (h : m.store width addr value = .ok m') : m'.base = m.base ∧ m'.size = m.size := by
  unfold store at h
  split at h
  · cases h
    exact ⟨rfl, rfl⟩
  · cases h

theorem write_geometry {m m' : Memory} {addr : Word} {bytes : List UInt8}
    (h : m.write addr bytes = .ok m') : m'.base = m.base ∧ m'.size = m.size := by
  unfold write at h
  split at h
  · cases h
    exact ⟨rfl, rfl⟩
  · split at h
    · cases h
      exact ⟨rfl, rfl⟩
    · cases h

theorem fill_geometry {m m' : Memory} {addr : Word} {count : Nat} {value : UInt8}
    (h : m.fill addr count value = .ok m') : m'.base = m.base ∧ m'.size = m.size := by
  unfold fill at h
  split at h
  · cases h
    exact ⟨rfl, rfl⟩
  · split at h
    · cases h
      exact ⟨rfl, rfl⟩
    · cases h

theorem answerQuestion_snd {α σ : Type} (found : α → Answer) (s : σ) (r : Except AccessError α) :
    (answerQuestion found s r).2 = s := by
  cases r <;> rfl

theorem answerChange_snd {σ : Type} {P : σ → Prop} {s : σ} {r : Except AccessError σ} (hs : P s)
    (hr : ∀ s', r = .ok s' → P s') : P (answerChange s r).2 := by
  cases r with
  | error e => exact hs
  | ok s' => exact hr s' rfl

theorem call_geometry (m : Memory) (c : Call) :
    (m.call c).2.base = m.base ∧ (m.call c).2.size = m.size := by
  cases c with
  | load width addr => simp only [call, answerQuestion_snd, and_self]
  | read addr count => simp only [call, answerQuestion_snd, and_self]
  | store width addr value =>
    exact answerChange_snd (P := fun s => s.base = m.base ∧ s.size = m.size) ⟨rfl, rfl⟩
      fun _ h => store_geometry h
  | write addr bytes =>
    exact answerChange_snd (P := fun s => s.base = m.base ∧ s.size = m.size) ⟨rfl, rfl⟩
      fun _ h => write_geometry h
  | fill addr count value =>
    exact answerChange_snd (P := fun s => s.base = m.base ∧ s.size = m.size) ⟨rfl, rfl⟩
      fun _ h => fill_geometry h
  | writeWords addr words =>
    exact answerChange_snd (P := fun s => s.base = m.base ∧ s.size = m.size) ⟨rfl, rfl⟩
      fun _ h => write_geometry h

theorem serve_geometry (m : Memory) (calls : List Call) :
    (serve call m calls).2.base = m.base ∧ (serve call m calls).2.size = m.size := by
  induction calls generalizing m with
  | nil => exact ⟨rfl, rfl⟩
  | cons c cs ih =>
    obtain ⟨hb, hs⟩ := call_geometry m c
    obtain ⟨hb', hs'⟩ := ih (m.call c).2
    exact ⟨hb'.trans hb, hs'.trans hs⟩

theorem answerChange_refused {σ : Type} {s : σ} {r : Except AccessError σ} {e : AccessError}
    (h : (answerChange s r).1 = .refused e) : (answerChange s r).2 = s := by
  cases r with
  | error e' => rfl
  | ok s' => cases h

/-- A refused call leaves the region itself, not only its bytes, as it was. -/
theorem call_refused {m : Memory} {c : Call} {e : AccessError} (h : (m.call c).1 = .refused e) :
    (m.call c).2 = m := by
  cases c with
  | load width addr => exact answerQuestion_snd _ _ _
  | read addr count => exact answerQuestion_snd _ _ _
  | store width addr value => exact answerChange_refused h
  | write addr bytes => exact answerChange_refused h
  | fill addr count value => exact answerChange_refused h
  | writeWords addr words => exact answerChange_refused h

end Memory

/-- A region answers any calls as its byte map does and is left with the bytes of the map. Its place
never changes, and after any calls a refused one changes nothing. -/
theorem region_refines_byte_map (base : Word) (length : UInt64) (calls : List Call) :
    let region := serve Memory.call (Memory.empty base length) calls
    let map := serve ByteMap.call (ByteMap.zero base length.toNat) calls
    region.1 = map.1 ∧ region.2.view = map.2 ∧ region.2.base = base ∧
      region.2.size = length.toNat ∧
      ∀ c e, (region.2.call c).1 = .refused e → (region.2.call c).2 = region.2 := by
  intro region map
  have hview : map = Prod.map id Memory.view region := by
    have h := Memory.serve_view (Memory.empty base length) calls
    rwa [Memory.view_empty] at h
  obtain ⟨hb, hs⟩ := Memory.serve_geometry (Memory.empty base length) calls
  rw [hview]
  exact ⟨rfl, rfl, hb, hs, fun c e h => Memory.call_refused h⟩

end Rv32i
