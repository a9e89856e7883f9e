import Rv32i.Memory.Cells
import Rv32i.Text.Print

namespace Rv32i

/-- How much one load or store moves. -/
inductive Width where
  | byte | half | word
  deriving DecidableEq, Repr

namespace Width

def bytes : Width → Nat
  | byte => 1
  | half => 2
  | word => 4

def name : Width → String
  | byte => "Byte"
  | half => "Half"
  | word => "Word"

end Width

/-- Why an access is refused. -/
inductive AccessError where
  | unaligned (addr : Word) (width : Width)
  | outOfRange (addr : Word) (width : Width) (base : Word) (size : Nat)
  deriving DecidableEq, Repr

namespace AccessError

def addr : AccessError → Word
  | unaligned a _ => a
  | outOfRange a _ _ _ => a

def width : AccessError → Width
  | unaligned _ w => w
  | outOfRange _ w _ _ => w

def message : AccessError → String
  | unaligned a w => "unaligned " ++ w.name ++ " access at " ++ Text.hexWord a
  | outOfRange a w base size =>
    "out-of-range " ++ w.name ++ " access at " ++ Text.hexWord a ++ " (region base=" ++
      Text.hexWord base ++ " size=" ++ Text.hex 0 size ++ ")"

end AccessError

/-- One region of `length` bytes that starts at address `base`. -/
structure Memory where
  base : Word
  length : UInt64
  cells : Cells
  deriving DecidableEq

namespace Memory

/-- A region filled with zeros. -/
def empty (base : Word) (length : UInt64) : Memory :=
  ⟨base, length, .flat 0⟩

/-- The number of bytes. -/
def size (m : Memory) : Nat :=
  m.length.toNat

theorem size_lt (m : Memory) : m.size < UInt64.size :=
  m.length.toNat_lt

/-- Enough index bits for every byte of the region. -/
def depth (m : Memory) : Nat :=
  (m.size - 1).log2 + 1

/-- The byte at `offset` from the base. -/
def byteAt (m : Memory) (offset : Nat) : UInt8 :=
  m.cells.get m.depth offset

/-- The offset of `addr`, if the `count` bytes from there on lie in the region. An address before
the region and an end that takes more than 64 bits count as out of range. `width` only goes into
the error. -/
def locate (m : Memory) (addr : Word) (count : Nat) (width : Width) : Except AccessError Nat :=
  let refusal : AccessError := .outOfRange addr width m.base m.size
  match Word.checkedSub addr m.base with
  | none => .error refusal
  | some offset =>
    match checkedSize (offset.toNat + count) with
    | none => .error refusal
    | some stop => if m.size < stop then .error refusal else .ok offset.toNat

/-- Neither check of the arithmetic refuses more than the test over the integers does: a region ends
before an end that takes more than 64 bits. -/
theorem locate_eq_ite (m : Memory) (addr : Word) (count : Nat) (width : Width) :
    m.locate addr count width =
      if m.base.toNat ≤ addr.toNat ∧ addr.toNat - m.base.toNat + count ≤ m.size then
        .ok (addr.toNat - m.base.toNat)
      else .error (.outOfRange addr width m.base m.size) := by
  have hsize := m.size_lt
  unfold locate Word.checkedSub
  by_cases hb : m.base ≤ addr
  · have hsub : (addr - m.base).toNat = addr.toNat - m.base.toNat := UInt32.toNat_sub_of_le _ _ hb
    have hle : m.base.toNat ≤ addr.toNat := hb
    simp only [if_pos hb, hsub, checkedSize]
    by_cases hstop : addr.toNat - m.base.toNat + count < UInt64.size
    · simp only [if_pos hstop]
      by_cases hfits : addr.toNat - m.base.toNat + count ≤ m.size
      · rw [if_neg (Nat.not_lt.mpr hfits), if_pos ⟨hle, hfits⟩]
      · rw [if_pos (Nat.lt_of_not_le hfits), if_neg fun h => hfits h.2]
    · simp only [if_neg hstop]
      rw [if_neg fun h => hstop (Nat.lt_of_le_of_lt h.2 hsize)]
  · simp only [if_neg hb]
    rw [if_neg fun h => hb h.1]

/-- The offset of a load or store. Alignment is asked for first, so an address that is neither
aligned nor in the region counts as unaligned. -/
def locateAligned (m : Memory) (addr : Word) (width : Width) : Except AccessError Nat :=
  if addr.toNat % width.bytes = 0 then m.locate addr width.bytes width
  else .error (.unaligned addr width)

/-- Loads a little-endian number. -/
def load (m : Memory) (width : Width) (addr : Word) : Except AccessError Word :=
  match m.locateAligned addr width with
  | .ok offset => .ok (Word.ofBytes (m.cells.read m.depth offset width.bytes))
  | .error e => .error e

/-- Stores the low bytes of `value`, little-endian. -/
def store (m : Memory) (width : Width) (addr value : Word) : Except AccessError Memory :=
  match m.locateAligned addr width with
  | .ok offset =>
    .ok { m with cells := m.cells.write m.depth offset (Word.toBytes width.bytes value) }
  | .error e => .error e

/-- The `count` bytes from `addr` on. An empty range is in every region. -/
def read (m : Memory) (addr : Word) (count : Nat) : Except AccessError (List UInt8) :=
  if count = 0 then .ok []
  else match m.locate addr count .byte with
    | .ok offset => .ok (m.cells.read m.depth offset count)
    | .error e => .error e

/-- Writes bytes from `addr` on. -/
def write (m : Memory) (addr : Word) (bytes : List UInt8) : Except AccessError Memory :=
  if bytes.isEmpty then .ok m
  else match m.locate addr bytes.length .byte with
    | .ok offset => .ok { m with cells := m.cells.write m.depth offset bytes }
    | .error e => .error e

/-- Puts `value` into the `count` bytes from `addr` on. -/
def fill (m : Memory) (addr : Word) (count : Nat) (value : UInt8) : Except AccessError Memory :=
  if count = 0 then .ok m
  else match m.locate addr count .byte with
    | .ok offset => .ok { m with cells := m.cells.fill m.depth offset (offset + count) value }
    | .error e => .error e

/-- The bytes of a list of words, each little-endian. -/
def bytesOfWords (words : List Word) : List UInt8 :=
  words.flatMap (Word.toBytes 4)

/-- Writes words from `addr` on. Like every bulk write it asks for no alignment. -/
def writeWords (m : Memory) (addr : Word) (words : List Word) : Except AccessError Memory :=
  m.write addr (bytesOfWords words)

/-- The region after a change, or as it was with the reason why not. -/
def attempt (m : Memory) : Except AccessError Memory → Except AccessError Unit × Memory
  | .ok m' => (.ok (), m')
  | .error e => (.error e, m)

/-- Every byte of the region has an index that the tree tells apart from all others. -/
theorem size_le_capacity (m : Memory) : m.size ≤ Cells.capacity m.depth := by
  have h : m.size - 1 < Cells.capacity m.depth := by
    rw [Cells.capacity_eq_pow]
    exact Nat.lt_log2_self
  omega

end Memory

/-- What a hart asks of its memory: an answer to a load, and an answer to a store with what the
memory is after it. A refused store may change it too. -/
class Bus (μ : Type) where
  load : μ → Width → Word → Except AccessError Word
  store : μ → Width → Word → Word → Except AccessError Unit × μ

instance : Bus Memory where
  load := Memory.load
  store m width addr value := m.attempt (m.store width addr value)

namespace Memory

@[simp] theorem bus_load (m : Memory) (width : Width) (addr : Word) :
    Bus.load m width addr = m.load width addr := rfl

@[simp] theorem bus_store (m : Memory) (width : Width) (addr value : Word) :
    Bus.store m width addr value = m.attempt (m.store width addr value) := rfl

end Memory
end Rv32i
