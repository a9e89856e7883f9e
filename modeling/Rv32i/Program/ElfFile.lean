import Rv32i.Text.Utf8
import Rv32i.Word

namespace Rv32i.Elf

/-- Why bytes are not a well-formed ELF file. -/
inductive FileFault where
  | sliceRead
  | badMagic
  | unsupportedVersion
  | unsupportedClass
  | unsupportedByteOrder
  | badEntrySize
  | overflow
  deriving DecidableEq, Repr

def FileFault.message : FileFault → String
  | sliceRead => "the file is too short"
  | badMagic => "the file does not start with the ELF magic number"
  | unsupportedVersion => "unsupported version"
  | unsupportedClass => "unsupported class"
  | unsupportedByteOrder => "unsupported byte order"
  | badEntrySize => "unexpected size of a table entry"
  | overflow => "a table is larger than the address space"

/-- How numbers lie in the file: 64-bit or 32-bit class, highest or lowest byte first. -/
structure Layout where
  wide : Bool
  big : Bool
  deriving DecidableEq, Repr

/-- The bytes from `start` up to `stop`, if the file has them. -/
def slice (file : List UInt8) (start stop : Nat) : Except FileFault (List UInt8) :=
  if start ≤ stop ∧ stop ≤ file.length then .ok ((file.drop start).take (stop - start))
  else .error .sliceRead

/-- A size or offset, unless it is too large for one. -/
def requireSize (n : Nat) : Except FileFault Nat :=
  match checkedSize n with
  | some n => .ok n
  | none => .error .overflow

/-- The number in `count` bytes at `offset` of a piece of the file that is long enough. -/
def Layout.number (layout : Layout) (bytes : List UInt8) (offset count : Nat) : Nat :=
  let field := (bytes.drop offset).take count
  littleEndian (if layout.big then field.reverse else field)

/-- The part of the file header that says where things lie. -/
structure Header where
  layout : Layout
  machine : Nat
  entry : Nat
  phoff : Nat
  shoff : Nat
  phentsize : Nat
  phnum : Nat
  shentsize : Nat
  shnum : Nat
  deriving DecidableEq, Repr

/-- Class and byte order, from the first sixteen bytes. -/
def readLayout (file : List UInt8) : Except FileFault Layout := do
  match ← slice file 0 16 with
  | m0 :: m1 :: m2 :: m3 :: cls :: order :: version :: _ =>
    if [m0, m1, m2, m3] ≠ [0x7F, 0x45, 0x4C, 0x46] then throw .badMagic
    if version ≠ 1 then throw .unsupportedVersion
    if cls ≠ 1 ∧ cls ≠ 2 then throw .unsupportedClass
    if order ≠ 1 ∧ order ≠ 2 then throw .unsupportedByteOrder
    return ⟨cls = 2, order = 2⟩
  | _ => throw .sliceRead

def readHeader (file : List UInt8) : Except FileFault Header := do
  let layout ← readLayout file
  let header ← slice file 0 (if layout.wide then 64 else 52)
  let half (narrow wide : Nat) := layout.number header (if layout.wide then wide else narrow) 2
  let size (narrow wide : Nat) :=
    if layout.wide then layout.number header wide 8 else layout.number header narrow 4
  return { layout
           machine := half 18 18
           entry := size 24 24
           phoff := size 28 32
           shoff := size 32 40
           phentsize := half 42 54
           phnum := half 44 56
           shentsize := half 46 58
           shnum := half 48 60 }

structure Section where
  type : Nat
  offset : Nat
  size : Nat
  link : Nat
  info : Nat
  entsize : Nat
  deriving DecidableEq, Repr

/-- A row of the table of program headers: which kind of part it stands for, where the bytes of this
part lie in the file, and where they belong in memory. -/
structure SegmentHeader where
  type : Nat
  offset : Nat
  vaddr : Nat
  fileSize : Nat
  memSize : Nat
  flags : Nat
  deriving DecidableEq, Repr

/-- A row of the table of symbols. The name is an offset into a section of strings. -/
structure SymbolEntry where
  name : Nat
  value : Nat
  deriving DecidableEq, Repr

namespace Layout

def sectionSize (layout : Layout) : Nat :=
  if layout.wide then 64 else 40

def segmentSize (layout : Layout) : Nat :=
  if layout.wide then 56 else 32

def symbolSize (layout : Layout) : Nat :=
  if layout.wide then 24 else 16

/-- A section header from its bytes. -/
def sectionRow (layout : Layout) (bytes : List UInt8) : Section :=
  if layout.wide then
    { type := layout.number bytes 4 4
      offset := layout.number bytes 24 8
      size := layout.number bytes 32 8
      link := layout.number bytes 40 4
      info := layout.number bytes 44 4
      entsize := layout.number bytes 56 8 }
  else
    { type := layout.number bytes 4 4
      offset := layout.number bytes 16 4
      size := layout.number bytes 20 4
      link := layout.number bytes 24 4
      info := layout.number bytes 28 4
      entsize := layout.number bytes 36 4 }

/-- A program header from its bytes. -/
def segmentRow (layout : Layout) (bytes : List UInt8) : SegmentHeader :=
  if layout.wide then
    { type := layout.number bytes 0 4
      offset := layout.number bytes 8 8
      vaddr := layout.number bytes 16 8
      fileSize := layout.number bytes 32 8
      memSize := layout.number bytes 40 8
      flags := layout.number bytes 4 4 }
  else
    { type := layout.number bytes 0 4
      offset := layout.number bytes 4 4
      vaddr := layout.number bytes 8 4
      fileSize := layout.number bytes 16 4
      memSize := layout.number bytes 20 4
      flags := layout.number bytes 24 4 }

/-- A symbol from its bytes. -/
def symbolRow (layout : Layout) (bytes : List UInt8) : SymbolEntry :=
  if layout.wide then ⟨layout.number bytes 0 4, layout.number bytes 8 8⟩
  else ⟨layout.number bytes 0 4, layout.number bytes 4 4⟩

end Layout

/-- The section header at the front of the table, where large counts are kept. -/
def firstSection (file : List UInt8) (h : Header) : Except FileFault Section := do
  let _ ← requireSize (h.shoff + 4)
  return h.layout.sectionRow (← slice file h.shoff (h.shoff + h.layout.sectionSize))

/-- The bytes of a table of `count` entries. The size of an entry is fixed by the class. -/
def readTable (file : List UInt8) (offset entsize expected count : Nat) :
    Except FileFault (List UInt8) := do
  if entsize ≠ expected then throw .badEntrySize
  let size ← requireSize (expected * count)
  slice file offset (← requireSize (offset + size))

/-- The bytes of the section headers. -/
def sectionTable (file : List UInt8) (h : Header) : Except FileFault (List UInt8) := do
  if h.shoff = 0 then return []
  let count ← if h.shnum = 0 then (·.size) <$> firstSection file h else pure h.shnum
  readTable file h.shoff h.shentsize h.layout.sectionSize count

/-- The bytes of the program headers. -/
def segmentTable (file : List UInt8) (h : Header) : Except FileFault (List UInt8) := do
  if h.phoff = 0 then return []
  let count ← if h.phnum = 0xFFFF then (·.info) <$> firstSection file h else pure h.phnum
  readTable file h.phoff h.phentsize h.layout.segmentSize count

/-- Whole entries of `size` bytes, `fuel` of them at most. -/
def entries (size : Nat) : Nat → List UInt8 → List (List UInt8)
  | 0, _ => []
  | fuel + 1, bytes =>
    if bytes.length < size then [] else bytes.take size :: entries size fuel (bytes.drop size)

/-- All whole entries of a table. -/
def tableEntries (size : Nat) (bytes : List UInt8) : List (List UInt8) :=
  entries size bytes.length bytes

/-- A file of any class and byte order whose header and tables can be read. -/
structure File where
  bytes : List UInt8
  header : Header
  sections : List Section
  segments : List SegmentHeader
  deriving DecidableEq, Repr

namespace File

def read (bytes : List UInt8) : Except FileFault File := do
  let header ← readHeader bytes
  let sections ← sectionTable bytes header
  let segments ← segmentTable bytes header
  let layout := header.layout
  return { bytes, header
           sections := (tableEntries layout.sectionSize sections).map layout.sectionRow
           segments := (tableEntries layout.segmentSize segments).map layout.segmentRow }

/-- The `size` bytes from `offset` on. -/
def data (f : File) (offset size : Nat) : Except FileFault (List UInt8) := do
  slice f.bytes offset (← requireSize (offset + size))

/-- Type of the section with the symbols. -/
def symbolTable : Nat := 2

/-- The symbols with the strings that their names stand in, if both can be read. -/
def symbols? (f : File) : Option (List SymbolEntry × List UInt8) := do
  let layout := f.header.layout
  let symbols ← f.sections.find? (·.type = symbolTable)
  let strings ← f.sections[symbols.link]?
  guard (symbols.entsize = layout.symbolSize)
  let rows ← (f.data symbols.offset symbols.size).toOption
  let names ← (f.data strings.offset strings.size).toOption
  return ((tableEntries layout.symbolSize rows).map layout.symbolRow, names)

end File

/-- The text from `offset` up to the next zero, if there is one. -/
def nameAt (strings : List UInt8) (offset : Nat) : Option String :=
  let rest := strings.drop offset
  if rest.contains 0 then Text.Utf8.decode? (rest.takeWhile (· ≠ 0)) else none

end Rv32i.Elf
