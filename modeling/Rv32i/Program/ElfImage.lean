import Rv32i.Program.ElfFile
import Rv32i.Text.Print

namespace Rv32i.Elf

/-- Why an ELF file is not for this machine. -/
inductive TargetFault where
  | machine (machine : Nat)
  | wideClass
  | bigEndian
  deriving DecidableEq, Repr

def TargetFault.message : TargetFault → String
  | machine m => "machine type " ++ Text.hex 0 m ++ ", expected 0xf3"
  | wideClass => "64-bit ELF class"
  | bigEndian => "big-endian image"

/-- Why an image cannot be taken from a file. -/
inductive Fault where
  | file (fault : FileFault)
  | target (fault : TargetFault)
  deriving DecidableEq, Repr

/-- A part of the file that belongs into memory at `vaddr`, and how many bytes it takes there. -/
structure Segment where
  vaddr : Word
  fileSize : Nat
  memSize : Nat
  data : List UInt8
  executable : Bool
  writable : Bool
  deriving DecidableEq, Repr

structure Symbol where
  name : String
  addr : Word
  deriving DecidableEq, Repr

/-- What a machine needs of an ELF file. Of the symbols, only those of the two mailboxes are
kept. -/
structure Image where
  entry : Word
  segments : List Segment
  symbols : List Symbol
  deriving DecidableEq, Repr

namespace Image

/-- The address of the first symbol of this name. -/
def symbol? (image : Image) (name : String) : Option Word :=
  (image.symbols.find? (·.name = name)).map (·.addr)

/-- The lowest address of all segments and the highest end, which wraps like an address. -/
def addressRange? (image : Image) : Option (Word × Word) :=
  match image.segments with
  | [] => none
  | s :: rest =>
    let stop (s : Segment) : Word := s.vaddr + UInt32.ofNat s.memSize
    some (rest.foldl (fun least t => min least t.vaddr) s.vaddr,
      rest.foldl (fun most t => max most (stop t)) (stop s))

end Image

/-- Machine number of the architecture. -/
def riscv : Nat := 0xF3

/-- What keeps a well-formed file from running on this machine. -/
def targetFault? (h : Header) : Option TargetFault :=
  if h.machine ≠ riscv then some (.machine h.machine)
  else if h.layout.wide then some .wideClass
  else if h.layout.big then some .bigEndian
  else none

/-- Type of the segments that go into memory. -/
def loadable : Nat := 1

/-- The flag of a segment with instructions. -/
def executableFlag : Nat := 1

/-- The flag of a segment that the program may change. -/
def writableFlag : Nat := 2

/-- The segment that a program header stands for. -/
def readSegment (f : File) (h : SegmentHeader) : Except FileFault Segment := do
  let data ← f.data h.offset h.fileSize
  return { vaddr := UInt32.ofNat h.vaddr
           fileSize := h.fileSize
           memSize := h.memSize
           data
           executable := h.flags &&& executableFlag ≠ 0
           writable := h.flags &&& writableFlag ≠ 0 }

/-- The segments that go into memory, in the order of their headers. -/
def readSegments (f : File) : Except FileFault (List Segment) :=
  (f.segments.filter (·.type = loadable)).mapM (readSegment f)

/-- A symbol that names a mailbox. A mailbox at address 0 is none. -/
def readSymbol (strings : List UInt8) (e : SymbolEntry) : Option Symbol := do
  guard (e.value ≠ 0)
  let name ← nameAt strings e.name
  guard (name = "tohost" ∨ name = "fromhost")
  return ⟨name, UInt32.ofNat e.value⟩

/-- The mailbox symbols. A file whose symbols cannot be read has none. -/
def readSymbols (f : File) : List Symbol :=
  match f.symbols? with
  | none => []
  | some (symbols, strings) => symbols.filterMap (readSymbol strings)

/-- Takes the image of a program from the bytes of an ELF file. -/
def Image.read (bytes : List UInt8) : Except Fault Image := do
  let file ← (File.read bytes).mapError .file
  if let some fault := targetFault? file.header then throw (.target fault)
  return { entry := UInt32.ofNat file.header.entry
           segments := ← (readSegments file).mapError .file
           symbols := readSymbols file }

end Rv32i.Elf
