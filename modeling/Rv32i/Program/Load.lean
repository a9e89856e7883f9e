import Rv32i.Files
import Rv32i.Memory.Basic
import Rv32i.Program.ElfImage
import Rv32i.Program.Format
import Rv32i.Program.Hex
import Rv32i.Text.Quoted
import Rv32i.Text.Utf8

namespace Rv32i

/-- Why a program cannot be loaded. -/
inductive LoadError where
  | io (path : String) (error : FileError)
  | elf (fault : Elf.FileFault)
  | notRiscv32 (fault : Elf.TargetFault)
  | hex (error : Program.HexError)
  | memory (error : AccessError)
  deriving DecidableEq, Repr

namespace LoadError

def message : LoadError → String
  | io path e => "cannot read " ++ Text.quote path ++ ": " ++ e.message
  | elf fault => "ELF parse error: " ++ fault.message
  | notRiscv32 fault => "not a 32-bit RISC-V ELF: " ++ fault.message
  | hex e =>
    "hex line " ++ Text.decimal e.line ++ ": cannot parse " ++ Text.quote e.text ++
      " as a 32-bit word"
  | memory e => "program does not fit in memory: " ++ e.message

/-- The error and what lies behind it, the outermost first. -/
def chain (e : LoadError) : List String :=
  e.message :: match e with
    | io _ e => [e.message]
    | elf fault => [fault.message]
    | notRiscv32 _ => []
    | hex _ => []
    | memory e => [e.message]

end LoadError

/-- What loading a program tells: where it starts, how many bytes it takes, and where its mailboxes
are. -/
structure Loaded where
  entry : Word
  size : Nat
  tohost : Option Word
  fromhost : Option Word
  deriving DecidableEq, Repr

namespace Load

/-- A result with the memory that goes with it, which may have changed though loading failed. -/
abbrev Result := Except LoadError Loaded × Memory

/-- Writes the bytes of a segment and clears what it takes beyond them. -/
def segment (m : Memory) (s : Elf.Segment) : Except AccessError Unit × Memory :=
  match m.write s.vaddr s.data with
  | .error e => (.error e, m)
  | .ok m' =>
    if s.fileSize < s.memSize then
      m'.attempt (m'.fill (s.vaddr + UInt32.ofNat s.fileSize) (s.memSize - s.fileSize) 0)
    else (.ok (), m')

/-- Puts segments into memory one after the other, up to the first that does not fit. -/
def segments : Memory → List Elf.Segment → Except AccessError Unit × Memory
  | m, [] => (.ok (), m)
  | m, s :: rest =>
    match segment m s with
    | (.ok (), m') => segments m' rest
    | (.error e, m') => (.error e, m')

def image (m : Memory) (i : Elf.Image) : Result :=
  match segments m i.segments with
  | (.error e, m') => (.error (.memory e), m')
  | (.ok (), m') =>
    (.ok { entry := i.entry
           size := i.segments.foldl (fun size s => size + s.memSize) 0
           tohost := i.symbol? "tohost"
           fromhost := i.symbol? "fromhost" }, m')

/-- Writes bytes at `addr`, which is also where the program starts. -/
def bytes (m : Memory) (addr : Word) (data : List UInt8) : Result :=
  match m.write addr data with
  | .error e => (.error (.memory e), m)
  | .ok m' => (.ok ⟨addr, data.length, none, none⟩, m')

/-- Writes words at `addr`, which is also where the program starts. -/
def words (m : Memory) (addr : Word) (ws : List Word) : Result :=
  match m.writeWords addr ws with
  | .error e => (.error (.memory e), m)
  | .ok m' => (.ok ⟨addr, 4 * ws.length, none, none⟩, m')

def hex (m : Memory) (addr : Word) (text : String) : Result :=
  match Program.readHex text with
  | .error e => (.error (.hex e), m)
  | .ok ws => words m addr ws

def elf (m : Memory) (file : List UInt8) : Result :=
  match Elf.Image.read file with
  | .error (.file fault) => (.error (.elf fault), m)
  | .error (.target fault) => (.error (.notRiscv32 fault), m)
  | .ok i => image m i

/-- Loads a program file. An ELF file brings its own addresses. -/
def program (read : Reader) (m : Memory) (path : String) (format : ProgramFormat) (addr : Word) :
    Result :=
  match read path with
  | .error e => (.error (.io path e), m)
  | .ok file =>
    match format with
    | .elf => elf m file
    | .bin => bytes m addr file
    | .hex => hex m addr (Text.Utf8.decodeLossy file)

end Load
end Rv32i
