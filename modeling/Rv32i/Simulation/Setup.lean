import Rv32i.Config.Read
import Rv32i.Program.Load
import Rv32i.Simulation.Basic

namespace Rv32i

/-- Why a simulation cannot start. -/
inductive SetupError where
  | load (error : LoadError)
  | configFile (path : String) (error : FileError)
  | config (error : ConfigError)
  | region (error : RegionError)
  | table (error : RegisterError)
  | mailbox (role : Role) (addr : Word) (error : AccessError)
  deriving DecidableEq, Repr

namespace SetupError

def message : SetupError → String
  | load e => e.message
  | configFile path e => "cannot read config " ++ Text.quote path ++ ": " ++ e.message
  | config e => "invalid config: " ++ e.message
  | region e => e.message
  | table e => "CPU configuration error: " ++ e.message?.getD "definitions overlap"
  | mailbox role addr e =>
    role.name ++ " mailbox at " ++ Text.hexWord addr ++ " is not a word in memory: " ++ e.message

/-- The error and what lies behind it, the outermost first. -/
def chain (e : SetupError) : List String :=
  match e with
  | load inner => inner.chain
  | configFile _ inner => [e.message, inner.message]
  | config inner => [e.message, inner.message]
  | region _ => [e.message]
  | table inner => [e.message, inner.message?.getD "definitions overlap"]
  | mailbox _ _ inner => [e.message, inner.message]

end SetupError

/-- Reads a configuration file, which is a text. -/
def Config.ofFile (read : Reader) (path : String) : Except SetupError Config :=
  match read path with
  | .error e => .error (.configFile path e)
  | .ok bytes =>
    match Text.Utf8.decode? bytes with
    | none => .error (.configFile path .notText)
    | some text => (ofText text).mapError .config

namespace Simulation

/-- A mailbox must be a word in memory, or the program could never reach it. -/
def checkMailbox (m : Memory) (role : Role) (addr : Word) : Except SetupError Unit :=
  match m.load .word addr with
  | .ok _ => .ok ()
  | .error e => .error (.mailbox role addr e)

/-- Stores 0 in a mailbox. -/
def clearMailbox (m : Memory) (role : Role) (addr : Word) : Except SetupError Memory :=
  (m.store .word addr 0).mapError (.mailbox role addr)

/-- The memory of a region, all bytes 0. -/
def freshMemory (region : Region) : Except SetupError Memory :=
  match region.check with
  | .error e => .error (.region e)
  | .ok () => .ok (Memory.empty region.base region.size)

/-- The probe that the configuration asks for, else the mailbox that the program brings. -/
def chooseProbe (config : Config) (loaded : Option Loaded) : Option Probe :=
  config.result <|> (loaded.bind (·.tohost)).map .tohost

/-- The address that the configuration asks for, else the start of the program. -/
def chooseEntry (config : Config) (loaded : Option Loaded) : Word :=
  (config.entryPc <|> loaded.map (·.entry)).getD config.memory.base

/-- Puts a machine together around a memory that holds the program. Mailboxes start empty, whatever
the program has put there. -/
def assemble (config : Config) (memory : Memory) (loaded : Option Loaded)
    (extra : List Definition) : Except SetupError Simulation := do
  let probe := chooseProbe config loaded
  let fromhost := loaded.bind (·.fromhost)
  match probe with
  | some p => checkMailbox memory p.role p.addr
  | none => pure ()
  match fromhost with
  | some addr => checkMailbox memory .fromhost addr
  | none => pure ()
  let table ← (Table.extended extra).mapError .table
  let memory ← match probe with
    | some (.tohost addr) => clearMailbox memory .tohost addr
    | _ => pure memory
  let memory ← match fromhost with
    | some addr => clearMailbox memory .fromhost addr
    | none => pure memory
  return {
    hart := Hart.new table (chooseEntry config loaded)
    memory, config, cycles := 0, probe, fromhost }

/-- The result of loading, if it went well. -/
def settle : Load.Result → Except SetupError (Loaded × Memory)
  | (.ok loaded, m) => .ok (loaded, m)
  | (.error e, _) => .error (.load e)

/-- Sets up a machine with the program of a configuration, if there is one, and with further
instructions. -/
def ofConfig (read : Reader) (config : Config) (extra : List Definition) :
    Except SetupError Simulation := do
  let memory ← freshMemory config.memory
  match config.program with
  | none => assemble config memory none extra
  | some path =>
    let format := config.format.getD (ProgramFormat.ofPath path)
    let (loaded, memory) ← settle (Load.program read memory path format config.startAddr)
    assemble config memory (some loaded) extra

/-- Sets up a machine with words as its program. -/
def ofWords (config : Config) (words : List Word) : Except SetupError Simulation := do
  let memory ← freshMemory config.memory
  let (loaded, memory) ← settle (Load.words memory config.startAddr words)
  assemble config memory (some loaded) []

end Simulation
end Rv32i
