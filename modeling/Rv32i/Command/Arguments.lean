import Rv32i.Command.Value
import Rv32i.Text.Terminal

namespace Rv32i.Command

inductive Subcommand where
  | run | decode | demo
  deriving DecidableEq, Repr

def Subcommand.name : Subcommand → String
  | run => "run"
  | decode => "decode"
  | demo => "demo"

def Subcommand.ofName? (s : String) : Option Subcommand :=
  [run, decode, demo].find? (·.name = s)

/-- The arguments that have a value. -/
inductive Argument where
  | program | words
  | format | config | base | memSize | loadAddr | entry | maxCycles | sentinel | tohost
  deriving DecidableEq, Repr

namespace Argument

/-- How messages name an argument. -/
def label : Argument → String
  | program => "[PROGRAM]"
  | words => "<WORDS>..."
  | format => "--format <FORMAT>"
  | config => "--config <CONFIG>"
  | base => "--base <BASE>"
  | memSize => "--mem-size <MEM_SIZE>"
  | loadAddr => "--load-addr <LOAD_ADDR>"
  | entry => "--entry <ENTRY>"
  | maxCycles => "--max-cycles <MAX_CYCLES>"
  | sentinel => "--sentinel <ADDR=VALUE>"
  | tohost => "--tohost <TOHOST>"

end Argument

/-- What a name behind two dashes stands for. -/
inductive Flag where
  | setting (argument : Argument)
  | dump | verbose | help
  deriving DecidableEq, Repr

/-- The flags of a subcommand. -/
def Subcommand.flag? (sub : Subcommand) (name : String) : Option Flag :=
  match name with
  | "verbose" => some .verbose
  | "help" => some .help
  | _ =>
    if sub = .run then
      match name with
      | "format" => some (.setting .format)
      | "config" => some (.setting .config)
      | "base" => some (.setting .base)
      | "mem-size" => some (.setting .memSize)
      | "load-addr" => some (.setting .loadAddr)
      | "entry" => some (.setting .entry)
      | "max-cycles" => some (.setting .maxCycles)
      | "sentinel" => some (.setting .sentinel)
      | "tohost" => some (.setting .tohost)
      | "dump" => some .dump
      | _ => none
    else none

/-- What is told about a run. -/
structure RunOptions where
  program : Option String := none
  format : Option ProgramFormat := none
  config : Option String := none
  base : Option Word := none
  memSize : Option Word := none
  loadAddr : Option Word := none
  entry : Option Word := none
  maxCycles : Option UInt64 := none
  sentinel : Option Probe := none
  tohost : Option Word := none
  dump : Bool := false
  deriving DecidableEq, Repr

/-- What the command line asks for. -/
inductive Invocation where
  | run (options : RunOptions)
  | decode (words : List Word)
  | demo
  | version
  | help (topic : Option Subcommand)
  deriving DecidableEq, Repr

/-- Why a command line is refused. -/
inductive UsageError where
  | invalidValue (argument : Argument) (given : String) (error : ValueError)
  | missingValue (argument : Argument)
  | repeated (name : String)
  | unexpectedArgument (given : String)
  | unexpectedValue (name given : String)
  | conflict (one other : Argument)
  | missingArgument (argument : Argument)
  | unknownSubcommand (given : String)
  | missingSubcommand
  deriving DecidableEq, Repr

/-- A message in pieces, cut where a terminal would be told to change the colour. -/
def UsageError.pieces : UsageError → List String × String
  | invalidValue a given e =>
    (["error:", " invalid value '", given, "' for '", a.label], "': " ++ e.message)
  | missingValue a => (["error:", " a value is required for '", a.label], "' but none was supplied")
  | repeated name => (["error:", " the argument '", name], "' cannot be used multiple times")
  | unexpectedArgument given => (["error:", " unexpected argument '", given], "' found")
  | unexpectedValue name given =>
    (["error:", " unexpected value '", given, "' for '", name],
      "' found; no more were expected")
  | conflict one other =>
    (["error:", " the argument '", one.label, "' cannot be used with '", other.label], "'")
  | missingArgument a =>
    (["error:", " the following required arguments were not provided:\n  ", a.label], "")
  | unknownSubcommand given => (["error:", " unrecognized subcommand '", given], "'")
  | missingSubcommand =>
    (["error:", " '", "rv32sim"], "' requires a subcommand but one was not provided")

/-- The message and a hint. Colours are left out, and with them all control sequences that the
arguments bring along; a sequence ends at the latest where a piece ends. -/
def UsageError.text (e : UsageError) : String :=
  let (pieces, last) := e.pieces
  let hint := [last ++ "\n\nFor more information, try '", "--help", "'."]
  String.join ((pieces ++ hint).map Text.Terminal.plain)

/-- What has been read of a subcommand's arguments: the values taken over, the argument whose values
have not been looked at yet, whether the program has been named, and whether only values follow. -/
structure State where
  options : RunOptions := {}
  words : List Word := []
  pending : Option (Argument × List String) := none
  named : Bool := false
  trailing : Bool := false

/-- Reading goes on, or ends with a request for help or an error. -/
inductive Stop where
  | help
  | error (e : UsageError)

namespace State

/-- Takes over a value for a setting that has none yet. -/
def once (a : Argument) (given : String) (old : Option α) (read : String → Except ValueError α)
    (set : α → RunOptions) (s : State) : Except UsageError State :=
  if old.isSome then .error (.repeated a.label)
  else match read given with
    | .ok value => .ok { s with options := set value }
    | .error e => .error (.invalidValue a given e)

/-- Takes over a path, which must not be empty. -/
def path (a : Argument) (given : String) (old : Option String) (set : String → RunOptions)
    (s : State) : Except UsageError State :=
  if old.isNone && given = "" then .error (.missingValue a)
  else once a given old .ok set s

/-- Takes over one value. -/
def set (s : State) (a : Argument) (given : String) : Except UsageError State :=
  let o := s.options
  match a with
  | .program => path a given o.program (fun v => { o with program := some v }) s
  | .config => path a given o.config (fun v => { o with config := some v }) s
  | .format => once a given o.format readFormat (fun v => { o with format := some v }) s
  | .base => once a given o.base readWord (fun v => { o with base := some v }) s
  | .memSize => once a given o.memSize readWord (fun v => { o with memSize := some v }) s
  | .loadAddr => once a given o.loadAddr readWord (fun v => { o with loadAddr := some v }) s
  | .entry => once a given o.entry readWord (fun v => { o with entry := some v }) s
  | .maxCycles => once a given o.maxCycles readCount (fun v => { o with maxCycles := some v }) s
  | .sentinel => once a given o.sentinel readSentinel (fun v => { o with sentinel := some v }) s
  | .tohost => once a given o.tohost readWord (fun v => { o with tohost := some v }) s
  | .words =>
    match readInstruction given with
    | .ok w => .ok { s with words := s.words ++ [w] }
    | .error e => .error (.invalidValue a given e)

/-- Takes over values one after the other. -/
def setAll (a : Argument) : State → List String → Except UsageError State
  | s, [] => .ok s
  | s, given :: more =>
    match s.set a given with
    | .ok s' => setAll a s' more
    | .error e => .error e

/-- Looks at the values that wait. -/
def resolve (s : State) : Except UsageError State :=
  match s.pending with
  | none => .ok s
  | some (a, []) => .error (.missingValue a)
  | some (a, values) => setAll a { s with pending := none } values

/-- Whether the setting named last still lacks its value. -/
def awaited? (s : State) : Option Argument :=
  match s.pending with
  | some (a, []) => some a
  | _ => none

/-- An argument that stands for itself. One too many is an error before all others. -/
def positional (sub : Subcommand) (s : State) (given : String) : Except UsageError State :=
  match sub with
  | .demo => .error (.unexpectedArgument given)
  | .run =>
    if s.named then .error (.unexpectedArgument given)
    else s.resolve.map fun s => { s with pending := some (.program, [given]), named := true }
  | .decode =>
    match s.pending with
    | some (.words, values) => .ok { s with pending := some (.words, values ++ [given]) }
    | _ => s.resolve.map fun s => { s with pending := some (.words, [given]) }

/-- A flag by its long name, with the value that an equals sign attaches to it. -/
def long (sub : Subcommand) (s : State) (name : String) (value : Option String) :
    Except Stop State :=
  match sub.flag? name, value with
  | none, _ => .error (.error (.unexpectedArgument ("--" ++ name)))
  | some (.setting a), none =>
    s.resolve.mapError .error |>.map fun s => { s with pending := some (a, []) }
  | some (.setting a), some given => (s.resolve >>= (·.set a given)).mapError .error
  | some _, some given => .error (.error (.unexpectedValue ("--" ++ name) given))
  | some flag, none =>
    match s.resolve with
    | .error e => .error (.error e)
    | .ok s =>
      match flag with
      | .help => .error .help
      | .dump =>
        if s.options.dump then .error (.error (.repeated "--dump"))
        else .ok { s with options := { s.options with dump := true } }
      | _ => .ok s

/-- Flags by their letters behind one dash. -/
def short : State → List Char → Except Stop State
  | s, [] => .ok s
  | s, c :: cs =>
    if c = 'v' ∨ c = 'h' then
      match s.resolve with
      | .error e => .error (.error e)
      | .ok s => if c = 'h' then .error .help else short s cs
    else .error (.error (.unexpectedArgument (String.ofList ['-', c])))

/-- A long name and the value attached to it. -/
def splitLong (cs : List Char) : String × Option String :=
  let name := String.ofList (cs.takeWhile (· ≠ '='))
  match cs.dropWhile (· ≠ '=') with
  | [] => (name, none)
  | _ :: value => (name, some (String.ofList value))

/-- Takes in one more argument. Two dashes alone end the flags, and one dash alone is a value. -/
def next (sub : Subcommand) (s : State) (given : String) : Except Stop State :=
  let value : Except Stop State :=
    match s.trailing, s.awaited? with
    | false, some a => .ok { s with pending := some (a, [given]) }
    | _, _ => (s.positional sub given).mapError .error
  if s.trailing then value
  else match given.toList with
    | ['-', '-'] => .ok { s with trailing := true }
    | '-' :: '-' :: cs =>
      let (name, attached) := splitLong cs
      s.long sub name attached
    | '-' :: c :: cs => s.short (c :: cs)
    | _ => value

/-- Takes in arguments one after the other. -/
def nextAll (sub : Subcommand) : State → List String → Except Stop State
  | s, [] => .ok s
  | s, given :: rest =>
    match s.next sub given with
    | .ok s' => nextAll sub s' rest
    | .error e => .error e

/-- What the arguments of a subcommand come to once all values have been looked at. -/
def finish (sub : Subcommand) (s : State) : Except UsageError Invocation :=
  match s.resolve with
  | .error e => .error e
  | .ok s =>
    match sub with
    | .demo => .ok .demo
    | .decode => if s.words.isEmpty then .error (.missingArgument .words) else .ok (.decode s.words)
    | .run =>
      if s.options.sentinel.isSome && s.options.tohost.isSome then
        .error (.conflict .sentinel .tohost)
      else .ok (.run s.options)

end State

namespace Subcommand

/-- Reads the arguments behind the name of a subcommand. -/
def parse (sub : Subcommand) (args : List String) : Except UsageError Invocation :=
  match State.nextAll sub {} args with
  | .ok s => s.finish sub
  | .error .help => .ok (.help (some sub))
  | .error (.error e) => .error e

end Subcommand

namespace Invocation

/-- Letters behind one dash in front of the subcommand: a request that ends reading, if there is
one. -/
def leadingLetters : List Char → Except UsageError (Option Invocation)
  | [] => .ok none
  | 'v' :: cs => leadingLetters cs
  | 'h' :: _ => .ok (some (.help none))
  | 'V' :: _ => .ok (some .version)
  | c :: _ => .error (.unexpectedArgument (String.ofList ['-', c]))

/-- A long name in front of the subcommand. -/
def leadingName (name : String) (value : Option String) :
    Except UsageError (Option Invocation) :=
  let request : Option (Option Invocation) := match name with
    | "verbose" => some none
    | "help" => some (some (.help none))
    | "version" => some (some .version)
    | _ => none
  match request, value with
  | none, _ => .error (.unexpectedArgument ("--" ++ name))
  | some _, some given => .error (.unexpectedValue ("--" ++ name) given)
  | some request, none => .ok request

/-- What `help` is asked about. -/
def helpTopic : List String → Except UsageError Invocation
  | [] => .ok (.help none)
  | ["help"] => .ok (.help none)
  | [name] =>
    match Subcommand.ofName? name with
    | some sub => .ok (.help (some sub))
    | none => .error (.unknownSubcommand name)
  | name :: other :: _ =>
    if name = "help" ∨ (Subcommand.ofName? name).isSome then .error (.unknownSubcommand other)
    else .error (.unknownSubcommand name)

/-- Reads a command line: flags, the name of a subcommand, and its arguments. -/
def parse : List String → Except UsageError Invocation
  | [] => .error .missingSubcommand
  | given :: rest =>
    match Subcommand.ofName? given with
    | some sub => sub.parse rest
    | none =>
      match given.toList with
      | ['-', '-'] =>
        match rest with
        | [] => .error .missingSubcommand
        | next :: _ => .error (.unexpectedArgument next)
      | '-' :: '-' :: cs =>
        let (name, value) := State.splitLong cs
        match leadingName name value with
        | .error e => .error e
        | .ok (some request) => .ok request
        | .ok none => parse rest
      | '-' :: c :: cs =>
        match leadingLetters (c :: cs) with
        | .error e => .error e
        | .ok (some request) => .ok request
        | .ok none => parse rest
      | _ => if given = "help" then helpTopic rest else .error (.unknownSubcommand given)

end Invocation
end Rv32i.Command
