import Rv32i.Assembler
import Rv32i.Command.Help
import Rv32i.Command.Output
import Rv32i.Hart.Dump
import Rv32i.Table.Disassembly

namespace Rv32i.Command

/-- The assembly text of a word among the base instructions. -/
def assembly (i : Instruction) : String :=
  (Table.base.disassemble i).getD "<illegal>"

/-- The fields of a word and its assembly text on two lines. -/
def listing (raw : Word) : String :=
  let i := Instruction.decode raw
  i.text ++ "\n    " ++ assembly i ++ "\n"

/-- Words from offset `offset` on, one a line with its assembly text. -/
def programLines : Nat → List Word → String
  | _, [] => ""
  | offset, raw :: rest =>
    "  " ++ Text.digits 16 4 offset ++ ": " ++ Text.digits 16 8 raw.toNat ++ "  " ++
      assembly (Instruction.decode raw) ++ "\n" ++ programLines (offset + 4) rest

namespace Demo
open Assembler

/-- Where both programs leave their result. -/
def resultAddr : Word := 0x1000

/-- Adds the numbers from 1 to 10. -/
def sum : List Word :=
  [addi 1 0 0, addi 2 0 1, addi 3 0 11,
   add 1 1 2, addi 2 2 1, blt 2 3 (-8),
   lui 4 0x1000, sw 4 1 0, jal 0 0]

/-- Computes the tenth Fibonacci number. -/
def fibonacci : List Word :=
  [addi 1 0 0, addi 2 0 1, addi 3 0 1, addi 4 0 10,
   bge 3 4 24, add 5 1 2, addi 1 2 0, addi 2 5 0, addi 3 3 1, beq 0 0 (-20),
   lui 6 0x1000, sw 6 2 0, jal 0 0]

def config : Config :=
  { memory := { base := 0, size := 0x10000 }
    maxCycles := 1000
    result := some (.sentinel resultAddr 55) }

/-- Lists and runs a program: whether it passed, and what is printed. -/
def present (name : String) (words : List Word) : Except SetupError (Bool × String) :=
  match Simulation.ofWords config words with
  | .error e => .error e
  | .ok s =>
    let (outcome, s) := s.complete
    let result := match s.memory.load .word resultAddr with
      | .ok w => w
      | .error _ => 0
    .ok (outcome.isSuccess,
      "=== " ++ name ++ " ===\n" ++ programLines 0 words ++
        outcome.text ++ " after " ++ Text.decimal s.cycles ++ " cycles, result = " ++
        Text.decimal result.toNat ++ "\n" ++ s.hart.dump ++ "\n")

/-- Shows both programs. -/
def perform : Output :=
  match present "sum 1..10" sum, present "fibonacci F(10)" fibonacci with
  | .ok (sumPassed, sumText), .ok (fibonacciPassed, fibonacciText) =>
    { code := if sumPassed && fibonacciPassed then 0 else 1, out := sumText ++ fibonacciText }
  | .error e, _ => .ofReport ⟨e.message, e.chain.tail⟩
  | _, .error e => .ofReport ⟨e.message, e.chain.tail⟩

end Demo

namespace RunOptions

/-- The configuration file's settings. Its program is seen from the directory of the file. -/
def baseConfig (o : RunOptions) (read : Reader) : Except Report Config :=
  match o.config with
  | none => .ok {}
  | some path =>
    match Config.ofFile read path with
    | .error e => .error ⟨"failed to load config " ++ path, e.chain⟩
    | .ok c =>
      match c.program, Path.parent? path with
      | some program, some directory => .ok { c with program := some (Path.join directory program) }
      | _, _ => .ok c

/-- Settings of the command line go before those of a file. -/
def applyTo (o : RunOptions) (c : Config) : Config where
  program := o.program <|> c.program
  format := o.format <|> c.format
  loadAddr := o.loadAddr <|> c.loadAddr
  entryPc := o.entry <|> c.entryPc
  memory := {
    base := o.base.getD c.memory.base
    size := (o.memSize.map (·.toUInt64)).getD c.memory.size }
  maxCycles := o.maxCycles.getD c.maxCycles
  result := o.tohost.map .tohost <|> o.sentinel <|> c.result

/-- The configuration of a run, which has a program. -/
def toConfig (o : RunOptions) (read : Reader) : Except Report Config :=
  match o.baseConfig read with
  | .error r => .error r
  | .ok c =>
    let c := o.applyTo c
    if c.program.isSome then .ok c
    else .error { context :=
      "no program given: pass a path or set `program` in the config file" }

/-- Runs a program to its end. Only a pass counts as success. -/
def perform (o : RunOptions) (read : Reader) : Output :=
  match o.toConfig read with
  | .error r => .ofReport r
  | .ok config =>
    match Simulation.ofConfig read config [] with
    | .error e => .ofSetupError "failed to set up simulation" e
    | .ok s =>
      let (outcome, s) := s.complete
      { code := if outcome.isSuccess then 0 else 1
        out := outcome.text ++ " after " ++ Text.decimal s.cycles ++ " cycles\n" ++
          if o.dump then s.hart.dump else "" }

end RunOptions

/-- Does what the command line asks for. -/
def Invocation.perform (read : Reader) : Invocation → Output
  | run options => options.perform read
  | decode words => { out := String.join (words.map listing) }
  | demo => Demo.perform
  | version => { out := "rv32sim 0.1.0\n" }
  | help topic => { out := helpText topic }

/-- The output for a list of arguments. -/
def perform (read : Reader) (args : List String) : Output :=
  match Invocation.parse args with
  | .ok invocation => invocation.perform read
  | .error e => .ofUsageError e

end Rv32i.Command
