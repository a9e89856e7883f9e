import Rv32i.Command.Perform

namespace Rv32i

/-- The domain's word for an error of the system. -/
def FileError.ofSystem : IO.Error → FileError
  | .noFileOrDirectory .. => .notFound
  | .inappropriateType (some _) .. => .notDirectory
  | .inappropriateType none .. => .isDirectory
  | e => .other (toString e)

abbrev FileContents := Except FileError (List UInt8)

def readFile (path : String) : IO FileContents := do
  match ← (IO.FS.readBinFile path).toBaseIO with
  | .ok bytes => return .ok bytes.toList
  | .error e => return .error (.ofSystem e)

/-- A reader of the files that have been read so far. -/
def readerOf (known : List (String × FileContents)) : Reader := fun path =>
  (known.lookup path).getD (.error .notFound)

/-- Reads the files that an invocation needs: the configuration, and the program it names. -/
def gather : Command.Invocation → IO Reader
  | .run options => do
    let settings ← match options.config with
      | some path => pure [(path, ← readFile path)]
      | none => pure []
    let read := readerOf settings
    match (options.toConfig read).toOption.bind (·.program) with
    | some path => return readerOf (settings ++ [(path, ← readFile path)])
    | none => return read
  | _ => return readerOf []

/-- Prints an output and gives its exit code. -/
def emit (output : Command.Output) : IO UInt32 := do
  IO.print output.out
  match output.failure with
  | some failure => IO.eprintln failure.text
  | none => pure ()
  return output.code.toUInt32

end Rv32i

open Rv32i in
def main (args : List String) : IO UInt32 := do
  match Command.Invocation.parse args with
  | .error e => emit (.ofUsageError e)
  | .ok invocation => emit (invocation.perform (← gather invocation))
