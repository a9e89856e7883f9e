import Rv32i.Path

namespace Rv32i

/-- The kinds of program files. -/
inductive ProgramFormat where
  | elf | bin | hex
  deriving DecidableEq, Repr

namespace ProgramFormat

def name : ProgramFormat → String
  | elf => "elf"
  | bin => "bin"
  | hex => "hex"

/-- The kind that a file's extension stands for; all other files are taken for ELF. -/
def ofPath (path : String) : ProgramFormat :=
  match Path.extension? path with
  | some "bin" => bin
  | some "hex" => hex
  | some "txt" => hex
  | _ => elf

/-- A name of a kind in letters of any case, or the name in small letters if there is no such
kind. -/
def ofName (s : String) : Except String ProgramFormat :=
  let small := s.toLower
  if small = "elf" then .ok elf
  else if small = "bin" ∨ small = "binary" then .ok bin
  else if small = "hex" then .ok hex
  else .error small

/-- The wording for a name that is no kind's. -/
def unknownMessage (name : String) : String :=
  "unknown program format `" ++ name ++ "` (expected elf, bin or hex)"

end ProgramFormat
end Rv32i
