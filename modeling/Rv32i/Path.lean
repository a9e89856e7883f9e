import Rv32i.Text.Scan

namespace Rv32i.Path

/-- The parts of a path between slashes. -/
def parts (path : String) : List String :=
  (Text.splitOn '/' path.toList).map String.ofList

/-- Empty parts and single dots name no step. -/
def isStep (part : String) : Bool :=
  part ≠ "" && part ≠ "."

def isAbsolute (path : String) : Bool :=
  path.toList.head? = some '/'

/-- The last step of a path, unless it leads upwards. -/
def fileName? (path : String) : Option String :=
  ((parts path).filter isStep).getLast?.filter (· ≠ "..")

/-- What follows the last dot of a file name. A dot in front does not count. -/
def extension? (path : String) : Option String :=
  match fileName? path with
  | none => none
  | some name =>
    let tail := name.toList.reverse.takeWhile (· ≠ '.')
    if tail.length + 1 < name.length then some (String.ofList tail.reverse) else none

/-- Takes away parts at the end that name no step. -/
def dropIdle (ps : List String) : List String :=
  (ps.reverse.dropWhile (!isStep ·)).reverse

/-- The path without its last step. A slash or a dot at the front is no step, but stays in front. -/
def parent? (path : String) : Option String :=
  let join := String.intercalate "/"
  match parts path with
  | [] => none
  | first :: rest =>
    if isAbsolute path then
      match dropIdle rest with
      | [] => none
      | body =>
        match dropIdle body.dropLast with
        | [] => some "/"
        | above => some (join ("" :: above))
    else if first = "." then
      match dropIdle rest with
      | [] => some ""
      | body => some (join ("." :: dropIdle body.dropLast))
    else
      match dropIdle (first :: rest) with
      | [] => none
      | body => some (join (dropIdle body.dropLast))

/-- A path seen from a directory. -/
def join (directory path : String) : String :=
  if isAbsolute path then path
  else if directory = "" || directory.toList.getLast? = some '/' then directory ++ path
  else directory ++ "/" ++ path

end Rv32i.Path
