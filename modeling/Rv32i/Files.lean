import Rv32i.Path

namespace Rv32i

/-- Why a file cannot be read. -/
inductive FileError where
  | notFound
  | notDirectory
  | isDirectory
  | nameTooLong
  | nulInName
  | notText
  | other (message : String)
  deriving DecidableEq, Repr

def FileError.message : FileError → String
  | notFound => "No such file or directory (os error 2)"
  | notDirectory => "Not a directory (os error 20)"
  | isDirectory => "Is a directory (os error 21)"
  | nameTooLong => "File name too long (os error 36)"
  | nulInName => "file name contained an unexpected NUL byte"
  | notText => "stream did not contain valid UTF-8"
  | other message => message

/-- What reading files gives, path by path. -/
abbrev Reader := String → Except FileError (List UInt8)

/-- Files below a current directory and the directories there. Both go by the steps that lead to
them, the last one first. -/
structure Files where
  entries : List (List String × List UInt8) := []
  directories : List (List String) := [[]]

namespace Files

/-- The place to which a part of a path leads from a directory. Upwards from the current directory
there is none. -/
def follow (steps : List String) (part : String) : Option (List String) :=
  if !Path.isStep part then some steps
  else if part = ".." then
    match steps with
    | [] => none
    | _ :: above => some above
  else some (part :: steps)

/-- Adds a file by the parts of its path, seen from a directory, and all directories that the path
goes through. A file outside is left out. -/
def add (bytes : List UInt8) : Files → List String → List String → Files
  | files, _, [] => files
  | files, steps, part :: parts =>
    match follow steps part with
    | none => files
    | some place =>
      if parts.isEmpty then { files with entries := (place, bytes) :: files.entries }
      else add bytes { files with directories := place :: files.directories } place parts

/-- The files with these paths, of which a later one takes the place of an earlier one. -/
def ofList (entries : List (String × List UInt8)) : Files :=
  entries.foldl (fun files (path, bytes) => files.add bytes [] (Path.parts path)) {}

/-- Where a walk stands: at a directory below the current one (its steps, the last one first), at a
directory outside, or at a file. -/
inductive Place where
  | below (steps : List String)
  | outside
  | file (bytes : List UInt8)

/-- Follows the parts of a path. Nothing is known about directories outside. -/
def walk (files : Files) : Place → List String → Except FileError (List UInt8)
  | .file bytes, [] => .ok bytes
  | .file _, _ :: _ => .error .notDirectory
  | .below _, [] => .error .isDirectory
  | .outside, [] => .error .isDirectory
  | .outside, part :: parts =>
    if Path.isStep part && part ≠ ".." then
      .error (if part.utf8ByteSize > 255 then .nameTooLong else .notFound)
    else files.walk .outside parts
  | .below steps, part :: parts =>
    if part.utf8ByteSize > 255 then .error .nameTooLong
    else match follow steps part with
      | none => files.walk .outside parts
      | some place =>
        match files.entries.lookup place with
        | some bytes => files.walk (.file bytes) parts
        | none =>
          if files.directories.contains place then files.walk (.below place) parts
          else .error .notFound

/-- Reads a file by a path seen from the current directory. -/
def read (files : Files) : Reader := fun path =>
  if path.toList.contains '\x00' then .error .nulInName
  else if path = "" then .error .notFound
  else if path.utf8ByteSize ≥ 4096 then .error .nameTooLong
  else files.walk (if Path.isAbsolute path then .outside else .below []) (Path.parts path)

end Files
end Rv32i
