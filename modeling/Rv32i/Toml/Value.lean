namespace Rv32i.Toml

/-- How a table came about. A table written between braces is closed; one that a longer header
implies may still get a header of its own; one that dotted keys made may only get more dotted
keys. -/
inductive TableKind where
  | inline | implicit | explicit | dotted
  deriving DecidableEq, Repr

/-- An array written between brackets is closed, one made by array headers grows. -/
inductive ArrayKind where
  | inline | tables
  deriving DecidableEq, Repr

/-- A value. Of floats and of dates and times only their text is kept. A text with the form of a
whole number that stands for none, such as `0x`, is an error only where it is looked at. -/
inductive Value where
  | string (s : String)
  | integer (n : Int)
  | malformed (text : String)
  | float (text : String)
  | boolean (b : Bool)
  | datetime (text : String)
  | array (kind : ArrayKind) (items : List Value)
  | table (kind : TableKind) (entries : List (String × Value))
  deriving Repr

mutual

/-- The values without items and entries that a value consists of. -/
def Value.leaves : Value → List Value
  | .array _ items => leavesOfItems items
  | .table _ entries => leavesOfEntries entries
  | v => [v]

def leavesOfItems : List Value → List Value
  | [] => []
  | v :: vs => v.leaves ++ leavesOfItems vs

def leavesOfEntries : List (String × Value) → List Value
  | [] => []
  | (_, v) :: es => v.leaves ++ leavesOfEntries es

end

/-- The entries of a table in the order in which they came. -/
abbrev Entries := List (String × Value)

namespace Entries

/-- Puts a value in the place of the one under `key`. -/
def replace (key : String) (value : Value) (es : Entries) : Entries :=
  es.map fun (k, v) => if k = key then (k, value) else (k, v)

/-- Adds a value under a key that is new. -/
def add (key : String) (value : Value) (es : Entries) : Entries :=
  es ++ [(key, value)]

/-- Changes the table at the end of a path of headers. Missing tables on the way are implied, and
an array of tables leads to its last one. -/
def modify (f : Entries → Option Entries) : List String → Entries → Option Entries
  | [], es => f es
  | key :: path, es =>
    match es.lookup key with
    | none => (modify f path []).map fun sub => es.add key (.table .implicit sub)
    | some (.table .inline _) => none
    | some (.table kind sub) =>
      (modify f path sub).map fun sub' => es.replace key (.table kind sub')
    | some (.array .tables items) =>
      match items.getLast? with
      | some (.table kind sub) =>
        (modify f path sub).map fun sub' =>
          es.replace key (.array .tables (items.dropLast ++ [.table kind sub']))
      | _ => none
    | some _ => none

/-- Opens the table under `key` by a header. Each table has one header at most. -/
def openTable (key : String) (es : Entries) : Option Entries :=
  match es.lookup key with
  | none => some (es.add key (.table .explicit []))
  | some (.table .implicit sub) => some (es.replace key (.table .explicit sub))
  | some _ => none

/-- Opens the next table of the array under `key`. -/
def openItem (key : String) (es : Entries) : Option Entries :=
  match es.lookup key with
  | none => some (es.add key (.array .tables [.table .explicit []]))
  | some (.array .tables items) =>
    some (es.replace key (.array .tables (items ++ [.table .explicit []])))
  | some _ => none

/-- Sets a dotted key. The tables on the way must have come about by dotted keys too, or be implied
by headers as long as the key leads on below them. -/
def insert (value : Value) : List String → Entries → Option Entries
  | [], _ => none
  | [key], es => if (es.lookup key).isSome then none else some (es.add key value)
  | key :: path, es =>
    match es.lookup key with
    | none => (insert value path []).map fun sub => es.add key (.table .dotted sub)
    | some (.table .dotted sub) =>
      (insert value path sub).map fun sub' => es.replace key (.table .dotted sub')
    | some (.table .implicit sub) =>
      if path.length = 1 then none
      else (insert value path sub).map fun sub' => es.replace key (.table .implicit sub')
    | some (.array .tables items) =>
      if path.length = 1 then none
      else match items.getLast? with
        | some (.table kind sub) =>
          (insert value path sub).map fun sub' =>
            es.replace key (.array .tables (items.dropLast ++ [.table kind sub']))
        | _ => none
    | some _ => none

end Entries
end Rv32i.Toml
