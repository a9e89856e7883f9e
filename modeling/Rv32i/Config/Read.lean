import Rv32i.Config.Basic
import Rv32i.Files
import Rv32i.Text.Utf8
import Rv32i.Toml.Document

namespace Rv32i

/-- Why a text is not a configuration. -/
inductive ConfigError where
  | malformed
  | unfit (key : String)
  deriving DecidableEq, Repr

def ConfigError.message : ConfigError → String
  | malformed => "not a TOML document"
  | unfit key => "unfit value for `" ++ key ++ "`"

namespace Config

open Toml (Value Entries)

def text? : Value → Option String
  | .string s => some s
  | _ => none

/-- A whole number below `bound`. -/
def number? (bound : Nat) : Value → Option Nat
  | .integer n => if 0 ≤ n ∧ n < bound then some n.toNat else none
  | _ => none

def word? (v : Value) : Option Word :=
  (number? UInt32.size v).map UInt32.ofNat

def count? (v : Value) : Option UInt64 :=
  (number? UInt64.size v).map UInt64.ofNat

def formatOfName? (s : String) : Option ProgramFormat :=
  [ProgramFormat.elf, .bin, .hex].find? (·.name = s)

/-- A format is given by its name, or by a table with nothing under that name. -/
def format? : Value → Option ProgramFormat
  | .string s => formatOfName? s
  | .table _ [(s, .array _ [])] => formatOfName? s
  | .table _ [(s, .table _ [])] => formatOfName? s
  | _ => none

/-- A value for a key that may be missing. -/
def optional (es : Entries) (key : String) (read : Value → Option α) :
    Except ConfigError (Option α) :=
  match es.lookup key with
  | none => .ok none
  | some v =>
    match read v with
    | some a => .ok (some a)
    | none => .error (.unfit key)

/-- A region is a table, or an array of its base and its size. A date or a time counts as a table
without either. -/
def region? : Value → Option Region
  | .datetime _ => some {}
  | .table _ es =>
    match optional es "base" word?, optional es "size" count? with
    | .ok base, .ok size => some { base := base.getD 0, size := size.getD 0x10000 }
    | _, _ => none
  | .array _ [] => some {}
  | .array _ [base] => (word? base).map fun base => { base }
  | .array _ (base :: size :: _) =>
    match word? base, count? size with
    | some base, some size => some { base, size }
    | _, _ => none
  | _ => none

/-- The probe of a kind with the values for its parts. -/
def probeOf? (kind : Value) (addr value : Option Value) : Option Probe :=
  match kind with
  | .string "tohost" => (addr.bind word?).map .tohost
  | .string "sentinel" =>
    match addr.bind word?, value.bind word? with
    | some addr, some value => some (.sentinel addr value)
    | _, _ => none
  | _ => none

/-- Whether a whole number has 64 bits, with or without sign; all other values count. -/
def hasShortNumbers : Value → Bool
  | .integer n => -0x8000000000000000 ≤ n && n < 0x10000000000000000
  | _ => true

/-- A probe is a table, or an array of its kind and exactly its parts. -/
def probe? (v : Value) : Option Probe :=
  if v.leaves.all hasShortNumbers then
    match v with
    | .table _ es =>
      match es.lookup "kind" with
      | some kind => probeOf? kind (es.lookup "addr") (es.lookup "value")
      | none => none
    | .array _ [kind, addr] =>
      match probeOf? kind (some addr) none with
      | some (.tohost addr) => some (.tohost addr)
      | _ => none
    | .array _ [kind, addr, value] =>
      match probeOf? kind (some addr) (some value) with
      | some (.sentinel addr value) => some (.sentinel addr value)
      | _ => none
    | _ => none
  else none

/-- Whether all numbers of an entry can be told. Items of an array for the region are looked at
only as far as they count. -/
def isTold : String × Value → Bool
  | ("memory", .array _ _) => true
  | (_, v) => v.leaves.all Value.isTellable

/-- Reads the settings of a document. Keys that are none of theirs are ignored. -/
def ofEntries (es : Entries) : Except ConfigError Config := do
  match es.find? (!isTold ·) with
  | some (key, _) => throw (.unfit key)
  | none => pure ()
  let default : Config := {}
  return {
    program := ← optional es "program" text?
    format := ← optional es "format" format?
    loadAddr := ← optional es "load_addr" word?
    entryPc := ← optional es "entry_pc" word?
    memory := (← optional es "memory" region?).getD default.memory
    maxCycles := (← optional es "max_cycles" count?).getD default.maxCycles
    result := ← optional es "result" probe? }

/-- Reads a configuration from a TOML text. -/
def ofText (text : String) : Except ConfigError Config :=
  match Toml.read text with
  | none => .error .malformed
  | some es => ofEntries es

end Config
end Rv32i
