import Rv32i.Command.Arguments
import Rv32i.Simulation.Setup

namespace Rv32i.Command

/-- What went wrong and what lies behind it, the outermost first. -/
structure Report where
  context : String
  causes : List String := []
  deriving DecidableEq, Repr

namespace Report

/-- The report as lines. Causes are numbered if there are several. -/
def lines (r : Report) : List String :=
  ("Error: " ++ r.context) ::
    match r.causes with
    | [] => []
    | [cause] => ["", "Caused by:", "    " ++ cause]
    | causes =>
      "" :: "Caused by:" ::
        causes.zipIdx.map fun (cause, i) => "    " ++ Text.decimal i ++ ": " ++ cause

def text (r : Report) : String :=
  String.intercalate "\n" r.lines

end Report

/-- Why nothing, or nothing good, came out. -/
inductive Failure where
  | usage (error : UsageError)
  | report (report : Report)
  | abort (message : String)
  deriving DecidableEq, Repr

def Failure.text : Failure → String
  | usage e => e.text
  | report r => r.text
  | abort message => message

/-- The exit code, the text for standard output, and what goes to standard error. -/
structure Output where
  code : UInt8 := 0
  out : String := ""
  failure : Option Failure := none
  deriving DecidableEq, Repr

namespace Output

def ofUsageError (e : UsageError) : Output :=
  { code := 2, failure := some (.usage e) }

def ofReport (r : Report) : Output :=
  { code := 1, failure := some (.report r) }

/-- The output for a machine that could not be set up. Where the addition of a region's base and
size overflows, the program aborts with an exit code of its own and without a report. -/
def ofSetupError (context : String) (e : SetupError) : Output :=
  match e with
  | .region .overflow => { code := 101, failure := some (.abort e.message) }
  | _ => ofReport ⟨context, e.chain⟩

end Output
end Rv32i.Command
