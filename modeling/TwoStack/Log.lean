import TwoStack.Opcode
import TwoStack.Text.Layout
import TwoStack.Trace

/-! Log entries, and the observer that writes one for every step. -/

namespace TwoStack

namespace Log

inductive Level where
  | error
  | warn
  | info
  | debug
  | trace
  deriving DecidableEq

namespace Level

def name : Level → String
  | error => "ERROR"
  | warn => "WARN"
  | info => "INFO"
  | debug => "DEBUG"
  | trace => "TRACE"

/-- How often verbosity must be raised for the level to show. -/
def verbosity : Level → Nat
  | error | warn => 0
  | info => 1
  | debug => 2
  | trace => 3

end Level

structure Entry where
  level : Level
  source : String
  message : String
  fields : List (String × String)
  deriving DecidableEq

namespace Entry

def render (e : Entry) : String :=
  e.level.name ++ " " ++ e.source ++ ": " ++
    " ".intercalate (e.message :: e.fields.map fun (key, value) => key ++ "=" ++ value)

/-- The first line of an entry. Fields are written as they are, so one that holds a line break
ends it. -/
def head (e : Entry) : String :=
  (e.render.splitOn "\n").headD ""

/-- The lines of an entry after its first. -/
def tail (e : Entry) : List String :=
  (e.render.splitOn "\n").drop 1

end Entry

/-- The entries that show at a verbosity. -/
def shown (verbosity : Nat) (entries : List Entry) : List Entry :=
  entries.filter fun e => e.level.verbosity ≤ verbosity

/-- An entry of the machine. -/
def machine (level : Level) (message : String) (fields : List (String × String)) : Entry :=
  ⟨level, "stacksim_core::core::machine", message, fields⟩

/-- A step in the log: the instruction at its start, or a warning of an unassigned byte. -/
def ofSnapshot (s : Snapshot) : Entry :=
  match Opcode.ofByte? s.opcode with
  | some op =>
    machine .trace "step" [
      ("pc", Text.decimal s.pc),
      ("op", "\"" ++ op.mnemonic ++ "\""),
      ("depth", Text.decimal s.data.depth)]
  | none =>
    machine .warn "unknown opcode" [
      ("pc", Text.decimal s.pc),
      ("opcode", Text.decimal s.opcode.toNat)]

end Log

/-- Keeps a log entry for every step. -/
def Observer.logger : Observer (Array Log.Entry) where
  onStep s es := es.push (Log.ofSnapshot s)

end TwoStack
