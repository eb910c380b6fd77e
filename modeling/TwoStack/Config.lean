import TwoStack.Config.Reader
import TwoStack.File

/-! The configuration of a run. -/

namespace TwoStack

structure Config where
  maxSteps : Nat := 1000
  traceInstructions : Bool := true
  printStats : Bool := false
  deriving DecidableEq

namespace Config

/-- The fields given so far. -/
structure Draft where
  maxSteps : Option Nat := none
  traceInstructions : Option Bool := none
  printStats : Option Bool := none

/-- Missing fields take their defaults. -/
def Draft.complete (d : Draft) : Config :=
  let defaults : Config := {}
  { maxSteps := d.maxSteps.getD defaults.maxSteps
    traceInstructions := d.traceInstructions.getD defaults.traceInstructions
    printStats := d.printStats.getD defaults.printStats }

def draftFields : List (Reader.Field Draft) := [
  { name := "max_steps"
    present := fun d => d.maxSteps.isSome
    read := fun d cs => do
      let (n, cs) ← Reader.count cs
      return ({ d with maxSteps := some n }, cs) },
  { name := "trace_instructions"
    present := fun d => d.traceInstructions.isSome
    read := fun d cs => do
      let (b, cs) ← Reader.boolean cs
      return ({ d with traceInstructions := some b }, cs) },
  { name := "print_stats"
    present := fun d => d.printStats.isSome
    read := fun d cs => do
      let (b, cs) ← Reader.boolean cs
      return ({ d with printStats := some b }, cs) }]

def draft : Reader Draft :=
  Reader.record "struct GeneralConfig" draftFields {}

/-- At the root, the whole configuration is one field. -/
def rootFields : List (Reader.Field (Option Draft)) := [
  { name := "general"
    present := Option.isSome
    read := fun _ cs => do
      let (d, cs) ← draft cs
      return (some d, cs) }]

def root : Reader (Option Draft) :=
  Reader.record "struct Config" rootFields none

/-- Reads a configuration from JSON text. -/
def parse (text : String) : Except Problem Config := do
  return ((← Reader.whole root text).getD {}).complete

inductive LoadError where
  | unreadable (path : String) (failure : ReadFailure)
  | invalid (problem : Problem)

/-- The place in the text at which a problem was met is not told. -/
def LoadError.message : LoadError → String
  | unreadable path failure => "could not read config '" ++ path ++ "': " ++ failure.message
  | invalid problem =>
    problem.detail?.elim "invalid configuration" fun detail => "invalid configuration: " ++ detail

theorem LoadError.message_unreadable (path : String) (failure : ReadFailure) :
    (unreadable path failure).message =
      "could not read config '" ++ path ++ "': " ++ failure.message := rfl

theorem LoadError.message_invalid {problem : Problem} {detail : String}
    (h : problem.detail? = some detail) :
    (invalid problem).message = "invalid configuration: " ++ detail :=
  congrArg (Option.elim · _ _) h

/-- Reads a configuration from what a file holds. -/
def load (path : String) (content : Except ReadFailure ByteArray) : Except LoadError Config :=
  match content.bind decodeText with
  | .error failure => .error (.unreadable path failure)
  | .ok text => (parse text).mapError .invalid

end Config

end TwoStack
