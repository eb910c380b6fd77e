/-! The command line: one of two commands, with options before or after the file it works on. -/

namespace TwoStack

namespace CommandLine

inductive Command where
  | run
  | disasm
  deriving DecidableEq

inductive Switch where
  | verbose
  | quiet
  | stats
  | json
  | maxSteps
  | config
  deriving DecidableEq

namespace Switch

def takesValue : Switch → Bool
  | maxSteps | config => true
  | _ => false

def long? : String → Option Switch
  | "verbose" => some verbose
  | "quiet" => some quiet
  | "stats" => some stats
  | "json" => some json
  | "max-steps" => some maxSteps
  | "config" => some config
  | _ => none

def short? : Char → Option Switch
  | 'v' => some verbose
  | 'q' => some quiet
  | 'n' => some maxSteps
  | 'c' => some config
  | _ => none

/-- Only verbosity is common to both commands. -/
def allowed (c : Command) (s : Switch) : Bool :=
  c == .run || s == verbose

end Switch

/-- A decimal number below 2^64, with any number of leading zeros and at most one plus sign. -/
def count? (value : String) : Option Nat := do
  let ds := match value.toList with
    | '+' :: ds => ds
    | ds => ds
  guard (ds ≠ [] ∧ ds.all Char.isDigit)
  let n := ds.foldl (fun n d => n * 10 + (d.toNat - '0'.toNat)) 0
  guard (n < UInt64.size)
  return n

/-- A path is not empty. -/
def path? (value : String) : Option String := do
  guard (value ≠ "")
  return value

/-- What the arguments have said so far. -/
structure Draft where
  verbosity : Nat := 0
  file : Option String := none
  quiet : Bool := false
  stats : Bool := false
  json : Bool := false
  maxSteps : Option Nat := none
  config : Option String := none

namespace Draft

/-- Takes a positional argument. There is but one, the file. -/
def position (d : Draft) (arg : String) : Option Draft := do
  guard d.file.isNone
  return { d with file := some (← path? arg) }

/-- Takes a switch without a value. Only verbosity may be repeated. -/
def flag (d : Draft) : Switch → Option Draft
  | .verbose => some { d with verbosity := d.verbosity + 1 }
  | .quiet => if d.quiet then none else some { d with quiet := true }
  | .stats => if d.stats then none else some { d with stats := true }
  | .json => if d.json then none else some { d with json := true }
  | .maxSteps | .config => none

/-- Takes a switch with its value. -/
def valued (d : Draft) (s : Switch) (value : String) : Option Draft :=
  match s with
  | .maxSteps => do
    guard d.maxSteps.isNone
    return { d with maxSteps := some (← count? value) }
  | .config => do
    guard d.config.isNone
    return { d with config := some (← path? value) }
  | _ => none

/-- Takes the argument after a switch as its value, unless it looks like a switch itself. -/
def valuedNext (d : Draft) (s : Switch) : List String → Option (Draft × List String)
  | value :: rest => do
    guard (value = "-" ∨ !value.startsWith "-")
    return (← d.valued s value, rest)
  | [] => none

/-- Takes the letters of an argument such as `-qn3`. Behind a letter that takes a value the value
follows, with an equals sign or without; if nothing follows it is the next argument. -/
def letters (d : Draft) (c : Command) :
    List Char → List String → Option (Draft × List String)
  | [], rest => some (d, rest)
  | l :: ls, rest => do
    let s ← Switch.short? l
    guard (s.allowed c)
    if s.takesValue then
      match ls with
      | [] => d.valuedNext s rest
      | '=' :: value => return (← d.valued s (String.ofList value), rest)
      | value => return (← d.valued s (String.ofList value), rest)
    else
      (← d.flag s).letters c ls rest

/-- Takes an argument such as `--max-steps=3`, given without its dashes. -/
def name (d : Draft) (c : Command) (arg : List Char) (rest : List String) :
    Option (Draft × List String) := do
  let s ← Switch.long? (String.ofList (arg.takeWhile (· ≠ '=')))
  guard (s.allowed c)
  match s.takesValue, arg.dropWhile (· ≠ '=') with
  | true, [] => d.valuedNext s rest
  | true, _ :: value => return (← d.valued s (String.ofList value), rest)
  | false, [] => return (← d.flag s, rest)
  | false, _ :: _ => none

/-- Takes one argument, and the next if that is its value. -/
def argument (d : Draft) (c : Command) (arg : String) (rest : List String) :
    Option (Draft × List String) :=
  match arg.toList with
  | '-' :: '-' :: cs => d.name c cs rest
  | '-' :: l :: ls => d.letters c (l :: ls) rest
  | _ => (d.position arg).map (·, rest)

/-- Takes the arguments of a command. Behind `--` all are positional. The first argument bounds
their number. -/
def arguments (c : Command) : Nat → Draft → List String → Option Draft
  | _, d, [] => some d
  | 0, _, _ :: _ => none
  | n + 1, d, arg :: rest =>
    if arg = "--" then rest.foldlM position d
    else
      match d.argument c arg rest with
      | none => none
      | some (d, rest) => arguments c n d rest

end Draft

end CommandLine

/-- What a run is asked to do. -/
structure RunOptions where
  file : String
  maxSteps : Option Nat
  config : Option String
  quiet : Bool
  stats : Bool
  json : Bool
  deriving DecidableEq

inductive Request where
  | version
  | run (verbosity : Nat) (options : RunOptions)
  | disasm (verbosity : Nat) (file : String)
  deriving DecidableEq

namespace CommandLine

/-- The request of a command. Verbosity behind the command counts alone if there is any. -/
def request? (c : Command) (verbosity : Nat) (args : List String) : Option Request := do
  let d ← Draft.arguments c args.length {} args
  let file ← d.file
  let verbosity := if d.verbosity = 0 then verbosity else d.verbosity
  match c with
  | .run => return .run verbosity ⟨file, d.maxSteps, d.config, d.quiet, d.stats, d.json⟩
  | .disasm => return .disasm verbosity file

/-- What stands before the command. -/
inductive Leading where
  | version
  | verbosity (n : Nat)

/-- The letters of an argument before the command. The version is answered when it is met. -/
def leadingLetters (n : Nat) : List Char → Option Leading
  | [] => some (.verbosity n)
  | 'v' :: ls => leadingLetters (n + 1) ls
  | 'V' :: _ => some .version
  | _ => none

/-- An argument before the command, `none` if it is no switch. -/
def leading? (n : Nat) (arg : String) : Option (Option Leading) :=
  match arg.toList with
  | '-' :: '-' :: cs =>
    if cs = "verbose".toList then some (some (.verbosity (n + 1)))
    else if cs = "version".toList then some (some .version)
    else some none
  | '-' :: l :: ls => some (leadingLetters n (l :: ls))
  | _ => none

/-- Reads the arguments after `verbosity` switches that raise it. `none` is a usage error. -/
def parseFrom (verbosity : Nat) : List String → Option Request
  | [] => none
  | arg :: rest =>
    match leading? verbosity arg with
    | some none => none
    | some (some .version) => some .version
    | some (some (.verbosity n)) => parseFrom n rest
    | none =>
      if arg = "run" then request? .run verbosity rest
      else if arg = "disasm" then request? .disasm verbosity rest
      else none

def parse (args : List String) : Option Request :=
  parseFrom 0 args

end CommandLine

end TwoStack
