import TwoStack.CommandLine
import TwoStack.Config
import TwoStack.Console
import TwoStack.Listing
import TwoStack.Log
import TwoStack.Report
import TwoStack.Statistics.Report

/-! The commands: what each request is answered with, given what the files hold. -/

namespace TwoStack

/-- What a command writes and ends with. -/
structure Response where
  exitCode : UInt8
  /-- Standard output, the statistics apart. -/
  body : String
  /-- Statistics to be written after the body. -/
  stats : Option Statistics := none
  /-- Messages on standard error, after the log. -/
  errors : String := ""
  log : List Log.Entry := []

namespace Response

def output (r : Response) (hostSeconds : String) : String :=
  r.body ++ ((r.stats.map fun s => s.report hostSeconds).getD "")

/-- The lines on standard error that start a log entry. -/
def logLines (r : Response) (verbosity : Nat) : List String :=
  (Log.shown verbosity r.log).map Log.Entry.head

/-- The other lines on standard error. -/
def plainErrors (r : Response) (verbosity : Nat) : String :=
  Text.lines ((Log.shown verbosity r.log).flatMap Log.Entry.tail) ++ r.errors

def failure (message : String) : Response where
  exitCode := 1
  body := ""
  errors := Text.lines ["Error: " ++ message]

end Response

namespace Log

/-- An entry of the command line. -/
def command (level : Level) (message : String) (fields : List (String × String)) : Entry :=
  ⟨level, "stacksim", message, fields⟩

def imageRead (path : String) (program : Program) : Entry :=
  ⟨.debug, "stacksim_core::sim::loader", "loaded program",
    [("path", path), ("len", Text.decimal program.size)]⟩

def programLoaded (path : String) (program : Program) : Entry :=
  command .info "program loaded" [("path", path), ("bytes", Text.decimal program.size)]

def statisticsDropped : Entry :=
  command .warn "statistics are not printed in JSON mode" []

def runStart (program : Program) (budget : Nat) : Entry :=
  machine .debug "run start"
    [("max_steps", Text.decimal budget), ("program_len", Text.decimal program.size)]

def summaryFields (s : Summary) : List (String × String) :=
  [("steps", Text.decimal s.steps), ("termination", s.termination.message)]

/-- The end of a run. A fault is logged by the command alone. -/
def runEnd : Except Fault Summary → List Entry
  | .ok s =>
    [machine .debug "run finished" (summaryFields s),
      command .info "run finished" (summaryFields s)]
  | .error f => [command .error f.message [("pc", Text.decimal f.pc)]]

end Log

namespace RunOptions

/-- The configuration in force: options win over the file. -/
def effective (o : RunOptions) (c : Config) : Config where
  maxSteps := o.maxSteps.getD c.maxSteps
  traceInstructions := c.traceInstructions && !o.quiet
  printStats := c.printStats || o.stats

def loadConfig (o : RunOptions) (read : String → Except ReadFailure ByteArray) :
    Except Config.LoadError Config :=
  match o.config with
  | none => .ok {}
  | some path => Config.load path (read path)

end RunOptions

namespace Machine

variable {σ : Type}

/-- Runs a program from its start under an observer and a logger. -/
def launch (program : Program) (obs : Observer σ) (start : σ) (budget : Nat) :
    Except Fault Summary × Machine (σ × Array Log.Entry) :=
  (fresh program (start, #[])).run (obs.both .logger) budget

end Machine

/-- The exit code of a run: zero unless it met a fault. -/
def exitCodeOf : Except Fault Summary → UInt8
  | .ok _ => 0
  | .error _ => 1

/-- A run reported as text: the trace, if it is wanted, and then the summary or the state at the
fault. -/
def runAsText (program : Program) (c : Config) : Response :=
  let (result, m) := Machine.launch program (.console c.traceInstructions) #[] c.maxSteps
  { exitCode := exitCodeOf result
    body := Text.lines m.observer.1.toList ++
      match result with
      | .ok s => s.closing
      | .error _ => m.dump
    stats := if c.printStats then some m.stats else none
    errors := match result with
      | .ok _ => ""
      | .error f => Text.lines ["", "[!] FATAL: " ++ f.message]
    log := Log.runStart program c.maxSteps :: m.observer.2.toList ++ Log.runEnd result }

/-- A run reported as a document, with the trace if it is wanted and without statistics. -/
def runAsDocument (program : Program) (c : Config) : Response :=
  let (result, m) := Machine.launch program .recorder #[] c.maxSteps
  let trace := if c.traceInstructions then some m.observer.1.toList else none
  let report := match result with
    | .ok s => Report.finished s trace
    | .error f => .fault (m.faultReport f) trace
  { exitCode := exitCodeOf result
    body := Text.lines [report.render]
    log := (if c.printStats then [Log.statisticsDropped] else []) ++
      Log.runStart program c.maxSteps :: m.observer.2.toList ++ Log.runEnd result }

namespace Request

/-- The files a request asks for. -/
def paths : Request → List String
  | version => []
  | run _ o => o.config.toList ++ [o.file]
  | disasm _ file => [file]

def verbosity : Request → Nat
  | version => 0
  | run n _ | disasm n _ => n

/-- Answers a request. The configuration is read before the program, and a failure to read either
ends the command. -/
def answer (read : String → Except ReadFailure ByteArray) : Request → Response
  | version => { exitCode := 0, body := Text.lines ["stacksim 0.3.0"] }
  | run _ o =>
    match o.loadConfig read with
    | .error e => .failure e.message
    | .ok c =>
      match Program.load o.file (read o.file) with
      | .error e => .failure e.message
      | .ok program =>
        let c := o.effective c
        let r := if o.json then runAsDocument program c else runAsText program c
        { r with log := Log.imageRead o.file program :: Log.programLoaded o.file program :: r.log }
  | disasm _ file =>
    match Program.load file (read file) with
    | .error e => .failure e.message
    | .ok program =>
      { exitCode := 0
        body := Text.lines (program.listing.map Line.render)
        log := [Log.imageRead file program] }

end Request

end TwoStack
