import TwoStack.Document
import TwoStack.Run

/-! Runs, faults and traces as documents. -/

namespace TwoStack

def Fault.document (f : Fault) : Document :=
  .record [("kind", .text f.kind), ("pc", .number f.pc)]

def Termination.document : Termination → Document
  | halted => .record [("reason", .text "halted")]
  | endOfProgram pc => .record [("reason", .text "end_of_program"), ("pc", .number pc)]
  | unknownOpcode pc opcode =>
    .record [("reason", .text "unknown_opcode"), ("pc", .number pc),
      ("opcode", .number opcode.toNat)]
  | stepBudgetExhausted n =>
    .record [("reason", .text "step_budget_exhausted"), ("max_steps", .number n)]

def Summary.document (s : Summary) : Document :=
  .record [
    ("steps", .number s.steps),
    ("output", .text s.output),
    ("data_stack", .cells s.data.bottomUp),
    ("return_stack", .cells s.ret.bottomUp),
    ("termination", s.termination.document)]

def FaultReport.fields (r : FaultReport) : List (String × Document) :=
  [("error", r.fault.document),
    ("pc", .number r.pc),
    ("output", .text r.output),
    ("data_stack", .cells r.data.bottomUp),
    ("return_stack", .cells r.ret.bottomUp)]

def Snapshot.fields (s : Snapshot) : List (String × Document) :=
  [("pc", .number s.pc),
    ("opcode", .number s.opcode.toNat),
    ("data_stack", .cells s.data.bottomUp),
    ("return_stack", .cells s.ret.bottomUp)]

def Printed.fields (p : Printed) : List (String × Document) :=
  [("character", .text (String.singleton p.character)), ("byte", .number p.byte.toNat)]

namespace Event

/-- The event without its tag. -/
def fields : Event → List (String × Document)
  | step s => s.fields
  | print p => p.fields

def tag : Event → String
  | step _ => "step"
  | print _ => "print"

def document (e : Event) : Document :=
  .record (("event", .text e.tag) :: e.fields)

end Event

/-- What is reported of one execution, with its trace or without. -/
inductive Report where
  | finished (summary : Summary) (trace : Option (List Event))
  | fault (report : FaultReport) (trace : Option (List Event))
  deriving DecidableEq

namespace Report

def traceFields : Option (List Event) → List (String × Document)
  | none => []
  | some es => [("trace", .list (es.map Event.document))]

def document : Report → Document
  | finished s trace => .record (("summary", s.document) :: traceFields trace)
  | fault r trace => .record (r.fields ++ traceFields trace)

def render (r : Report) : String :=
  r.document.render

end Report

end TwoStack
