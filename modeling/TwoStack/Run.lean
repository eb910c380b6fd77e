import TwoStack.Machine

/-! Runs under a step budget, and sequences of calls on one machine. -/

namespace TwoStack

/-- Why a run without a fault ended. -/
inductive Termination where
  | halted
  | endOfProgram (pc : Nat)
  | unknownOpcode (pc : Nat) (opcode : UInt8)
  | stepBudgetExhausted (maxSteps : Nat)
  deriving DecidableEq

namespace Termination

def message : Termination → String
  | halted => "halted"
  | endOfProgram pc => "end of program (PC=" ++ Text.decimal pc ++ ")"
  | unknownOpcode pc opcode =>
    Opcode.unknownMessage opcode ++ " at PC=" ++ Text.decimal pc
  | stepBudgetExhausted n => "step budget of " ++ Text.decimal n ++ " exhausted"

end Termination

/-- The result of a run that met no fault. -/
structure Summary where
  steps : Nat
  output : String
  data : Stack
  ret : Stack
  termination : Termination
  deriving DecidableEq

def Summary.isHalted (s : Summary) : Bool :=
  s.termination == .halted

/-- A fault together with the state of the machine. -/
structure FaultReport where
  fault : Fault
  pc : Nat
  output : String
  data : Stack
  ret : Stack
  deriving DecidableEq

namespace Machine

variable {σ : Type}

/-- Why a machine without a next instruction is at rest. -/
def restTermination (m : Machine σ) : Termination :=
  if m.halted then .halted else .endOfProgram m.pc

def summary (m : Machine σ) (steps : Nat) (termination : Termination) : Summary :=
  ⟨steps, m.output, m.data, m.ret, termination⟩

def faultReport (m : Machine σ) (fault : Fault) : FaultReport :=
  ⟨fault, m.pc, m.output, m.data, m.ret⟩

/-- Continues a run in which `taken` steps are done and `left` are allowed. -/
def runFrom (obs : Observer σ) (m : Machine σ) (taken : Nat) :
    Nat → Except Fault Summary × Machine σ
  | 0 =>
    (.ok (m.summary taken
      (if m.hasNext then .stepBudgetExhausted taken else m.restTermination)), m)
  | left + 1 =>
    match m.step obs with
    | (.ok .continue, m) => m.runFrom obs (taken + 1) left
    | (.ok .halted, m) => (.ok (m.summary (taken + 1) .halted), m)
    | (.ok (.unknownOpcode pc b), m) =>
      (.ok (m.summary (taken + 1) (.unknownOpcode pc b)), m)
    | (.ok .noInstruction, m) => (.ok (m.summary taken m.restTermination), m)
    | (.error f, m) => (.error f, m)

/-- Steps until the machine stops or `budget` steps are done. An exhausted budget is reported only
while there is an instruction left. -/
def run (obs : Observer σ) (m : Machine σ) (budget : Nat) : Except Fault Summary × Machine σ :=
  m.runFrom obs 0 budget

end Machine

/-- A request to a machine. -/
inductive Call where
  | step
  | run (budget : Nat)
  deriving DecidableEq

/-- What a call returns. -/
inductive Reply where
  | stepped (result : Except Fault Outcome)
  | ran (result : Except Fault Summary)

namespace Machine

variable {σ : Type}

def call (obs : Observer σ) (m : Machine σ) : Call → Reply × Machine σ
  | .step => (m.step obs).map .stepped id
  | .run budget => (m.run obs budget).map .ran id

/-- Answers calls one after another; a fault does not end the sequence. -/
def calls (obs : Observer σ) (m : Machine σ) : List Call → List Reply × Machine σ
  | [] => ([], m)
  | c :: cs =>
    let (r, m) := m.call obs c
    let (rs, m) := m.calls obs cs
    (r :: rs, m)

end Machine

end TwoStack
