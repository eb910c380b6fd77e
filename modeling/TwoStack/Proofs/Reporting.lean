import TwoStack.Command
import TwoStack.Proofs.Observers
import TwoStack.Proofs.ReportText
import TwoStack.Proofs.Steps

/-! A run is reported as text or as a document. Both are made from what a recorder sees of it. -/

namespace TwoStack

/-- What is written of an event while a run is traced. -/
def Event.line : Event → String
  | step s =>
    "PC=" ++ Text.alignRight 3 (Text.decimal s.pc) ++ " OP=0x" ++ Text.hexByte s.opcode ++
      " Stack=" ++ Text.cells s.data.bottomUp ++ " RStack=" ++ Text.cells s.ret.bottomUp
  | print p =>
    "  -> PRINT: '" ++ String.singleton p.character ++ "' (" ++ Text.decimal p.byte.toNat ++ ")"

namespace Statistics

end Statistics

namespace Observer

end Observer

/-- The state at a fault in the lines of a dump, for a program of `size` bytes. A machine that meets
a fault is not halted. -/
def FaultReport.dump (size : Nat) (r : FaultReport) : String :=
  Text.lines [
    "PC = " ++ Text.decimal r.pc ++ " / " ++ Text.decimal size,
    "halted = false",
    "stack  = " ++ Text.cells r.data.bottomUp,
    "rstack = " ++ Text.cells r.ret.bottomUp,
    "output = " ++ Text.quoted r.output]

namespace Report

end Report

namespace Machine

variable {σ : Type}

/-- The recorded run of a program from its start. -/
def recorded (p : Program) (budget : Nat) : Except Fault Summary × Machine (Array Event) :=
  (fresh p #[]).run .recorder budget

/-- Whoever is told of a launched run, it is the recorded one. -/
theorem launch_eq_recorded (p : Program) (obs : Observer σ) (start : σ) (budget : Nat) :
    launch p obs start budget =
      (recorded p budget).map id (map fun es =>
        (es.toList.foldl obs.receive start, es.toList.foldl Observer.logger.receive #[])) := by
  rw [launch, run_eq_recorded]
  simp only [← Observer.foldl_receive_both]
  rfl

end Machine

open Machine

end TwoStack
