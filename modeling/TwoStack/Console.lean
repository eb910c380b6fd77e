import TwoStack.Run
import TwoStack.Text.Printable

/-! A run as text: a line for each step and each character printed, then how it ended. -/

namespace TwoStack

namespace Console

def stepLine (s : Snapshot) : String :=
  "PC=" ++ Text.alignRight 3 (Text.decimal s.pc) ++ " OP=0x" ++ Text.hexByte s.opcode ++
    " Stack=" ++ Text.cells s.data.bottomUp ++ " RStack=" ++ Text.cells s.ret.bottomUp

def printLine (p : Printed) : String :=
  "  -> PRINT: '" ++ String.singleton p.character ++ "' (" ++ Text.decimal p.byte.toNat ++ ")"

end Console

/-- Keeps the lines of a run, or none if it is not enabled. -/
def Observer.console (enabled : Bool) : Observer (Array String) where
  onStep s ls := if enabled then ls.push (Console.stepLine s) else ls
  onPrint p ls := if enabled then ls.push (Console.printLine p) else ls

/-- The closing block of a run that met no fault. -/
def Summary.closing (s : Summary) : String :=
  Text.lines [
    "",
    "=== Execution finished after " ++ Text.decimal s.steps ++ " steps ===",
    "Output: " ++ s.output,
    "Final stack: " ++ Text.cells s.data.bottomUp,
    "Final return stack: " ++ Text.cells s.ret.bottomUp,
    "Termination: " ++ s.termination.message]

/-- The state of a machine in five lines. -/
def Machine.dump {σ : Type} (m : Machine σ) : String :=
  Text.lines [
    "PC = " ++ Text.decimal m.pc ++ " / " ++ Text.decimal m.program.size,
    "halted = " ++ (if m.halted then "true" else "false"),
    "stack  = " ++ Text.cells m.data.bottomUp,
    "rstack = " ++ Text.cells m.ret.bottomUp,
    "output = " ++ Text.quoted m.output]

end TwoStack
