import TwoStack.Opcode

/-! Counters of what a machine has done. Counts are kept in 64 bits. -/

namespace TwoStack

structure Statistics where
  steps : UInt64 := 0
  stack : UInt64 := 0
  arithmetic : UInt64 := 0
  compare : UInt64 := 0
  control : UInt64 := 0
  returnStack : UInt64 := 0
  io : UInt64 := 0
  system : UInt64 := 0
  unknown : UInt64 := 0
  taken : UInt64 := 0
  notTaken : UInt64 := 0
  maxData : Nat := 0
  maxReturn : Nat := 0
  deriving DecidableEq

namespace Statistics

/-- Steps counted in a class. -/
def count (s : Statistics) : InstructionClass → UInt64
  | .stack => s.stack
  | .arithmetic => s.arithmetic
  | .compare => s.compare
  | .control => s.control
  | .returnStack => s.returnStack
  | .io => s.io
  | .system => s.system

def setCount (s : Statistics) (c : InstructionClass) (n : UInt64) : Statistics :=
  match c with
  | .stack => { s with stack := n }
  | .arithmetic => { s with arithmetic := n }
  | .compare => { s with compare := n }
  | .control => { s with control := n }
  | .returnStack => { s with returnStack := n }
  | .io => { s with io := n }
  | .system => { s with system := n }

/-- Counts a step of an opcode. -/
def record (s : Statistics) (op : Opcode) : Statistics :=
  let c := op.instructionClass
  { s with steps := s.steps + 1 }.setCount c (s.count c + 1)

/-- Counts a step that met an unassigned byte. -/
def recordUnknown (s : Statistics) : Statistics :=
  { s with steps := s.steps + 1, unknown := s.unknown + 1 }

/-- Counts a conditional branch. -/
def recordBranch (s : Statistics) (taken : Bool) : Statistics :=
  if taken then { s with taken := s.taken + 1 } else { s with notTaken := s.notTaken + 1 }

/-- Keeps the greatest depths seen. -/
def observeDepths (s : Statistics) (data ret : Nat) : Statistics :=
  { s with maxData := max s.maxData data, maxReturn := max s.maxReturn ret }

theorem count_setCount (s : Statistics) (c d : InstructionClass) (n : UInt64) :
    (s.setCount c n).count d = if d = c then n else s.count d := by
  cases c <;> cases d <;> rfl

end Statistics

end TwoStack
