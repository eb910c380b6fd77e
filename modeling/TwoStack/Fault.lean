import TwoStack.Text.Layout

/-! The faults that stop an execution. Each carries the address of its instruction. -/

namespace TwoStack

inductive Fault where
  | stackUnderflow (pc : Nat)
  | returnStackUnderflow (pc : Nat)
  | truncatedProgram (pc : Nat)
  deriving DecidableEq

namespace Fault

def pc : Fault → Nat
  | stackUnderflow pc | returnStackUnderflow pc | truncatedProgram pc => pc

/-- The tag of the fault in reports. -/
def kind : Fault → String
  | stackUnderflow _ => "stack_underflow"
  | returnStackUnderflow _ => "return_stack_underflow"
  | truncatedProgram _ => "truncated_program"

def message : Fault → String
  | stackUnderflow pc => "stack underflow at PC=" ++ Text.decimal pc
  | returnStackUnderflow pc => "return stack underflow at PC=" ++ Text.decimal pc
  | truncatedProgram pc =>
    "truncated program: operand of instruction at PC=" ++ Text.decimal pc ++
      " runs past end of program"

end Fault

end TwoStack
