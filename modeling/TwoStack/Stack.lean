/-! Stacks of 32-bit cells. -/

namespace TwoStack

/-- A stack, its top at the head. -/
@[ext]
structure Stack where
  cells : List UInt32
  deriving DecidableEq

namespace Stack

def empty : Stack := ⟨[]⟩

/-- The stack with the given cells, the last of them on top. -/
def ofBottomUp (cs : List UInt32) : Stack := ⟨cs.reverse⟩

/-- The cells from the bottom to the top. -/
def bottomUp (s : Stack) : List UInt32 := s.cells.reverse

def depth (s : Stack) : Nat := s.cells.length

/-- The depth as a cell, modulo 2^32. -/
def depthCell (s : Stack) : UInt32 := UInt32.ofNat s.depth

def isEmpty (s : Stack) : Bool := s.cells.isEmpty

def push (s : Stack) (c : UInt32) : Stack := ⟨c :: s.cells⟩

/-- The top cell and the stack beneath it. -/
def pop? (s : Stack) : Option (UInt32 × Stack) :=
  match s.cells with
  | [] => none
  | c :: cs => some (c, ⟨cs⟩)

/-- The cell `n` places below the top. -/
def peekAt? (s : Stack) (n : Nat) : Option UInt32 := s.cells[n]?

def peek? (s : Stack) : Option UInt32 := s.cells.head?

@[simp]
theorem bottomUp_ofBottomUp (cs : List UInt32) : (ofBottomUp cs).bottomUp = cs :=
  List.reverse_reverse cs

@[simp]
theorem ofBottomUp_bottomUp (s : Stack) : ofBottomUp s.bottomUp = s :=
  Stack.ext (List.reverse_reverse s.cells)

@[simp]
theorem cells_push (s : Stack) (c : UInt32) : (s.push c).cells = c :: s.cells := rfl

@[simp]
theorem bottomUp_push (s : Stack) (c : UInt32) : (s.push c).bottomUp = s.bottomUp ++ [c] := by
  simp [bottomUp]

@[simp]
theorem depth_push (s : Stack) (c : UInt32) : (s.push c).depth = s.depth + 1 := rfl

@[simp]
theorem pop?_push (s : Stack) (c : UInt32) : (s.push c).pop? = some (c, s) := rfl

theorem pop?_eq_none_iff {s : Stack} : s.pop? = none ↔ s = empty := by
  obtain ⟨_ | ⟨c, cs⟩⟩ := s <;> simp [pop?, empty]

theorem pop?_eq_some_iff {s t : Stack} {c : UInt32} : s.pop? = some (c, t) ↔ s = t.push c := by
  obtain ⟨_ | ⟨d, ds⟩⟩ := s <;> obtain ⟨ts⟩ := t <;> simp [pop?, push]

end Stack

end TwoStack
