import TwoStack.Item

/-! The disassembly of an image: its units in order, each with its address. -/

namespace TwoStack

structure Line where
  addr : Nat
  item : Item
  deriving DecidableEq

namespace Line

/-- The line at an address, `none` outside the image. -/
def at? (p : Program) (addr : Nat) : Option Line :=
  (Item.at? p addr).map fun it => ⟨addr, it⟩

/-- The address after the line. -/
def next (l : Line) : Nat :=
  l.addr + l.item.size

/-- Address, bytes and text in columns. -/
def layout (addr : Nat) (bytes : List UInt8) (text : String) : String :=
  Text.alignRight 4 (Text.decimal addr) ++ ": " ++
    Text.alignLeft 15 (" ".intercalate (bytes.map Text.hexByte)) ++ " " ++ text

def render (l : Line) : String :=
  layout l.addr l.item.encode l.item.text

theorem addr_of_at? {p : Program} {addr : Nat} {l : Line} (h : at? p addr = some l) :
    l.addr = addr ∧ addr < p.size := by
  obtain ⟨it, hi, rfl⟩ := Option.map_eq_some_iff.1 h
  exact ⟨rfl, Item.lt_size_of_at? hi⟩

theorem lt_next (l : Line) : l.addr < l.next := by
  have := l.item.size_pos
  unfold next
  omega

end Line

namespace Program

/-- The lines from an address to the end of the image. -/
def linesFrom (p : Program) (addr : Nat) : List Line :=
  match _h : Line.at? p addr with
  | none => []
  | some l => l :: p.linesFrom l.next
termination_by p.size - addr
decreasing_by
  have := Line.addr_of_at? _h
  have := l.lt_next
  omega

def listing (p : Program) : List Line :=
  p.linesFrom 0

end Program

end TwoStack
