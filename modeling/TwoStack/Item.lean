import TwoStack.Opcode
import TwoStack.Program
import TwoStack.Text.Layout

/-! The units an image is made of: instructions, unassigned bytes, and an operand cut short. -/

namespace TwoStack

inductive Item where
  /-- An instruction of one byte. -/
  | bare (op : Opcode)
  /-- An instruction with its operand. -/
  | immediate (op : Opcode) (value : UInt32)
  /-- A byte that is no opcode. -/
  | raw (byte : UInt8)
  /-- An opcode whose operand runs past the end of the image, with the operand bytes present. -/
  | truncated (op : Opcode) (present : List UInt8)
  deriving DecidableEq

namespace Item

/-- The first byte. -/
def opcode : Item → UInt8
  | bare op | immediate op _ | truncated op _ => op.byte
  | raw b => b

def encode : Item → List UInt8
  | bare op => [op.byte]
  | immediate op v => op.byte :: Word.bytes v
  | raw b => [b]
  | truncated op bs => op.byte :: bs

def size (it : Item) : Nat :=
  it.encode.length

def text : Item → String
  | bare op => op.mnemonic
  | immediate op v => op.mnemonic ++ " " ++ Text.decimal v.toNat
  | raw b => ".byte 0x" ++ Text.hexByte b
  | truncated op _ => op.mnemonic ++ " <truncated>"

/-- A complete unit, written the way its opcode asks for. -/
def Complete : Item → Prop
  | bare op => op.hasOperand = false
  | immediate op _ => op.hasOperand = true
  | raw b => Opcode.ofByte? b = none
  | truncated _ _ => False

instance : DecidablePred Complete := fun it => by
  cases it <;> unfold Complete <;> infer_instance

/-- The unit at an address, `none` outside the image. -/
def at? (p : Program) (addr : Nat) : Option Item :=
  p[addr]?.map fun b =>
    match Opcode.ofByte? b with
    | none => raw b
    | some op =>
      if op.hasOperand then
        match p.word? (addr + 1) with
        | some v => immediate op v
        | none => truncated op (p.extract (addr + 1) p.size).toList
      else bare op

theorem encode_eq_cons (it : Item) : ∃ bs, it.encode = it.opcode :: bs := by
  cases it <;> exact ⟨_, rfl⟩

theorem size_pos (it : Item) : 0 < it.size := by
  obtain ⟨bs, h⟩ := it.encode_eq_cons
  simp [size, h]

theorem lt_size_of_at? {p : Program} {addr : Nat} {it : Item} (h : at? p addr = some it) :
    addr < p.size := by
  obtain ⟨b, hb, -⟩ := Option.map_eq_some_iff.1 h
  exact (Array.getElem?_eq_some_iff.1 hb).1

end Item

/-- The image of a list of units. -/
def assemble (items : List Item) : Program :=
  (items.flatMap Item.encode).toArray

end TwoStack
