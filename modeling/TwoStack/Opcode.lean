import TwoStack.Text.Layout

/-! The instruction set: nineteen opcodes, each with its byte, mnemonic and class. -/

namespace TwoStack

/-- What an instruction works on. Statistics are kept per class. -/
inductive InstructionClass where
  | stack
  | arithmetic
  | compare
  | control
  | returnStack
  | io
  | system
  deriving DecidableEq

inductive Opcode where
  | push
  | add
  | sub
  | mul
  | drop
  | print
  | eq
  | ltS
  | brIf
  | jump
  | dup
  | swap
  | dupSecond
  | toR
  | fromR
  | rFetch
  | depth
  | rDepth
  | halt
  deriving DecidableEq

namespace Opcode

def all : List Opcode :=
  [push, add, sub, mul, drop, print, eq, ltS, brIf, jump, dup, swap, dupSecond, toR, fromR, rFetch,
    depth, rDepth, halt]

def byte : Opcode → UInt8
  | push => 0x01
  | add => 0x02
  | sub => 0x03
  | mul => 0x04
  | drop => 0x05
  | print => 0x08
  | eq => 0x09
  | ltS => 0x0A
  | brIf => 0x0E
  | jump => 0x0F
  | dup => 0x12
  | swap => 0x13
  | dupSecond => 0x14
  | toR => 0x30
  | fromR => 0x31
  | rFetch => 0x32
  | depth => 0x33
  | rDepth => 0x34
  | halt => 0xFF

/-- The opcode a byte stands for; the other bytes are unassigned. -/
def ofByte? (b : UInt8) : Option Opcode :=
  all.find? fun op => op.byte == b

def mnemonic : Opcode → String
  | push => "push"
  | add => "add"
  | sub => "sub"
  | mul => "mul"
  | drop => "drop"
  | print => "print"
  | eq => "eq"
  | ltS => "lt_s"
  | brIf => "br_if"
  | jump => "jump"
  | dup => "dup"
  | swap => "swap"
  | dupSecond => "over"
  | toR => ">r"
  | fromR => "r>"
  | rFetch => "r@"
  | depth => "depth"
  | rDepth => "rdepth"
  | halt => "halt"

/-- The mnemonic a byte is listed under, `???` if it is unassigned. -/
def mnemonicOfByte (b : UInt8) : String :=
  ((ofByte? b).map mnemonic).getD "???"

/-- The complaint about an unassigned byte. -/
def unknownMessage (b : UInt8) : String :=
  "unknown opcode 0x" ++ Text.hexByte b

def instructionClass : Opcode → InstructionClass
  | push | drop | dup | swap | dupSecond | depth => .stack
  | add | sub | mul => .arithmetic
  | eq | ltS => .compare
  | brIf | jump => .control
  | toR | fromR | rFetch | rDepth => .returnStack
  | print => .io
  | halt => .system

/-- Whether four operand bytes follow the opcode byte. -/
def hasOperand : Opcode → Bool
  | push | brIf | jump => true
  | _ => false

/-- Bytes of a whole instruction. -/
def width (op : Opcode) : Nat :=
  if op.hasOperand then 5 else 1

theorem mem_all (op : Opcode) : op ∈ all := by
  cases op <;> decide

@[simp]
theorem ofByte?_byte (op : Opcode) : ofByte? op.byte = some op := by
  cases op <;> rfl

theorem byte_injective {a b : Opcode} (h : a.byte = b.byte) : a = b := by
  have hs := ofByte?_byte a
  rw [h, ofByte?_byte b] at hs
  exact (Option.some.inj hs).symm

theorem ofByte?_eq_some_iff {b : UInt8} {op : Opcode} : ofByte? b = some op ↔ op.byte = b := by
  constructor
  · intro h
    simpa using List.find?_some h
  · rintro rfl
    exact ofByte?_byte op

theorem ofByte?_eq_none_iff {b : UInt8} : ofByte? b = none ↔ ∀ op : Opcode, op.byte ≠ b := by
  simp [ofByte?, List.find?_eq_none, mem_all]

end Opcode

end TwoStack
