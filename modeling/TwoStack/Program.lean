import TwoStack.File

/-! Program images: the little-endian words in them, and the files they come from. -/

namespace TwoStack

/-- A flat image; an address is a position in it. -/
abbrev Program := Array UInt8

namespace Word

/-- The word with the given bytes, the low byte first. -/
def ofBytes (b₀ b₁ b₂ b₃ : UInt8) : UInt32 :=
  b₀.toUInt32 + 0x100 * (b₁.toUInt32 + 0x100 * (b₂.toUInt32 + 0x100 * b₃.toUInt32))

/-- The four bytes of a word, the low byte first. -/
def bytes (v : UInt32) : List UInt8 :=
  [v.toUInt8, (v / 0x100).toUInt8, (v / 0x10000).toUInt8, (v / 0x1000000).toUInt8]

theorem toNat_ofBytes (b₀ b₁ b₂ b₃ : UInt8) :
    (ofBytes b₀ b₁ b₂ b₃).toNat =
      b₀.toNat + 0x100 * b₁.toNat + 0x10000 * b₂.toNat + 0x1000000 * b₃.toNat := by
  have h₀ := b₀.toNat_lt
  have h₁ := b₁.toNat_lt
  have h₂ := b₂.toNat_lt
  have h₃ := b₃.toNat_lt
  simp only [ofBytes, UInt32.toNat_add, UInt32.toNat_mul, UInt8.toNat_toUInt32,
    show (0x100 : UInt32).toNat = 256 from rfl]
  omega

theorem bytes_eq (v : UInt32) :
    ∃ b₀ b₁ b₂ b₃, bytes v = [b₀, b₁, b₂, b₃] ∧ ofBytes b₀ b₁ b₂ b₃ = v := by
  refine ⟨_, _, _, _, rfl, UInt32.toNat_inj.1 ?_⟩
  have h := v.toNat_lt
  simp only [toNat_ofBytes, UInt32.toNat_toUInt8, UInt32.toNat_div,
    show (0x100 : UInt32).toNat = 0x100 from rfl,
    show (0x10000 : UInt32).toNat = 0x10000 from rfl,
    show (0x1000000 : UInt32).toNat = 0x1000000 from rfl]
  omega

end Word

namespace Program

/-- The word at an address, if its four bytes lie inside the image. -/
def word? (p : Program) (addr : Nat) : Option UInt32 := do
  return Word.ofBytes (← p[addr]?) (← p[addr + 1]?) (← p[addr + 2]?) (← p[addr + 3]?)

/-- Why a file holds no program. -/
inductive LoadError where
  | unreadable (path : String) (failure : ReadFailure)
  | empty (path : String)
  deriving DecidableEq

def LoadError.message : LoadError → String
  | unreadable path failure => "could not read program '" ++ path ++ "': " ++ failure.message
  | empty path => "program '" ++ path ++ "' is empty"

/-- The image that a file holds. An empty file is no program. -/
def load (path : String) (content : Except ReadFailure ByteArray) : Except LoadError Program :=
  match content with
  | .error failure => .error (.unreadable path failure)
  | .ok bytes => if bytes.isEmpty then .error (.empty path) else .ok bytes.data

end Program

end TwoStack
