/-! Double-precision numbers as exact multiples of powers of two, and their decimal text. -/

namespace TwoStack.Decimal

/-- The quotient to the nearest integer, a half to the even neighbour. -/
def roundDiv (num den : Nat) : Nat :=
  let q := num / den
  let r := num % den
  if 2 * r < den then q
  else if den < 2 * r then q + 1
  else q + q % 2

/-- The number `significand * 2 ^ scale / 2 ^ 1074`. Every finite double is one up to its sign. -/
structure Binary where
  significand : Nat
  scale : Nat
  deriving DecidableEq

namespace Binary

/-- The magnitude of the finite double with the given bits. -/
def ofBits (bits : UInt64) : Binary :=
  let exponent := bits.toNat / 0x10000000000000 % 0x800
  let fraction := bits.toNat % 0x10000000000000
  if exponent = 0 then ⟨fraction, 0⟩ else ⟨0x10000000000000 + fraction, exponent - 1⟩

def ofFloat (x : Float) : Binary :=
  ofBits x.toBits

/-- The number rounded to a fixed number of places, at least one. -/
def fixed (places : Nat) (x : Binary) : String :=
  let unit := Nat.pow 10 places
  let q := roundDiv (x.significand * Nat.pow 2 x.scale * unit) (Nat.pow 2 1074)
  String.ofList (Nat.toDigits 10 (q / unit) ++ '.' ::
    (Nat.toDigits 10 (q % unit)).leftpad places '0')

end Binary

end TwoStack.Decimal
