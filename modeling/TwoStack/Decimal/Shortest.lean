import TwoStack.Decimal.Binary

/-! The shortest decimal that reads back as a given double. -/

namespace TwoStack.Decimal

/-- Digits with the decimal exponent of the first: `digits = [3, 2]`, `exponent = 1` is 32. -/
structure Scientific where
  digits : List Char
  exponent : Int
  deriving DecidableEq

namespace Binary

/-- A multiple of 10^(-1076). In this unit a double and the ends of its rounding interval are whole
numbers: a quarter of the last binary place is the finest distance needed. -/
def units (quarters scale : Nat) : Nat :=
  quarters * Nat.pow 2 scale * Nat.pow 5 1076

/-- The interval of numbers that round to `x`, in units. Below a power of two the next double is
half as far. -/
def interval (x : Binary) : Nat × Nat :=
  let below := if x.significand = 0x10000000000000 ∧ 0 < x.scale then 1 else 2
  (units (4 * x.significand - below) x.scale, units (4 * x.significand + 2) x.scale)

/-- Whether a number of units rounds to `x`. The ends do if the significand is even. -/
def roundsTo (x : Binary) (u : Nat) : Bool :=
  let (lo, hi) := x.interval
  if x.significand % 2 = 0 then lo ≤ u && u ≤ hi else lo < u && u < hi

/-- The multiple of `step` that rounds to `x` and is nearest to it, a tie going to the even
multiple. Only the two neighbours of `x` can be. -/
def nearest? (x : Binary) (step : Nat) : Option Nat :=
  let v := units (4 * x.significand) x.scale
  let d := v / step
  match x.roundsTo (d * step), x.roundsTo ((d + 1) * step) with
  | true, true =>
    let low := v - d * step
    let high := (d + 1) * step - v
    if low < high then some d
    else if high < low then some (d + 1)
    else some (d + d % 2)
  | true, false => some d
  | false, true => some (d + 1)
  | false, false => none

/-- The decimal with the fewest digits that rounds to `x`, the nearest of them if there are more.
Seventeen digits always suffice. -/
def shortest (x : Binary) : Scientific :=
  if x.significand = 0 then ⟨['0'], 0⟩ else
  let places := (Nat.toDigits 10 (units (4 * x.significand) x.scale)).length
  let found := (List.range 17).findSome? fun i => do
    let d ← x.nearest? (Nat.pow 10 (places - (i + 1)))
    return (i + 1, d)
  match found with
  | none => ⟨['0'], 0⟩
  | some (n, d) =>
    let ds := Nat.toDigits 10 d
    let trimmed := (ds.reverse.dropWhile (· == '0')).reverse
    ⟨trimmed, (places : Int) - 1077 + (ds.length - n : Nat)⟩

end Binary

end TwoStack.Decimal
