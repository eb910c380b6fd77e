import TwoStack.Json.Lexeme

/-! The values of number literals. -/

namespace TwoStack.Json

inductive Number where
  /-- An integer below 2^64. -/
  | natural (n : Nat)
  /-- The negative of an integer from 1 to 2^63. -/
  | negated (n : Nat)
  | real (x : Float)

/-- Reads digits on, as long as the value fits into 64 bits, and returns the others. -/
def accumulate (value : Nat) : List Char → Nat × List Char
  | [] => (value, [])
  | d :: ds =>
    let next := value * 10 + (d.toNat - '0'.toNat)
    if next < UInt64.size then accumulate next ds else (value, d :: ds)

def powerOfTen (n : Nat) : Float :=
  Float.ofScientific 1 false n

/-- The number `x * 10 ^ e` in double precision, for an `x` below 2^64, by one product or at most two
quotients. A product that is not finite has no value. -/
def scaled? (x : Float) (e : Int) : Option Float :=
  if 308 < e then
    if x == 0 then some x else none
  else if 0 ≤ e then
    let y := x * powerOfTen e.toNat
    if y.isFinite then some y else none
  else if -308 ≤ e then
    some (x / powerOfTen (-e).toNat)
  else if -616 ≤ e then
    some (x / powerOfTen 308 / powerOfTen (-e - 308).toNat)
  else some 0

namespace NumberLexeme

/-- The exponent as written, up to the largest that is told apart from an endless one. -/
def exponentValue? (ds : List Char) : Option Nat :=
  let n := ds.foldl (fun n d => n * 10 + (d.toNat - '0'.toNat)) 0
  if n < 0x80000000 then some n else none

/-- The magnitude of a literal with a fraction, an exponent or too many digits. The leading digits
that fit into 64 bits are read; further digits before the point count as zeros and those behind it
not at all. -/
def magnitude? (l : NumberLexeme) : Option Float := do
  let (value, excess) := accumulate 0 l.whole
  let (value, places) := match l.fraction with
    | none => (value, 0)
    | some ds =>
      let (value, unread) := accumulate value ds
      (value, ds.length - unread.length)
  let x := (UInt64.ofNat value).toFloat
  let e : Int := excess.length - places
  match l.exponent with
  | none => scaled? x e
  | some (negative, ds) =>
    match exponentValue? ds with
    | some n => scaled? x (if negative then e - n else e + n)
    | none => if negative || value == 0 then some 0 else none

/-- The value of a literal, `none` for a number beyond all doubles. Integers that fit are exact;
minus zero and integers out of range are reals. -/
def value? (l : NumberLexeme) : Option Number :=
  let (n, excess) := accumulate 0 l.whole
  if l.fraction.isNone && l.exponent.isNone && excess.isEmpty then
    if !l.negative then some (.natural n)
    else if 0 < n ∧ n ≤ 0x8000000000000000 then some (.negated n)
    else some (.real (-(UInt64.ofNat n).toFloat))
  else do
    let x ← l.magnitude?
    return .real (if l.negative then -x else x)

end NumberLexeme

end TwoStack.Json
