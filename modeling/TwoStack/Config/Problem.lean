import TwoStack.Decimal.Shortest
import TwoStack.Text.Layout
import TwoStack.Text.Printable

/-! What can be wrong with the text of a configuration. -/

namespace TwoStack

namespace Decimal.Scientific

/-- Positional while the first digit stands from the fifth place behind the point to the sixteenth
before it, and then always with a point; else with a signed exponent. -/
def render (s : Scientific) : String :=
  let e := s.exponent
  let ds := s.digits
  String.ofList <|
    if 0 ≤ e ∧ e ≤ 15 then
      let n := e.toNat + 1
      let behind := ds.drop n
      (ds.take n).rightpad n '0' ++ '.' :: (if behind.isEmpty then ['0'] else behind)
    else if -5 ≤ e ∧ e < 0 then
      ['0', '.'] ++ List.replicate ((-e).toNat - 1) '0' ++ ds
    else
      let mantissa := match ds with
        | [] => []
        | [d] => [d]
        | d :: rest => d :: '.' :: rest
      mantissa ++ 'e' :: (if e < 0 then '-' else '+') :: Nat.toDigits 10 e.natAbs

end Decimal.Scientific

namespace Config

/-- A value met where another was expected. -/
inductive Found where
  | null
  | boolean (b : Bool)
  | integer (n : Int)
  | real (x : Float)
  | string (s : String)
  | sequence
  | map

/-- A real in its shortest form. -/
def realText (x : Float) : String :=
  let magnitude := (Decimal.Binary.ofFloat x).shortest.render
  if x.toBits < 0x8000000000000000 then magnitude else "-" ++ magnitude

def integerText (n : Int) : String :=
  if n < 0 then "-" ++ Text.decimal n.natAbs else Text.decimal n.natAbs

def Found.text : Found → String
  | null => "null"
  | boolean b => "boolean `" ++ (if b then "true" else "false") ++ "`"
  | integer n => "integer `" ++ integerText n ++ "`"
  | real x => "floating point `" ++ realText x ++ "`"
  | string s => "string " ++ Text.quoted s
  | sequence => "sequence"
  | map => "map"

/-- The first thing wrong with a configuration. -/
inductive Problem where
  /-- The text is not JSON. -/
  | malformed
  | invalidType (found : Found) (expected : String)
  | invalidValue (found : Found) (expected : String)
  | duplicateField (name : String)

namespace Problem

/-- What is wrong with JSON of the wrong shape; nothing is said about other text. -/
def detail? : Problem → Option String
  | malformed => none
  | invalidType found expected =>
    some ("invalid type: " ++ found.text ++ ", expected " ++ expected)
  | invalidValue found expected =>
    some ("invalid value: " ++ found.text ++ ", expected " ++ expected)
  | duplicateField name => some ("duplicate field `" ++ name ++ "`")

end Problem

end Config

end TwoStack
