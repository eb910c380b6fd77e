import TwoStack.Config.Problem
import TwoStack.Json.Number
import TwoStack.Json.Skip

/-! Reading typed values off a JSON text, front to back. The first problem met decides. -/

namespace TwoStack.Config

/-- Reads a value from the front of a text and returns it with the rest. -/
abbrev Reader (α : Type) := List Char → Except Problem (α × List Char)

namespace Reader

variable {α δ : Type}

/-- What a scanner finds. Finding nothing makes the text malformed. -/
def found (r : Option α) : Except Problem α :=
  match r with
  | none => .error .malformed
  | some a => .ok a

/-- The text after blanks and the given character. -/
def punctuation (c : Char) (cs : List Char) : Except Problem (List Char) :=
  found (Json.word? [c] (Json.skipBlank cs))

/-- A number literal with a value. -/
def number : Reader Json.Number := fun cs => do
  let (l, cs) ← found (Json.number? cs)
  return (← found l.value?, cs)

/-- A string literal after blanks. -/
def string : Reader String := fun cs => do
  found (Json.string? (← punctuation '"' cs))

def foundNumber : Json.Number → Found
  | .natural n => .integer n
  | .negated n => .integer (-n)
  | .real x => .real x

/-- The kind of the value in front. A plain value is read to its end, so it must be well formed; of
a list or an object only the bracket is looked at. -/
def kind : Reader Found := fun cs =>
  match cs with
  | 'n' :: rest => do return (.null, ← found (Json.word? ['u', 'l', 'l'] rest))
  | 't' :: rest => do return (.boolean true, ← found (Json.word? ['r', 'u', 'e'] rest))
  | 'f' :: rest => do return (.boolean false, ← found (Json.word? ['a', 'l', 's', 'e'] rest))
  | '"' :: rest => do
    let (s, rest) ← found (Json.string? rest)
    return (.string s, rest)
  | '[' :: rest => .ok (.sequence, rest)
  | '\x7b' :: rest => .ok (.map, rest)
  | _ => do
    let (n, rest) ← number cs
    return (foundNumber n, rest)

/-- Refuses the value in front. -/
def mismatch (expected : String) : Reader α := fun cs => do
  let (v, _) ← kind cs
  throw (.invalidType v expected)

/-- A count below 2^64. -/
def count : Reader Nat := fun cs => do
  let (v, rest) ← kind (Json.skipBlank cs)
  match v with
  | .integer (.ofNat n) => return (n, rest)
  | .integer (.negSucc n) => throw (.invalidValue (.integer (.negSucc n)) "u64")
  | _ => throw (.invalidType v "u64")

def boolean : Reader Bool := fun cs => do
  let (v, rest) ← kind (Json.skipBlank cs)
  match v with
  | .boolean b => return (b, rest)
  | _ => throw (.invalidType v "a boolean")

/-- A named part of a record that is filled in step by step. -/
structure Field (δ : Type) where
  name : String
  present : δ → Bool
  read : δ → Reader δ

/-- The elements of a list stand for the fields in order; those at the end may be missing, and
surplus ones are not allowed. -/
def elements (first : Bool) (d : δ) : List (Field δ) → Reader δ
  | [] => fun cs => do return (d, ← punctuation ']' cs)
  | f :: fs => fun cs =>
    match Json.skipBlank cs with
    | ']' :: cs => .ok (d, cs)
    | cs => do
      let cs ← if first then pure cs else punctuation ',' cs
      let (d, cs) ← f.read d cs
      elements false d fs cs

/-- The members of an object, in any order, those of unknown name being passed over. The second
argument bounds their number. -/
def members (fields : List (Field δ)) : Nat → Bool → δ → Reader δ
  | 0, _, _ => fun _ => .error .malformed
  | n + 1, first, d => fun cs =>
    match Json.skipBlank cs with
    | '\x7d' :: cs => .ok (d, cs)
    | cs => do
      let cs ← if first then pure cs else punctuation ',' cs
      let (key, cs) ← string cs
      match fields.find? fun f => f.name == key with
      | none => do
        let cs ← punctuation ':' cs
        let cs ← found (Json.skip? cs)
        members fields n false d cs
      | some f =>
        if f.present d then .error (.duplicateField key)
        else do
          let cs ← punctuation ':' cs
          let (d, cs) ← f.read d cs
          members fields n false d cs

/-- A record written as an object, or as the list of its fields. A member takes a character at
least, so the length of the text bounds their number. -/
def record (title : String) (fields : List (Field δ)) (blank : δ) : Reader δ := fun cs =>
  match Json.skipBlank cs with
  | '[' :: cs => elements true blank fields cs
  | '\x7b' :: cs => members fields (cs.length + 1) true blank cs
  | cs => mismatch title cs

/-- A text with nothing but blanks after the value. -/
def whole (r : Reader α) (text : String) : Except Problem α := do
  let (a, rest) ← r text.toList
  if (Json.skipBlank rest).isEmpty then return a else throw .malformed

end Reader

end TwoStack.Config
