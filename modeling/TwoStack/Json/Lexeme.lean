/-! The words of a JSON text, each taken off its front: blanks, strings and number literals. -/

namespace TwoStack.Json

def isBlank (c : Char) : Bool :=
  c == ' ' || c == '\t' || c == '\n' || c == '\r'

def skipBlank (cs : List Char) : List Char :=
  cs.dropWhile isBlank

/-- The text after a fixed word. -/
def word? : List Char → List Char → Option (List Char)
  | [], cs => some cs
  | w :: ws, c :: cs => if w = c then word? ws cs else none
  | _ :: _, [] => none

/-- A piece of a string literal: a character, or a four-digit code, which may be half of a
character. -/
inductive Piece where
  | char (c : Char)
  | code (n : Nat)
  deriving DecidableEq

def hexValue? (c : Char) : Option Nat :=
  if '0' ≤ c ∧ c ≤ '9' then some (c.toNat - '0'.toNat)
  else if 'a' ≤ c ∧ c ≤ 'f' then some (c.toNat - 'a'.toNat + 10)
  else if 'A' ≤ c ∧ c ≤ 'F' then some (c.toNat - 'A'.toNat + 10)
  else none

def code? (a b c d : Char) : Option Nat := do
  return (((← hexValue? a) * 16 + (← hexValue? b)) * 16 + (← hexValue? c)) * 16 + (← hexValue? d)

/-- The character a letter after a backslash stands for. -/
def escaped? : Char → Option Char
  | '"' => some '"'
  | '\\' => some '\\'
  | '/' => some '/'
  | 'b' => some '\x08'
  | 'f' => some '\x0c'
  | 'n' => some '\n'
  | 'r' => some '\r'
  | 't' => some '\t'
  | _ => none

/-- The pieces of a string literal, after its opening quote. -/
def pieces? : List Char → Option (List Piece × List Char)
  | [] => none
  | '"' :: cs => some ([], cs)
  | '\\' :: 'u' :: a :: b :: c :: d :: cs => do
    let n ← code? a b c d
    let (ps, rest) ← pieces? cs
    return (.code n :: ps, rest)
  | '\\' :: e :: cs => do
    let c ← escaped? e
    let (ps, rest) ← pieces? cs
    return (.char c :: ps, rest)
  | c :: cs => do
    guard (0x20 ≤ c.toNat ∧ c ≠ '\\')
    let (ps, rest) ← pieces? cs
    return (.char c :: ps, rest)

def isLeading (n : Nat) : Bool :=
  0xD800 ≤ n && n < 0xDC00

def isTrailing (n : Nat) : Bool :=
  0xDC00 ≤ n && n < 0xE000

/-- The characters the pieces stand for. A leading half must stand before a trailing one. -/
def join? : List Piece → Option (List Char)
  | [] => some []
  | .char c :: ps => (join? ps).map (c :: ·)
  | .code n :: .code k :: ps =>
    if isLeading n then do
      guard (isTrailing k)
      let cs ← join? ps
      return Char.ofNat (0x10000 + (n - 0xD800) * 0x400 + (k - 0xDC00)) :: cs
    else do
      guard (!isTrailing n)
      let cs ← join? (.code k :: ps)
      return Char.ofNat n :: cs
  | .code n :: ps => do
    guard (!isLeading n && !isTrailing n)
    let cs ← join? ps
    return Char.ofNat n :: cs

/-- A string literal read to its end, after its opening quote. -/
def string? (cs : List Char) : Option (String × List Char) := do
  let (ps, rest) ← pieces? cs
  return (String.ofList (← join? ps), rest)

structure NumberLexeme where
  negative : Bool
  whole : List Char
  fraction : Option (List Char)
  /-- Whether the exponent is negative, and its digits. -/
  exponent : Option (Bool × List Char)
  deriving DecidableEq

/-- A run of digits, at least one. -/
def digits? (cs : List Char) : Option (List Char × List Char) := do
  guard (cs.takeWhile Char.isDigit ≠ [])
  return (cs.takeWhile Char.isDigit, cs.dropWhile Char.isDigit)

/-- The digits before the point. A zero stands alone. -/
def whole? (cs : List Char) : Option (List Char × List Char) := do
  let (ds, rest) ← digits? cs
  guard (ds.head? ≠ some '0' ∨ ds.length = 1)
  return (ds, rest)

def fraction? : List Char → Option (Option (List Char) × List Char)
  | '.' :: cs => do
    let (ds, rest) ← digits? cs
    return (some ds, rest)
  | cs => some (none, cs)

def sign : List Char → Bool × List Char
  | '-' :: cs => (true, cs)
  | '+' :: cs => (false, cs)
  | cs => (false, cs)

def exponent? : List Char → Option (Option (Bool × List Char) × List Char)
  | c :: cs =>
    if c = 'e' ∨ c = 'E' then do
      let (ds, rest) ← digits? (sign cs).2
      return (some ((sign cs).1, ds), rest)
    else some (none, c :: cs)
  | [] => some (none, [])

/-- A number literal, its minus sign included. -/
def number? (cs : List Char) : Option (NumberLexeme × List Char) := do
  let (negative, cs) := match cs with
    | '-' :: cs => (true, cs)
    | cs => (false, cs)
  let (whole, cs) ← whole? cs
  let (fraction, cs) ← fraction? cs
  let (exponent, cs) ← exponent? cs
  return (⟨negative, whole, fraction, exponent⟩, cs)

end TwoStack.Json
