import TwoStack.Json.Lexeme

/-! Passing over a JSON value. Numbers of any size and halves of characters are let through. -/

namespace TwoStack.Json

mutual

/-- The text after a value. The first argument bounds the nesting. -/
def skipWithin : Nat → List Char → Option (List Char)
  | 0, _ => none
  | n + 1, cs =>
    match skipBlank cs with
    | 'n' :: cs => word? ['u', 'l', 'l'] cs
    | 't' :: cs => word? ['r', 'u', 'e'] cs
    | 'f' :: cs => word? ['a', 'l', 's', 'e'] cs
    | '"' :: cs => (pieces? cs).map Prod.snd
    | '[' :: cs =>
      match skipBlank cs with
      | ']' :: cs => some cs
      | cs => skipItems n cs
    | '\x7b' :: cs =>
      match skipBlank cs with
      | '\x7d' :: cs => some cs
      | cs => skipMembers n cs
    | cs => (number? cs).map Prod.snd

/-- The text after the rest of a list, from an item on. -/
def skipItems : Nat → List Char → Option (List Char)
  | 0, _ => none
  | n + 1, cs =>
    match skipWithin n cs with
    | none => none
    | some cs =>
      match skipBlank cs with
      | ',' :: cs => skipItems n cs
      | ']' :: cs => some cs
      | _ => none

/-- The text after the rest of an object, from a member on. -/
def skipMembers : Nat → List Char → Option (List Char)
  | 0, _ => none
  | n + 1, cs =>
    match skipBlank cs with
    | '"' :: cs =>
      match pieces? cs with
      | none => none
      | some (_, cs) =>
        match skipBlank cs with
        | ':' :: cs =>
          match skipWithin n cs with
          | none => none
          | some cs =>
            match skipBlank cs with
            | ',' :: cs => skipMembers n cs
            | '\x7d' :: cs => some cs
            | _ => none
        | _ => none
    | _ => none

end

/-- The text after a value. Each level of nesting and each item takes a character, so the length of
the text bounds the work. -/
def skip? (cs : List Char) : Option (List Char) :=
  skipWithin (2 * cs.length + 2) cs

end TwoStack.Json
