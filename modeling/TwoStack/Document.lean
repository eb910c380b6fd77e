import TwoStack.Text.Layout

/-! JSON documents and their indented text. -/

namespace TwoStack

inductive Document where
  | number (n : Nat)
  | text (s : String)
  | list (items : List Document)
  | record (fields : List (String × Document))

namespace Document

/-- A character inside a string literal. Quotes, backslashes and characters below the blank are
escaped, all others stand for themselves. -/
def escape (c : Char) : List Char :=
  if c = '"' then ['\\', '"']
  else if c = '\\' then ['\\', '\\']
  else if c = '\x08' then ['\\', 'b']
  else if c = '\x0c' then ['\\', 'f']
  else if c = '\n' then ['\\', 'n']
  else if c = '\r' then ['\\', 'r']
  else if c = '\t' then ['\\', 't']
  else if c.toNat < 0x20 then ['\\', 'u'] ++ (Nat.toDigits 16 c.toNat).leftpad 4 '0'
  else [c]

def literal (s : String) : String :=
  String.ofList (['"'] ++ s.toList.flatMap escape ++ ['"'])

/-- A new line, indented by two blanks a level. -/
def newline (level : Nat) : String :=
  String.ofList ('\n' :: List.replicate (2 * level) ' ')

/-- Parts between brackets, each on a line of its own; no parts leave the brackets together. -/
def bracketed (opening closing : String) (level : Nat) (parts : List String) : String :=
  if parts.isEmpty then opening ++ closing
  else
    opening ++ newline (level + 1) ++ ("," ++ newline (level + 1)).intercalate parts ++
      newline level ++ closing

mutual

def renderAt (level : Nat) : Document → String
  | number n => Text.decimal n
  | text s => literal s
  | list items => bracketed "[" "]" level (renderItems (level + 1) items)
  | record fields => bracketed "\x7b" "\x7d" level (renderFields (level + 1) fields)

def renderItems (level : Nat) : List Document → List String
  | [] => []
  | d :: ds => d.renderAt level :: renderItems level ds

def renderFields (level : Nat) : List (String × Document) → List String
  | [] => []
  | (key, d) :: fs => (literal key ++ ": " ++ d.renderAt level) :: renderFields level fs

end

def render (d : Document) : String :=
  d.renderAt 0

/-- Cells as a list of numbers. -/
def cells (cs : List UInt32) : Document :=
  list (cs.map fun c => number c.toNat)

end Document

end TwoStack
