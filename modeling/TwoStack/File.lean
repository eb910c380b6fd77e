/-! Files in memory and the ways reading one can fail. -/

namespace TwoStack

inductive ReadFailure where
  | notFound
  | notADirectory
  | isADirectory
  | nameTooLong
  /-- A path holds the character that ends one. -/
  | embeddedNul
  | notText
  | other (reason : String)
  deriving DecidableEq

namespace ReadFailure

def message : ReadFailure → String
  | notFound => "No such file or directory (os error 2)"
  | notADirectory => "Not a directory (os error 20)"
  | isADirectory => "Is a directory (os error 21)"
  | nameTooLong => "File name too long (os error 36)"
  | embeddedNul => "file name contained an unexpected NUL byte"
  | notText => "stream did not contain valid UTF-8"
  | other reason => reason

end ReadFailure

def decodeText (bytes : ByteArray) : Except ReadFailure String :=
  match String.fromUTF8? bytes with
  | none => .error .notText
  | some s => .ok s

inductive Node where
  | file (content : ByteArray)
  | directory (entries : List (String × Node))

namespace Node

/-- The most bytes the name of a directory entry can have. -/
def nameLimit : Nat := 255

/-- The most bytes a path can have. -/
def pathLimit : Nat := 4095

/-- Goes from a place in a tree to a neighbour. A place is the node reached and the directories
above it, the nearest first; above the topmost there is nothing but empty directories. -/
def enter (place : Node × List Node) (name : String) :
    Except ReadFailure (Node × List Node) :=
  match place with
  | (file _, _) => .error .notADirectory
  | (directory entries, above) =>
    if name = "" ∨ name = "." then .ok place
    else if name = ".." then
      match above with
      | [] => .ok (directory [], [])
      | parent :: rest => .ok (parent, rest)
    else if nameLimit < name.utf8ByteSize then .error .nameTooLong
    else
      match entries.lookup name with
      | none => .error .notFound
      | some node => .ok (node, directory entries :: above)

/-- Reads the file a path leads to from the working directory `root`. A path from the top of the
tree finds nothing there. -/
def read (root : Node) (path : String) : Except ReadFailure ByteArray := do
  if path.toList.contains '\x00' then throw .embeddedNul
  if pathLimit < path.utf8ByteSize then throw .nameTooLong
  if path = "" then throw .notFound
  let start := if path.startsWith "/" then directory [] else root
  let (node, _) ← (path.splitOn "/").foldlM enter (start, [])
  match node with
  | file content => return content
  | directory _ => throw .isADirectory

end Node

end TwoStack
