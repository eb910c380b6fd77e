/-! Numbers, cells and columns as text. -/

namespace TwoStack.Text

def decimal (n : Nat) : String :=
  String.ofList (Nat.toDigits 10 n)

/-- Two lowercase hexadecimal digits. -/
def hexByte (b : UInt8) : String :=
  String.ofList ((Nat.toDigits 16 b.toNat).leftpad 2 '0')

/-- Two digits a byte, nothing between bytes. -/
def hex (bs : List UInt8) : String :=
  String.join (bs.map hexByte)

/-- Fills up with blanks on the left; a longer text is not cut. -/
def alignRight (width : Nat) (s : String) : String :=
  String.ofList (s.toList.leftpad width ' ')

/-- Fills up with blanks on the right; a longer text is not cut. -/
def alignLeft (width : Nat) (s : String) : String :=
  String.ofList (s.toList.rightpad width ' ')

/-- Cells in brackets, in decimal. -/
def cells (cs : List UInt32) : String :=
  "[" ++ ", ".intercalate (cs.map fun c => decimal c.toNat) ++ "]"

/-- Every line ends with a newline. -/
def lines (ls : List String) : String :=
  String.join (ls.map (· ++ "\n"))

end TwoStack.Text
