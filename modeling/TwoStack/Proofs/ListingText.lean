import TwoStack.Command
import TwoStack.Proofs.Layout
import TwoStack.Proofs.Partition

/-! A printed listing tells the image: the bytes of a line have a column of fixed width. -/

namespace TwoStack

namespace Text

/-- Bytes as they stand in a column, with a blank between two of them. -/
def spaced (bs : List UInt8) : List Char :=
  (" ".intercalate (bs.map hexByte)).toList

theorem spaced_cons_cons (a b : UInt8) (bs : List UInt8) :
    spaced (a :: b :: bs) = (hexByte a).toList ++ ' ' :: spaced (b :: bs) := by
  simp [spaced, String.intercalate_cons_cons]

theorem spaced_singleton (b : UInt8) : spaced [b] = (hexByte b).toList := by
  simp [spaced]

theorem length_spaced (bs : List UInt8) : (spaced bs).length = 3 * bs.length - 1 := by
  induction bs with
  | nil => rfl
  | cons a bs ih =>
    cases bs with
    | nil => rw [spaced_singleton, toList_hexByte]; rfl
    | cons b bs =>
      rw [spaced_cons_cons, toList_hexByte]
      simp only [List.length_append, List.length_cons, List.length_nil] at ih ⊢
      omega

theorem filter_hexByte (b : UInt8) :
    (hexByte b).toList.filter (· ≠ ' ') = (hexByte b).toList := by
  rw [List.filter_eq_self]
  intro c hc
  apply decide_eq_true
  rintro rfl
  exact absurd (hexDigit_of_mem_hexByte hc) (by decide)

/-- Without its blanks a column holds the digits alone. -/
theorem filter_spaced (bs : List UInt8) : (spaced bs).filter (· ≠ ' ') = (hex bs).toList := by
  induction bs with
  | nil => rfl
  | cons a bs ih =>
    cases bs with
    | nil => simpa [spaced_singleton, toList_hex] using filter_hexByte a
    | cons b bs =>
      rw [toList_hex] at ih ⊢
      rw [spaced_cons_cons, List.flatMap_cons, List.filter_append, filter_hexByte,
        List.filter_cons_of_neg (by simp), ih]

theorem newline_notMem_decimal (n : Nat) : '\n' ∉ (decimal n).toList := by
  intro h
  rw [decimal, String.toList_ofList] at h
  exact absurd (Nat.isDigit_of_mem_toDigits (by decide) (by decide) h) (by decide)

theorem newline_notMem_hexByte (b : UInt8) : '\n' ∉ (hexByte b).toList := by
  intro h
  exact absurd (hexDigit_of_mem_hexByte h) (by decide)

theorem newline_notMem_spaced (bs : List UInt8) : '\n' ∉ spaced bs := by
  intro h
  have hd : '\n' ∈ (hex bs).toList := by
    rw [← filter_spaced]
    exact List.mem_filter.2 ⟨h, by decide⟩
  rw [toList_hex] at hd
  obtain ⟨b, -, hb⟩ := List.mem_flatMap.1 hd
  exact newline_notMem_hexByte b hb

end Text

theorem Item.newline_notMem_text (it : Item) : '\n' ∉ it.text.toList := by
  have hmnemonic (op : Opcode) : '\n' ∉ op.mnemonic.toList := by cases op <;> decide
  cases it with
  | bare op => exact hmnemonic op
  | immediate op v => simp [text, hmnemonic op, Text.newline_notMem_decimal]
  | raw b => simp [text, Text.newline_notMem_hexByte]
  | truncated op bs => simp [text, hmnemonic op]

namespace Line

variable {p : Program} {addr : Nat} {l : Line}

/-- The digits in the column of bytes: fifteen places wide, behind the first colon and a blank. -/
def digits (line : String) : List Char :=
  (((line.toList.dropWhile (· ≠ ':')).drop 2).take 15).filter (· ≠ ' ')

/-- The column of an address ends before the colon, however wide it is. -/
theorem dropWhile_address (addr : Nat) (rest : List Char) :
    ((Text.alignRight 4 (Text.decimal addr)).toList ++ ':' :: rest).dropWhile (· ≠ ':') =
      ':' :: rest := by
  rw [List.dropWhile_append_of_pos]
  · rfl
  · intro c hc
    apply decide_eq_true
    rintro rfl
    simp only [Text.alignRight, Text.decimal, String.toList_ofList, List.leftpad,
      List.mem_append, List.mem_replicate] at hc
    rcases hc with ⟨-, hc⟩ | hc
    · exact absurd hc (by decide)
    · exact absurd (Nat.isDigit_of_mem_toDigits (by decide) (by decide) hc) (by decide)

theorem toList_layout (addr : Nat) (bs : List UInt8) (text : String) :
    (layout addr bs text).toList =
      (Text.alignRight 4 (Text.decimal addr)).toList ++
        ':' :: ' ' :: ((Text.spaced bs).rightpad 15 ' ' ++ ' ' :: text.toList) := by
  simp [layout, Text.alignLeft, Text.spaced]

/-- Up to five bytes fit into the column. -/
theorem digits_layout {bs : List UInt8} (hbs : bs.length ≤ 5) (addr : Nat) (text : String) :
    digits (layout addr bs text) = (Text.hex bs).toList := by
  have hlength : (Text.spaced bs).length ≤ 15 := by
    rw [Text.length_spaced]
    omega
  have hwide : ((Text.spaced bs).rightpad 15 ' ').length = 15 := by
    rw [List.length_rightpad]
    omega
  rw [digits, toList_layout, dropWhile_address, List.drop_succ_cons, List.drop_succ_cons,
    List.drop_zero, List.take_left' hwide, List.rightpad, List.filter_append, Text.filter_spaced]
  simp

theorem length_bytes_of_at? (h : at? p addr = some l) : l.bytes.length ≤ 5 := by
  obtain ⟨it, hit, rfl⟩ := Option.map_eq_some_iff.1 h
  cases Item.stands_of_at? hit with
  | raw hb | bare hb | immediate hb hop hv => simp [bytes, Item.encode, Word.bytes]
  | truncated hb hop hs =>
    simp only [bytes, Item.encode, List.length_cons, List.length_drop, Array.length_toList]
    omega

/-- No line is broken: its columns hold digits, blanks and words. -/
theorem newline_notMem_render (l : Line) : '\n' ∉ l.render.toList := by
  have haddr := Text.newline_notMem_decimal l.addr
  have hbytes := Text.newline_notMem_spaced l.item.encode
  have htext := l.item.newline_notMem_text
  rw [render, toList_layout]
  simp [Text.alignRight, List.leftpad, List.rightpad, List.mem_replicate, haddr, hbytes, htext]

end Line

namespace Program

/-- The text of a listing: each line ends with a newline. -/
def listingText (p : Program) : String :=
  Text.lines (p.listing.map Line.render)

/-- The digits of a listing are those of the image. -/
theorem flatMap_digits_listing (p : Program) :
    (p.listing.map Line.render).flatMap Line.digits = (Text.hex p.toList).toList := by
  have hline : ∀ l ∈ p.listing, Line.digits l.render = (Text.hex l.bytes).toList := by
    intro l hl
    have hat := at?_of_mem_linesFrom hl
    exact Line.digits_layout (Line.length_bytes_of_at? hat) _ _
  have hbytes : p.listing.flatMap Line.bytes = p.toList := flatMap_bytes_linesFrom p 0
  rw [List.flatMap_map, List.flatMap_congr hline, ← hbytes, Text.toList_hex, List.flatMap_assoc]
  simp only [Text.toList_hex]

theorem listingText_injective {p q : Program} (h : p.listingText = q.listingText) : p = q := by
  have hline (p : Program) : ∀ l ∈ p.listing.map Line.render, '\n' ∉ l.toList := by
    intro l hl
    obtain ⟨k, -, rfl⟩ := List.mem_map.1 hl
    exact k.newline_notMem_render
  have hlines := Text.lines_injective (hline p) (hline q) h
  have hdigits := congrArg (List.flatMap Line.digits) hlines
  rw [flatMap_digits_listing, flatMap_digits_listing] at hdigits
  exact Array.toList_inj.1 (Text.hex_injective hdigits)

end Program

namespace Request

variable {read read' : String → Except ReadFailure ByteArray} {file file' : String}
  {image image' : ByteArray}

/-- An empty image is no program, and nothing is listed of it. -/
theorem output_disasm (verbosity : Nat) (hostSeconds : String) (h : read file = .ok image) :
    ((disasm verbosity file).answer read).output hostSeconds =
      Program.listingText image.data := by
  cases he : image.isEmpty with
  | true =>
    have hsize : image.data.size = 0 := beq_iff_eq.1 he
    have hnil : Program.listing image.data = [] := Program.linesFrom_eq_nil (Nat.le_of_eq hsize)
    simp [answer, h, Program.load, he, Response.failure, Response.output, Program.listingText,
      hnil, Text.lines]
  | false =>
    simp [answer, h, Program.load, he, Response.output, Program.listingText]

/-- Two images are listed alike only if they are the same, whatever files they were read from. -/
theorem listing_text_determines_image (verbosity verbosity' : Nat)
    (hostSeconds hostSeconds' : String) (h : read file = .ok image)
    (h' : read' file' = .ok image') :
    ((disasm verbosity file).answer read).output hostSeconds =
        ((disasm verbosity' file').answer read').output hostSeconds' ↔
      image = image' := by
  rw [output_disasm verbosity hostSeconds h, output_disasm verbosity' hostSeconds' h']
  constructor
  · intro heq
    exact ByteArray.ext (Program.listingText_injective heq)
  · rintro rfl
    rfl

/-- Two images that end in a cut operand of different length. Their lines differ in the column of
bytes alone. -/
theorem listing_text_determines_image_truncated :
    ((disasm 0 "a").answer fun _ => .ok ⟨#[0x07, 0x01]⟩).output "" ≠
      ((disasm 2 "b").answer fun _ => .ok ⟨#[0x07, 0x01, 0x00]⟩).output "" := by
  intro heq
  have himage := (listing_text_determines_image 0 2 "" "" rfl rfl).1 heq
  exact absurd (congrArg ByteArray.size himage) (by decide)

end Request

end TwoStack
