import Mathlib.Data.Option.Basic
import TwoStack.Document
import TwoStack.Json.Lexeme

/-! String literals are read to their end as what they stand for, and documents write them. -/

namespace TwoStack.Json

/-- `c` is the digit for `n` in base sixteen, in either case. -/
def HexDigit (n : Nat) (c : Char) : Prop :=
  n < 16 ∧ (c = Nat.digitChar n ∨ c = (Nat.digitChar n).toUpper)

/-- Letters that may stand behind a backslash, and the characters they are for. -/
def shortEscapes : List (Char × Char) :=
  [('"', '"'), ('\\', '\\'), ('/', '/'), ('b', '\x08'), ('f', '\x0c'), ('n', '\n'), ('r', '\r'),
    ('t', '\t')]

/-- The text of a string literal with its pieces, from behind the opening quote to the closing
one. -/
inductive Literal : List Piece → List Char → Prop
  | close : Literal [] ['"']
  | plain {c : Char} {ps : List Piece} {t : List Char} (hc : 0x20 ≤ c.toNat) (hq : c ≠ '"')
      (hb : c ≠ '\\') (ht : Literal ps t) : Literal (.char c :: ps) (c :: t)
  | short {e c : Char} {ps : List Piece} {t : List Char} (he : (e, c) ∈ shortEscapes)
      (ht : Literal ps t) : Literal (.char c :: ps) ('\\' :: e :: t)
  | code {i j k l : Nat} {a b c d : Char} {ps : List Piece} {t : List Char} (ha : HexDigit i a)
      (hb : HexDigit j b) (hc : HexDigit k c) (hd : HexDigit l d) (ht : Literal ps t) :
      Literal (.code (((i * 16 + j) * 16 + k) * 16 + l) :: ps)
        ('\\' :: 'u' :: a :: b :: c :: d :: t)

/-- The characters that pieces stand for. Half of a character stands only before or behind its other
half. -/
inductive Joins : List Piece → List Char → Prop
  | nil : Joins [] []
  | char {c : Char} {ps : List Piece} {s : List Char} (hs : Joins ps s) :
      Joins (.char c :: ps) (c :: s)
  | code {n : Nat} {ps : List Piece} {s : List Char} (hn : n < 0xD800 ∨ 0xE000 ≤ n)
      (hs : Joins ps s) : Joins (.code n :: ps) (Char.ofNat n :: s)
  | pair {n k : Nat} {ps : List Piece} {s : List Char} (hn : 0xD800 ≤ n ∧ n < 0xDC00)
      (hk : 0xDC00 ≤ k ∧ k < 0xE000) (hs : Joins ps s) :
      Joins (.code n :: .code k :: ps)
        (Char.ofNat (0x10000 + (n - 0xD800) * 0x400 + (k - 0xDC00)) :: s)

/-- `t` spells the string `s`, from behind the opening quote to the closing one. -/
def Spells (s : String) (t : List Char) : Prop :=
  ∃ ps, Literal ps t ∧ Joins ps s.toList

theorem hexValue?_of_hexDigit {n : Nat} {c : Char} (h : HexDigit n c) : hexValue? c = some n := by
  have hvalue : ∀ n < 16, hexValue? (Nat.digitChar n) = some n ∧
      hexValue? (Nat.digitChar n).toUpper = some n := by decide
  obtain ⟨hn, rfl | rfl⟩ := h
  · exact (hvalue n hn).1
  · exact (hvalue n hn).2

theorem pieces?_of_literal {ps : List Piece} {t : List Char} (h : Literal ps t)
    (rest : List Char) : pieces? (t ++ rest) = some (ps, rest) := by
  induction h with
  | close => simp [pieces?]
  | @plain c ps t hc hq hb ht ih => simp [pieces?, guard, hc, hb, ih]
  | @short e c ps t he ht ih =>
    simp only [shortEscapes, List.mem_cons, Prod.mk.injEq, List.not_mem_nil, or_false] at he
    rcases he with ⟨rfl, rfl⟩ | ⟨rfl, rfl⟩ | ⟨rfl, rfl⟩ | ⟨rfl, rfl⟩ | ⟨rfl, rfl⟩ | ⟨rfl, rfl⟩ |
      ⟨rfl, rfl⟩ | ⟨rfl, rfl⟩
    all_goals simp [pieces?, escaped?, ih]
  | code ha hb hc hd ht ih =>
    simp [pieces?, code?, hexValue?_of_hexDigit ha, hexValue?_of_hexDigit hb,
      hexValue?_of_hexDigit hc, hexValue?_of_hexDigit hd, ih]

/-- A code that is no half stands for itself, whatever follows it. -/
theorem join?_code {n : Nat} (hn : n < 0xD800 ∨ 0xE000 ≤ n) (ps : List Piece) :
    join? (.code n :: ps) = (join? ps).map (Char.ofNat n :: ·) := by
  have hl : isLeading n = false := by simp [isLeading]; omega
  have ht : isTrailing n = false := by simp [isTrailing]; omega
  cases ps with
  | nil => simp [join?, guard, hl, ht]
  | cons p ps =>
    rw [Option.map_eq_bind]
    cases p with
    | char c => simp only [join?, guard, hl, ht]; rfl
    | code k => simp only [join?, guard, hl, ht]; rfl

theorem join?_of_joins {ps : List Piece} {s : List Char} (h : Joins ps s) :
    join? ps = some s := by
  induction h with
  | nil => rfl
  | char hs ih => simp [join?, ih]
  | code hn hs ih => simp [join?_code hn, ih]
  | @pair n k ps s hn hk hs ih =>
    have hl : isLeading n = true := by simpa [isLeading] using hn
    have ht : isTrailing k = true := by simpa [isTrailing] using hk
    simp [join?, guard, hl, ht, ih]

theorem string?_of_spells {s : String} {t : List Char} (h : Spells s t) (rest : List Char) :
    string? (t ++ rest) = some (s, rest) := by
  obtain ⟨ps, hps, hs⟩ := h
  simp [string?, pieces?_of_literal hps, join?_of_joins hs]

end TwoStack.Json

namespace TwoStack.Document

/-- The piece that a character is written as. -/
def piece (c : Char) : Json.Piece :=
  if c.toNat < 0x20 ∧ c ∉ ['\x08', '\x0c', '\n', '\r', '\t'] then .code c.toNat else .char c

/-- The code of a character below the blank begins with two zeros. -/
theorem leftpad_toDigits : ∀ n < 0x20, (Nat.toDigits 16 n).leftpad 4 '0' =
    ['0', '0', Nat.digitChar (n / 16), Nat.digitChar (n % 16)] := by
  decide

/-- The three ways to write a character: a short escape, a code, or the character itself. -/
theorem escape_cases (c : Char) :
    (∃ e, (e, c) ∈ Json.shortEscapes ∧ escape c = ['\\', e] ∧ piece c = .char c) ∨
      (c.toNat < 0x20 ∧ escape c = ['\\', 'u'] ++ (Nat.toDigits 16 c.toNat).leftpad 4 '0' ∧
        piece c = .code c.toNat) ∨
      (0x20 ≤ c.toNat ∧ c ≠ '"' ∧ c ≠ '\\' ∧ escape c = [c] ∧ piece c = .char c) := by
  by_cases hc : c ∈ ['"', '\\', '\x08', '\x0c', '\n', '\r', '\t']
  · left
    simp only [List.mem_cons, List.not_mem_nil, or_false] at hc
    rcases hc with rfl | rfl | rfl | rfl | rfl | rfl | rfl
    · exact ⟨'"', by simp [Json.shortEscapes], rfl, rfl⟩
    · exact ⟨'\\', by simp [Json.shortEscapes], rfl, rfl⟩
    · exact ⟨'b', by simp [Json.shortEscapes], rfl, rfl⟩
    · exact ⟨'f', by simp [Json.shortEscapes], rfl, rfl⟩
    · exact ⟨'n', by simp [Json.shortEscapes], rfl, rfl⟩
    · exact ⟨'r', by simp [Json.shortEscapes], rfl, rfl⟩
    · exact ⟨'t', by simp [Json.shortEscapes], rfl, rfl⟩
  · simp only [List.mem_cons, List.not_mem_nil, or_false, not_or] at hc
    obtain ⟨hq, hb, h₃, h₄, h₅, h₆, h₇⟩ := hc
    by_cases hlow : c.toNat < 0x20
    · exact Or.inr (Or.inl ⟨hlow, by simp [escape, hq, hb, h₃, h₄, h₅, h₆, h₇, hlow],
        by simp [piece, h₃, h₄, h₅, h₆, h₇, hlow]⟩)
    · exact Or.inr (Or.inr ⟨Nat.le_of_not_lt hlow, hq, hb,
        by simp [escape, hq, hb, h₃, h₄, h₅, h₆, h₇, hlow], by simp [piece, hlow]⟩)

theorem literal_escape (c : Char) {ps : List Json.Piece} {t : List Char}
    (ht : Json.Literal ps t) : Json.Literal (piece c :: ps) (escape c ++ t) := by
  rcases escape_cases c with ⟨e, he, hesc, hp⟩ | ⟨hlow, hesc, hp⟩ | ⟨hc, hq, hb, hesc, hp⟩
  · rw [hesc, hp]
    exact .short he ht
  · have hcode : ((0 * 16 + 0) * 16 + c.toNat / 16) * 16 + c.toNat % 16 = c.toNat := by omega
    have hdigit {n : Nat} (hn : n < 16) : Json.HexDigit n (Nat.digitChar n) := ⟨hn, Or.inl rfl⟩
    have hzero : Json.HexDigit 0 '0' := hdigit (by decide)
    have hlit := Json.Literal.code hzero hzero (hdigit (show c.toNat / 16 < 16 by omega))
      (hdigit (show c.toNat % 16 < 16 by omega)) ht
    rw [hcode] at hlit
    rw [hesc, hp, leftpad_toDigits _ hlow]
    exact hlit
  · rw [hesc, hp]
    exact .plain hc hq hb ht

theorem joins_piece (c : Char) {ps : List Json.Piece} {s : List Char} (hs : Json.Joins ps s) :
    Json.Joins (piece c :: ps) (c :: s) := by
  unfold piece
  split
  · rename_i hc
    have hj : Json.Joins (.code c.toNat :: ps) (Char.ofNat c.toNat :: s) :=
      .code (Or.inl (by omega)) hs
    rwa [Char.ofNat_toNat] at hj
  · exact .char hs

/-- A string is written as a literal that spells it. -/
theorem spells_escape (s : String) : Json.Spells s (s.toList.flatMap escape ++ ['"']) := by
  refine ⟨s.toList.map piece, ?_, ?_⟩
  · induction s.toList with
    | nil => exact .close
    | cons c cs ih =>
      rw [List.flatMap_cons, List.append_assoc]
      exact literal_escape c ih
  · induction s.toList with
    | nil => exact .nil
    | cons c cs ih => exact joins_piece c ih

/-- A literal is told from what follows it. -/
theorem literal_append_inj {s t : String} {xs ys : List Char}
    (h : (literal s).toList ++ xs = (literal t).toList ++ ys) : s = t ∧ xs = ys := by
  have hread (s : String) (xs : List Char) :
      Json.string? (((literal s).toList ++ xs).drop 1) = some (s, xs) := by
    have hs := Json.string?_of_spells (spells_escape s) xs
    simpa [literal] using hs
  have hs := hread s xs
  rw [h, hread t ys] at hs
  obtain ⟨rfl, rfl⟩ := Prod.mk.inj (Option.some.inj hs)
  exact ⟨rfl, rfl⟩

end TwoStack.Document
