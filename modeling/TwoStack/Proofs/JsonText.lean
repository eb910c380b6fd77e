import TwoStack.Json.Skip
import TwoStack.Proofs.Layout
import TwoStack.Proofs.Literal

/-! The grammar of JSON texts, and that a value of any shape and depth is passed over to its end. -/

namespace TwoStack.Json

def Blank (b : List Char) : Prop := ∀ c ∈ b, c ∈ [' ', '\t', '\n', '\r']

/-- Digits, at least one. -/
structure Digits (ds : List Char) : Prop where
  ne_nil : ds ≠ []
  digit : ∀ c ∈ ds, c.isDigit = true

inductive FractionText : Option (List Char) → List Char → Prop
  | none : FractionText none []
  | some {ds : List Char} (hd : Digits ds) : FractionText (some ds) ('.' :: ds)

inductive SignText : Bool → List Char → Prop
  | none : SignText false []
  | plus : SignText false ['+']
  | minus : SignText true ['-']

inductive ExponentText : Option (Bool × List Char) → List Char → Prop
  | none : ExponentText none []
  | some {e : Char} {negative : Bool} {sign ds : List Char} (he : e = 'e' ∨ e = 'E')
      (hs : SignText negative sign) (hd : Digits ds) :
      ExponentText (some (negative, ds)) (e :: (sign ++ ds))

/-- The text of a number. Before the point a zero stands alone. -/
inductive NumberText : NumberLexeme → List Char → Prop
  | mk {negative : Bool} {ds : List Char} {f : Option (List Char)} {x : Option (Bool × List Char)}
      {ft xt : List Char} (hd : Digits ds) (hz : ds.head? = some '0' → ds = ['0'])
      (hf : FractionText f ft) (hx : ExponentText x xt) :
      NumberText ⟨negative, ds, f, x⟩ ((if negative then ['-'] else []) ++ (ds ++ (ft ++ xt)))

def booleanText (b : Bool) : List Char :=
  if b then ['t', 'r', 'u', 'e'] else ['f', 'a', 'l', 's', 'e']

inductive Symbol where
  | value
  | element
  | elements
  | member
  | members

/-- The texts of values, of the elements of a list and of the members of an object. -/
inductive Derives : Symbol → List Char → Prop
  | null : Derives .value ['n', 'u', 'l', 'l']
  | boolean (b : Bool) : Derives .value (booleanText b)
  | number {l : NumberLexeme} {t : List Char} (h : NumberText l t) : Derives .value t
  | string {ps : List Piece} {t : List Char} (h : Literal ps t) : Derives .value ('"' :: t)
  | emptyList {b : List Char} (hb : Blank b) : Derives .value ('[' :: (b ++ [']']))
  | list {t : List Char} (h : Derives .elements t) : Derives .value ('[' :: (t ++ [']']))
  | emptyObject {b : List Char} (hb : Blank b) : Derives .value ('\x7b' :: (b ++ ['\x7d']))
  | object {t : List Char} (h : Derives .members t) : Derives .value ('\x7b' :: (t ++ ['\x7d']))
  | element {b v c : List Char} (hb : Blank b) (hv : Derives .value v) (hc : Blank c) :
      Derives .element (b ++ (v ++ c))
  | lastElement {e : List Char} (he : Derives .element e) : Derives .elements e
  | elements {e t : List Char} (he : Derives .element e) (ht : Derives .elements t) :
      Derives .elements (e ++ ',' :: t)
  | member {b k c e : List Char} {ps : List Piece} (hb : Blank b) (hk : Literal ps k)
      (hc : Blank c) (he : Derives .element e) :
      Derives .member (b ++ '"' :: (k ++ (c ++ ':' :: e)))
  | lastMember {m : List Char} (hm : Derives .member m) : Derives .members m
  | members {m t : List Char} (hm : Derives .member m) (ht : Derives .members t) :
      Derives .members (m ++ ',' :: t)

theorem isBlank_of_mem {c : Char} (h : c ∈ [' ', '\t', '\n', '\r']) : isBlank c = true := by
  simpa [isBlank, or_assoc] using h

theorem skipBlank_append {b : List Char} (hb : Blank b) (xs : List Char) :
    skipBlank (b ++ xs) = skipBlank xs :=
  List.dropWhile_append_of_pos fun c hc => isBlank_of_mem (hb c hc)

theorem skipBlank_cons {c : Char} (hc : isBlank c = false) (xs : List Char) :
    skipBlank (c :: xs) = c :: xs := by
  simp [skipBlank, hc]

@[simp]
theorem skipBlank_skipBlank (xs : List Char) : skipBlank (skipBlank xs) = skipBlank xs := by
  induction xs with
  | nil => rfl
  | cons c xs ih =>
    cases hc : isBlank c with
    | true => simpa [skipBlank, hc] using ih
    | false => rw [skipBlank_cons hc, skipBlank_cons hc]

/-- A text that may follow a value: it is empty, or a comma or a closing bracket comes next. -/
def Closing (xs : List Char) : Prop := ∀ c ∈ xs.head?, c ∈ [',', ']', '\x7d']

/-- A text that may follow a value, blanks included. -/
def Delimited (xs : List Char) : Prop := ∀ c ∈ xs.head?, isBlank c = true ∨ c ∈ [',', ']', '\x7d']

theorem closing_cons {c : Char} (hc : c ∈ [',', ']', '\x7d']) (xs : List Char) :
    Closing (c :: xs) := by
  intro d hd
  obtain rfl : c = d := by simpa using hd
  exact hc

theorem skipBlank_of_closing {xs : List Char} (h : Closing xs) : skipBlank xs = xs := by
  cases xs with
  | nil => rfl
  | cons c xs =>
    apply skipBlank_cons
    have hc := h c rfl
    simp only [List.mem_cons, List.not_mem_nil, or_false] at hc
    rcases hc with rfl | rfl | rfl <;> rfl

theorem delimited_append {b xs : List Char} (hb : Blank b) (hx : Closing xs) :
    Delimited (b ++ xs) := by
  intro c hc
  cases b with
  | nil => exact Or.inr (hx c hc)
  | cons d b =>
    obtain rfl : d = c := by simpa using hc
    exact Or.inl (isBlank_of_mem (hb d (by simp)))

/-- A character that goes on with no number. -/
theorem notNumeric_of_delimited {xs : List Char} (h : Delimited xs) :
    ∀ c ∈ xs.head?, c.isDigit = false ∧ c ≠ '.' ∧ c ≠ 'e' ∧ c ≠ 'E' := by
  intro c hc
  have hd := h c hc
  simp only [isBlank, Bool.or_eq_true, beq_iff_eq, List.mem_cons, List.not_mem_nil,
    or_false] at hd
  rcases hd with (((rfl | rfl) | rfl) | rfl) | rfl | rfl | rfl <;> decide

theorem digits?_append {ds xs : List Char} (hd : Digits ds)
    (hx : ∀ c ∈ xs.head?, c.isDigit = false) : digits? (ds ++ xs) = some (ds, xs) := by
  have htake : (ds ++ xs).takeWhile Char.isDigit = ds := Text.takeWhile_run hd.digit hx
  have hdrop : (ds ++ xs).dropWhile Char.isDigit = xs := by
    have hsplit := List.takeWhile_append_dropWhile (p := Char.isDigit) (l := ds ++ xs)
    rw [htake] at hsplit
    exact List.append_cancel_left hsplit
  simp [digits?, htake, hdrop, guard, hd.ne_nil]

theorem fraction?_append {f : Option (List Char)} {ft xs : List Char} (hf : FractionText f ft)
    (hx : ∀ c ∈ xs.head?, c.isDigit = false ∧ c ≠ '.') :
    fraction? (ft ++ xs) = some (f, xs) := by
  cases hf with
  | some hd => simp [fraction?, digits?_append hd fun c hc => (hx c hc).1]
  | none =>
    cases xs with
    | nil => rfl
    | cons c xs =>
      have hc := (hx c rfl).2
      simp [fraction?, hc]

theorem sign_append {negative : Bool} {sign' ds xs : List Char} (hs : SignText negative sign')
    (hd : Digits ds) : sign (sign' ++ (ds ++ xs)) = (negative, ds ++ xs) := by
  cases hs with
  | plus | minus => rfl
  | none =>
    obtain ⟨d, ds', rfl⟩ := List.exists_cons_of_ne_nil hd.ne_nil
    have hdigit := hd.digit d (by simp)
    have hm : d ≠ '-' := by rintro rfl; simp at hdigit
    have hp : d ≠ '+' := by rintro rfl; simp at hdigit
    simp [sign, hm, hp]

theorem exponent?_append {x : Option (Bool × List Char)} {xt xs : List Char}
    (hx : ExponentText x xt)
    (hrest : ∀ c ∈ xs.head?, c.isDigit = false ∧ c ≠ 'e' ∧ c ≠ 'E') :
    exponent? (xt ++ xs) = some (x, xs) := by
  cases hx with
  | some he hs hd =>
    simp [exponent?, he, sign_append hs hd, digits?_append hd fun c hc => (hrest c hc).1]
  | none =>
    cases xs with
    | nil => rfl
    | cons c xs =>
      obtain ⟨-, he, hE⟩ := hrest c rfl
      simp [exponent?, he, hE]

theorem head?_exponent {x : Option (Bool × List Char)} {xt xs : List Char}
    (hx : ExponentText x xt) (hrest : ∀ c ∈ xs.head?, c.isDigit = false ∧ c ≠ '.') :
    ∀ c ∈ (xt ++ xs).head?, c.isDigit = false ∧ c ≠ '.' := by
  cases hx with
  | none => exact hrest
  | @some e _ _ _ he =>
    intro c hc
    obtain rfl : e = c := by simpa using hc
    rcases he with rfl | rfl <;> decide

theorem head?_fraction {f : Option (List Char)} {ft xs : List Char} (hf : FractionText f ft)
    (hrest : ∀ c ∈ xs.head?, c.isDigit = false) : ∀ c ∈ (ft ++ xs).head?, c.isDigit = false := by
  cases hf with
  | none => exact hrest
  | some hd =>
    intro c hc
    obtain rfl : '.' = c := by simpa using hc
    rfl

/-- A number is read to its end, unless what follows goes on with it. -/
theorem number?_append {l : NumberLexeme} {t xs : List Char} (h : NumberText l t)
    (hx : Delimited xs) : number? (t ++ xs) = some (l, xs) := by
  have hend := notNumeric_of_delimited hx
  obtain @⟨negative, ds, f, x, ft, xt, hd, hz, hf, hxt⟩ := h
  have hexp := exponent?_append hxt fun c hc =>
    ⟨(hend c hc).1, (hend c hc).2.2.1, (hend c hc).2.2.2⟩
  have hafter := head?_exponent hxt fun c hc => ⟨(hend c hc).1, (hend c hc).2.1⟩
  have hfrac := fraction?_append hf hafter
  have hwhole : whole? (ds ++ (ft ++ (xt ++ xs))) = some (ds, ft ++ (xt ++ xs)) := by
    have hguard : ds.head? ≠ some '0' ∨ ds.length = 1 := by
      by_cases h0 : ds.head? = some '0'
      · exact Or.inr (by rw [hz h0]; rfl)
      · exact Or.inl h0
    rw [whole?, digits?_append hd (head?_fraction hf fun c hc => (hafter c hc).1)]
    simp [guard, hguard]
  cases negative with
  | true => simp [number?, hwhole, hfrac, hexp]
  | false =>
    obtain ⟨d, ds', rfl⟩ := List.exists_cons_of_ne_nil hd.ne_nil
    have hm : d ≠ '-' := by
      rintro rfl
      simpa using hd.digit '-' (by simp)
    simp only [List.cons_append] at hwhole
    simp [number?, hm, hwhole, hfrac, hexp]

/-- A number begins with a digit or a minus sign. -/
theorem exists_cons_of_numberText {l : NumberLexeme} {t : List Char} (h : NumberText l t) :
    ∃ c cs, t = c :: cs ∧ (c = '-' ∨ c.isDigit = true) := by
  obtain @⟨negative, ds, f, x, ft, xt, hd, hz, hf, hxt⟩ := h
  cases negative with
  | true => exact ⟨'-', _, rfl, Or.inl rfl⟩
  | false =>
    obtain ⟨d, ds', rfl⟩ := List.exists_cons_of_ne_nil hd.ne_nil
    exact ⟨d, _, rfl, Or.inr (hd.digit d (by simp))⟩

theorem ne_of_numeric {c d : Char} (hc : c = '-' ∨ c.isDigit = true)
    (hd : d ≠ '-' ∧ d.isDigit = false) : c ≠ d := by
  rintro rfl
  rcases hc with rfl | hc
  · exact hd.1 rfl
  · simp [hd.2] at hc

theorem isBlank_of_numeric {c : Char} (hc : c = '-' ∨ c.isDigit = true) : isBlank c = false := by
  have hne {d : Char} := ne_of_numeric (d := d) hc
  simp [isBlank, hne (d := ' ') (by decide), hne (d := '\t') (by decide),
    hne (d := '\n') (by decide), hne (d := '\r') (by decide)]

theorem skipWithin_skipBlank (n : Nat) (cs : List Char) :
    skipWithin n (skipBlank cs) = skipWithin n cs := by
  cases n with
  | zero => rfl
  | succ n => simp only [skipWithin, skipBlank_skipBlank]

theorem skipItems_skipBlank (n : Nat) (cs : List Char) :
    skipItems n (skipBlank cs) = skipItems n cs := by
  cases n with
  | zero => rfl
  | succ n => simp only [skipItems, skipWithin_skipBlank]

theorem skipMembers_skipBlank (n : Nat) (cs : List Char) :
    skipMembers n (skipBlank cs) = skipMembers n cs := by
  cases n with
  | zero => rfl
  | succ n => simp only [skipMembers, skipBlank_skipBlank]

theorem skipWithin_number {n : Nat} {c : Char} (hc : c = '-' ∨ c.isDigit = true)
    (cs : List Char) : skipWithin (n + 1) (c :: cs) = (number? (c :: cs)).map Prod.snd := by
  rw [skipWithin, skipBlank_cons (isBlank_of_numeric hc)]
  split
  case h_7 => rfl
  all_goals exact absurd (List.cons.inj ‹_›).1 (ne_of_numeric hc (by decide))

/-- No item begins with a closing bracket. -/
theorem skipItems_bracket (n : Nat) (cs : List Char) : skipItems n (']' :: cs) = none := by
  cases n with
  | zero => rfl
  | succ n =>
    have hnone : skipWithin n (']' :: cs) = none := by cases n <;> rfl
    rw [skipItems, hnone]

theorem skipMembers_bracket (n : Nat) (cs : List Char) : skipMembers n ('\x7d' :: cs) = none := by
  cases n <;> rfl

theorem skipWithin_list {n : Nat} {cs xs : List Char} (h : skipItems n cs = some xs) :
    skipWithin (n + 1) ('[' :: cs) = some xs := by
  simp only [skipWithin, skipBlank_cons (show isBlank '[' = false from rfl)]
  rw [← skipItems_skipBlank] at h
  split
  · rename_i hs
    rw [hs, skipItems_bracket] at h
    cases h
  · exact h

theorem skipWithin_object {n : Nat} {cs xs : List Char} (h : skipMembers n cs = some xs) :
    skipWithin (n + 1) ('\x7b' :: cs) = some xs := by
  simp only [skipWithin, skipBlank_cons (show isBlank '\x7b' = false from rfl)]
  rw [← skipMembers_skipBlank] at h
  split
  · rename_i hs
    rw [hs, skipMembers_bracket] at h
    cases h
  · exact h

/-- What passing over does on the texts of a symbol. Each character pays for two calls. -/
def Skips : Symbol → List Char → Prop
  | .value, t => ∀ n b xs, 2 * t.length ≤ n → Blank b → Delimited xs →
      skipWithin n (b ++ (t ++ xs)) = some xs
  | .element, t => ∀ n xs, 2 * t.length ≤ n → Closing xs →
      ∃ tail, skipWithin n (t ++ xs) = some tail ∧ skipBlank tail = xs
  | .elements, t => ∀ n xs, 2 * t.length < n → skipItems n (t ++ ']' :: xs) = some xs
  | .member, t => ∀ n xs, 2 * t.length ≤ n →
      skipMembers (n + 1) (t ++ ',' :: xs) = skipMembers n xs ∧
        skipMembers (n + 1) (t ++ '\x7d' :: xs) = some xs
  | .members, t => ∀ n xs, 2 * t.length < n → skipMembers n (t ++ '\x7d' :: xs) = some xs

/-- Blanks before a value do not count. -/
theorem skips_value {c : Char} {t : List Char}
    (h : ∀ n xs, 2 * t.length < n → Delimited xs → skipWithin (n + 1) (c :: (t ++ xs)) = some xs) :
    Skips .value (c :: t) := by
  intro n b xs hn hb hx
  rw [List.length_cons] at hn
  obtain ⟨n, rfl⟩ := Nat.exists_eq_succ_of_ne_zero (show n ≠ 0 by omega)
  rw [← skipWithin_skipBlank, skipBlank_append hb, skipWithin_skipBlank]
  exact h n xs (by omega) hx

theorem skips_of_derives {s : Symbol} {t : List Char} (h : Derives s t) : Skips s t := by
  induction h with
  | null =>
    refine skips_value fun n xs hn hx => ?_
    simp [skipWithin, skipBlank_cons, isBlank, word?]
  | boolean b =>
    cases b
    all_goals
      refine skips_value fun n xs hn hx => ?_
      simp [skipWithin, skipBlank_cons, isBlank, word?]
  | number h =>
    obtain ⟨c, cs, rfl, hc⟩ := exists_cons_of_numberText h
    refine skips_value fun n xs hn hx => ?_
    rw [skipWithin_number hc, ← List.cons_append, number?_append h hx]
    rfl
  | string h =>
    refine skips_value fun n xs hn hx => ?_
    simp [skipWithin, skipBlank_cons, isBlank, pieces?_of_literal h]
  | emptyList hb =>
    refine skips_value fun n xs hn hx => ?_
    simp [skipWithin, skipBlank_cons, skipBlank_append hb, isBlank]
  | list h ih =>
    refine skips_value fun n xs hn hx => ?_
    rw [List.length_append] at hn
    rw [List.append_assoc]
    exact skipWithin_list (ih n xs (by omega))
  | emptyObject hb =>
    refine skips_value fun n xs hn hx => ?_
    simp [skipWithin, skipBlank_cons, skipBlank_append hb, isBlank]
  | object h ih =>
    refine skips_value fun n xs hn hx => ?_
    rw [List.length_append] at hn
    rw [List.append_assoc]
    exact skipWithin_object (ih n xs (by omega))
  | @element b v c hb hv hc ih =>
    intro n xs hn hx
    refine ⟨c ++ xs, ?_, ?_⟩
    · simp only [List.length_append] at hn
      rw [List.append_assoc, List.append_assoc]
      exact ih n b (c ++ xs) (by omega) hb (delimited_append hc hx)
    · rw [skipBlank_append hc, skipBlank_of_closing hx]
  | lastElement he ih =>
    intro n xs hn
    obtain ⟨n, rfl⟩ := Nat.exists_eq_succ_of_ne_zero (show n ≠ 0 by omega)
    obtain ⟨tail, hskip, htail⟩ := ih n (']' :: xs) (by omega) (closing_cons (by decide) xs)
    simp [skipItems, hskip, htail]
  | @elements e t he ht ihe iht =>
    intro n xs hn
    obtain ⟨n, rfl⟩ := Nat.exists_eq_succ_of_ne_zero (show n ≠ 0 by omega)
    simp only [List.length_append, List.length_cons] at hn
    obtain ⟨tail, hskip, htail⟩ :=
      ihe n (',' :: (t ++ ']' :: xs)) (by omega) (closing_cons (by decide) _)
    rw [List.append_assoc, List.cons_append]
    simp [skipItems, hskip, htail, iht n xs (by omega)]
  | @member b k c e ps hb hk hc he ih =>
    intro n xs hn
    simp only [List.length_append, List.length_cons] at hn
    obtain ⟨tail, hskip, htail⟩ := ih n (',' :: xs) (by omega) (closing_cons (by decide) _)
    obtain ⟨tail', hskip', htail'⟩ := ih n ('\x7d' :: xs) (by omega) (closing_cons (by decide) _)
    simp only [List.append_assoc, List.cons_append]
    constructor
    · simp [skipMembers, skipBlank_append, skipBlank_cons, isBlank, hb, hc,
        pieces?_of_literal hk, hskip, htail]
    · simp [skipMembers, skipBlank_append, skipBlank_cons, isBlank, hb, hc,
        pieces?_of_literal hk, hskip', htail']
  | lastMember hm ih =>
    intro n xs hn
    obtain ⟨n, rfl⟩ := Nat.exists_eq_succ_of_ne_zero (show n ≠ 0 by omega)
    exact (ih n xs (by omega)).2
  | @members m t hm ht ihm iht =>
    intro n xs hn
    obtain ⟨n, rfl⟩ := Nat.exists_eq_succ_of_ne_zero (show n ≠ 0 by omega)
    simp only [List.length_append, List.length_cons] at hn
    rw [List.append_assoc, List.cons_append]
    exact (ihm n _ (by omega)).1.trans (iht n xs (by omega))

/-- An element of any shape and depth is passed over, up to the blanks that end it. -/
theorem skip?_element {e xs : List Char} (he : Derives .element e) (hx : Closing xs) :
    ∃ tail, skip? (e ++ xs) = some tail ∧ skipBlank tail = xs := by
  have hskips : Skips .element e := skips_of_derives he
  refine hskips _ xs ?_ hx
  rw [List.length_append]
  omega

end TwoStack.Json
