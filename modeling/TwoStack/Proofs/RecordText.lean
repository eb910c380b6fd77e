import TwoStack.Config.Reader
import TwoStack.Proofs.JsonText

/-! Records are read alike from objects, whatever the order of members, and from lists. -/

namespace TwoStack

namespace Json

/-- A value with blanks around it. -/
def Padded (v e : List Char) : Prop := ∃ b c, Blank b ∧ Blank c ∧ e = b ++ (v ++ c)

/-- A member of an object: its key, and the text of its value with the blanks around it. -/
def MemberText (m : String × List Char) (t : List Char) : Prop :=
  ∃ b k c, Blank b ∧ Spells m.1 k ∧ Blank c ∧ t = b ++ '"' :: (k ++ (c ++ ':' :: m.2))

/-- Parts with commas between them. -/
inductive Separated {α : Type} (part : α → List Char → Prop) : List α → List Char → Prop
  | last {a : α} {t : List Char} (h : part a t) : Separated part [a] t
  | cons {a : α} {as : List α} {t ts : List Char} (h : part a t) (hs : Separated part as ts) :
      Separated part (a :: as) (t ++ ',' :: ts)

/-- Parts between brackets. -/
inductive Bracketed {α : Type} (opening closing : Char) (part : α → List Char → Prop) :
    List α → List Char → Prop
  | empty {b : List Char} (hb : Blank b) :
      Bracketed opening closing part [] (opening :: (b ++ [closing]))
  | parts {as : List α} {t : List Char} (h : Separated part as t) :
      Bracketed opening closing part as (opening :: (t ++ [closing]))

/-- An object, with its members in order. -/
def ObjectText : List (String × List Char) → List Char → Prop :=
  Bracketed '\x7b' '\x7d' MemberText

/-- A list, with its values in order. -/
def ListText : List (List Char) → List Char → Prop := Bracketed '[' ']' Padded

theorem exists_cons_of_bracketed {α : Type} {opening closing : Char}
    {part : α → List Char → Prop} {as : List α} {v : List Char}
    (h : Bracketed opening closing part as v) : ∃ cs, v = opening :: cs := by
  cases h with
  | empty => exact ⟨_, rfl⟩
  | parts => exact ⟨_, rfl⟩

theorem padded_skipBlank {c : Char} {v e : List Char} (h : Padded (c :: v) e)
    (hc : isBlank c = false) :
    ∃ b, Blank b ∧ ∀ xs, skipBlank (e ++ xs) = c :: (v ++ (b ++ xs)) := by
  obtain ⟨a, b, ha, hb, rfl⟩ := h
  refine ⟨b, hb, fun xs => ?_⟩
  rw [List.append_assoc, skipBlank_append ha, List.append_assoc, List.cons_append,
    skipBlank_cons hc]

end Json

namespace Config.Reader

open Json

variable {α δ : Type} {fields : List (Field δ)} {d d' : δ}

/-- `r` reads `e` as `a`, up to blanks at its end, wherever a value may end. -/
def Reads (r : Reader α) (e : List Char) (a : α) : Prop :=
  ∀ xs, Closing xs → ∃ tail, r (e ++ xs) = .ok (a, tail) ∧ skipBlank tail = xs

theorem punctuation_of_skipBlank {c : Char} {cs xs : List Char} (h : skipBlank cs = c :: xs) :
    punctuation c cs = .ok xs := by
  simp [punctuation, h, word?, found]

/-- A reader that goes through where another does reads the same texts. -/
theorem reads_of_reads {β : Type} {r : Reader α} {r' : Reader β} {e : List Char} {a : α} {b : β}
    (h : Reads r e a) (hr : ∀ cs tail, r cs = .ok (a, tail) → r' cs = .ok (b, tail)) :
    Reads r' e b := by
  intro xs hx
  obtain ⟨tail, hread, htail⟩ := h xs hx
  exact ⟨tail, hr _ _ hread, htail⟩

/-- It is enough to say what becomes of the text from the value on. -/
theorem reads_of_padded {r : Reader α} {c : Char} {v e : List Char} {a : α}
    (hc : isBlank c = false) (hp : Padded (c :: v) e)
    (h : ∀ cs rest, Delimited rest → skipBlank cs = c :: (v ++ rest) → r cs = .ok (a, rest)) :
    Reads r e a := by
  intro xs hx
  obtain ⟨b, hb, he⟩ := padded_skipBlank hp hc
  refine ⟨b ++ xs, h _ _ (delimited_append hb hx) (he xs), ?_⟩
  rw [skipBlank_append hb, skipBlank_of_closing hx]

theorem le_ofDigitChars (ds : List Char) (v : Nat) : v ≤ Nat.ofDigitChars 10 ds v := by
  induction ds generalizing v with
  | nil => simp
  | cons d ds ih =>
    have hle := ih (10 * v + (d.toNat - '0'.toNat))
    rw [Nat.ofDigitChars_cons]
    omega

theorem accumulate_eq {ds : List Char} {v : Nat}
    (h : Nat.ofDigitChars 10 ds v < UInt64.size) :
    accumulate v ds = (Nat.ofDigitChars 10 ds v, []) := by
  induction ds generalizing v with
  | nil => rfl
  | cons d ds ih =>
    rw [Nat.ofDigitChars_cons] at h ⊢
    have hle := le_ofDigitChars ds (10 * v + (d.toNat - '0'.toNat))
    rw [accumulate, Nat.mul_comm v 10, if_pos (Nat.lt_of_le_of_lt hle h)]
    exact ih h

/-- Digits are read to their end only if their value fits. -/
theorem ofDigitChars_lt_of_accumulate {ds : List Char} {v : Nat} (hv : v < UInt64.size)
    (h : (accumulate v ds).2 = []) : Nat.ofDigitChars 10 ds v < UInt64.size := by
  induction ds generalizing v with
  | nil => simpa using hv
  | cons d ds ih =>
    rw [accumulate, Nat.mul_comm v 10] at h
    rw [Nat.ofDigitChars_cons]
    by_cases hnext : 10 * v + (d.toNat - '0'.toNat) < UInt64.size
    · rw [if_pos hnext] at h
      exact ih hnext h
    · rw [if_neg hnext] at h
      cases h

/-- A literal of digits alone with a value that fits into 64 bits. -/
structure IsCount (l : NumberLexeme) : Prop where
  negative : l.negative = false
  fraction : l.fraction = none
  exponent : l.exponent = none
  fits : Nat.ofDigitChars 10 l.whole 0 < UInt64.size

theorem value?_of_isCount {l : NumberLexeme} (h : IsCount l) :
    l.value? = some (.natural (Nat.ofDigitChars 10 l.whole 0)) := by
  simp [NumberLexeme.value?, accumulate_eq h.fits, h.negative, h.fraction, h.exponent]

/-- No other literal is a natural number, and the negative of one is not zero. -/
theorem value?_of_not_isCount {l : NumberLexeme} (h : ¬ IsCount l) :
    l.value? = none ∨ (∃ n, 0 < n ∧ l.value? = some (.negated n)) ∨
      ∃ x, l.value? = some (.real x) := by
  rcases hacc : accumulate 0 l.whole with ⟨v, excess⟩
  simp only [NumberLexeme.value?, hacc]
  by_cases hdigits : (l.fraction.isNone && l.exponent.isNone && excess.isEmpty) = true
  · rw [if_pos hdigits]
    obtain ⟨⟨hf, hx⟩, rfl⟩ : (l.fraction = none ∧ l.exponent = none) ∧ excess = [] := by
      simpa using hdigits
    have hfits : Nat.ofDigitChars 10 l.whole 0 < UInt64.size :=
      ofDigitChars_lt_of_accumulate (by decide) (by rw [hacc])
    have hneg : l.negative = true := by
      rw [← Bool.not_eq_false]
      intro hneg
      exact h ⟨hneg, hf, hx, hfits⟩
    by_cases hv : 0 < v ∧ v ≤ 0x8000000000000000
    · exact Or.inr (Or.inl ⟨v, hv.1, by simp [hneg, hv]⟩)
    · exact Or.inr (Or.inr ⟨-(UInt64.ofNat v).toFloat, by simp [hneg, hv]⟩)
  · rw [if_neg hdigits]
    cases l.magnitude? with
    | none => exact Or.inl rfl
    | some x => exact Or.inr (Or.inr ⟨_, rfl⟩)

/-- Only zero is written with a zero in front. -/
theorem toDigits_eq_of_head? {n : Nat} (h : (Nat.toDigits 10 n).head? = some '0') :
    Nat.toDigits 10 n = ['0'] := by
  induction n using Nat.strongRecOn with
  | ind n ih =>
    rw [Nat.toDigits_eq_if (by decide)] at h ⊢
    by_cases hn : n < 10
    · simp only [hn, ↓reduceIte, List.head?_cons, Option.some.injEq] at h ⊢
      rw [h]
    · obtain ⟨d, ds, hd⟩ := List.exists_cons_of_ne_nil (Nat.toDigits_ne_nil (n := n / 10) (b := 10))
      have hzero := ih (n / 10) (by omega) (by simpa [hn, hd] using h)
      have hvalue := congrArg (Nat.ofDigitChars 10 · 0) hzero
      simp only [Nat.ofDigitChars_ten_toDigits] at hvalue
      have : n / 10 = 0 := hvalue
      omega

theorem numberText_decimal (n : Nat) :
    NumberText ⟨false, Nat.toDigits 10 n, none, none⟩ (Text.decimal n).toList := by
  have hdigits : Digits (Nat.toDigits 10 n) :=
    ⟨Nat.toDigits_ne_nil, by simpa using Text.all_isDigit_decimal n⟩
  have h : NumberText ⟨false, Nat.toDigits 10 n, none, none⟩ _ :=
    .mk hdigits toDigits_eq_of_head? .none .none
  simpa [Text.decimal] using h

theorem kind_numeric {c : Char} (hc : c = '-' ∨ c.isDigit = true) (cs : List Char) :
    kind (c :: cs) = (number (c :: cs)).map (Prod.map foundNumber id) := by
  unfold kind
  split
  case h_7 => cases number (c :: cs) <;> rfl
  all_goals exact absurd (List.cons.inj ‹_›).1 (ne_of_numeric hc (by decide))

/-- A number is of the kind that its value says, and malformed if it has none. -/
theorem kind_numberText {l : NumberLexeme} {t rest : List Char} (ht : NumberText l t)
    (hx : Delimited rest) :
    kind (t ++ rest) = (found l.value?).map fun x => (foundNumber x, rest) := by
  have hread := number?_append ht hx
  obtain ⟨c, v, rfl, hc⟩ := exists_cons_of_numberText ht
  rw [List.cons_append] at hread ⊢
  rw [kind_numeric hc, number, hread]
  cases hv : l.value? <;> simp [found, hv, Except.map, bind, Except.bind, pure, Except.pure]

theorem reads_number {l : NumberLexeme} {t e : List Char} (ht : NumberText l t) (hl : IsCount l)
    (hp : Padded t e) : Reads count e (Nat.ofDigitChars 10 l.whole 0) := by
  obtain ⟨c, v, hcons, hc⟩ := exists_cons_of_numberText ht
  rw [hcons] at hp
  refine reads_of_padded (isBlank_of_numeric hc) hp fun cs rest hrest hcs => ?_
  have hkind := kind_numberText ht hrest
  rw [value?_of_isCount hl, hcons, List.cons_append, ← hcs] at hkind
  simp only [count, hkind, found, Except.map, foundNumber, bind, Except.bind, pure, Except.pure]

theorem reads_count {n : Nat} {e : List Char} (hn : n < UInt64.size)
    (hp : Padded (Text.decimal n).toList e) : Reads count e n := by
  have hvalue : Nat.ofDigitChars 10 (Nat.toDigits 10 n) 0 = n := Nat.ofDigitChars_ten_toDigits
  have hreads := reads_number (numberText_decimal n) ⟨rfl, rfl, rfl, by rwa [hvalue]⟩ hp
  rwa [hvalue] at hreads

theorem reads_boolean {b : Bool} {e : List Char} (hp : Padded (booleanText b) e) :
    Reads boolean e b := by
  cases b with
  | true =>
    refine reads_of_padded rfl hp fun cs rest _ hcs => ?_
    simp [boolean, hcs, kind, word?, found, bind, Except.bind, pure, Except.pure]
  | false =>
    refine reads_of_padded rfl hp fun cs rest _ hcs => ?_
    simp [boolean, hcs, kind, word?, found, bind, Except.bind, pure, Except.pure]

/-- What a member makes of a record under construction. -/
inductive Takes (fields : List (Field δ)) (d : δ) : String × List Char → δ → Prop
  | skip {key : String} {e : List Char} (hk : fields.find? (fun f => f.name == key) = none)
      (he : Derives .element e) : Takes fields d (key, e) d
  | read {key : String} {e : List Char} {f : Field δ} {d' : δ}
      (hk : fields.find? (fun f => f.name == key) = some f) (hp : f.present d = false)
      (hr : Reads (f.read d) e d') : Takes fields d (key, e) d'

/-- What members make of a record, one after another. -/
inductive Fills (fields : List (Field δ)) : δ → List (String × List Char) → δ → Prop
  | nil {d : δ} : Fills fields d [] d
  | cons {d d' d'' : δ} {m : String × List Char} {ms : List (String × List Char)}
      (hm : Takes fields d m d') (hs : Fills fields d' ms d'') : Fills fields d (m :: ms) d''

theorem members_skipBlank (n : Nat) (first : Bool) (cs : List Char) :
    members fields n first d (skipBlank cs) = members fields n first d cs := by
  cases n with
  | zero => rfl
  | succ n => simp only [members, skipBlank_skipBlank]

theorem members_close {n : Nat} {first : Bool} {cs xs : List Char}
    (h : skipBlank cs = '\x7d' :: xs) : members fields (n + 1) first d cs = .ok (d, xs) := by
  simp only [members, h]

/-- The comma before all members but the first. -/
def comma (first : Bool) : List Char := if first then [] else [',']

theorem string_of_skipBlank {cs u rest : List Char} {s : String} (h : skipBlank cs = '"' :: u)
    (hu : string? u = some (s, rest)) : string cs = .ok (s, rest) := by
  simp only [string, punctuation_of_skipBlank h, bind, Except.bind, hu, found]

theorem skipBlank_member {m : String × List Char} {t : List Char} (ht : MemberText m t)
    (xs : List Char) :
    ∃ u rest, skipBlank (t ++ xs) = '"' :: u ∧ string? u = some (m.1, rest) ∧
      skipBlank rest = ':' :: (m.2 ++ xs) := by
  obtain ⟨b, k, c, hb, hk, hc, rfl⟩ := ht
  refine ⟨k ++ (c ++ ':' :: (m.2 ++ xs)), _, ?_, string?_of_spells hk _, ?_⟩
  · rw [List.append_assoc, skipBlank_append hb, List.cons_append, skipBlank_cons rfl]
    simp
  · rw [skipBlank_append hc, skipBlank_cons rfl]

/-- Up to the key a member is read alike whether a comma stands before it or not. -/
theorem members_key {cs u rest : List Char} {key : String} (hu : skipBlank cs = '"' :: u)
    (hk : string? u = some (key, rest)) (n : Nat) (first : Bool) :
    members fields (n + 1) first d (comma first ++ cs) =
      members fields (n + 1) true d ('"' :: u) := by
  have hq : skipBlank ('"' :: u) = '"' :: u := skipBlank_cons rfl u
  cases first with
  | true => rw [← hu, members_skipBlank]; rfl
  | false =>
    have hc : skipBlank (',' :: cs) = ',' :: cs := skipBlank_cons rfl cs
    have hs := string_of_skipBlank hu hk
    have hs' := string_of_skipBlank hq hk
    simp [comma, members, hq, hc, punctuation_of_skipBlank hc, hs, hs', bind, Except.bind, pure,
      Except.pure]

/-- One member is read or passed over, and reading goes on where it ends. -/
theorem members_member {m : String × List Char} {t xs : List Char} (ht : MemberText m t)
    (hm : Takes fields d m d') (hx : Closing xs) (n : Nat) (first : Bool) :
    members fields (n + 1) first d (comma first ++ (t ++ xs)) = members fields n false d' xs := by
  obtain ⟨u, rest, hu, hs, hr⟩ := skipBlank_member ht xs
  have hq : skipBlank ('"' :: u) = '"' :: u := skipBlank_cons rfl u
  rw [members_key hu hs]
  have hstr := string_of_skipBlank hq hs
  cases hm with
  | skip hk he =>
    obtain ⟨tail, hskip, htail⟩ := skip?_element he hx
    rw [← htail, members_skipBlank]
    simp [members, hq, hstr, hk, punctuation_of_skipBlank hr, hskip, found, bind, Except.bind,
      pure, Except.pure]
  | read hk hp hread =>
    obtain ⟨tail, hreads, htail⟩ := hread xs hx
    rw [← htail, members_skipBlank]
    simp [members, hq, hstr, hk, hp, punctuation_of_skipBlank hr, hreads, bind, Except.bind,
      pure, Except.pure]

/-- The fuel of `members` counts the members and the closing brace. -/
theorem members_separated {ms : List (String × List Char)} {t : List Char}
    (ht : Separated MemberText ms t) (hm : Fills fields d ms d') (xs : List Char) {n : Nat}
    (hn : ms.length < n) (first : Bool) :
    members fields n first d (comma first ++ (t ++ '\x7d' :: xs)) = .ok (d', xs) := by
  induction ht generalizing d n first with
  | last ht =>
    obtain ⟨n, rfl⟩ : ∃ k, n = k + 2 := ⟨n - 2, by simp at hn; omega⟩
    cases hm with
    | cons hm hs =>
      cases hs
      rw [members_member ht hm (closing_cons (c := '\x7d') (by decide) xs)]
      exact members_close (skipBlank_cons rfl xs)
  | cons ht _ ih =>
    obtain ⟨n, rfl⟩ : ∃ k, n = k + 1 := ⟨n - 1, by omega⟩
    cases hm with
    | cons hm hs =>
      rw [List.append_assoc, List.cons_append,
        members_member ht hm (closing_cons (c := ',') (by decide) _)]
      exact ih hs (by simpa using hn) false

theorem length_le_of_separated {part : α → List Char → Prop} {as : List α} {t : List Char}
    (h : Separated part as t) : as.length ≤ t.length + 1 := by
  induction h with
  | last => simp
  | cons _ _ ih => simp; omega

theorem record_object {cs rest : List Char} (h : skipBlank cs = '\x7b' :: rest) (title : String) :
    record title fields d cs = members fields (rest.length + 1) true d rest := by
  simp only [record, h]

theorem reads_object {ms : List (String × List Char)} {v e : List Char} (h : ObjectText ms v)
    (hm : Fills fields d ms d') (hp : Padded v e) (title : String) :
    Reads (record title fields d) e d' := by
  cases h with
  | empty hb =>
    cases hm
    refine reads_of_padded rfl hp fun cs rest _ hcs => ?_
    rw [record_object hcs, List.append_assoc]
    exact members_close ((skipBlank_append hb _).trans (skipBlank_cons rfl rest))
  | parts ht =>
    have hlength := length_le_of_separated ht
    refine reads_of_padded rfl hp fun cs rest _ hcs => ?_
    rw [record_object hcs, List.append_assoc]
    exact members_separated ht hm rest (by simp; omega) true

/-- A text that a list may begin with: no blank and not the end of the list. -/
def Opens (v : List Char) : Prop := ∃ c cs, v = c :: cs ∧ isBlank c = false ∧ c ≠ ']'

/-- What the values of a list make of a record, each being read as the next field. -/
inductive FillsInOrder : List (Field δ) → δ → List (List Char) → δ → Prop
  | nil {fields : List (Field δ)} {d : δ} : FillsInOrder fields d [] d
  | cons {f : Field δ} {fields : List (Field δ)} {d d' d'' : δ} {v : List Char}
      {vs : List (List Char)} (hv : Opens v) (hr : ∀ e, Padded v e → Reads (f.read d) e d')
      (hs : FillsInOrder fields d' vs d'') : FillsInOrder (f :: fields) d (v :: vs) d''

theorem elements_skipBlank (first : Bool) (cs : List Char) :
    elements first d fields (skipBlank cs) = elements first d fields cs := by
  cases fields with
  | nil => simp only [elements, punctuation, skipBlank_skipBlank]
  | cons f fields => simp only [elements, skipBlank_skipBlank]

theorem elements_close {first : Bool} {cs xs : List Char} (h : skipBlank cs = ']' :: xs) :
    elements first d fields cs = .ok (d, xs) := by
  cases fields with
  | nil => simp only [elements, punctuation_of_skipBlank h, bind, Except.bind, pure, Except.pure]
  | cons f fields => simp only [elements, h]

theorem elements_value {f : Field δ} {v e xs : List Char} (hv : Opens v) (hp : Padded v e)
    (hr : ∀ e, Padded v e → Reads (f.read d) e d') (hx : Closing xs) (first : Bool) :
    elements first d (f :: fields) (comma first ++ (e ++ xs)) = elements false d' fields xs := by
  cases first with
  | false =>
    obtain ⟨tail, hread, htail⟩ := hr e hp xs hx
    have hc : skipBlank (',' :: (e ++ xs)) = ',' :: (e ++ xs) := skipBlank_cons rfl _
    have hnext : elements false d' fields xs = elements false d' fields tail := by
      rw [← htail, elements_skipBlank]
    rw [hnext]
    simp [comma, elements, hc, punctuation_of_skipBlank hc, hread, bind, Except.bind]
  | true =>
    obtain ⟨c, cs, rfl, hblank, hne⟩ := hv
    obtain ⟨b, hb, hskip⟩ := padded_skipBlank hp hblank
    obtain ⟨tail, hread, htail⟩ := hr (c :: cs ++ b) ⟨[], b, by simp [Blank], hb, rfl⟩ xs hx
    have hnext : elements false d' fields xs = elements false d' fields tail := by
      rw [← htail, elements_skipBlank]
    rw [hnext]
    simp only [comma, ↓reduceIte, List.nil_append, elements, hskip xs]
    split
    · next heq => exact absurd (List.cons.inj heq).1 hne
    · simp_all [bind, Except.bind, pure, Except.pure]

theorem elements_separated {vs : List (List Char)} {t : List Char} (ht : Separated Padded vs t)
    (hv : FillsInOrder fields d vs d') (xs : List Char) (first : Bool) :
    elements first d fields (comma first ++ (t ++ ']' :: xs)) = .ok (d', xs) := by
  induction ht generalizing fields d first with
  | last ht =>
    cases hv with
    | cons hv hr hs =>
      cases hs
      rw [elements_value hv ht hr (closing_cons (c := ']') (by decide) xs)]
      exact elements_close (skipBlank_cons rfl xs)
  | cons ht _ ih =>
    cases hv with
    | cons hv hr hs =>
      rw [List.append_assoc, List.cons_append,
        elements_value hv ht hr (closing_cons (c := ',') (by decide) _)]
      exact ih hs false

theorem record_list {cs rest : List Char} (h : skipBlank cs = '[' :: rest) (title : String) :
    record title fields d cs = elements true d fields rest := by
  simp only [record, h]

theorem reads_list {vs : List (List Char)} {v e : List Char} (h : ListText vs v)
    (hv : FillsInOrder fields d vs d') (hp : Padded v e) (title : String) :
    Reads (record title fields d) e d' := by
  cases h with
  | empty hb =>
    cases hv
    refine reads_of_padded rfl hp fun cs rest _ hcs => ?_
    rw [record_list hcs, List.append_assoc]
    exact elements_close ((skipBlank_append hb _).trans (skipBlank_cons rfl rest))
  | parts ht =>
    refine reads_of_padded rfl hp fun cs rest _ hcs => ?_
    rw [record_list hcs, List.append_assoc]
    exact elements_separated ht hv rest true

end Config.Reader

end TwoStack
