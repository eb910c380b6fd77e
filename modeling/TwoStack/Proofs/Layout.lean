import TwoStack.Proofs.ItemText

/-! Text that was put together can be taken apart again, by kinds of characters or by width. -/

namespace TwoStack.Text

section Runs

variable {α : Type} {f : α → Bool} {as bs xs ys : List α}

theorem takeWhile_run (ha : ∀ a ∈ as, f a = true) (hx : ∀ a ∈ xs.head?, f a = false) :
    (as ++ xs).takeWhile f = as := by
  rw [List.takeWhile_append_of_pos ha]
  cases xs with
  | nil => simp
  | cons x xs => simp [hx x rfl]

/-- Two runs of one kind are told apart, whatever follows them. -/
theorem append_inj_of_run (f : α → Bool) (ha : ∀ a ∈ as, f a = true) (hb : ∀ b ∈ bs, f b = true)
    (hx : ∀ a ∈ xs.head?, f a = false) (hy : ∀ a ∈ ys.head?, f a = false)
    (h : as ++ xs = bs ++ ys) : as = bs ∧ xs = ys := by
  have hab : as = bs := by rw [← takeWhile_run ha hx, h, takeWhile_run hb hy]
  subst hab
  exact ⟨rfl, List.append_cancel_left h⟩

end Runs

/-- A number is told from what follows it, unless that begins with a digit. -/
theorem decimal_append_inj {n k : Nat} {xs ys : List Char}
    (hx : ∀ c ∈ xs.head?, c.isDigit = false) (hy : ∀ c ∈ ys.head?, c.isDigit = false)
    (h : (decimal n).toList ++ xs = (decimal k).toList ++ ys) : n = k ∧ xs = ys := by
  have hdigits (n : Nat) : ∀ c ∈ (decimal n).toList, c.isDigit = true := by
    simpa [decimal] using all_isDigit_decimal n
  obtain ⟨hd, hrest⟩ := append_inj_of_run Char.isDigit (hdigits n) (hdigits k) hx hy h
  refine ⟨?_, hrest⟩
  rw [decimal, decimal, String.toList_ofList, String.toList_ofList] at hd
  rw [← Nat.ofDigitChars_ten_toDigits (n := n), hd, Nat.ofDigitChars_ten_toDigits]

theorem toList_lines_cons (l : String) (ls : List String) :
    (lines (l :: ls)).toList = l.toList ++ '\n' :: (lines ls).toList := by
  simp [lines, String.toList_join]

/-- Lines that hold no newline can be told apart. -/
theorem lines_injective {as bs : List String} (ha : ∀ a ∈ as, '\n' ∉ a.toList)
    (hb : ∀ b ∈ bs, '\n' ∉ b.toList) (h : lines as = lines bs) : as = bs := by
  induction as generalizing bs with
  | nil =>
    cases bs with
    | nil => rfl
    | cons b bs => simpa [lines, String.toList_join] using congrArg String.toList h
  | cons a as ih =>
    cases bs with
    | nil => simpa [lines, String.toList_join] using congrArg String.toList h
    | cons b bs =>
      have hline {l : String} (hl : '\n' ∉ l.toList) : ∀ c ∈ l.toList, (c != '\n') = true := by
        intro c hc
        rw [bne_iff_ne]
        rintro rfl
        exact hl hc
      have htext := congrArg String.toList h
      rw [toList_lines_cons, toList_lines_cons] at htext
      obtain ⟨hab, hrest⟩ := append_inj_of_run (· != '\n') (hline (ha a (by simp)))
        (hline (hb b (by simp))) (by simp) (by simp) htext
      obtain rfl := String.toList_inj.1 hab
      have htail : lines as = lines bs := String.toList_inj.1 (List.cons.inj hrest).2
      rw [ih (fun c hc => ha c (by simp [hc])) (fun c hc => hb c (by simp [hc])) htail]

theorem toList_hexByte (b : UInt8) :
    (hexByte b).toList = [Nat.digitChar (b.toNat / 16), Nat.digitChar (b.toNat % 16)] := by
  rw [hexByte_eq, String.toList_ofList]

theorem toList_hex (bs : List UInt8) :
    (hex bs).toList = bs.flatMap fun b => (hexByte b).toList := by
  simp [hex, String.toList_join, List.flatMap_map]

/-- Every byte has two digits, so nothing is needed between them. -/
theorem hex_injective {as bs : List UInt8} (h : (hex as).toList = (hex bs).toList) : as = bs := by
  rw [toList_hex, toList_hex] at h
  induction as generalizing bs with
  | nil =>
    cases bs with
    | nil => rfl
    | cons b bs => simp [toList_hexByte] at h
  | cons a as ih =>
    cases bs with
    | nil => simp [toList_hexByte] at h
    | cons b bs =>
      rw [List.flatMap_cons, List.flatMap_cons] at h
      obtain ⟨hab, hrest⟩ := List.append_inj h (by rw [toList_hexByte, toList_hexByte]; rfl)
      rw [hexByte_injective (String.toList_inj.1 hab), ih hrest]

/-- The digits of a byte are none of the characters that stand between columns. -/
theorem hexDigit_of_mem_hexByte {b : UInt8} {c : Char} (h : c ∈ (hexByte b).toList) :
    c ∈ "0123456789abcdef".toList := by
  have hdigit : ∀ d < 16, Nat.digitChar d ∈ "0123456789abcdef".toList := by decide
  have hb := b.toNat_lt
  rw [toList_hexByte, List.mem_cons, List.mem_singleton] at h
  rcases h with rfl | rfl
  · exact hdigit _ (by omega)
  · exact hdigit _ (by omega)

end TwoStack.Text
