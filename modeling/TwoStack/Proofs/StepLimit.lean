import TwoStack.Proofs.ConfigText

/-! The step limit of a configuration is read exactly or refused, never rounded or wrapped. -/

namespace TwoStack.Config

open Json

namespace Reader

variable {α β δ : Type} {fields : List (Field δ)} {d : δ} {f : Field δ}

/-- `r` finds a problem in `e`, wherever a value may end. -/
def Refuses (r : Reader α) (e : List Char) : Prop :=
  ∀ xs, Closing xs → ∃ p, r (e ++ xs) = .error p

/-- A reader that fails where another does refuses the same texts. -/
theorem refuses_of_refuses {r : Reader α} {r' : Reader β} {e : List Char} (h : Refuses r e)
    (hr : ∀ cs p, r cs = .error p → r' cs = .error p) : Refuses r' e := by
  intro xs hx
  obtain ⟨p, hp⟩ := h xs hx
  exact ⟨p, hr _ p hp⟩

/-- A number that is no count is refused, be it malformed, negative or a real. -/
theorem refuses_number {l : NumberLexeme} {t e : List Char} (ht : NumberText l t)
    (hl : ¬ IsCount l) (hp : Padded t e) : Refuses count e := by
  intro xs hx
  obtain ⟨c, v, hcons, hc⟩ := exists_cons_of_numberText ht
  rw [hcons] at hp
  obtain ⟨b, hb, he⟩ := padded_skipBlank hp (isBlank_of_numeric hc)
  have hkind := kind_numberText ht (delimited_append hb hx)
  rw [hcons, List.cons_append, ← he xs] at hkind
  rcases value?_of_not_isCount hl with hv | ⟨n, hn, hv⟩ | ⟨x, hv⟩
  · rw [hv] at hkind
    exact ⟨.malformed, by rw [count, hkind]; rfl⟩
  · obtain ⟨k, rfl⟩ := Nat.exists_eq_succ_of_ne_zero (Nat.ne_of_gt hn)
    rw [hv] at hkind
    exact ⟨.invalidValue (.integer (.negSucc k)) "u64", by rw [count, hkind]; rfl⟩
  · rw [hv] at hkind
    exact ⟨.invalidType (.real x) "u64", by rw [count, hkind]; rfl⟩

/-- A member whose value is refused is not passed. -/
theorem members_refused {m : String × List Char} {t xs : List Char} {p : Problem}
    (ht : MemberText m t) (hk : fields.find? (fun f => f.name == m.1) = some f)
    (hf : f.present d = false) (hr : f.read d (m.2 ++ xs) = .error p) (n : Nat) :
    members fields (n + 1) true d (t ++ xs) = .error p := by
  obtain ⟨u, rest, hu, hs, hrest⟩ := skipBlank_member ht xs
  have hq : skipBlank ('"' :: u) = '"' :: u := skipBlank_cons rfl u
  have hstr := string_of_skipBlank hq hs
  rw [← members_skipBlank, hu]
  simp [members, hq, hstr, hk, hf, punctuation_of_skipBlank hrest, hr, bind, Except.bind, pure,
    Except.pure]

/-- The first of several parts ends at a comma or at the closing brace. -/
theorem first_of_separated {part : α → List Char → Prop} {a : α} {as : List α} {t : List Char}
    (h : Separated part (a :: as) t) :
    ∃ u xs, t = u ++ xs ∧ part a u ∧ ∀ ys, Closing (xs ++ '\x7d' :: ys) := by
  cases h with
  | last ht => exact ⟨t, [], by simp, ht, fun ys => closing_cons (by decide) ys⟩
  | cons ht hs => exact ⟨_, _, rfl, ht, fun ys => closing_cons (by decide) _⟩

/-- An object is refused if the value of its first member is. -/
theorem refuses_object {m : String × List Char} {ms : List (String × List Char)}
    {v e : List Char} (h : ObjectText (m :: ms) v)
    (hk : fields.find? (fun f => f.name == m.1) = some f) (hf : f.present d = false)
    (hr : Refuses (f.read d) m.2) (hp : Padded v e) (title : String) :
    Refuses (record title fields d) e := by
  cases h with
  | parts ht =>
    obtain ⟨u, xs, rfl, hm, hx⟩ := first_of_separated ht
    intro ys _
    obtain ⟨b, -, he⟩ := padded_skipBlank hp rfl
    obtain ⟨p, hread⟩ := hr _ (hx (b ++ ys))
    have hrest : u ++ xs ++ ['\x7d'] ++ (b ++ ys) = u ++ (xs ++ '\x7d' :: (b ++ ys)) := by simp
    refine ⟨p, ?_⟩
    rw [record_object (he ys), hrest]
    exact members_refused hm hk hf hread _

end Reader

open Reader

/-- An object with one member, without blanks. -/
def single (key : String) (v : List Char) : List Char :=
  '\x7b' :: ('"' :: (key.toList.flatMap Document.escape ++ ['"'] ++ ':' :: v) ++ ['\x7d'])

theorem objectText_single (key : String) (v : List Char) :
    ObjectText [(key, v)] (single key v) := by
  have hnone : Blank [] := by simp [Blank]
  exact .parts (.last ⟨[], _, [], hnone, Document.spells_escape key, hnone, rfl⟩)

theorem padded_self (v : List Char) : Padded v v := by
  have hnone : Blank [] := by simp [Blank]
  exact ⟨[], [], hnone, hnone, by simp⟩

theorem toList_stepLimit (t : List Char) :
    ("\x7b\"general\":\x7b\"max_steps\":" ++ String.ofList t ++ "\x7d\x7d").toList =
      single "general" (single "max_steps" t) := by
  simp [single, Document.escape]

theorem parse_of_reads {text : String} {r : Option Draft} (h : Reads root text.toList r) :
    parse text = .ok (r.getD {}).complete := by
  simp [parse, whole_of_reads h, bind, Except.bind, pure, Except.pure]

theorem parse_of_refuses {text : String} (h : Refuses root text.toList) :
    ∃ p, parse text = .error p := by
  obtain ⟨p, hp⟩ := h [] (by simp [Closing])
  rw [List.append_nil] at hp
  exact ⟨p, by simp [parse, whole, hp, bind, Except.bind]⟩

/-- A count as the step limit is read, and all else takes its default. -/
theorem reads_stepLimit {t : List Char} {n : Nat} (h : Reads count t n) :
    Reads root (single "general" (single "max_steps" t)) (some { maxSteps := some n }) := by
  have hfield : Reads ((draftFields.get ⟨0, by decide⟩).read {}) t { maxSteps := some n } := by
    refine reads_of_reads h fun cs tail hr => ?_
    simp [draftFields, hr, bind, Except.bind, pure, Except.pure]
  have hdraft : Reads draft (single "max_steps" t) { maxSteps := some n } :=
    reads_object (objectText_single _ t) (.cons (.read rfl rfl hfield) .nil) (padded_self _) _
  exact reads_object (objectText_single _ _) (.cons (.read rfl rfl (reads_general hdraft)) .nil)
    (padded_self _) _

/-- What is no count is refused as the step limit, and with it the whole text. -/
theorem refuses_stepLimit {t : List Char} (h : Refuses count t) :
    Refuses root (single "general" (single "max_steps" t)) := by
  have hfield : Refuses ((draftFields.get ⟨0, by decide⟩).read {}) t := by
    refine refuses_of_refuses h fun cs p hr => ?_
    simp [draftFields, hr, bind, Except.bind]
  have hdraft : Refuses draft (single "max_steps" t) :=
    refuses_object (objectText_single _ t) rfl rfl hfield (padded_self _) _
  have hgeneral : Refuses ((rootFields.get ⟨0, by decide⟩).read none) (single "max_steps" t) := by
    refine refuses_of_refuses hdraft fun cs p hr => ?_
    simp [rootFields, hr, bind, Except.bind]
  exact refuses_object (objectText_single _ _) rfl rfl hgeneral (padded_self _) _

/-- A number given as the step limit is read exactly or refused. It is read if and only if it has no
minus sign, no fraction and no exponent and its value is below 2^64; then that value is the limit
and the other settings have their defaults. Every other number makes the text invalid. -/
theorem step_limit_exact_or_refused {l : NumberLexeme} {t : List Char} (h : NumberText l t) :
    let text := "\x7b\"general\":\x7b\"max_steps\":" ++ String.ofList t ++ "\x7d\x7d"
    (∀ c, parse text = .ok c ↔ IsCount l ∧ c = { maxSteps := Nat.ofDigitChars 10 l.whole 0 }) ∧
      (¬ IsCount l → ∃ p, parse text = .error p) := by
  intro text
  have htext : text.toList = _ := toList_stepLimit t
  have hread (hl : IsCount l) :
      parse text = .ok { maxSteps := Nat.ofDigitChars 10 l.whole 0 } := by
    have hroot := reads_stepLimit (reads_number h hl (padded_self t))
    rw [← htext] at hroot
    exact parse_of_reads hroot
  have hrefuse (hl : ¬ IsCount l) : ∃ p, parse text = .error p := by
    have hroot := refuses_stepLimit (refuses_number h hl (padded_self t))
    rw [← htext] at hroot
    exact parse_of_refuses hroot
  refine ⟨fun c => ⟨fun hc => ?_, ?_⟩, hrefuse⟩
  · by_cases hl : IsCount l
    · rw [hread hl] at hc
      exact ⟨hl, (Except.ok.inj hc).symm⟩
    · obtain ⟨p, hp⟩ := hrefuse hl
      rw [hp] at hc
      cases hc
  · rintro ⟨hl, rfl⟩
    exact hread hl

/-- The greatest limit, the number after it, and a whole number written with a fraction. -/
theorem step_limit_exact_or_refused_boundary :
    parse "\x7b\"general\":\x7b\"max_steps\":18446744073709551615\x7d\x7d" =
        .ok { maxSteps := 18446744073709551615 } ∧
      (∃ p, parse "\x7b\"general\":\x7b\"max_steps\":18446744073709551616\x7d\x7d" = .error p) ∧
      ∃ p, parse "\x7b\"general\":\x7b\"max_steps\":5.0\x7d\x7d" = .error p := by
  have hgreatest : Text.decimal 18446744073709551615 = "18446744073709551615" := by decide +kernel
  have hbeyond : Text.decimal 18446744073709551616 = "18446744073709551616" := by decide +kernel
  have hvalue {n : Nat} : Nat.ofDigitChars 10 (Nat.toDigits 10 n) 0 = n :=
    Nat.ofDigitChars_ten_toDigits
  have hfive : NumberText ⟨false, ['5'], some ['0'], none⟩
      ((if false then ['-'] else []) ++ (['5'] ++ (['.', '0'] ++ []))) :=
    .mk ⟨by simp, by simp⟩ (by simp) (.some ⟨by simp, by simp⟩) .none
  refine ⟨?_, ?_, ?_⟩
  · have h := (step_limit_exact_or_refused (numberText_decimal 18446744073709551615)).1
    rw [hgreatest, hvalue] at h
    exact (h _).2 ⟨⟨rfl, rfl, rfl, by rw [hvalue]; decide⟩, rfl⟩
  · have h := (step_limit_exact_or_refused (numberText_decimal 18446744073709551616)).2
    rw [hbeyond] at h
    refine h fun hl => ?_
    have hfits := hl.fits
    rw [hvalue] at hfits
    exact absurd hfits (by decide)
  · exact (step_limit_exact_or_refused hfive).2 fun hl => absurd hl.fraction (by simp)

end TwoStack.Config
