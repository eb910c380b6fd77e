import TwoStack.Console
import TwoStack.Proofs.ReportText

/-! The dump of a machine tells its state: each part of the text says where it ends. -/

namespace TwoStack

namespace Text

variable {c d : Char} {s t xs ys : List Char}

theorem told_cell (c : UInt32) : Document.Told (fun c : UInt32 => decimal c.toNat) c := by
  intro d xs ys hx hy h
  obtain ⟨hn, hxs⟩ := decimal_append_inj hx hy h
  exact ⟨UInt32.toNat_inj.1 hn, hxs⟩

theorem cells_nil_append (xs : List Char) : (cells []).toList ++ xs = '[' :: ']' :: xs := by
  simp [cells]

theorem cells_cons_append (c : UInt32) (cs : List UInt32) (xs : List Char) :
    (cells (c :: cs)).toList ++ xs =
      '[' :: ((decimal c.toNat).toList ++
        (cs.flatMap (fun c => ',' :: [' '] ++ (decimal c.toNat).toList) ++ ']' :: xs)) := by
  have hparts := Document.toList_intercalate ", " (decimal c.toNat)
    (cs.map fun c => decimal c.toNat)
  simp only [cells, List.map_cons, String.toList_append, hparts, List.flatMap_map,
    List.append_assoc]
  rfl

/-- Where a closing bracket stands, no cell follows. -/
theorem decimal_append_ne_bracket (n : Nat) (xs ys : List Char) :
    (decimal n).toList ++ xs ≠ ']' :: ys := by
  intro h
  have hmark := Document.mark_of_renderAt 0 (.number n) xs
  rw [Document.renderAt, h] at hmark
  simp [Document.mark] at hmark

/-- Cells are told from what follows them. -/
theorem cells_append_inj {cs ds : List UInt32}
    (h : (cells cs).toList ++ xs = (cells ds).toList ++ ys) : cs = ds ∧ xs = ys := by
  have hstops (cs : List UInt32) (xs : List Char) : Document.Stops
      (cs.flatMap (fun c => ',' :: [' '] ++ (decimal c.toNat).toList) ++ ']' :: xs) := by
    cases cs with
    | nil => exact Document.stops_cons (c := ']') (by decide) xs
    | cons c cs => exact Document.stops_cons (c := ',') (by decide) _
  cases cs with
  | nil =>
    cases ds with
    | nil => exact ⟨rfl, List.append_cancel_left h⟩
    | cons d ds =>
      rw [cells_nil_append, cells_cons_append] at h
      exact (decimal_append_ne_bracket _ _ _ (List.cons.inj h).2.symm).elim
  | cons c cs =>
    cases ds with
    | nil =>
      rw [cells_nil_append, cells_cons_append] at h
      exact (decimal_append_ne_bracket _ _ _ (List.cons.inj h).2).elim
    | cons d ds =>
      rw [cells_cons_append, cells_cons_append] at h
      obtain ⟨rfl, hrest⟩ := told_cell c d _ _ (hstops cs xs) (hstops ds ys) (List.cons.inj h).2
      obtain ⟨rfl, hxs⟩ := Document.separated_append_inj (show ',' ≠ ']' by decide) (by decide)
        (by decide) [' '] (fun c _ => told_cell c) hrest
      exact ⟨rfl, hxs⟩

/-- A number in base sixteen tells the number. -/
theorem toDigits_sixteen_injective {n k : Nat} (h : Nat.toDigits 16 n = Nat.toDigits 16 k) :
    n = k := by
  have hdigit : ∀ i < 16, ∀ j < 16, Nat.digitChar i = Nat.digitChar j → i = j := by decide
  have hlong {n : Nat} {x y : Char} : [x] ≠ Nat.toDigits 16 n ++ [y] := by
    intro h
    have hlength := congrArg List.length h
    have hpos := Nat.length_toDigits_pos (b := 16) (n := n)
    simp only [List.length_append, List.length_singleton] at hlength
    omega
  induction n using Nat.strongRecOn generalizing k with
  | ind n ih =>
    rw [Nat.toDigits_eq_if (n := n) (by decide), Nat.toDigits_eq_if (n := k) (by decide)] at h
    by_cases hn : n < 16
    · by_cases hk : k < 16
      · rw [if_pos hn, if_pos hk] at h
        exact hdigit n hn k hk (List.cons.inj h).1
      · rw [if_pos hn, if_neg hk] at h
        exact (hlong h).elim
    · by_cases hk : k < 16
      · rw [if_neg hn, if_pos hk] at h
        exact (hlong h.symm).elim
      · rw [if_neg hn, if_neg hk] at h
        obtain ⟨hhigh, hlow⟩ := List.append_inj' h rfl
        have hdiv : n / 16 = k / 16 := ih (n / 16) (by omega) hhigh
        have hmod : n % 16 = k % 16 := hdigit _ (by omega) _ (by omega) (List.cons.inj hlow).1
        omega

theorem brace_notMem_toDigits (n : Nat) : '\x7d' ∉ Nat.toDigits 16 n := by
  have hdigit : ∀ d < 16, '\x7d' ≠ Nat.digitChar d := by decide
  induction n using Nat.strongRecOn with
  | ind n ih =>
    rw [Nat.toDigits_eq_if (by decide)]
    by_cases hn : n < 16
    · simp [hn, hdigit n hn]
    · simp [hn, ih (n / 16) (by omega), hdigit (n % 16) (by omega)]

/-- Letters behind a backslash, and the characters they are for. -/
def quoteEscapes : List (Char × Char) :=
  [('0', '\x00'), ('t', '\t'), ('r', '\r'), ('n', '\n'), ('\\', '\\'), ('"', '"')]

/-- The ways a character can stand inside quotes. -/
inductive Escaped (c : Char) : List Char → Prop
  | short {e : Char} (he : (e, c) ∈ quoteEscapes) : Escaped c ['\\', e]
  | code : Escaped c (['\\', 'u', '\x7b'] ++ Nat.toDigits 16 c.toNat ++ ['\x7d'])
  | plain (hb : c ≠ '\\') (hq : c ≠ '"') : Escaped c [c]

theorem escaped_escape (c : Char) : Escaped c (escape c) := by
  by_cases hc : c ∈ ['\x00', '\t', '\r', '\n', '\\', '"']
  · simp only [List.mem_cons, List.not_mem_nil, or_false] at hc
    rcases hc with rfl | rfl | rfl | rfl | rfl | rfl
    all_goals exact .short (by decide)
  · simp only [List.mem_cons, List.not_mem_nil, or_false, not_or] at hc
    obtain ⟨h₁, h₂, h₃, h₄, hb, hq⟩ := hc
    cases hp : isPrintable c with
    | true => simpa [escape, h₁, h₂, h₃, h₄, hb, hq, hp] using Escaped.plain hb hq
    | false => simpa [escape, h₁, h₂, h₃, h₄, hb, hq, hp] using Escaped.code (c := c)

/-- No character is written like the quote that ends the text. -/
theorem Escaped.append_ne_quote (h : Escaped c s) (xs ys : List Char) : s ++ xs ≠ '"' :: ys := by
  cases h with
  | short | code => simp
  | plain hb hq => simp [hq]

/-- What a character is written as tells the character and where it ends. -/
theorem Escaped.append_inj (hs : Escaped c s) (ht : Escaped d t) (h : s ++ xs = t ++ ys) :
    c = d ∧ xs = ys := by
  have hletter : ∀ p ∈ quoteEscapes, ∀ q ∈ quoteEscapes, p.1 = q.1 → p.2 = q.2 := by decide
  have hu : ∀ p ∈ quoteEscapes, p.1 ≠ 'u' := by decide
  cases hs with
  | @short e he =>
    cases ht with
    | @short f hf =>
      obtain ⟨hef, hxs⟩ : e = f ∧ xs = ys := by simpa using h
      exact ⟨hletter _ he _ hf hef, hxs⟩
    | code =>
      obtain ⟨heu, -⟩ : e = 'u' ∧ _ := by simpa using h
      exact absurd heu (hu _ he)
    | plain hb => exact absurd (List.cons.inj h).1.symm hb
  | code =>
    cases ht with
    | @short f hf =>
      obtain ⟨hfu, -⟩ : 'u' = f ∧ _ := by simpa using h
      exact absurd hfu.symm (hu _ hf)
    | code =>
      have hrun (n : Nat) : ∀ a ∈ Nat.toDigits 16 n, (a != '\x7d') = true := by
        intro a ha
        rw [bne_iff_ne]
        rintro rfl
        exact brace_notMem_toDigits n ha
      simp only [List.append_assoc] at h
      obtain ⟨hdigits, hrest⟩ := append_inj_of_run (· != '\x7d') (hrun _) (hrun _) (by simp)
        (by simp) (List.append_cancel_left h)
      exact ⟨Char.toNat_inj.1 (toDigits_sixteen_injective hdigits), (List.cons.inj hrest).2⟩
    | plain hb => exact absurd (List.cons.inj h).1.symm hb
  | plain hb =>
    cases ht with
    | short | code => exact absurd (List.cons.inj h).1 hb
    | plain => exact List.cons.inj h

/-- Quoted text is told from what follows it. -/
theorem quoted_append_inj {s t : String}
    (h : (quoted s).toList ++ xs = (quoted t).toList ++ ys) : s = t ∧ xs = ys := by
  suffices hcs : ∀ cs ds : List Char,
      cs.flatMap escape ++ '"' :: xs = ds.flatMap escape ++ '"' :: ys → cs = ds ∧ xs = ys by
    obtain ⟨hst, hxs⟩ := hcs s.toList t.toList (by simpa [quoted] using h)
    exact ⟨String.toList_inj.1 hst, hxs⟩
  intro cs
  induction cs with
  | nil =>
    intro ds h
    cases ds with
    | nil => exact ⟨rfl, (List.cons.inj h).2⟩
    | cons d ds =>
      rw [List.flatMap_cons, List.append_assoc] at h
      exact ((escaped_escape d).append_ne_quote _ _ h.symm).elim
  | cons c cs ih =>
    intro ds h
    rw [List.flatMap_cons, List.append_assoc] at h
    cases ds with
    | nil => exact ((escaped_escape c).append_ne_quote _ _ h).elim
    | cons d ds =>
      rw [List.flatMap_cons, List.append_assoc] at h
      obtain ⟨rfl, hrest⟩ := (escaped_escape c).append_inj (escaped_escape d) h
      obtain ⟨rfl, hxs⟩ := ih ds hrest
      exact ⟨rfl, hxs⟩

theorem flag_append_inj {b b' : Bool}
    (h : (if b then "true" else "false").toList ++ xs =
      (if b' then "true" else "false").toList ++ ys) : b = b' ∧ xs = ys := by
  cases b <;> cases b' <;> simp_all

end Text

namespace Machine

variable {σ τ : Type}

theorem toList_dump (m : Machine σ) :
    m.dump.toList =
      "PC = ".toList ++ ((Text.decimal m.pc).toList ++ (" / ".toList ++
        ((Text.decimal m.program.size).toList ++ ("\nhalted = ".toList ++
          ((if m.halted then "true" else "false").toList ++ ("\nstack  = ".toList ++
            ((Text.cells m.data.bottomUp).toList ++ ("\nrstack = ".toList ++
              ((Text.cells m.ret.bottomUp).toList ++ ("\noutput = ".toList ++
                ((Text.quoted m.output).toList ++ ['\n']))))))))))) := by
  simp [dump, Text.lines]

/-- A dump tells the state. Two machines have the same dump if and only if they agree in program
counter, length of the program, halted flag, both stacks and output, whatever the output holds. -/
theorem dump_determines_state (m : Machine σ) (n : Machine τ) :
    m.dump = n.dump ↔
      m.pc = n.pc ∧ m.program.size = n.program.size ∧ m.halted = n.halted ∧ m.data = n.data ∧
        m.ret = n.ret ∧ m.output = n.output := by
  constructor
  · intro h
    have htext := congrArg String.toList h
    rw [toList_dump, toList_dump] at htext
    obtain ⟨hpc, htext⟩ := Text.decimal_append_inj (by simp) (by simp)
      (List.append_cancel_left htext)
    obtain ⟨hsize, htext⟩ := Text.decimal_append_inj (by simp) (by simp)
      (List.append_cancel_left htext)
    obtain ⟨hhalted, htext⟩ := Text.flag_append_inj (List.append_cancel_left htext)
    obtain ⟨hdata, htext⟩ := Text.cells_append_inj (List.append_cancel_left htext)
    obtain ⟨hret, htext⟩ := Text.cells_append_inj (List.append_cancel_left htext)
    obtain ⟨houtput, -⟩ := Text.quoted_append_inj (List.append_cancel_left htext)
    exact ⟨hpc, hsize, hhalted, Stack.bottomUp_injective hdata, Stack.bottomUp_injective hret,
      houtput⟩
  · rintro ⟨hpc, hsize, hhalted, hdata, hret, houtput⟩
    rw [dump, dump, hpc, hsize, hhalted, hdata, hret, houtput]

end Machine

end TwoStack
