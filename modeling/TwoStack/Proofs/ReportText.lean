import TwoStack.Report
import TwoStack.Proofs.Layout
import TwoStack.Proofs.Literal

/-! The text of a report tells its document, part by part, and the document the report. -/

namespace TwoStack

namespace Document

/-- What holds of a list or a record if it holds of its parts holds of every document. -/
theorem induct {P : Document → Prop} (number : ∀ n, P (number n)) (text : ∀ s, P (text s))
    (list : ∀ ds, (∀ d ∈ ds, P d) → P (list ds))
    (record : ∀ fs : List (String × Document), (∀ f ∈ fs, P f.2) → P (record fs)) :
    ∀ d, P d
  | .number n => number n
  | .text s => text s
  | .list ds => list ds fun d _ => induct number text list record d
  | .record fs => record fs fun f _ => induct number text list record f.2
decreasing_by
  · have hlt := List.sizeOf_lt_of_mem ‹d ∈ ds›
    simp only [Document.list.sizeOf_spec]
    omega
  · have hlt := List.sizeOf_lt_of_mem ‹f ∈ fs›
    obtain ⟨key, d⟩ := f
    simp only [Document.record.sizeOf_spec, Prod.mk.sizeOf_spec] at hlt ⊢
    omega

variable {α : Type} {part : α → String} {a b : α} {as bs : List α} {xs ys : List Char}
  {level : Nat}

/-- A text that does not go on with a digit. -/
def Stops (xs : List Char) : Prop := ∀ c ∈ xs.head?, c.isDigit = false

/-- The text of `a` is told from what follows it and from all other texts. -/
def Told (part : α → String) (a : α) : Prop :=
  ∀ b xs ys, Stops xs → Stops ys → (part a).toList ++ xs = (part b).toList ++ ys →
    a = b ∧ xs = ys

theorem stops_cons {c : Char} (h : c.isDigit = false) (xs : List Char) : Stops (c :: xs) := by
  intro d hd
  obtain rfl : c = d := by simpa using hd
  exact h

/-- What follows the first part: the others, each behind a comma on a new line, and the closing
bracket. -/
def others (level : Nat) (closing : String) (parts : List String) : List Char :=
  parts.flatMap (fun p => ',' :: (newline (level + 1)).toList ++ p.toList) ++
    (newline level).toList ++ closing.toList

theorem toList_newline (level : Nat) :
    (newline level).toList = '\n' :: List.replicate (2 * level) ' ' := by
  simp [newline]

theorem toList_intercalate (sep p : String) (ps : List String) :
    (sep.intercalate (p :: ps)).toList =
      p.toList ++ ps.flatMap fun q => sep.toList ++ q.toList := by
  induction ps generalizing p with
  | nil => simp
  | cons q ps ih => rw [String.intercalate_cons_cons]; simp [ih]

theorem toList_bracketed_cons (opening closing : String) (level : Nat) (p : String)
    (ps : List String) :
    (bracketed opening closing level (p :: ps)).toList =
      opening.toList ++
        ((newline (level + 1)).toList ++ (p.toList ++ others level closing ps)) := by
  have hparts := toList_intercalate ("," ++ newline (level + 1)) p ps
  simp only [String.toList_append] at hparts
  simp only [bracketed, others, List.isEmpty_cons, Bool.false_eq_true, if_false,
    String.toList_append, hparts, List.append_assoc]
  rfl

theorem stops_others (level : Nat) (closing : String) (parts : List String) (xs : List Char) :
    Stops (others level closing parts ++ xs) := by
  cases parts with
  | nil =>
    have hn := toList_newline level
    rw [others, hn]
    exact stops_cons (show '\n'.isDigit = false by decide) _
  | cons p ps => exact stops_cons (show ','.isDigit = false by decide) _

/-- Parts that each stand behind a separator are told apart, if what ends them begins otherwise. -/
theorem separated_append_inj {c d : Char} (hne : c ≠ d) (hc : c.isDigit = false)
    (hd : d.isDigit = false) (sep : List Char) (h : ∀ a ∈ as, Told part a)
    (heq : as.flatMap (fun a => c :: sep ++ (part a).toList) ++ d :: xs =
      bs.flatMap (fun b => c :: sep ++ (part b).toList) ++ d :: ys) : as = bs ∧ xs = ys := by
  have hstops (as : List α) (xs : List Char) :
      Stops (as.flatMap (fun a => c :: sep ++ (part a).toList) ++ d :: xs) := by
    cases as with
    | nil => exact stops_cons hd xs
    | cons a as => exact stops_cons hc _
  induction as generalizing bs with
  | nil =>
    cases bs with
    | nil => exact ⟨rfl, (List.cons.inj heq).2⟩
    | cons b bs => exact absurd (List.cons.inj heq).1 (Ne.symm hne)
  | cons a as ih =>
    cases bs with
    | nil => exact absurd (List.cons.inj heq).1 hne
    | cons b bs =>
      simp only [List.flatMap_cons, List.append_assoc] at heq
      obtain ⟨rfl, hrest⟩ := h a (by simp) b _ _ (hstops as xs) (hstops bs ys)
        (List.append_cancel_left heq)
      obtain ⟨rfl, hxs⟩ := ih (fun e he => h e (by simp [he])) hrest
      exact ⟨rfl, hxs⟩

/-- A comma goes on with the parts, and a new line ends them. -/
theorem others_append_inj (closing : String) (h : ∀ a ∈ as, Told part a)
    (heq : others level closing (as.map part) ++ xs = others level closing (bs.map part) ++ ys) :
    as = bs ∧ xs = ys := by
  simp only [others, toList_newline level, List.flatMap_map, List.append_assoc,
    List.cons_append] at heq
  obtain ⟨rfl, hrest⟩ := separated_append_inj (show ',' ≠ '\n' by decide) (by decide) (by decide)
    (newline (level + 1)).toList h heq
  exact ⟨rfl, List.append_cancel_left (List.append_cancel_left hrest)⟩

theorem toList_bracketed_nil (opening closing : String) (level : Nat) :
    (bracketed opening closing level []).toList = opening.toList ++ closing.toList := by
  simp [bracketed]

theorem exists_toList_bracketed (opening closing : String) (level : Nat) (parts : List String) :
    ∃ t, (bracketed opening closing level parts).toList = opening.toList ++ t := by
  cases parts with
  | nil => exact ⟨_, toList_bracketed_nil _ _ _⟩
  | cons p ps => exact ⟨_, toList_bracketed_cons _ _ _ _ _⟩

/-- Parts between brackets are told apart. No new line begins where there are none. -/
theorem bracketed_append_inj {opening closing : String} {c : Char} (hc : closing.toList = [c])
    (hne : c ≠ '\n') (h : ∀ a ∈ as, Told part a)
    (heq : (bracketed opening closing level (as.map part)).toList ++ xs =
      (bracketed opening closing level (bs.map part)).toList ++ ys) : as = bs ∧ xs = ys := by
  cases as with
  | nil =>
    cases bs with
    | nil => exact ⟨rfl, List.append_cancel_left heq⟩
    | cons b bs =>
      simp [toList_bracketed_nil, toList_bracketed_cons, toList_newline, hc, hne] at heq
  | cons a as =>
    cases bs with
    | nil =>
      simp [toList_bracketed_nil, toList_bracketed_cons, toList_newline, hc, hne.symm] at heq
    | cons b bs =>
      rw [List.map_cons, List.map_cons, toList_bracketed_cons, toList_bracketed_cons] at heq
      simp only [List.append_assoc] at heq
      obtain ⟨rfl, hrest⟩ := h a (by simp) b _ _ (stops_others _ _ _ _) (stops_others _ _ _ _)
        (List.append_cancel_left (List.append_cancel_left heq))
      obtain ⟨rfl, hxs⟩ := others_append_inj closing (fun c hc => h c (by simp [hc])) hrest
      exact ⟨rfl, hxs⟩

/-- The text of a field of a record. -/
def fieldText (level : Nat) (f : String × Document) : String :=
  literal f.1 ++ ": " ++ f.2.renderAt level

theorem renderItems_eq_map (level : Nat) (ds : List Document) :
    renderItems level ds = ds.map (renderAt level) := by
  induction ds with
  | nil => rfl
  | cons d ds ih => rw [renderItems, ih, List.map_cons]

theorem renderFields_eq_map (level : Nat) (fs : List (String × Document)) :
    renderFields level fs = fs.map (fieldText level) := by
  induction fs with
  | nil => rfl
  | cons f fs ih => rw [renderFields, ih, List.map_cons]; rfl

theorem told_field {f : String × Document} (h : Told (renderAt level) f.2) :
    Told (fieldText level) f := by
  intro g xs ys hx hy heq
  simp only [fieldText, String.toList_append, List.append_assoc] at heq
  obtain ⟨hkey, hrest⟩ := literal_append_inj heq
  obtain ⟨hvalue, hxs⟩ := h g.2 xs ys hx hy (List.append_cancel_left hrest)
  exact ⟨Prod.ext hkey hvalue, hxs⟩

/-- The first character of a document, with one digit for all. -/
def mark : Document → Char
  | number _ => '0'
  | text _ => '"'
  | list _ => '['
  | record _ => '\x7b'

/-- The first character tells a number, a string, a list and a record apart. -/
theorem mark_of_renderAt (level : Nat) (d : Document) (xs : List Char) :
    ((d.renderAt level).toList ++ xs).head?.map (fun c => if c.isDigit then '0' else c) =
      some d.mark := by
  cases d with
  | number n =>
    obtain ⟨c, cs, hcs⟩ := List.exists_cons_of_ne_nil (Nat.toDigits_ne_nil (b := 10) (n := n))
    have hc : c.isDigit = true :=
      Nat.isDigit_of_mem_toDigits (by decide) (by decide) (hcs ▸ List.mem_cons_self)
    simp [renderAt, Text.decimal, hcs, hc, mark]
  | text s => simp [renderAt, literal, mark]
  | list ds =>
    obtain ⟨t, ht⟩ := exists_toList_bracketed "[" "]" level (renderItems (level + 1) ds)
    simp [renderAt, ht, mark]
  | record fs =>
    obtain ⟨t, ht⟩ := exists_toList_bracketed "\x7b" "\x7d" level (renderFields (level + 1) fs)
    simp [renderAt, ht, mark]

theorem mark_eq_of_append {d e : Document}
    (h : (d.renderAt level).toList ++ xs = (e.renderAt level).toList ++ ys) : d.mark = e.mark := by
  have hd := mark_of_renderAt level d xs
  rw [h, mark_of_renderAt] at hd
  exact (Option.some.inj hd).symm

/-- Every document is told from what follows it. -/
theorem told_renderAt (level : Nat) (d : Document) : Told (renderAt level) d := by
  induction d using induct generalizing level with
  | number n =>
    intro e xs ys hx hy heq
    cases e with
    | number k =>
      obtain ⟨rfl, hxs⟩ := Text.decimal_append_inj hx hy heq
      exact ⟨rfl, hxs⟩
    | text _ | list _ | record _ => exact absurd (mark_eq_of_append heq) (by simp [mark])
  | text s =>
    intro e xs ys hx hy heq
    cases e with
    | text t =>
      obtain ⟨rfl, hxs⟩ := literal_append_inj heq
      exact ⟨rfl, hxs⟩
    | number _ | list _ | record _ => exact absurd (mark_eq_of_append heq) (by simp [mark])
  | list ds ih =>
    intro e xs ys hx hy heq
    cases e with
    | list es =>
      simp only [renderAt, renderItems_eq_map] at heq
      obtain ⟨rfl, hxs⟩ := bracketed_append_inj (c := ']') (by decide) (by decide)
        (fun d hd => ih d hd (level + 1)) heq
      exact ⟨rfl, hxs⟩
    | number _ | text _ | record _ => exact absurd (mark_eq_of_append heq) (by simp [mark])
  | record fs ih =>
    intro e xs ys hx hy heq
    cases e with
    | record gs =>
      simp only [renderAt, renderFields_eq_map] at heq
      obtain ⟨rfl, hxs⟩ := bracketed_append_inj (c := '\x7d') (by decide) (by decide)
        (fun f hf => told_field (ih f hf (level + 1))) heq
      exact ⟨rfl, hxs⟩
    | number _ | text _ | list _ => exact absurd (mark_eq_of_append heq) (by simp [mark])

theorem render_injective {d e : Document} (h : d.render = e.render) : d = e := by
  have hnil : Stops [] := by simp [Stops]
  exact (told_renderAt 0 d e [] [] hnil hnil (congrArg (·.toList ++ []) h)).1

end Document

theorem Document.cells_injective {cs ds : List UInt32} (h : cells cs = cells ds) : cs = ds := by
  have hmap := list.inj h
  refine (List.map_inj_right ?_).1 hmap
  intro c d hcd
  exact UInt32.toNat_inj.1 (number.inj hcd)

theorem Stack.bottomUp_injective {s t : Stack} (h : s.bottomUp = t.bottomUp) : s = t := by
  rw [← s.ofBottomUp_bottomUp, h, t.ofBottomUp_bottomUp]

theorem Stack.document_injective {s t : Stack}
    (h : Document.cells s.bottomUp = .cells t.bottomUp) : s = t :=
  bottomUp_injective (Document.cells_injective h)

theorem Fault.document_injective {f g : Fault} (h : f.document = g.document) : f = g := by
  cases f <;> cases g <;> simp_all [document, kind, pc]

theorem Termination.document_injective {e f : Termination} (h : e.document = f.document) :
    e = f := by
  cases e <;> cases f <;> simp_all [document, UInt8.toNat_inj]

theorem Summary.document_injective {s t : Summary} (h : s.document = t.document) : s = t := by
  obtain ⟨steps, output, data, ret, e⟩ := s
  obtain ⟨steps', output', data', ret', e'⟩ := t
  simp only [document, Document.record.injEq, List.cons.injEq, Prod.mk.injEq, true_and, and_true,
    Document.number.injEq, Document.text.injEq] at h
  obtain ⟨rfl, rfl, hdata, hret, he⟩ := h
  rw [Stack.document_injective hdata, Stack.document_injective hret,
    Termination.document_injective he]

theorem FaultReport.fields_injective {r q : FaultReport} (h : r.fields = q.fields) : r = q := by
  obtain ⟨f, pc, output, data, ret⟩ := r
  obtain ⟨f', pc', output', data', ret'⟩ := q
  simp only [fields, List.cons.injEq, Prod.mk.injEq, true_and, and_true, Document.number.injEq,
    Document.text.injEq] at h
  obtain ⟨hf, rfl, rfl, hdata, hret⟩ := h
  rw [Fault.document_injective hf, Stack.document_injective hdata, Stack.document_injective hret]

theorem Event.document_injective {e f : Event} (h : e.document = f.document) : e = f := by
  cases e with
  | step s =>
    cases f with
    | step t =>
      obtain ⟨pc, b, data, ret⟩ := s
      obtain ⟨pc', b', data', ret'⟩ := t
      simp only [document, tag, fields, Snapshot.fields, Document.record.injEq, List.cons.injEq,
        Prod.mk.injEq, true_and, and_true, Document.number.injEq, UInt8.toNat_inj] at h
      obtain ⟨rfl, rfl, hdata, hret⟩ := h
      rw [Stack.document_injective hdata, Stack.document_injective hret]
    | print q => simp [document, tag] at h
  | print p =>
    cases f with
    | step t => simp [document, tag] at h
    | print q =>
      obtain ⟨c, b⟩ := p
      obtain ⟨c', b'⟩ := q
      simp only [document, tag, fields, Printed.fields, Document.record.injEq, List.cons.injEq,
        Prod.mk.injEq, true_and, and_true, Document.number.injEq, Document.text.injEq,
        UInt8.toNat_inj] at h
      obtain ⟨hc, rfl⟩ := h
      have hchar : c = c' := by simpa using congrArg String.toList hc
      rw [hchar]

namespace Report

/-- A trace that is empty is not the same as none. -/
theorem traceFields_injective {t u : Option (List Event)} (h : traceFields t = traceFields u) :
    t = u := by
  cases t with
  | none =>
    cases u with
    | none => rfl
    | some fs => simp [traceFields] at h
  | some es =>
    cases u with
    | none => simp [traceFields] at h
    | some fs =>
      simp only [traceFields, List.cons.injEq, Prod.mk.injEq, true_and, and_true,
        Document.list.injEq] at h
      rw [(List.map_inj_right fun _ _ => Event.document_injective).1 h]

theorem document_injective {r q : Report} (h : r.document = q.document) : r = q := by
  cases r with
  | finished s t =>
    cases q with
    | finished s' u =>
      simp only [document, Document.record.injEq, List.cons.injEq, Prod.mk.injEq, true_and] at h
      rw [Summary.document_injective h.1, traceFields_injective h.2]
    | fault r u => simp [document, FaultReport.fields] at h
  | fault r t =>
    cases q with
    | finished s u => simp [document, FaultReport.fields] at h
    | fault r' u =>
      have hfields := Document.record.inj h
      obtain ⟨hr, ht⟩ := List.append_inj hfields rfl
      rw [FaultReport.fields_injective hr, traceFields_injective ht]

/-- Reports with the same text are the same: nothing in a report is lost in its text. -/
theorem text_determines_report (r q : Report) : r.render = q.render ↔ r = q := by
  constructor
  · intro h
    exact document_injective (Document.render_injective h)
  · rintro rfl
    rfl

end Report

end TwoStack
