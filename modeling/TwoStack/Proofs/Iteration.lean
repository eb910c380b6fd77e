import TwoStack.Proofs.Steps

/-! What a summary says about the steps of its run, and that nothing else satisfies it. -/

namespace TwoStack.Machine

variable {σ : Type} {obs : Observer σ} {m t u : Machine σ} {budget k : Nat}
  {rs : List (Except Fault Outcome)}

/-- All results say to go on. -/
def GoesOn (rs : List (Except Fault Outcome)) : Prop := ∀ r ∈ rs, r = .ok .continue

/-- The last executed step, which led to `t`, fetched the unassigned byte `c` at `q`. -/
def FetchedLast (obs : Observer σ) (m : Machine σ) (rs : List (Except Fault Outcome))
    (t : Machine σ) (q : Nat) (c : UInt8) : Prop :=
  ∃ qs r u, rs = qs ++ [r] ∧ Steps obs m qs u ∧ u.step obs = (r, t) ∧ u.pc = q ∧
    m.program[q]? = some c ∧ Opcode.ofByte? c = none ∧ t.pc = q + 1

/-- `s` is the summary of a run that took the executed steps `rs` from `m` to `t`. -/
structure Completes (obs : Observer σ) (m : Machine σ) (budget : Nat)
    (rs : List (Except Fault Outcome)) (s : Summary) (t : Machine σ) : Prop where
  steps : Steps obs m rs t
  length : rs.length = s.steps
  within : s.steps ≤ budget
  goesOn : GoesOn rs.dropLast
  output : s.output = t.output
  data : s.data = t.data
  ret : s.ret = t.ret
  exhausted : (∃ n, s.termination = .stepBudgetExhausted n) ↔
    GoesOn rs ∧ t.halted = false ∧ t.pc < m.program.size
  exhausts : ∀ n, s.termination = .stepBudgetExhausted n → n = budget ∧ s.steps = budget
  halted : s.termination = .halted ↔ t.halted = true
  unknown : ∀ q c, s.termination = .unknownOpcode q c ↔ FetchedLast obs m rs t q c
  endOfProgram : ∀ q, s.termination = .endOfProgram q ↔
    GoesOn rs ∧ t.halted = false ∧ q = t.pc ∧ m.program.size ≤ q

theorem fetchedLast_iff {q : Nat} {c : UInt8} (h : Steps obs m rs t) :
    FetchedLast obs m rs t q c ↔ rs.getLast? = some (.ok (.unknownOpcode q c)) := by
  constructor
  · rintro ⟨qs, r, u, rfl, hu, hs, rfl, hb, ho, -⟩
    obtain ⟨-, -, -, hx⟩ := steps_concat h
    have hn := (hasNext_iff.1 (hasNext_of_executed hs hx)).1
    rw [← steps_program hu] at hb
    rw [step_unknown hn hb ho] at hs
    simp [← (Prod.mk.inj hs).1]
  · intro hl
    obtain ⟨qs, rfl⟩ := List.getLast?_eq_some_iff.1 hl
    obtain ⟨u, hu, hs, -⟩ := steps_concat h
    obtain ⟨hq, hb, ho, hp, -⟩ := step_unknownOpcode hs
    rw [steps_program hu] at hb
    exact ⟨qs, _, u, rfl, hu, hs, hq, hb, ho, hp⟩

theorem goesOn_iff : GoesOn rs ↔ rs = goOn rs.length := by
  rw [goOn, List.eq_replicate_iff]
  simp [GoesOn]

theorem goesOn_goOn (k : Nat) : GoesOn (goOn k) := fun _ hr => List.eq_of_mem_replicate hr

/-- A run that ends before a step. -/
theorem completes_goOn {e : Termination} (h : Steps obs m (goOn k) t) (hk : k ≤ budget)
    (he : (e = .stepBudgetExhausted budget ∧ k = budget ∧ t.halted = false ∧
        t.pc < m.program.size) ∨
      (e = .halted ∧ t.halted = true) ∨
      (e = .endOfProgram t.pc ∧ t.halted = false ∧ m.program.size ≤ t.pc)) :
    Completes obs m budget (goOn k) (t.summary k e) t := by
  have hg := goesOn_goOn k
  have hu : ∀ q c, ¬ FetchedLast obs m (goOn k) t q c := by
    intro q c hf
    have hl := hg _ (List.mem_of_getLast? ((fetchedLast_iff h).1 hf))
    simp at hl
  refine ⟨h, by simp [goOn, summary], hk, fun r hr => hg r (List.dropLast_subset _ hr), rfl, rfl,
    rfl, ?_, ?_, ?_, ?_, ?_⟩
  all_goals obtain ⟨rfl, rfl, hh, hp⟩ | ⟨rfl, hh⟩ | ⟨rfl, hh, hp⟩ := he <;> simp_all [summary]
  all_goals omega

/-- A run that ends with a step which halts or finds an unassigned byte. -/
theorem completes_concat {o : Outcome} {e : Termination} (h : Steps obs m (goOn k) u)
    (hk : k < budget) (hs : u.step obs = (.ok o, t))
    (ho : (o = .halted ∧ e = .halted) ∨ ∃ q c, o = .unknownOpcode q c ∧ e = .unknownOpcode q c) :
    Completes obs m budget (goOn k ++ [.ok o]) (t.summary (k + 1) e) t := by
  have hx : (Except.ok o : Except Fault Outcome) ≠ .ok .noInstruction := by
    obtain ⟨rfl, -⟩ | ⟨q, c, rfl, -⟩ := ho <;> simp
  have hl : Steps obs m (goOn k ++ [.ok o]) t := steps_append h (.head hs hx .refl)
  have hg : ¬ GoesOn (goOn k ++ [.ok o]) := by
    intro hg
    have hr := hg (.ok o) (by simp)
    obtain ⟨rfl, -⟩ | ⟨q, c, rfl, -⟩ := ho <;> simp at hr
  have hh := step_halted hs hx
  refine ⟨hl, by simp [goOn, summary], hk, ?_, rfl, rfl, rfl, ?_, ?_, ?_, ?_, ?_⟩
  · rw [List.dropLast_concat]
    exact goesOn_goOn k
  all_goals
    obtain ⟨rfl, rfl⟩ | ⟨q, c, rfl, rfl⟩ := ho <;> simp [summary, fetchedLast_iff hl, hh, hg]

theorem completes_of_ends {s : Summary} (h : Steps obs m (goOn k) u)
    (he : Ends obs budget k u (.ok s, t)) : ∃ rs, Completes obs m budget rs s t := by
  have hp := steps_program h
  cases he with
  | exhausted hn =>
    obtain ⟨hh, hpc⟩ := hasNext_iff.1 hn
    exact ⟨_, completes_goOn h (Nat.le_refl _) (Or.inl ⟨rfl, rfl, hh, hp ▸ hpc⟩)⟩
  | rest hk hn =>
    refine ⟨_, completes_goOn h hk (Or.inr ?_)⟩
    cases hh : t.halted with
    | true => exact Or.inl ⟨by simp [restTermination, hh], rfl⟩
    | false =>
      refine Or.inr ⟨by simp [restTermination, hh], rfl, ?_⟩
      simpa [hasNext, hh, hp] using hn
  | halted hk hs => exact ⟨_, completes_concat h hk hs (Or.inl ⟨rfl, rfl⟩)⟩
  | unknown hk hs => exact ⟨_, completes_concat h hk hs (Or.inr ⟨_, _, rfl, rfl⟩)⟩

theorem Completes.eq_summary {s : Summary} {e : Termination}
    (h : Completes obs m budget rs s t) (hk : s.steps = k) (he : s.termination = e) :
    s = t.summary k e := by
  obtain ⟨steps, output, data, ret, termination⟩ := s
  obtain rfl := h.output
  obtain rfl := h.data
  obtain rfl := h.ret
  obtain rfl := hk
  obtain rfl := he
  rfl

/-- Steps that all went on were followed by no other. -/
theorem Completes.ends_of_goesOn {s : Summary} (h : Completes obs m budget rs s t)
    (hg : GoesOn rs) : Ends obs budget s.steps t (.ok s, t) := by
  have hp := steps_program h.steps
  cases he : s.termination with
  | stepBudgetExhausted n =>
    obtain ⟨rfl, hk⟩ := h.exhausts n he
    obtain ⟨-, hh, hpc⟩ := h.exhausted.1 ⟨n, he⟩
    rw [h.eq_summary hk he]
    exact hk ▸ .exhausted (hasNext_iff.2 ⟨hh, hp ▸ hpc⟩)
  | halted =>
    have hh := h.halted.1 he
    have hr : t.restTermination = .halted := by simp [restTermination, hh]
    rw [h.eq_summary rfl he, ← hr]
    exact .rest h.within (by simp [hasNext, hh])
  | unknownOpcode q c =>
    have hl := (fetchedLast_iff h.steps).1 ((h.unknown q c).1 he)
    have hr := hg _ (List.mem_of_getLast? hl)
    simp at hr
  | endOfProgram q =>
    obtain ⟨-, hh, rfl, hpc⟩ := (h.endOfProgram q).1 he
    have hr : t.restTermination = .endOfProgram t.pc := by simp [restTermination, hh]
    rw [h.eq_summary rfl he, ← hr]
    exact .rest h.within (by simpa [hasNext, hh, hp] using hpc)

/-- A last step that did not go on halted or found an unassigned byte. -/
theorem Completes.ends_of_concat {s : Summary} {r : Except Fault Outcome}
    (h : Completes obs m budget (rs ++ [r]) s t) (hg : ¬ GoesOn (rs ++ [r]))
    (hs : u.step obs = (r, t)) (hx : r ≠ .ok .noInstruction) :
    Ends obs budget rs.length u (.ok s, t) := by
  have hk : s.steps = rs.length + 1 := by simp [← h.length]
  have hb : rs.length < budget := by
    have := h.within
    omega
  obtain ⟨v, hv, -⟩ | ⟨v, hv, hh⟩ | ⟨c, v, hv, -⟩ | ⟨f, v, hv, hh⟩ :=
    step_cases obs (hasNext_of_executed hs hx)
  all_goals obtain ⟨rfl, rfl⟩ := Prod.mk.inj (hv.symm.trans hs)
  · have hrs : GoesOn rs := by simpa using h.goesOn
    exact (hg (by simpa [GoesOn, or_imp, forall_and] using hrs)).elim
  · rw [h.eq_summary hk (h.halted.2 hh)]
    exact .halted hb hs
  · have hl := (fetchedLast_iff h.steps).2 List.getLast?_concat
    rw [h.eq_summary hk ((h.unknown _ _).2 hl)]
    exact .unknown hb hs
  · cases he : s.termination with
    | stepBudgetExhausted n => exact (hg (h.exhausted.1 ⟨n, he⟩).1).elim
    | halted => simp [h.halted.1 he] at hh
    | unknownOpcode q c =>
      have hl := (fetchedLast_iff h.steps).1 ((h.unknown q c).1 he)
      simp at hl
    | endOfProgram q => exact (hg ((h.endOfProgram q).1 he).1).elim

/-- All steps went on, or the last one is the only one that did not. -/
theorem ends_of_completes {s : Summary} (h : Completes obs m budget rs s t) :
    ∃ k u, Steps obs m (goOn k) u ∧ Ends obs budget k u (.ok s, t) := by
  by_cases hg : GoesOn rs
  · refine ⟨s.steps, t, ?_, h.ends_of_goesOn hg⟩
    rw [← h.length, ← goesOn_iff.1 hg]
    exact h.steps
  · obtain rfl | ⟨qs, r, rfl⟩ := List.eq_nil_or_concat rs
    · exact (hg (by simp [GoesOn])).elim
    · rw [List.concat_eq_append] at h hg
      obtain ⟨u, hu, hs, hx⟩ := steps_concat h.steps
      refine ⟨qs.length, u, ?_, h.ends_of_concat hg hs hx⟩
      rw [← goesOn_iff.1 (by simpa using h.goesOn)]
      exact hu

/-- A run is exactly the iteration of steps within its budget. It finishes with the summary of
executed steps, or it stops at the first fault. -/
theorem run_is_bounded_iteration (obs : Observer σ) (m : Machine σ) (budget : Nat) (t : Machine σ) :
    (∀ s, m.run obs budget = (.ok s, t) ↔ ∃ rs, Completes obs m budget rs s t) ∧
      ∀ f, m.run obs budget = (.error f, t) ↔
        ∃ rs u, Steps obs m rs u ∧ GoesOn rs ∧ rs.length < budget ∧ u.step obs = (.error f, t) := by
  refine ⟨fun s => ?_, fun f => ?_⟩
  · constructor
    · intro h
      obtain ⟨k, u, hs, he⟩ := run_eq_iff.1 h
      exact completes_of_ends hs he
    · rintro ⟨rs, h⟩
      exact run_eq_iff.2 (ends_of_completes h)
  · constructor
    · intro h
      obtain ⟨k, u, hs, he⟩ := run_eq_iff.1 h
      cases he with
      | fault hk hf => exact ⟨goOn k, u, hs, goesOn_goOn k, by simpa [goOn] using hk, hf⟩
    · rintro ⟨rs, u, hs, hg, hk, hf⟩
      rw [goesOn_iff.1 hg] at hs
      exact run_eq_iff.2 ⟨_, u, hs, .fault hk hf⟩

end TwoStack.Machine
