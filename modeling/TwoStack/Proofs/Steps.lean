import TwoStack.Proofs.FaultLaw

/-! Runs as sequences of steps. A run is determined by the steps that go on and by how it ends. -/

namespace TwoStack.Machine

variable {σ : Type} {obs : Observer σ} {m t u : Machine σ} {budget k taken left : Nat}

/-- Successive executed steps with their results. -/
inductive Steps (obs : Observer σ) :
    Machine σ → List (Except Fault Outcome) → Machine σ → Prop
  | refl {m : Machine σ} : Steps obs m [] m
  | head {m u t : Machine σ} {r : Except Fault Outcome} {rs : List (Except Fault Outcome)}
      (h : m.step obs = (r, u)) (hx : r ≠ .ok .noInstruction) (ht : Steps obs u rs t) :
      Steps obs m (r :: rs) t

/-- The results of steps that all go on. -/
def goOn (k : Nat) : List (Except Fault Outcome) := List.replicate k (.ok .continue)

variable {rs qs : List (Except Fault Outcome)}

theorem steps_append (h : Steps obs m rs u) (ht : Steps obs u qs t) : Steps obs m (rs ++ qs) t := by
  induction h with
  | refl => exact ht
  | head h hx _ ih => exact .head h hx (ih ht)

theorem steps_concat {r : Except Fault Outcome} (h : Steps obs m (rs ++ [r]) t) :
    ∃ u, Steps obs m rs u ∧ u.step obs = (r, t) ∧ r ≠ .ok .noInstruction := by
  generalize hq : rs ++ [r] = qs at h
  induction h generalizing rs with
  | refl => simp at hq
  | @head m v t r' rs' hs hx ht ih =>
    cases rs with
    | nil =>
      obtain ⟨rfl, rfl⟩ := List.cons.inj hq
      cases ht
      exact ⟨m, .refl, hs, hx⟩
    | cons q rs =>
      obtain ⟨rfl, htail⟩ := List.cons.inj hq
      obtain ⟨u, hu, hr⟩ := ih htail
      exact ⟨u, .head hs hx hu, hr⟩

theorem steps_program (h : Steps obs m rs t) : t.program = m.program := by
  induction h with
  | refl => rfl
  | @head m u t r rs h hx ht ih =>
    have hp := step_program obs m
    rw [h] at hp
    exact ih.trans hp

/-- How a run under a budget ends at a machine that `k` steps have led to: before the next step, or
with it. -/
inductive Ends (obs : Observer σ) (budget : Nat) :
    Nat → Machine σ → Except Fault Summary × Machine σ → Prop
  | exhausted {u : Machine σ} (hn : u.hasNext = true) :
      Ends obs budget budget u (.ok (u.summary budget (.stepBudgetExhausted budget)), u)
  | rest {k : Nat} {u : Machine σ} (hk : k ≤ budget) (hn : u.hasNext = false) :
      Ends obs budget k u (.ok (u.summary k u.restTermination), u)
  | halted {k : Nat} {u t : Machine σ} (hk : k < budget) (hs : u.step obs = (.ok .halted, t)) :
      Ends obs budget k u (.ok (t.summary (k + 1) .halted), t)
  | unknown {k : Nat} {u t : Machine σ} {q : Nat} {c : UInt8} (hk : k < budget)
      (hs : u.step obs = (.ok (.unknownOpcode q c), t)) :
      Ends obs budget k u (.ok (t.summary (k + 1) (.unknownOpcode q c)), t)
  | fault {k : Nat} {u t : Machine σ} {f : Fault} (hk : k < budget)
      (hs : u.step obs = (.error f, t)) : Ends obs budget k u (.error f, t)

theorem step_noInstruction (h : m.step obs = (.ok .noInstruction, t)) :
    m.hasNext = false ∧ t = m := by
  cases hn : m.hasNext with
  | false =>
    rw [step_idle hn] at h
    exact ⟨rfl, (Prod.mk.inj h).2.symm⟩
  | true =>
    obtain ⟨u, hs, -⟩ | ⟨u, hs, -⟩ | ⟨c, u, hs, -⟩ | ⟨f, u, hs, -⟩ := step_cases obs hn <;>
      simp [hs] at h

theorem hasNext_of_executed {r : Except Fault Outcome} (h : m.step obs = (r, t))
    (hx : r ≠ .ok .noInstruction) : m.hasNext = true := by
  cases hn : m.hasNext with
  | true => rfl
  | false =>
    rw [step_idle hn] at h
    exact (hx (Prod.mk.inj h).1.symm).elim

theorem step_unknownOpcode {q : Nat} {c : UInt8} (h : m.step obs = (.ok (.unknownOpcode q c), t)) :
    m.pc = q ∧ m.program[q]? = some c ∧ Opcode.ofByte? c = none ∧ t.pc = q + 1 ∧
      t.halted = false := by
  obtain ⟨u, hs, -⟩ | ⟨u, hs, -⟩ | ⟨d, u, hs, hb, ho, hp, hh⟩ | ⟨f, u, hs, -⟩ :=
    step_cases obs (hasNext_of_executed h (by simp)) <;> simp [hs] at h
  obtain ⟨⟨rfl, rfl⟩, rfl⟩ := h
  exact ⟨rfl, hb, ho, hp, hh⟩

theorem step_halted {r : Except Fault Outcome} (h : m.step obs = (r, t))
    (hx : r ≠ .ok .noInstruction) : t.halted = true ↔ r = .ok .halted := by
  obtain ⟨u, hs, hh⟩ | ⟨u, hs, hh⟩ | ⟨c, u, hs, -, -, -, hh⟩ | ⟨f, u, hs, hh⟩ :=
    step_cases obs (hasNext_of_executed h hx)
  all_goals
    obtain ⟨rfl, rfl⟩ := Prod.mk.inj (hs.symm.trans h)
    simp [hh]

/-- Every run has a part that goes on and an end. -/
theorem runFrom_ends (m : Machine σ) (taken left : Nat) :
    ∃ k u, Steps obs m (goOn k) u ∧
      Ends obs (taken + left) (taken + k) u (m.runFrom obs taken left) := by
  induction left generalizing m taken with
  | zero =>
    refine ⟨0, m, .refl, ?_⟩
    simp only [runFrom, Nat.add_zero]
    cases hn : m.hasNext with
    | true => exact .exhausted hn
    | false => exact .rest (Nat.le_refl _) hn
  | succ left ih =>
    have hk : taken < taken + (left + 1) := by omega
    rcases hs : m.step obs with ⟨f | o, u⟩
    · exact ⟨0, m, .refl, by simpa [runFrom, hs] using .fault hk hs⟩
    · cases o with
      | «continue» =>
        obtain ⟨k, v, hv, he⟩ := ih u (taken + 1)
        refine ⟨k + 1, v, .head hs (by simp) hv, ?_⟩
        simpa [runFrom, hs, Nat.add_assoc, Nat.add_comm, Nat.add_left_comm] using he
      | halted => exact ⟨0, m, .refl, by simpa [runFrom, hs] using .halted hk hs⟩
      | unknownOpcode q c => exact ⟨0, m, .refl, by simpa [runFrom, hs] using .unknown hk hs⟩
      | noInstruction =>
        obtain ⟨hn, rfl⟩ := step_noInstruction hs
        exact ⟨0, u, .refl, by simpa [runFrom, hs] using .rest (Nat.le_of_lt hk) hn⟩

theorem runFrom_steps (h : Steps obs m (goOn k) u) (taken left : Nat) :
    m.runFrom obs taken (k + left) = u.runFrom obs (taken + k) left := by
  induction k generalizing m taken with
  | zero =>
    cases h
    simp
  | succ k ih =>
    cases h with
    | head hs hx ht =>
      rw [Nat.add_right_comm, runFrom, hs]
      simpa [Nat.add_assoc, Nat.add_comm 1 k] using ih ht (taken + 1)

theorem runFrom_of_ends {r : Except Fault Summary × Machine σ} (h : Ends obs (k + left) k u r) :
    u.runFrom obs k left = r := by
  cases left with
  | zero =>
    generalize hb : k + 0 = budget at h
    cases h with
    | exhausted hn => simp [runFrom, hn]
    | rest hk hn => simp [runFrom, hn]
    | halted hk | unknown hk | fault hk => omega
  | succ left =>
    generalize hb : k + (left + 1) = budget at h
    cases h with
    | exhausted hn => omega
    | rest hk hn => simp [runFrom, step_idle hn]
    | halted hk hs | unknown hk hs | fault hk hs => simp [runFrom, hs]

theorem Ends.le {r : Except Fault Summary × Machine σ} (h : Ends obs budget k u r) :
    k ≤ budget := by
  cases h with
  | exhausted hn => exact Nat.le_refl _
  | rest hk hn => exact hk
  | halted hk | unknown hk | fault hk => exact Nat.le_of_lt hk

/-- A run is its steps that go on, followed by its end. -/
theorem run_eq_iff {r : Except Fault Summary × Machine σ} :
    m.run obs budget = r ↔ ∃ k u, Steps obs m (goOn k) u ∧ Ends obs budget k u r := by
  constructor
  · rintro rfl
    simpa [run] using runFrom_ends m 0 budget
  · rintro ⟨k, u, hs, he⟩
    obtain ⟨left, rfl⟩ := Nat.exists_eq_add_of_le he.le
    rw [run, runFrom_steps hs, Nat.zero_add]
    exact runFrom_of_ends he

variable {P : Machine σ → Prop}

theorem step_keeps (hs : ∀ u, u.hasNext = true → P u → P (u.step obs).2) (h : P m) :
    P (m.step obs).2 := by
  cases hn : m.hasNext with
  | true => exact hs m hn h
  | false =>
    rw [step_idle hn]
    exact h

theorem runFrom_keeps (hs : ∀ u, u.hasNext = true → P u → P (u.step obs).2) (h : P m)
    (taken left : Nat) : P (m.runFrom obs taken left).2 := by
  induction left generalizing m taken with
  | zero => exact h
  | succ left ih =>
    have hm := step_keeps hs h
    rw [runFrom]
    rcases hr : m.step obs with ⟨f | o, u⟩
    all_goals rw [hr] at hm
    · exact hm
    · cases o with
      | «continue» => exact ih hm (taken + 1)
      | halted | unknownOpcode q c | noInstruction => exact hm

/-- What every executed step keeps is kept by every sequence of calls, after faults too. -/
theorem calls_keep (hs : ∀ u, u.hasNext = true → P u → P (u.step obs).2) (h : P m)
    (cs : List Call) : P (m.calls obs cs).2 := by
  induction cs generalizing m with
  | nil => exact h
  | cons c cs ih =>
    cases c with
    | step => exact ih (step_keeps hs h)
    | run budget => exact ih (runFrom_keeps hs h 0 budget)

theorem calls_program (obs : Observer σ) (m : Machine σ) (cs : List Call) :
    (m.calls obs cs).2.program = m.program :=
  calls_keep (P := fun u => u.program = m.program)
    (fun u _ h => (step_program obs u).trans h) rfl cs

end TwoStack.Machine
