import TwoStack.Proofs.Recording

/-! A machine that comes back to a place it has been at goes around for ever. -/

namespace TwoStack.Machine

variable {σ τ : Type} {obs : Observer σ} {q : Observer τ} {m t t' : Machine σ} {u v : Machine τ}
  {rs : List (Except Fault Outcome)} {s s' : Snapshot} {d j k n : Nat}

theorem steps_functional (h : Steps obs m rs t) (h' : Steps obs m rs t') : t = t' := by
  induction h with
  | refl =>
    cases h'
    rfl
  | head hs hx ht ih =>
    cases h' with
    | head hs' hx' ht' =>
      obtain ⟨-, rfl⟩ := Prod.mk.inj (hs.symm.trans hs')
      exact ih ht'

/-- Machines that agree in what decides a step take the same steps. -/
theorem steps_core (q : Observer τ) (hc : m.core = u.core) (h : Steps obs m rs t) :
    ∃ v, Steps q u rs v ∧ t.core = v.core := by
  induction h generalizing u with
  | refl => exact ⟨u, .refl, hc⟩
  | @head m w t r rs hs hx ht ih =>
    have hstep := step_core obs q hc
    rcases hu : u.step q with ⟨r', w'⟩
    rw [hs, hu] at hstep
    obtain ⟨rfl, hw⟩ := Prod.mk.inj hstep
    obtain ⟨v, hv, htv⟩ := ih hw
    exact ⟨v, .head hu hx hv, htv⟩

theorem hasNext_core (hc : m.core = u.core) : m.hasNext = u.hasNext := by
  obtain ⟨hp, hpc, -, -, hh⟩ := core_eq_iff.1 hc
  rw [hasNext, hasNext, hp, hpc, hh]

/-- Before the last of its steps, a machine has an instruction left. -/
theorem steps_before (h : Steps obs m (goOn k) t) (hj : j < k) :
    ∃ u, Steps obs m (goOn j) u ∧ u.hasNext = true := by
  obtain ⟨d, rfl⟩ := Nat.exists_eq_add_of_lt hj
  rw [Nat.add_assoc, goOn_add] at h
  obtain ⟨u, hu, ht⟩ := steps_split h
  cases ht with
  | head hs hx _ => exact ⟨u, hu, hasNext_of_executed hs hx⟩

/-- A machine goes on for any number of steps, and then it has an instruction left. -/
def NeverStops (obs : Observer σ) (m : Machine σ) : Prop :=
  ∀ k, ∃ t, Steps obs m (goOn k) t ∧ t.hasNext = true

theorem neverStops_core (q : Observer τ) (hc : m.core = u.core) (h : NeverStops obs m) :
    NeverStops q u := by
  intro k
  obtain ⟨t, ht, hn⟩ := h k
  obtain ⟨v, hv, htv⟩ := steps_core q hc ht
  exact ⟨v, hv, (hasNext_core htv).symm.trans hn⟩

theorem neverStops_of_steps (h : Steps obs m (goOn k) t) (ht : NeverStops obs t) :
    NeverStops obs m := by
  intro j
  rcases Nat.lt_or_ge j k with hj | hj
  · exact steps_before h hj
  · obtain ⟨d, rfl⟩ := Nat.exists_eq_add_of_le hj
    obtain ⟨w, hw, hn⟩ := ht d
    refine ⟨w, ?_, hn⟩
    rw [goOn_add]
    exact steps_append h hw

/-- A machine that gets back to where it was goes around again. -/
theorem neverStops_of_cycle (h : Steps obs m (goOn (d + 1)) t) (hc : m.core = t.core) :
    NeverStops obs m := by
  intro k
  induction k using Nat.strong_induction_on with
  | h k ih =>
    rcases Nat.lt_or_ge k (d + 1) with hk | hk
    · exact steps_before h hk
    · obtain ⟨w, hw, hn⟩ := ih (k - (d + 1)) (by omega)
      obtain ⟨v, hv, hwv⟩ := steps_core obs hc hw
      refine ⟨v, ?_, (hasNext_core hwv).symm.trans hn⟩
      rw [show k = d + 1 + (k - (d + 1)) by omega, goOn_add]
      exact steps_append h hv

theorem run_of_neverStops (h : NeverStops obs m) (n : Nat) :
    ∃ s t, m.run obs n = (.ok s, t) ∧ s.steps = n ∧ s.termination = .stepBudgetExhausted n := by
  obtain ⟨t, ht, hn⟩ := h n
  exact ⟨_, t, run_eq_iff.2 ⟨n, t, ht, .exhausted hn⟩, rfl, rfl⟩

theorem core_fresh (p : Program) (a : σ) (b : τ) : (fresh p a).core = (fresh p b).core := rfl

theorem core_eq_of_upcoming? (hp : m.program = u.program) (hm : m.upcoming? = some s)
    (hu : u.upcoming? = some s') (hpc : s.pc = s'.pc) (hd : s.data = s'.data)
    (hr : s.ret = s'.ret) : m.core = u.core := by
  obtain ⟨hmh, hmp, -, hmd, hmr⟩ := upcoming?_eq_some_iff.1 hm
  obtain ⟨huh, hup, -, hud, hur⟩ := upcoming?_eq_some_iff.1 hu
  rw [core_eq_iff, hmh, huh, hmp, hup, hmd, hud, hmr, hur]
  exact ⟨hp, hpc, hd, hr, rfl⟩

/-- The place of a recorded step that comes back is on a cycle. -/
theorem neverStops_of_repeated {p : Program} {i : Nat} (hij : i < j)
    (hi : ((fresh p #[]).run .recorder n).2.snapshots[i]? = some s)
    (hj : ((fresh p #[]).run .recorder n).2.snapshots[j]? = some s')
    (hpc : s.pc = s'.pc) (hd : s.data = s'.data) (hr : s.ret = s'.ret) :
    NeverStops .recorder (fresh p #[]) := by
  obtain ⟨u, hu, hus⟩ := fresh_run_recorded hi
  obtain ⟨v, hv, hvs⟩ := fresh_run_recorded hj
  have hc : u.core = v.core := by
    apply core_eq_of_upcoming? _ hus hvs hpc hd hr
    rw [steps_program hu, steps_program hv]
  obtain ⟨d, rfl⟩ := Nat.exists_eq_add_of_lt hij
  rw [Nat.add_assoc, goOn_add] at hv
  obtain ⟨w, hw, hwv⟩ := steps_split hv
  obtain rfl := steps_functional hu hw
  exact neverStops_of_steps hu (neverStops_of_cycle hwv hc)

/-- If two recorded steps of a run found the same address and the same stacks, the program never
stops: every run of it uses up its budget, whoever observes. -/
theorem repeated_snapshot_never_stops (p : Program) (n i j : Nat) (s s' : Snapshot) (hij : i ≠ j)
    (hi : ((fresh p #[]).run .recorder n).2.snapshots[i]? = some s)
    (hj : ((fresh p #[]).run .recorder n).2.snapshots[j]? = some s')
    (hpc : s.pc = s'.pc) (hd : s.data = s'.data) (hr : s.ret = s'.ret) (obs : Observer σ)
    (start : σ) (budget : Nat) :
    ∃ r t, (fresh p start).run obs budget = (.ok r, t) ∧ r.steps = budget ∧
      r.termination = .stepBudgetExhausted budget := by
  have h : NeverStops .recorder (fresh p #[]) := by
    rcases Nat.lt_or_gt_of_ne hij with hlt | hlt
    · exact neverStops_of_repeated hlt hi hj hpc hd hr
    · exact neverStops_of_repeated hlt hj hi hpc.symm hd.symm hr.symm
  exact run_of_neverStops (neverStops_core obs (core_fresh p #[] start) h) budget

/-- A loop that prints is back at its first address after three steps. -/
theorem repeated_snapshot_never_stops_print :
    let p : Program := #[0x01, 0x41, 0, 0, 0, 0x08, 0x0F, 0, 0, 0, 0]
    let ss := ((fresh p #[]).run .recorder 4).2.snapshots
    ss[0]? = some ⟨0, 0x01, .empty, .empty⟩ ∧ ss[3]? = some ⟨0, 0x01, .empty, .empty⟩ ∧
      ∃ r t, (fresh p ()).run .silent 0xFFFFFFFFFFFFFFFF = (.ok r, t) ∧
        r.steps = 0xFFFFFFFFFFFFFFFF ∧
        r.termination = .stepBudgetExhausted 0xFFFFFFFFFFFFFFFF := by
  intro p ss
  have h₀ : ss[0]? = some ⟨0, 0x01, .empty, .empty⟩ := by decide +kernel
  have h₃ : ss[3]? = some ⟨0, 0x01, .empty, .empty⟩ := by decide +kernel
  refine ⟨h₀, h₃, ?_⟩
  exact repeated_snapshot_never_stops p 4 0 3 _ _ (by decide) h₀ h₃ rfl rfl rfl .silent () _

end TwoStack.Machine
