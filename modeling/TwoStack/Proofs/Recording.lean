import TwoStack.Proofs.Replay

/-! What executed steps leave on record: one snapshot each, where those before have led. -/

namespace TwoStack.Machine

variable {σ : Type} {obs : Observer σ} {m t u : Machine σ} {s : Snapshot} {k : Nat}
  {rs qs : List (Except Fault Outcome)}

/-- The snapshot that the next step will report. -/
def upcoming? (m : Machine σ) : Option Snapshot :=
  if m.halted then none else m.program[m.pc]?.map fun b => ⟨m.pc, b, m.data, m.ret⟩

theorem upcoming?_eq_some_iff :
    m.upcoming? = some s ↔
      m.halted = false ∧ m.pc = s.pc ∧ m.program[s.pc]? = some s.opcode ∧ m.data = s.data ∧
        m.ret = s.ret := by
  obtain ⟨pc, b, data, ret⟩ := s
  cases hh : m.halted with
  | true => simp [upcoming?, hh]
  | false =>
    simp only [upcoming?, hh, Bool.false_eq_true, if_false, Option.map_eq_some_iff,
      Snapshot.mk.injEq, true_and]
    constructor
    · rintro ⟨c, hc, rfl, rfl, rfl, rfl⟩
      exact ⟨rfl, hc, rfl, rfl⟩
    · rintro ⟨rfl, hc, rfl, rfl⟩
      exact ⟨b, hc, rfl, rfl, rfl, rfl⟩

theorem exists_upcoming? (h : m.hasNext = true) : ∃ s, m.upcoming? = some s := by
  obtain ⟨hh, hp⟩ := hasNext_iff.1 h
  have hb := Array.getElem?_eq_getElem hp
  exact ⟨⟨m.pc, _, m.data, m.ret⟩, upcoming?_eq_some_iff.2 ⟨hh, rfl, hb, rfl, rfl⟩⟩

theorem hasNext_of_upcoming? (h : m.upcoming? = some s) : m.hasNext = true := by
  obtain ⟨hh, hp, hb, -⟩ := upcoming?_eq_some_iff.1 h
  have hlt := (Array.getElem?_eq_some_iff.1 hb).1
  exact hasNext_iff.2 ⟨hh, hp ▸ hlt⟩

theorem step_snapshots_of_upcoming? {m : Machine (Array Event)} (h : m.upcoming? = some s) :
    (m.step .recorder).2.snapshots = m.snapshots ++ [s] := by
  obtain ⟨hh, hp, hb, hd, hr⟩ := upcoming?_eq_some_iff.1 h
  rw [← hp] at hb
  rw [step_snapshots hh hb, hp, hd, hr]

theorem program_of_step {r : Except Fault Outcome} (h : m.step obs = (r, t)) :
    t.program = m.program := by
  have hp := step_program obs m
  rwa [h] at hp

theorem steps_split (h : Steps obs m (rs ++ qs) t) :
    ∃ u, Steps obs m rs u ∧ Steps obs u qs t := by
  induction rs generalizing m with
  | nil => exact ⟨m, .refl, h⟩
  | cons r rs ih =>
    cases h with
    | head hs hx ht =>
      obtain ⟨u, hu, hq⟩ := ih ht
      exact ⟨u, .head hs hx hu, hq⟩

theorem goOn_add (j k : Nat) : goOn (j + k) = goOn j ++ goOn k :=
  List.replicate_add j k _

/-- A run ends with at most one step that does not go on. -/
theorem ends_steps {budget : Nat} {x : Except Fault Summary × Machine σ}
    (h : Ends obs budget k u x) :
    ∃ last, last.length ≤ 1 ∧ Steps obs u last x.2 ∧
      ∀ s, x.1 = .ok s → s.steps = k + last.length := by
  cases h with
  | exhausted hn => exact ⟨[], by simp, .refl, by simp [summary]⟩
  | rest hk hn => exact ⟨[], by simp, .refl, by simp [summary]⟩
  | halted hk hs => exact ⟨[_], by simp, .head hs (by simp) .refl, by simp [summary]⟩
  | unknown hk hs => exact ⟨[_], by simp, .head hs (by simp) .refl, by simp [summary]⟩
  | fault hk hs => exact ⟨[_], by simp, .head hs (by simp) .refl, by simp⟩

/-- Each executed step adds the snapshot that was upcoming before it. -/
theorem steps_recorded {m t : Machine (Array Event)} (h : Steps .recorder m rs t) :
    ∃ ss, t.snapshots = m.snapshots ++ ss ∧ ss.length = rs.length ∧
      ∀ i s, ss[i]? = some s →
        ∃ u, Steps .recorder m (rs.take i) u ∧ u.upcoming? = some s := by
  induction h with
  | refl => exact ⟨[], by simp⟩
  | @head m u t r rs hs hx ht ih =>
    obtain ⟨s₀, hs₀⟩ := exists_upcoming? (hasNext_of_executed hs hx)
    have hu := step_snapshots_of_upcoming? hs₀
    rw [hs] at hu
    obtain ⟨ss, hss, hlen, hat⟩ := ih
    refine ⟨s₀ :: ss, by simp [hss, hu], by simp [hlen], ?_⟩
    intro i s hi
    cases i with
    | zero =>
      obtain rfl : s₀ = s := by simpa using hi
      exact ⟨m, .refl, hs₀⟩
    | succ i =>
      obtain ⟨v, hv, hvs⟩ := hat i s (by simpa using hi)
      exact ⟨v, .head hs hx hv, hvs⟩

/-- The steps that a run records are the ones it counts, and each was taken after as many steps that
went on as stand before it. -/
theorem run_recorded (m : Machine (Array Event)) (budget : Nat) :
    ∃ ss, (m.run .recorder budget).2.snapshots = m.snapshots ++ ss ∧
      (∀ s, (m.run .recorder budget).1 = .ok s → s.steps = ss.length) ∧
      ∀ i s, ss[i]? = some s →
        ∃ u, Steps .recorder m (goOn i) u ∧ u.upcoming? = some s := by
  obtain ⟨k, u, hu, he⟩ := run_eq_iff.1 (rfl : m.run .recorder budget = _)
  obtain ⟨last, hlast, hend, hcount⟩ := ends_steps he
  obtain ⟨ss, hss, hlen, hat⟩ := steps_recorded (steps_append hu hend)
  refine ⟨ss, hss, ?_, ?_⟩
  · intro s hs
    rw [hcount s hs, hlen]
    simp [goOn]
  · intro i s hi
    have hik : i ≤ k := by
      have := (List.getElem?_eq_some_iff.1 hi).1
      simp only [goOn, List.length_append, List.length_replicate] at hlen
      omega
    have htake : (goOn k ++ last).take i = goOn i := by
      rw [List.take_append_of_le_length (by simpa [goOn] using hik)]
      simp [goOn, hik]
    rw [← htake]
    exact hat i s hi

theorem fresh_run_recorded {p : Program} {budget i : Nat}
    (h : ((fresh p #[]).run .recorder budget).2.snapshots[i]? = some s) :
    ∃ u, Steps .recorder (fresh p #[]) (goOn i) u ∧ u.upcoming? = some s := by
  obtain ⟨ss, hss, -, hat⟩ := run_recorded (fresh p #[]) budget
  have hnil : (fresh p #[]).snapshots = [] := rfl
  rw [hss, hnil, List.nil_append] at h
  exact hat i s h

end TwoStack.Machine
