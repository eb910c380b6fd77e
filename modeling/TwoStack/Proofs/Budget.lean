import Mathlib.Algebra.GroupWithZero.Nat
import TwoStack.Proofs.Steps

/-! Budgets add up: an exhausted run can be taken up again, no other cares for a larger one. -/

namespace TwoStack

/-- The termination of a run that was taken up after `n` steps, as the whole run reports it. -/
def Termination.extend (n : Nat) : Termination → Termination
  | stepBudgetExhausted k => stepBudgetExhausted (n + k)
  | e => e

/-- The summary of a run that was taken up after `n` steps, as the whole run reports it. -/
def Summary.extend (n : Nat) (s : Summary) : Summary :=
  { s with steps := n + s.steps, termination := s.termination.extend n }

/-- Whether a result reports an exhausted budget. -/
def ranOut : Except Fault Summary → Bool
  | .ok ⟨_, _, _, _, .stepBudgetExhausted _⟩ => true
  | _ => false

namespace Reply

/-- Whether a reply comes from a run that exhausted its budget. -/
def ranOut : Reply → Bool
  | ran result => TwoStack.ranOut result
  | stepped _ => false

/-- The steps a reply counts. -/
def steps : Reply → Nat
  | ran (.ok s) => s.steps
  | _ => 0

end Reply

namespace Machine

variable {σ : Type} {obs : Observer σ} {m t u : Machine σ} {n k : Nat}

/-- The outcome of a run that was taken up after `n` steps, as the whole run reports it. -/
def extend (n : Nat) (x : Except Fault Summary × Machine σ) : Except Fault Summary × Machine σ :=
  (x.1.map (Summary.extend n), x.2)

theorem extend_summary (n k : Nat) (m : Machine σ) (e : Termination) :
    extend n (.ok (m.summary k e), m) = (.ok (m.summary (n + k) (e.extend n)), m) := rfl

theorem extend_extend (n k : Nat) (x : Except Fault Summary × Machine σ) :
    extend n (extend k x) = extend (n + k) x := by
  obtain ⟨_ | s, m⟩ := x
  · rfl
  · obtain ⟨steps, output, data, ret, e⟩ := s
    cases e <;> simp [extend, Summary.extend, Termination.extend, Except.map, Nat.add_assoc]

theorem extend_zero (x : Except Fault Summary × Machine σ) : extend 0 x = x := by
  obtain ⟨_ | s, m⟩ := x
  · rfl
  · obtain ⟨steps, output, data, ret, e⟩ := s
    cases e <;> simp [extend, Summary.extend, Termination.extend, Except.map]

theorem extend_restTermination (n : Nat) (m : Machine σ) :
    m.restTermination.extend n = m.restTermination := by
  unfold restTermination
  split <;> rfl

theorem runFrom_extend (obs : Observer σ) (m : Machine σ) (n taken left : Nat) :
    m.runFrom obs (n + taken) left = extend n (m.runFrom obs taken left) := by
  induction left generalizing m taken with
  | zero =>
    simp only [runFrom, extend_summary]
    split
    · rfl
    · rw [extend_restTermination]
  | succ left ih =>
    simp only [runFrom]
    rcases hs : m.step obs with ⟨f | o, u⟩
    · rfl
    · cases o with
      | «continue» => exact ih u (taken + 1)
      | halted | unknownOpcode q c => rfl
      | noInstruction => simp [extend_summary, extend_restTermination]

theorem run_add_of_steps (h : Steps obs m (goOn n) u) (k : Nat) :
    m.run obs (n + k) = extend n (u.run obs k) := by
  rw [run, run, runFrom_steps h, Nat.zero_add]
  exact runFrom_extend obs u n 0 k

/-- A run that exhausts its budget took all of its steps. -/
theorem run_exhausted {s : Summary} (h : m.run obs n = (.ok s, t)) (hs : ranOut (.ok s) = true) :
    Steps obs m (goOn n) t ∧ s.steps = n := by
  obtain ⟨k, u, hu, he⟩ := run_eq_iff.1 h
  cases he with
  | exhausted hn => exact ⟨hu, rfl⟩
  | rest hk hn => cases hh : t.halted <;> simp [ranOut, summary, restTermination, hh] at hs
  | halted hk | unknown hk => simp [ranOut, summary] at hs

/-- A run that ends otherwise ends in the same way under a larger budget. -/
theorem Ends.add {x : Except Fault Summary × Machine σ} {j : Nat} (h : Ends obs n j u x)
    (hx : ranOut x.1 = false) (k : Nat) : Ends obs (n + k) j u x := by
  cases h with
  | exhausted hn => simp [ranOut, summary] at hx
  | rest hk hn => exact .rest (by omega) hn
  | halted hk hs => exact .halted (by omega) hs
  | unknown hk hs => exact .unknown (by omega) hs
  | fault hk hs => exact .fault (by omega) hs

theorem run_add_of_exhausted (h : ranOut (m.run obs n).1 = true) (k : Nat) :
    m.run obs (n + k) = extend n ((m.run obs n).2.run obs k) := by
  rcases hr : m.run obs n with ⟨f | s, t⟩
  · simp [hr, ranOut] at h
  · rw [hr] at h
    exact run_add_of_steps (run_exhausted hr h).1 k

theorem run_add_of_not_exhausted (h : ranOut (m.run obs n).1 = false) (k : Nat) :
    m.run obs (n + k) = m.run obs n := by
  obtain ⟨j, u, hu, he⟩ := run_eq_iff.1 (rfl : m.run obs n = _)
  exact run_eq_iff.2 ⟨j, u, hu, he.add h k⟩

/-- Calls that exhaust their budgets count as many steps as they were given, and a last call after
them ends as one run with all the budgets does. -/
theorem calls_exhausted (obs : Observer σ) (m : Machine σ) (ns : List Nat) (k : Nat)
    (h : ∀ r ∈ (m.calls obs (ns.map .run)).1, r.ranOut = true) :
    (m.calls obs (ns.map .run)).1.map Reply.steps = ns ∧
      m.run obs (ns.sum + k) = extend ns.sum ((m.calls obs (ns.map .run)).2.run obs k) := by
  induction ns generalizing m with
  | nil => simp [calls, extend_zero]
  | cons n ns ih =>
    simp only [List.map_cons, calls, call, Prod.map_fst, Prod.map_snd, id_eq,
      List.forall_mem_cons] at h ⊢
    obtain ⟨hn, hns⟩ := h
    obtain ⟨hsteps, hrun⟩ := ih _ hns
    refine ⟨?_, ?_⟩
    · rcases hr : m.run obs n with ⟨f | s, t⟩
      · simp [hr, Reply.ranOut, ranOut] at hn
      · rw [hr] at hn hsteps
        simp [Reply.steps, (run_exhausted hr hn).2, hsteps]
    · rw [List.sum_cons, Nat.add_assoc, run_add_of_exhausted hn, hrun, extend_extend]

/-- Cutting a budget into several runs changes nothing but the steps that each of them counts. -/
theorem budgets_compose (obs : Observer σ) (m : Machine σ) :
    (∀ n k, ranOut (m.run obs n).1 = true →
        m.run obs (n + k) = extend n ((m.run obs n).2.run obs k)) ∧
      (∀ n k, ranOut (m.run obs n).1 = false → m.run obs (n + k) = m.run obs n) ∧
      ∀ ns k, (∀ r ∈ (m.calls obs (ns.map .run)).1, r.ranOut = true) →
        (m.calls obs (ns.map .run)).1.map Reply.steps = ns ∧
          m.run obs (ns.sum + k) = extend ns.sum ((m.calls obs (ns.map .run)).2.run obs k) :=
  ⟨fun _ k h => run_add_of_exhausted h k, fun _ k h => run_add_of_not_exhausted h k,
    fun ns k h => calls_exhausted obs m ns k h⟩

/-- A jump to itself under the budgets three, zero, two and four. -/
theorem budgets_compose_jump :
    (∀ r ∈ ((fresh #[0x0F, 0, 0, 0, 0] ()).calls .silent ([3, 0, 2].map .run)).1,
        r.ranOut = true) ∧
      (fresh #[0x0F, 0, 0, 0, 0] ()).run .silent 9 =
        extend 5 (((fresh #[0x0F, 0, 0, 0, 0] ()).calls .silent ([3, 0, 2].map .run)).2.run
          .silent 4) := by
  have hr : ∀ r ∈ ((fresh #[0x0F, 0, 0, 0, 0] ()).calls .silent ([3, 0, 2].map .run)).1,
      r.ranOut = true := by decide
  exact ⟨hr, ((budgets_compose .silent (fresh #[0x0F, 0, 0, 0, 0] ())).2.2 [3, 0, 2] 4 hr).2⟩

end Machine

end TwoStack
