import Mathlib.Data.Finset.Lattice.Fold
import Mathlib.Data.Finset.Range
import Mathlib.Order.Lattice.Nat
import TwoStack.Proofs.Recording
import TwoStack.Proofs.Table

/-! Peak depths are exact. Steps that do not observe depths let no stack grow. -/

namespace TwoStack.Machine

variable {σ τ : Type} {obs : Observer σ} {q : Observer τ} {m : Machine σ} {k : Nat}
  {stack : Machine σ → Stack}

/-- The machine after `k` steps. -/
def after (obs : Observer σ) (m : Machine σ) : Nat → Machine σ
  | 0 => m
  | k + 1 => ((m.after obs k).step obs).2

/-- The greatest depth of a stack over the machine at the start and those after each of `k` steps. -/
def peak (obs : Observer σ) (m : Machine σ) (stack : Machine σ → Stack) (k : Nat) : Nat :=
  (Finset.range (k + 1)).sup fun i => (stack (m.after obs i)).depth

theorem peak_zero : m.peak obs stack 0 = (stack m).depth := by
  simp [peak, after]

theorem peak_succ : m.peak obs stack (k + 1) =
    max (m.peak obs stack k) (stack (m.after obs (k + 1))).depth := by
  rw [peak, Finset.range_add_one, Finset.sup_insert, max_comm]
  rfl

theorem depth_le_peak : (stack (m.after obs k)).depth ≤ m.peak obs stack k :=
  Finset.le_sup (f := fun i => (stack (m.after obs i)).depth) (Finset.self_mem_range_succ k)

/-- Depths that are within the peaks before a step raise the peaks to those after it, whether the
step observes them or not. -/
theorem step_peaks (obs : Observer σ) (hn : m.hasNext = true)
    (hd : m.data.depth ≤ m.stats.maxData) (hr : m.ret.depth ≤ m.stats.maxReturn) :
    (m.step obs).2.stats.maxData = max m.stats.maxData (m.step obs).2.data.depth ∧
      (m.step obs).2.stats.maxReturn = max m.stats.maxReturn (m.step obs).2.ret.depth := by
  cases executes obs hn with
  | unknown b hb ho hs =>
    rw [hs]
    exact ⟨(Nat.max_eq_left hd).symm, (Nat.max_eq_left hr).symm⟩
  | fault op f hb hf hs =>
    have hfaulted := faulted_fetched obs op f (hasNext_iff.1 hn).1
    rw [hs, hfaulted.maxData, hfaulted.maxReturn]
    have hshrunk := Nat.le_trans (depth_faultData_le m op) hd
    exact ⟨(Nat.max_eq_left hshrunk).symm, (Nat.max_eq_left hr).symm⟩
  | ready op hb hready hs =>
    obtain ⟨-, hdata, hret⟩ := fetched_execute_counted obs hready
    rw [hs]
    exact ⟨congrArg (max · _) hdata, congrArg (max · _) hret⟩

/-- Peaks that are exact at the start stay exact. -/
theorem peaks_after (hd : m.stats.maxData = m.data.depth) (hr : m.stats.maxReturn = m.ret.depth)
    (hx : ∀ i < k, (m.after obs i).hasNext = true) :
    (m.after obs k).stats.maxData = m.peak obs Machine.data k ∧
      (m.after obs k).stats.maxReturn = m.peak obs Machine.ret k := by
  induction k with
  | zero =>
    rw [peak_zero, peak_zero]
    exact ⟨hd, hr⟩
  | succ k ih =>
    obtain ⟨ihd, ihr⟩ := ih fun i hi => hx i (Nat.lt_succ_of_lt hi)
    rw [peak_succ, peak_succ, ← ihd, ← ihr]
    apply step_peaks obs (hx k (Nat.lt_succ_self k))
    · rw [ihd]
      exact depth_le_peak
    · rw [ihr]
      exact depth_le_peak

theorem after_map (h : obs.Hom q) (m : Machine σ) (k : Nat) :
    (m.map h.map).after q k = (m.after obs k).map h.map := by
  induction k with
  | zero => rfl
  | succ k ih =>
    rw [after, ih, step_map]
    rfl

/-- A machine is where as many steps as it has recorded lead to, and each of them was executed. -/
structure Traversed (p : Program) (m : Machine (Array Event)) : Prop where
  reached : m = (fresh p #[]).after .recorder m.snapshots.length
  executed : ∀ i < m.snapshots.length, ((fresh p #[]).after .recorder i).hasNext = true

theorem traversed_step {p : Program} {m : Machine (Array Event)} (hn : m.hasNext = true)
    (h : Traversed p m) : Traversed p (m.step .recorder).2 := by
  obtain ⟨hreached, hexecuted⟩ := h
  obtain ⟨s, hs⟩ := exists_upcoming? hn
  have hlength : (m.step .recorder).2.snapshots.length = m.snapshots.length + 1 := by
    simp [step_snapshots_of_upcoming? hs]
  refine ⟨?_, ?_⟩
  · rw [hlength, after, ← hreached]
  · intro i hi
    rw [hlength] at hi
    rcases Nat.lt_succ_iff_lt_or_eq.1 hi with hi | rfl
    · exact hexecuted i hi
    · rw [← hreached]
      exact hn

theorem traversed_calls (p : Program) (cs : List Call) :
    Traversed p ((fresh p #[]).calls .recorder cs).2 :=
  calls_keep (fun _ hn h => traversed_step hn h) ⟨rfl, fun _ hi => absurd hi (Nat.not_lt_zero _)⟩ cs

/-- Whatever is called, a machine goes through single steps, as many as a recorder records. -/
theorem calls_eq_after (p : Program) (cs : List Call) (obs : Observer σ) (start : σ) :
    let k := ((fresh p #[]).calls .recorder cs).2.snapshots.length
    ((fresh p start).calls obs cs).2 = (fresh p start).after obs k ∧
      ∀ i < k, ((fresh p start).after obs i).hasNext = true := by
  intro k
  obtain ⟨hreached, hexecuted⟩ := traversed_calls p cs
  have hafter (i : Nat) : (fresh p start).after obs i =
      ((fresh p #[]).after .recorder i).map (obs.replay start).map :=
    after_map (obs.replay start) (fresh p #[]) i
  refine ⟨?_, ?_⟩
  · rw [hafter, ← hreached]
    exact congrArg Prod.snd (calls_eq_recorded obs p start cs)
  · intro i hi
    rw [hafter]
    exact hexecuted i hi

/-- After any calls on a fresh machine the recorded peaks are the greatest depths that the stacks had
at the start and after each executed step, those that faulted or found an unassigned byte included.
So no stack is deeper than its peak. -/
theorem peak_depths_exact (p : Program) (cs : List Call) (obs : Observer σ) (start : σ) :
    let t := ((fresh p start).calls obs cs).2
    let k := ((fresh p #[]).calls .recorder cs).2.snapshots.length
    t = (fresh p start).after obs k ∧
      (∀ i < k, ((fresh p start).after obs i).hasNext = true) ∧
      t.stats.maxData = (fresh p start).peak obs Machine.data k ∧
      t.stats.maxReturn = (fresh p start).peak obs Machine.ret k ∧
      t.data.depth ≤ t.stats.maxData ∧ t.ret.depth ≤ t.stats.maxReturn := by
  intro t k
  obtain ⟨ht, hx⟩ : t = (fresh p start).after obs k ∧ _ := calls_eq_after p cs obs start
  obtain ⟨hd, hr⟩ := peaks_after (m := fresh p start) rfl rfl hx
  rw [← ht] at hd hr
  refine ⟨ht, hx, hd, hr, ?_, ?_⟩
  · rw [hd, ht]
    exact depth_le_peak
  · rw [hr, ht]
    exact depth_le_peak

end TwoStack.Machine
