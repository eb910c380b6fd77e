import TwoStack.Proofs.Boundaries

/-! Programs that branch forward only stop within as many steps as they have bytes. -/

namespace TwoStack

/-- Every branch with a complete operand goes to a larger address. Its byte may stand anywhere in the
image, inside the operand of another instruction too. -/
def Program.BranchesForward (p : Program) : Prop :=
  ∀ a < p.size, p[a]? = some 0x0E ∨ p[a]? = some 0x0F → a + 5 ≤ p.size →
    a < p.littleEndian (a + 1)

instance : DecidablePred Program.BranchesForward := fun p =>
  inferInstanceAs (Decidable (∀ a < p.size, p[a]? = some 0x0E ∨ p[a]? = some 0x0F →
    a + 5 ≤ p.size → a < p.littleEndian (a + 1)))

theorem Opcode.width_pos (op : Opcode) : 0 < op.width := by
  unfold width
  split <;> omega

namespace Machine

variable {σ : Type} {obs : Observer σ} {m : Machine σ} {op : Opcode} {p : Program}

theorem lt_faultPc (m : Machine σ) (op : Opcode) (f : Fault) : m.pc < m.faultPc op f := by
  unfold faultPc
  split <;> omega

theorem lt_target_of_jumps (hp : m.program.BranchesForward)
    (hb : m.program[m.pc]? = some op.byte) (hr : m.Ready m.pc op)
    (hj : Reading.jumps op m.data.ints = true) :
    m.pc < m.program.littleEndian (m.pc + 1) := by
  have hlt := (Array.getElem?_eq_some_iff.1 hb).1
  have hw := hr.operand (hasOperand_of_jumps hj)
  apply hp m.pc hlt _ hw
  rcases branch_of_jumps hj with rfl | rfl
  · exact Or.inr hb
  · exact Or.inl hb

/-- Whether a step falls through, branches, faults or finds an unassigned byte, it gets ahead. -/
theorem lt_step_pc (obs : Observer σ) (hp : m.program.BranchesForward) (hn : m.hasNext = true) :
    m.pc < (m.step obs).2.pc := by
  obtain ⟨hh, -⟩ := hasNext_iff.1 hn
  cases executes obs hn with
  | unknown b hb ho hs =>
    rw [hs]
    exact Nat.lt_succ_self m.pc
  | fault op f hb hf hs =>
    rw [hs]
    exact lt_faultPc m op f
  | ready op hb hr hs =>
    rw [step_pc_of_ok hh hb (congrArg Prod.fst hs)]
    by_cases hj : Reading.jumps op m.data.ints = true
    · rw [if_pos hj]
      exact lt_target_of_jumps hp hb hr hj
    · rw [if_neg hj]
      have hw := op.width_pos
      omega

/-- The recorded steps stand at larger and larger addresses, all of them behind the machine. So there
are no more of them than addresses that were passed. -/
structure Ascending (p : Program) (m : Machine (Array Event)) : Prop where
  program : m.program = p
  sorted : (m.snapshots.map Snapshot.pc).Pairwise (· < ·)
  passed : ∀ s ∈ m.snapshots, s.pc < m.pc
  length_le_pc : m.snapshots.length ≤ m.pc
  length_le_size : m.snapshots.length ≤ p.size

theorem ascending_fresh (p : Program) : Ascending p (fresh p #[]) := by
  refine ⟨rfl, ?_, ?_, ?_, ?_⟩
  all_goals simp [snapshots, fresh, Event.snapshots]

theorem ascending_step {m : Machine (Array Event)} (hp : p.BranchesForward)
    (hn : m.hasNext = true) (h : Ascending p m) : Ascending p (m.step .recorder).2 := by
  obtain ⟨rfl, hsorted, hpassed, hpc, hsize⟩ := h
  have hlt := (hasNext_iff.1 hn).2
  have hahead := lt_step_pc .recorder hp hn
  obtain ⟨s, hs⟩ := exists_upcoming? hn
  have hspc : m.pc = s.pc := (upcoming?_eq_some_iff.1 hs).2.1
  have hsnap := step_snapshots_of_upcoming? hs
  have hlength : (m.step .recorder).2.snapshots.length = m.snapshots.length + 1 := by simp [hsnap]
  refine ⟨step_program _ m, ?_, ?_, by omega, by omega⟩
  · rw [hsnap, List.map_append, List.pairwise_append]
    refine ⟨hsorted, List.pairwise_singleton _ _, ?_⟩
    intro a ha b hb
    obtain ⟨r, hr, rfl⟩ := List.mem_map.1 ha
    obtain rfl : b = s.pc := by simpa using hb
    rw [← hspc]
    exact hpassed r hr
  · intro r hr
    rw [hsnap, List.mem_append, List.mem_singleton] at hr
    rcases hr with hr | rfl
    · exact Nat.lt_trans (hpassed r hr) hahead
    · omega

theorem ascending_run (hp : p.BranchesForward) (budget : Nat) :
    Ascending p ((fresh p #[]).run .recorder budget).2 :=
  runFrom_keeps (fun _ hn h => ascending_step hp hn h) (ascending_fresh p) 0 budget

/-- The steps of a summary are those on record. -/
theorem steps_eq_recorded {budget : Nat} {s : Summary} {t : Machine (Array Event)}
    (h : (fresh p #[]).run .recorder budget = (.ok s, t)) : s.steps = t.snapshots.length := by
  obtain ⟨ss, hss, hcount, -⟩ := run_recorded (fresh p #[]) budget
  have hnil : (fresh p #[]).snapshots = [] := rfl
  rw [h, hnil, List.nil_append] at hss
  rw [hcount s (by rw [h]), hss]

/-- A budget is exhausted only by as many steps, with an instruction still to come. -/
theorem lt_size_of_exhausted {budget n : Nat} {s : Summary} {t : Machine σ}
    (h : m.run obs budget = (.ok s, t)) (hs : s.termination = .stepBudgetExhausted n) :
    s.steps = budget ∧ t.pc < t.program.size := by
  obtain ⟨k, u, -, he⟩ := run_eq_iff.1 h
  cases he with
  | exhausted hn => exact ⟨rfl, (hasNext_iff.1 hn).2⟩
  | rest hk hn => cases hh : t.halted <;> simp [summary, restTermination, hh] at hs
  | halted hk | unknown hk => simp [summary] at hs

/-- A run of a program that branches forward only fetches at larger and larger addresses, so it
takes at most as many steps as the program has bytes, and no budget of that size is exhausted. -/
theorem forward_program_stops (p : Program) (hp : p.BranchesForward) (budget : Nat)
    (obs : Observer σ) (start : σ) :
    let fetched := Event.addresses ((fresh p #[]).run .recorder budget).2.observer.toList
    let result := ((fresh p start).run obs budget).1
    fetched.Pairwise (· < ·) ∧ fetched.length ≤ p.size ∧
      (∀ s, result = .ok s → s.steps = fetched.length) ∧
      (p.size ≤ budget → ∀ s n, result = .ok s → s.termination ≠ .stepBudgetExhausted n) := by
  intro fetched result
  rcases hrun : (fresh p #[]).run .recorder budget with ⟨r, t⟩
  have hasc : Ascending p t := by
    have hkept := ascending_run hp budget
    rwa [hrun] at hkept
  have hfetched : fetched = t.snapshots.map Snapshot.pc := by
    simp only [fetched, hrun]
    exact (Event.map_pc_snapshots _).symm
  have hresult : result = r := by
    have hrec := congrArg Prod.fst (run_eq_recorded obs (fresh p start) budget)
    exact hrec.trans (congrArg Prod.fst hrun)
  rw [hresult, hfetched, List.length_map]
  refine ⟨hasc.sorted, hasc.length_le_size, ?_, ?_⟩
  · rintro s rfl
    exact steps_eq_recorded hrun
  · rintro hbudget s n rfl hn
    have hsteps := steps_eq_recorded hrun
    obtain ⟨hall, hinside⟩ := lt_size_of_exhausted hrun hn
    have hpassed := hasc.length_le_pc
    rw [hasc.program] at hinside
    omega

/-- A branch that is taken leads into an operand, and the jump found there out of the image. -/
theorem forward_program_stops_jump :
    let p : Program := #[0x01, 1, 0, 0, 0, 0x0E, 11, 0, 0, 0, 0x01, 0x0F, 0xFF, 0, 0, 0]
    p.BranchesForward ∧
      ((fresh p ()).run .silent 16).1 = .ok ⟨3, "", .empty, .empty, .endOfProgram 0xFF⟩ ∧
      (Event.addresses ((fresh p #[]).run .recorder 16).2.observer.toList).Pairwise (· < ·) ∧
      (Event.addresses ((fresh p #[]).run .recorder 16).2.observer.toList).length = 3 := by
  intro p
  have hp : p.BranchesForward := by decide +kernel
  have hr : ((fresh p ()).run .silent 16).1 =
      .ok ⟨3, "", .empty, .empty, .endOfProgram 0xFF⟩ := by decide +kernel
  obtain ⟨hsorted, -, hsteps, -⟩ := forward_program_stops p hp 16 .silent ()
  exact ⟨hp, hr, hsorted, (hsteps _ hr).symm⟩

end Machine

end TwoStack
