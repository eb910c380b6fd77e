import TwoStack.Proofs.Tally
import TwoStack.Proofs.Table

/-! Stacks grow no faster than steps that move cells are counted. -/

namespace TwoStack

/-- Whether instructions of a class can leave one cell more on the stacks than they found. -/
def InstructionClass.movesCells : InstructionClass → Bool
  | stack | returnStack => true
  | _ => false

def Snapshot.movesCells (s : Snapshot) : Bool := s.class?.any InstructionClass.movesCells

/-- A step is of one class only. -/
theorem Snapshot.countP_movesCells (ss : List Snapshot) :
    ss.countP movesCells =
      ss.countP (·.class? = some .stack) + ss.countP (·.class? = some .returnStack) := by
  induction ss with
  | nil => rfl
  | cons s ss ih =>
    simp only [List.countP_cons, ih]
    rcases Option.eq_none_or_eq_some s.class? with hc | ⟨c, hc⟩
    · simp [movesCells, hc]
    · cases c <;> simp [movesCells, InstructionClass.movesCells, hc] <;> omega

theorem Stack.toNat_depthCell {s : Stack} (h : s.depth < UInt32.size) :
    s.depthCell.toNat = s.depth :=
  UInt32.toNat_ofNat_of_lt' h

theorem Stack.length_ints (s : Stack) : s.ints.length = s.depth := by
  simp [ints, depth]

/-- A row of the table adds at most one cell, and only in the two classes that move cells. -/
theorem Reading.stackEffect_length_le {operand : Nat} {op : Opcode} {d r d' r' : List Int}
    (h : stackEffect operand op d r = some (d', r')) :
    d'.length + r'.length ≤
      d.length + r.length + if op.instructionClass.movesCells then 1 else 0 := by
  unfold stackEffect at h
  split at h
  all_goals
    cases h <;> simp [Opcode.instructionClass, InstructionClass.movesCells] <;> omega

namespace Machine

variable {σ : Type} {obs : Observer σ} {m : Machine σ} {s : Snapshot}

/-- The cells on both stacks. -/
def cells (m : Machine σ) : Nat := m.data.depth + m.ret.depth

/-- A step adds at most one cell, and only if it is counted as moving cells. -/
theorem step_cells_le (obs : Observer σ) (h : m.upcoming? = some s) :
    (m.step obs).2.cells ≤ m.cells + if s.movesCells then 1 else 0 := by
  obtain ⟨-, hp, hb, -⟩ := upcoming?_eq_some_iff.1 h
  rw [← hp] at hb
  cases executes obs (hasNext_of_upcoming? h) with
  | unknown b hb' ho hs =>
    rw [hs]
    exact Nat.le_add_right m.cells _
  | fault op f hb' hf hs =>
    have hshrunk := depth_faultData_le m op
    rw [hs]
    show (m.faultData op).depth + m.ret.depth ≤ _
    unfold cells
    omega
  | ready op hb' hr hs =>
    have hrow := execute_stackEffect obs (m := m.fetched obs op) rfl (fetched_ready obs hr)
    have hlength := Reading.stackEffect_length_le hrow
    simp only [Stack.length_ints] at hlength
    have hclass : s.movesCells = op.instructionClass.movesCells := by
      have hbyte := Option.some.inj (hb.symm.trans hb')
      simp [Snapshot.movesCells, Snapshot.class?, hbyte]
    rw [hs, hclass]
    exact hlength

/-- There are no more cells on the stacks than recorded steps that move cells. -/
def Grown (m : Machine (Array Event)) : Prop :=
  m.cells ≤ m.snapshots.countP Snapshot.movesCells

theorem grown_step {m : Machine (Array Event)} (hn : m.hasNext = true) (h : Grown m) :
    Grown (m.step .recorder).2 := by
  obtain ⟨s, hs⟩ := exists_upcoming? hn
  have hstep := step_cells_le .recorder hs
  unfold Grown at h ⊢
  rw [step_snapshots_of_upcoming? hs, List.countP_append, List.countP_singleton]
  omega

theorem grown_fresh (p : Program) : Grown (fresh p #[]) := Nat.le_refl 0

theorem grown_calls (p : Program) (cs : List Call) :
    Grown ((fresh p #[]).calls .recorder cs).2 :=
  calls_keep (fun _ hn h => grown_step hn h) (grown_fresh p) cs

/-- The cells on the stacks, the counts of the two classes that move cells, and the count of all
steps, each at most as large as the next. -/
theorem cells_le_counted {m : Machine (Array Event)} (hg : Grown m) (ht : Tallied m)
    (hlt : m.snapshots.length < UInt64.size) :
    m.cells ≤ m.stats.stack.toNat + m.stats.returnStack.toNat ∧
      m.stats.stack.toNat + m.stats.returnStack.toNat ≤ m.stats.steps.toNat := by
  have hstack : m.stats.stack.toNat = _ :=
    (congrArg UInt64.toNat (ht.count .stack)).trans (Statistics.toNat_ofNat_countP _ hlt)
  have hret : m.stats.returnStack.toNat = _ :=
    (congrArg UInt64.toNat (ht.count .returnStack)).trans (Statistics.toNat_ofNat_countP _ hlt)
  rw [hstack, hret, ← Snapshot.countP_movesCells, ht.steps, UInt64.toNat_ofNat_of_lt' hlt]
  exact ⟨hg, List.countP_le_length⟩

/-- The opcodes that ask for a depth push it as a cell. -/
theorem step_measures (obs : Observer σ) (hh : m.halted = false) {op : Opcode}
    (hb : m.program[m.pc]? = some op.byte) (hop : op = .depth ∨ op = .rDepth) :
    ∃ u, m.step obs = (.ok .continue, u) ∧
      u.data = m.data.push (if op = .depth then m.data else m.ret).depthCell := by
  have hr : m.Ready m.pc op := by
    rcases hop with rfl | rfl <;>
      exact ⟨fun ho => by simp [Opcode.hasOperand] at ho, Nat.zero_le _, Nat.zero_le _⟩
  have hs := step_ready obs hh hb (Opcode.ofByte?_byte op) hr
  rcases hop with rfl | rfl <;> exact ⟨_, hs, rfl⟩

/-- After any calls on a fresh machine, faults included, the stacks hold no more cells than there are
steps that were counted as moving cells, and so no more than steps. While these are fewer than 2^32,
a depth is exact as a cell, and the opcodes that ask for a depth push the true one. -/
theorem growth_bounded_by_steps (p : Program) (cs : List Call) (obs : Observer σ) (start : σ)
    (hlt : ((fresh p #[]).calls .recorder cs).2.snapshots.length < UInt64.size) :
    let t := ((fresh p start).calls obs cs).2
    t.data.depth + t.ret.depth ≤ t.stats.stack.toNat + t.stats.returnStack.toNat ∧
      t.stats.stack.toNat + t.stats.returnStack.toNat ≤ t.stats.steps.toNat ∧
      (t.stats.steps.toNat < UInt32.size →
        t.data.depthCell.toNat = t.data.depth ∧ t.ret.depthCell.toNat = t.ret.depth ∧
        (t.halted = false → p[t.pc]? = some Opcode.depth.byte →
          ∃ c u, t.step obs = (.ok .continue, u) ∧ u.data = t.data.push c ∧
            c.toNat = t.data.depth) ∧
        (t.halted = false → p[t.pc]? = some Opcode.rDepth.byte →
          ∃ c u, t.step obs = (.ok .continue, u) ∧ u.data = t.data.push c ∧
            c.toNat = t.ret.depth)) := by
  intro t
  have hprogram : t.program = p := calls_program obs _ cs
  have hrecorded := congrArg Prod.snd (calls_eq_recorded obs p start cs)
  have hcells : t.cells = ((fresh p #[]).calls .recorder cs).2.cells := congrArg cells hrecorded
  have hstats : t.stats = ((fresh p #[]).calls .recorder cs).2.stats := congrArg stats hrecorded
  obtain ⟨hle, hsteps⟩ := cells_le_counted (grown_calls p cs) (tallied_calls p cs) hlt
  rw [← hcells, ← hstats] at hle
  rw [← hstats] at hsteps
  refine ⟨hle, hsteps, ?_⟩
  intro hfew
  have hcellsfew : t.data.depth + t.ret.depth < UInt32.size := by
    unfold cells at hle
    omega
  have hdata : t.data.depthCell.toNat = t.data.depth := Stack.toNat_depthCell (by omega)
  have hret : t.ret.depthCell.toNat = t.ret.depth := Stack.toNat_depthCell (by omega)
  refine ⟨hdata, hret, ?_, ?_⟩
  · intro hh hb
    rw [← hprogram] at hb
    obtain ⟨u, hs, hu⟩ := step_measures obs hh hb (Or.inl rfl)
    exact ⟨_, u, hs, hu, hdata⟩
  · intro hh hb
    rw [← hprogram] at hb
    obtain ⟨u, hs, hu⟩ := step_measures obs hh hb (Or.inr rfl)
    exact ⟨_, u, hs, hu, hret⟩

/-- A cell is pushed and sent to the other stack, an addition faults, and then the depth of the other
stack is asked for. -/
theorem growth_bounded_by_steps_rDepth :
    let p : Program := #[0x01, 7, 0, 0, 0, 0x30, 0x02, 0x34]
    let t := ((fresh p ()).calls .silent [.run 9]).2
    ((fresh p #[]).calls .recorder [.run 9]).2.snapshots.length < UInt64.size ∧
      t.stats.steps.toNat = 3 ∧ p[t.pc]? = some Opcode.rDepth.byte ∧
      ∃ c u, t.step .silent = (.ok .continue, u) ∧ u.data = t.data.push c ∧ c.toNat = 1 := by
  intro p t
  have hlt : ((fresh p #[]).calls .recorder [.run 9]).2.snapshots.length < UInt64.size := by
    decide +kernel
  have hsteps : t.stats.steps.toNat = 3 := by decide +kernel
  have hb : p[t.pc]? = some Opcode.rDepth.byte := by decide +kernel
  have hh : t.halted = false := by decide +kernel
  obtain ⟨-, -, hexact⟩ := growth_bounded_by_steps p [.run 9] .silent () hlt
  obtain ⟨-, -, -, hpushed⟩ := hexact (by change t.stats.steps.toNat < _; rw [hsteps]; decide)
  exact ⟨hlt, hsteps, hb, hpushed hh hb⟩

end Machine

end TwoStack
