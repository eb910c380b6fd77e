import Mathlib.Algebra.GroupWithZero.Nat
import TwoStack.Proofs.Recording

/-! Statistics are a function of the trace: a counter counts the recorded steps of a kind. -/

namespace TwoStack

namespace InstructionClass

def all : List InstructionClass :=
  [stack, arithmetic, compare, control, returnStack, io, system]

end InstructionClass

namespace Snapshot

/-- The class of a step, `none` if its byte is unassigned. -/
def class? (s : Snapshot) : Option InstructionClass :=
  (Opcode.ofByte? s.opcode).map Opcode.instructionClass

/-- How a step decides a branch. It decides none unless it is a conditional branch with a complete
operand over at least one cell. -/
def branch? (p : Program) (s : Snapshot) : Option Bool :=
  if s.opcode = 0x0E ∧ s.pc + 5 ≤ p.size then s.data.peek?.map (· != 0) else none

variable {p : Program} {s : Snapshot}

theorem class?_of_branch? {taken : Bool} (h : s.branch? p = some taken) :
    s.class? = some .control := by
  have hb : s.opcode = 0x0E := by
    by_contra hb
    simp [branch?, hb] at h
  rw [class?, hb]
  rfl

/-- Every step is in one class or unassigned. -/
theorem length_eq_sum_class (ss : List Snapshot) :
    ss.length =
      (InstructionClass.all.map fun c => ss.countP (·.class? = some c)).sum +
        ss.countP (·.class? = none) := by
  induction ss with
  | nil => rfl
  | cons s ss ih =>
    simp only [InstructionClass.all, List.map_cons, List.map_nil, List.sum_cons, List.sum_nil,
      List.countP_cons, List.length_cons] at ih ⊢
    rcases hc : s.class? with _ | c
    · simp
      omega
    · cases c <;> simp <;> omega

/-- A branch goes one way only, and it is a step of the control class. -/
theorem countP_branch?_le (p : Program) (ss : List Snapshot) :
    ss.countP (·.branch? p = some true) + ss.countP (·.branch? p = some false) ≤
      ss.countP (·.class? = some .control) := by
  induction ss with
  | nil => exact Nat.le_refl 0
  | cons s ss ih =>
    simp only [List.countP_cons]
    rcases hb : s.branch? p with _ | taken
    · simp
      omega
    · have hc := class?_of_branch? hb
      cases taken <;> simp [hc] <;> omega

end Snapshot

namespace Statistics

variable {p : Program} {ss : List Snapshot} {x : Snapshot} {s t : Statistics} {op : Opcode}

/-- The counters tell how many steps of each kind there are, as far as 64 bits can. -/
structure Tallies (p : Program) (ss : List Snapshot) (s : Statistics) : Prop where
  steps : s.steps = .ofNat ss.length
  count : ∀ c, s.count c = .ofNat (ss.countP (·.class? = some c))
  unknown : s.unknown = .ofNat (ss.countP (·.class? = none))
  taken : s.taken = .ofNat (ss.countP (·.branch? p = some true))
  notTaken : s.notTaken = .ofNat (ss.countP (·.branch? p = some false))

theorem ofNat_countP_concat (f : Snapshot → Bool) (ss : List Snapshot) (x : Snapshot) :
    UInt64.ofNat ((ss ++ [x]).countP f) =
      if f x then UInt64.ofNat (ss.countP f) + 1 else UInt64.ofNat (ss.countP f) := by
  rw [List.countP_append, List.countP_singleton]
  split
  · rw [UInt64.ofNat_add]
    rfl
  · rfl

theorem tallies_nil (p : Program) : Tallies p [] {} := by
  refine ⟨rfl, ?_, rfl, rfl, rfl⟩
  intro c
  cases c <;> rfl

theorem Tallies.counted (h : Tallies p ss s) (ho : Opcode.ofByte? x.opcode = some op)
    (hc : s.Counted op (x.branch? p) t) : Tallies p (ss ++ [x]) t := by
  have hx : x.class? = some op.instructionClass := by rw [Snapshot.class?, ho]; rfl
  refine ⟨?_, ?_, ?_, ?_, ?_⟩
  · rw [hc.steps, h.steps, List.length_append, UInt64.ofNat_add]
    rfl
  · intro c
    rw [hc.count, h.count, ofNat_countP_concat, hx]
    simp [eq_comm]
  · rw [hc.unknown, h.unknown, ofNat_countP_concat, hx]
    simp
  · rw [hc.taken, h.taken, ofNat_countP_concat]
    simp
  · rw [hc.notTaken, h.notTaken, ofNat_countP_concat]
    simp

theorem Tallies.recordUnknown (h : Tallies p ss s) (ho : Opcode.ofByte? x.opcode = none) :
    Tallies p (ss ++ [x]) s.recordUnknown := by
  have hx : x.class? = none := by rw [Snapshot.class?, ho]; rfl
  have hb : x.branch? p = none := by
    cases hb : x.branch? p with
    | none => rfl
    | some taken => simp [Snapshot.class?_of_branch? hb] at hx
  refine ⟨?_, ?_, ?_, ?_, ?_⟩
  · rw [List.length_append, UInt64.ofNat_add, ← h.steps]
    rfl
  · intro c
    rw [ofNat_countP_concat, ← h.count, hx]
    cases c <;> rfl
  · rw [ofNat_countP_concat, ← h.unknown, hx]
    rfl
  · rw [ofNat_countP_concat, ← h.taken, hb]
    rfl
  · rw [ofNat_countP_concat, ← h.notTaken, hb]
    rfl

/-- A counter is exact while there are fewer steps than it can hold. -/
theorem toNat_ofNat_countP (f : Snapshot → Bool) (h : ss.length < UInt64.size) :
    (UInt64.ofNat (ss.countP f)).toNat = ss.countP f :=
  UInt64.toNat_ofNat_of_lt' (Nat.lt_of_le_of_lt List.countP_le_length h)

end Statistics

namespace Machine

open Statistics

variable {σ : Type} {m : Machine σ} {b : UInt8} {op : Opcode}

/-- Only an opcode that decides a branch counts more than its step. -/
theorem fetched_execute_stats (obs : Observer σ) (m : Machine σ) (op : Opcode) :
    ((m.fetched obs op).execute obs m.pc op).2.stats =
      (Snapshot.branch? m.program ⟨m.pc, op.byte, m.data, m.ret⟩).elim (m.stats.record op)
        (m.stats.record op).recordBranch := by
  rw [execute_stats]
  cases op with
  | brIf =>
    have hbyte : Opcode.brIf.byte = 0x0E := rfl
    have hword : (m.fetched obs .brIf).program.word? (m.fetched obs .brIf).pc =
        m.program.word? (m.pc + 1) := rfl
    have hcells : (m.fetched obs .brIf).data.cells = m.data.cells := rfl
    have hstats : (m.fetched obs .brIf).stats = m.stats.record .brIf := rfl
    rw [hword, hcells, hstats]
    by_cases hw : m.pc + 5 ≤ m.program.size
    · obtain ⟨v, hv, -⟩ : ∃ v, m.program.word? (m.pc + 1) = some v ∧ v.toNat = _ :=
        Program.exists_word? (by omega)
      cases hc : m.data.cells <;> simp [Snapshot.branch?, hbyte, hw, hv, hc, Stack.peek?]
    · have hv : m.program.word? (m.pc + 1) = none := Program.word?_eq_none (by omega)
      simp [Snapshot.branch?, hw, hv]
  | _ => rfl

/-- An executed opcode is counted with its class and, if it decides a branch, with the decision. -/
theorem step_counted (obs : Observer σ) (hh : m.halted = false) (hb : m.program[m.pc]? = some b)
    (ho : Opcode.ofByte? b = some op) :
    m.stats.Counted op (Snapshot.branch? m.program ⟨m.pc, b, m.data, m.ret⟩)
      (m.step obs).2.stats := by
  obtain rfl := Opcode.ofByte?_eq_some_iff.1 ho
  have hc := (m.stats.counted_branch op
    (Snapshot.branch? m.program ⟨m.pc, op.byte, m.data, m.ret⟩)).1
  rw [← fetched_execute_stats obs] at hc
  rw [step_opcode hh hb ho, endStep_eq]
  split
  · exact hc.observeDepths _ _
  · exact hc

/-- The statistics of a machine count the steps it has recorded. -/
def Tallied (m : Machine (Array Event)) : Prop := m.stats.Tallies m.program m.snapshots

theorem tallied_step {m : Machine (Array Event)} (hn : m.hasNext = true) (h : Tallied m) :
    Tallied (m.step .recorder).2 := by
  obtain ⟨hh, hp⟩ := hasNext_iff.1 hn
  have hb := Array.getElem?_eq_getElem hp
  rw [Tallied, step_program, step_snapshots hh hb]
  cases ho : Opcode.ofByte? m.program[m.pc] with
  | none =>
    rw [step_unknown hh hb ho]
    exact Tallies.recordUnknown h ho
  | some op => exact Tallies.counted h ho (step_counted .recorder hh hb ho)

theorem tallied_fresh (p : Program) : Tallied (fresh p #[]) := tallies_nil p

theorem tallied_calls (p : Program) (cs : List Call) :
    Tallied ((fresh p #[]).calls .recorder cs).2 :=
  calls_keep (fun _ hn h => tallied_step hn h) (tallied_fresh p) cs

/-- A run adds the steps of its summary to the steps counted before. -/
theorem run_steps_counted {m t : Machine (Array Event)} {budget : Nat} {s : Summary}
    (h : Tallied m) (hr : m.run .recorder budget = (.ok s, t))
    (hlt : t.snapshots.length < UInt64.size) :
    t.stats.steps.toNat = m.stats.steps.toNat + s.steps := by
  have ht : Tallied t := by
    have hk := runFrom_keeps (fun _ hn h => tallied_step hn h) h 0 budget
    change Tallied (m.run .recorder budget).2 at hk
    rwa [hr] at hk
  obtain ⟨ss, hss, hcount, -⟩ := run_recorded m budget
  rw [hr] at hss hcount
  have hs := hcount s rfl
  have hlen : t.snapshots.length = m.snapshots.length + ss.length := by
    rw [hss, List.length_append]
  rw [ht.steps, h.steps, UInt64.toNat_ofNat_of_lt' hlt,
    UInt64.toNat_ofNat_of_lt' (Nat.lt_of_le_of_lt (by omega) hlt), hlen, hs]

/-- After any calls on a fresh machine every counter is the number of recorded steps of its kind,
faulting steps included. So the classes and the unassigned bytes add up to the steps, branches are
control steps, and a run adds to the steps what its summary says. -/
theorem statistics_tally_trace (p : Program) (cs : List Call)
    (hlt : ((fresh p #[]).calls .recorder cs).2.snapshots.length < UInt64.size) :
    let t := ((fresh p #[]).calls .recorder cs).2
    t.stats.steps.toNat = t.snapshots.length ∧
      (∀ c, (t.stats.count c).toNat = t.snapshots.countP (·.class? = some c)) ∧
      t.stats.unknown.toNat = t.snapshots.countP (·.class? = none) ∧
      t.stats.taken.toNat = t.snapshots.countP (·.branch? p = some true) ∧
      t.stats.notTaken.toNat = t.snapshots.countP (·.branch? p = some false) ∧
      t.stats.steps.toNat =
        (InstructionClass.all.map fun c => (t.stats.count c).toNat).sum + t.stats.unknown.toNat ∧
      t.stats.taken.toNat + t.stats.notTaken.toNat ≤ (t.stats.count .control).toNat ∧
      ∀ n s u, t.run .recorder n = (.ok s, u) → u.snapshots.length < UInt64.size →
        u.stats.steps.toNat = t.stats.steps.toNat + s.steps := by
  intro t
  have ht : Tallied t := tallied_calls p cs
  have hp : t.program = p := calls_program .recorder _ cs
  have hsteps : t.stats.steps.toNat = t.snapshots.length := by
    rw [ht.steps, UInt64.toNat_ofNat_of_lt' hlt]
  have hcount (c : InstructionClass) :
      (t.stats.count c).toNat = t.snapshots.countP (·.class? = some c) := by
    rw [ht.count, toNat_ofNat_countP _ hlt]
  have hunknown : t.stats.unknown.toNat = t.snapshots.countP (·.class? = none) := by
    rw [ht.unknown, toNat_ofNat_countP _ hlt]
  have htaken : t.stats.taken.toNat = t.snapshots.countP (·.branch? p = some true) := by
    rw [ht.taken, toNat_ofNat_countP _ hlt, hp]
  have hnotTaken : t.stats.notTaken.toNat = t.snapshots.countP (·.branch? p = some false) := by
    rw [ht.notTaken, toNat_ofNat_countP _ hlt, hp]
  refine ⟨hsteps, hcount, hunknown, htaken, hnotTaken, ?_, ?_, ?_⟩
  · simp only [hsteps, hcount, hunknown]
    exact Snapshot.length_eq_sum_class t.snapshots
  · rw [htaken, hnotTaken, hcount]
    exact Snapshot.countP_branch?_le p t.snapshots
  · intro n s u hr hu
    exact run_steps_counted ht hr hu

/-- A branch that is taken, one that finds no cell, and an unassigned byte. -/
theorem statistics_tally_trace_branch :
    let t := ((fresh #[0x01, 1, 0, 0, 0, 0x0E, 11, 0, 0, 0, 0xFF, 0x0E, 0, 0, 0, 0, 0x07]
      #[]).calls .recorder [.run 9, .step, .step]).2
    t.snapshots.length < UInt64.size ∧ t.stats.steps.toNat = 4 ∧
      (t.stats.count .control).toNat = 2 ∧ t.stats.unknown.toNat = 1 ∧ t.stats.taken.toNat = 1 ∧
      t.stats.notTaken.toNat = 0 := by
  intro t
  have hlt : t.snapshots.length < UInt64.size := by decide
  obtain ⟨hs, hc, hu, ht, hn, -⟩ := statistics_tally_trace _ _ hlt
  refine ⟨hlt, hs.trans ?_, (hc .control).trans ?_, hu.trans ?_, ht.trans ?_, hn.trans ?_⟩
  all_goals decide +kernel

end Machine

end TwoStack
