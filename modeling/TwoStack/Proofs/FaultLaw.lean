import TwoStack.Proofs.Step
import TwoStack.Run

/-! Which steps fault, and the machine that a fault leaves behind. -/

namespace TwoStack.Machine

variable {σ : Type} {m : Machine σ} {b : UInt8} {op : Opcode} {f : Fault}

/-- The fault that an opcode at the program counter meets. -/
def faultAt? (m : Machine σ) (op : Opcode) : Option Fault :=
  op.fault? m.pc m.program.size m.data.depth m.ret.depth

theorem faultAt?_eq_none_iff : m.faultAt? op = none ↔ m.Ready m.pc op := by
  rw [faultAt?, Opcode.fault?_eq_none_iff]
  constructor
  · rintro ⟨hw, hd, hr⟩
    exact ⟨hw, hd, hr⟩
  · intro h
    exact ⟨h.operand, h.data, h.ret⟩

/-- A fault leaves the program counter behind the opcode byte, except that a conditional branch
without a cell has read its operand. -/
def faultPc (m : Machine σ) (op : Opcode) (f : Fault) : Nat :=
  if op = .brIf ∧ f = .stackUnderflow m.pc then m.pc + 5 else m.pc + 1

/-- A fault leaves the data stack alone, except that a single cell is lost to an opcode that pops
two. -/
def faultData (m : Machine σ) (op : Opcode) : Stack :=
  if op.popsTwo = true ∧ m.data.depth = 1 then .empty else m.data

/-- `t` is what a fault at an opcode leaves of `m`. -/
structure Faulted (obs : Observer σ) (m : Machine σ) (op : Opcode) (f : Fault) (t : Machine σ) :
    Prop where
  program : t.program = m.program
  pc : t.pc = m.faultPc op f
  data : t.data = m.faultData op
  ret : t.ret = m.ret
  output : t.output = m.output
  halted : t.halted = false
  counted : m.stats.Counted op none t.stats
  maxData : t.stats.maxData = m.stats.maxData
  maxReturn : t.stats.maxReturn = m.stats.maxReturn
  /-- One step is reported, and nothing else. -/
  observer : t.observer = obs.onStep ⟨m.pc, op.byte, m.data, m.ret⟩ m.observer

/-- Only a conditional branch reads an operand and then a cell. -/
theorem faultPc_eq (hf : m.faultAt? op = some f) :
    (if f = .stackUnderflow m.pc then m.pc + op.width else m.pc + 1) = m.faultPc op f := by
  obtain ⟨-, -, rfl⟩ | ⟨-, hd, rfl⟩ | ⟨-, rfl⟩ := Opcode.fault?_eq_some hf
  · simp [faultPc]
  · cases op with
    | push | jump => simp [Opcode.dataNeeds] at hd
    | _ => simp [faultPc, Opcode.width, Opcode.hasOperand]
  · simp [faultPc]

theorem faultData_eq (hf : m.faultAt? op = some f) :
    (if op.popsTwo then .empty else m.data) = m.faultData op := by
  cases hpop : op.popsTwo with
  | false => simp [faultData, hpop]
  | true =>
    have hd : m.data.depth < 2 := by
      obtain ⟨ho, -, -⟩ | ⟨-, hd, -⟩ | ⟨hr, -⟩ := Opcode.fault?_eq_some hf
      · cases op <;> simp_all [Opcode.popsTwo, Opcode.hasOperand]
      · cases op <;> simp_all [Opcode.popsTwo, Opcode.dataNeeds]
      · cases op <;> simp_all [Opcode.popsTwo, Opcode.returnNeeds]
    obtain hc | ⟨x, hc⟩ := Stack.cells_of_lt_two hd
    · simp [faultData, hpop, Stack.depth, hc, Stack.empty, Stack.ext_iff]
    · simp [faultData, hpop, Stack.depth, hc]

/-- No fault is met after a push. -/
theorem depth_faultData_le (m : Machine σ) (op : Opcode) :
    (m.faultData op).depth ≤ m.data.depth := by
  unfold faultData
  split
  · exact Nat.zero_le _
  · exact Nat.le_refl _

theorem step_fault (obs : Observer σ) (hh : m.halted = false) (hb : m.program[m.pc]? = some b)
    (ho : Opcode.ofByte? b = some op) (hf : m.faultAt? op = some f) :
    m.step obs =
      (.error f, { m.fetched obs op with pc := m.faultPc op f, data := m.faultData op }) := by
  have hx := execute_fault (m := m.fetched obs op) obs rfl hf
  rw [step_opcode hh hb ho, hx, ← faultPc_eq hf, ← faultData_eq hf]
  rfl

theorem faulted_fetched (obs : Observer σ) (op : Opcode) (f : Fault) (hh : m.halted = false) :
    Faulted obs m op f
      { m.fetched obs op with pc := m.faultPc op f, data := m.faultData op } := by
  obtain ⟨hc, hd, hr⟩ := m.stats.counted_branch op none
  exact ⟨rfl, rfl, rfl, rfl, rfl, hh, hc, hd, hr, rfl⟩

/-- What a step finds, and what it then does: an unassigned byte, an opcode that faults, or an opcode
that does its work. -/
inductive Executes (obs : Observer σ) (m : Machine σ) : Prop
  | unknown (b : UInt8) (hb : m.program[m.pc]? = some b) (ho : Opcode.ofByte? b = none)
      (hs : m.step obs = (.ok (.unknownOpcode m.pc b),
        { m.beginStep obs b with stats := m.stats.recordUnknown }))
  | fault (op : Opcode) (f : Fault) (hb : m.program[m.pc]? = some op.byte)
      (hf : m.faultAt? op = some f)
      (hs : m.step obs = (.error f,
        { m.fetched obs op with pc := m.faultPc op f, data := m.faultData op }))
  | ready (op : Opcode) (hb : m.program[m.pc]? = some op.byte) (hr : m.Ready m.pc op)
      (hs : m.step obs = (.ok (if op = .halt then .halted else .continue),
        let x := ((m.fetched obs op).execute obs m.pc op).2
        { x with stats := x.stats.observeDepths x.data.depth x.ret.depth }))

theorem executes (obs : Observer σ) (hn : m.hasNext = true) : Executes obs m := by
  obtain ⟨hh, hp⟩ := hasNext_iff.1 hn
  have hb := Array.getElem?_eq_getElem hp
  cases ho : Opcode.ofByte? m.program[m.pc] with
  | none => exact .unknown _ hb ho (step_unknown hh hb ho)
  | some op =>
    rw [← Opcode.ofByte?_eq_some_iff.1 ho] at hb
    have hop := Opcode.ofByte?_byte op
    cases hf : m.faultAt? op with
    | some f => exact .fault op f hb hf (step_fault obs hh hb hop hf)
    | none =>
      have hr := faultAt?_eq_none_iff.1 hf
      exact .ready op hb hr (step_ready obs hh hb hop hr)

/-- Every way a step can go while there is an instruction left. -/
theorem step_cases (obs : Observer σ) (hn : m.hasNext = true) :
    (∃ t, m.step obs = (.ok .continue, t) ∧ t.halted = false) ∨
      (∃ t, m.step obs = (.ok .halted, t) ∧ t.halted = true) ∨
      (∃ c t, m.step obs = (.ok (.unknownOpcode m.pc c), t) ∧ m.program[m.pc]? = some c ∧
        Opcode.ofByte? c = none ∧ t.pc = m.pc + 1 ∧ t.halted = false) ∨
      ∃ f t, m.step obs = (.error f, t) ∧ t.halted = false := by
  obtain ⟨hh, -⟩ := hasNext_iff.1 hn
  cases executes obs hn with
  | unknown b hb ho hs => exact Or.inr (Or.inr (Or.inl ⟨b, _, hs, hb, ho, rfl, hh⟩))
  | fault op f hb hf hs => exact Or.inr (Or.inr (Or.inr ⟨f, _, hs, hh⟩))
  | ready op hb hr hs =>
    have ht : ((m.fetched obs op).execute obs m.pc op).2.halted = (op == .halt) := by
      simp [execute_halted, fetched, beginStep, hh]
    by_cases hop : op = .halt
    · rw [if_pos hop] at hs
      exact Or.inr (Or.inl ⟨_, hs, ht.trans (beq_iff_eq.2 hop)⟩)
    · rw [if_neg hop] at hs
      exact Or.inl ⟨_, hs, ht.trans (beq_eq_false_iff_ne.2 hop)⟩

/-- A step at an opcode faults exactly when the operand is cut short or a stack is not deep enough,
and every fault leaves exactly one machine behind, which its report shows. -/
theorem step_fault_law (obs : Observer σ) (m : Machine σ) (b : UInt8) (op : Opcode)
    (hh : m.halted = false) (hb : m.program[m.pc]? = some b) (ho : Opcode.ofByte? b = some op) :
    (∀ f, (m.step obs).1 = .error f ↔ m.faultAt? op = some f) ∧
      ((∃ o, (m.step obs).1 = .ok o) ↔ m.faultAt? op = none) ∧
      ∀ f t, m.step obs = (.error f, t) →
        Faulted obs m op f t ∧
          t.faultReport f = ⟨f, m.faultPc op f, m.output, m.faultData op, m.ret⟩ := by
  cases hf : m.faultAt? op with
  | none =>
    have hs := step_ready obs hh hb ho (faultAt?_eq_none_iff.1 hf)
    refine ⟨?_, ?_, ?_⟩
    · intro f
      simp [hs]
    · simp [hs]
    · intro f t ht
      simp [hs] at ht
  | some g =>
    have hs := step_fault obs hh hb ho hf
    refine ⟨?_, ?_, ?_⟩
    · intro f
      simp [hs]
    · simp [hs]
    · intro f t ht
      obtain ⟨hg, rfl⟩ := Prod.mk.inj (hs.symm.trans ht)
      obtain rfl := Except.error.inj hg
      exact ⟨faulted_fetched obs op g hh, rfl⟩

/-- Addition over a single cell loses it. -/
theorem step_fault_law_add :
    ∃ t, ({ fresh #[0x02] () with data := ⟨[9]⟩ } : Machine Unit).step .silent =
        (.error (.stackUnderflow 0), t) ∧
      t.faultReport (.stackUnderflow 0) = ⟨.stackUnderflow 0, 1, "", .empty, .empty⟩ := by
  have h := step_fault_law .silent { fresh #[0x02] () with data := ⟨[9]⟩ } 0x02 .add rfl rfl rfl
  have hs := (h.1 (.stackUnderflow 0)).2 rfl
  exact ⟨_, Prod.ext hs rfl, (h.2.2 _ _ (Prod.ext hs rfl)).2⟩

end TwoStack.Machine
