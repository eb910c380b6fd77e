import TwoStack.Proofs.Word
import TwoStack.Machine

/-! One step, part by part. Later proofs use these facts and do not open the step itself. -/

namespace TwoStack

namespace Opcode

/-- How many cells of the data stack an opcode asks for. -/
def dataNeeds : Opcode → Nat
  | add | sub | mul | eq | ltS | swap | dupSecond => 2
  | drop | print | dup | toR | brIf => 1
  | _ => 0

/-- How many cells of the return stack an opcode asks for. -/
def returnNeeds : Opcode → Nat
  | fromR | rFetch => 1
  | _ => 0

/-- Whether an opcode takes two cells off, one after the other, before it pushes. -/
def popsTwo : Opcode → Bool
  | add | sub | mul | eq | ltS | swap => true
  | _ => false

/-- The fault that an opcode at an address meets in an image of `size` bytes over stacks of the
given depths. -/
def fault? (op : Opcode) (addr size data ret : Nat) : Option Fault :=
  if op.hasOperand ∧ size < addr + 5 then some (.truncatedProgram addr)
  else if data < op.dataNeeds then some (.stackUnderflow addr)
  else if ret < op.returnNeeds then some (.returnStackUnderflow addr)
  else none

variable {op : Opcode} {addr size data ret : Nat}

theorem fault?_eq_some {f : Fault} (h : op.fault? addr size data ret = some f) :
    (op.hasOperand = true ∧ size < addr + 5 ∧ f = .truncatedProgram addr) ∨
      ((op.hasOperand = true → addr + 5 ≤ size) ∧ data < op.dataNeeds ∧ f = .stackUnderflow addr) ∨
      (ret < op.returnNeeds ∧ f = .returnStackUnderflow addr) := by
  unfold fault? at h
  by_cases hw : op.hasOperand = true ∧ size < addr + 5
  · rw [if_pos hw] at h
    exact Or.inl ⟨hw.1, hw.2, (Option.some.inj h).symm⟩
  · rw [if_neg hw] at h
    have hw' : op.hasOperand = true → addr + 5 ≤ size := fun ho => by
      simp only [ho, true_and] at hw
      omega
    split at h
    · exact Or.inr (Or.inl ⟨hw', ‹_›, (Option.some.inj h).symm⟩)
    · split at h
      · exact Or.inr (Or.inr ⟨‹_›, (Option.some.inj h).symm⟩)
      · simp at h

theorem fault?_eq_none_iff :
    op.fault? addr size data ret = none ↔
      (op.hasOperand = true → addr + 5 ≤ size) ∧ op.dataNeeds ≤ data ∧ op.returnNeeds ≤ ret := by
  grind [fault?]

end Opcode

namespace Stack

theorem exists_cells_of_one {s : Stack} (h : 1 ≤ s.depth) : ∃ c cs, s.cells = c :: cs := by
  obtain ⟨_ | ⟨c, cs⟩⟩ := s
  · simp [depth] at h
  · exact ⟨c, cs, rfl⟩

theorem exists_cells_of_two {s : Stack} (h : 2 ≤ s.depth) : ∃ y x cs, s.cells = y :: x :: cs := by
  obtain ⟨_ | ⟨y, _ | ⟨x, cs⟩⟩⟩ := s
  · simp [depth] at h
  · simp [depth] at h
  · exact ⟨y, x, cs, rfl⟩

theorem cells_of_lt_one {s : Stack} (h : s.depth < 1) : s.cells = [] := by
  simpa [depth] using h

theorem cells_of_lt_two {s : Stack} (h : s.depth < 2) : s.cells = [] ∨ ∃ x, s.cells = [x] := by
  obtain ⟨_ | ⟨x, _ | ⟨y, cs⟩⟩⟩ := s
  · exact Or.inl rfl
  · exact Or.inr ⟨x, rfl⟩
  · simp only [depth, List.length_cons] at h
    omega

end Stack

namespace Statistics

variable {s t : Statistics} {op : Opcode}

/-- `t` counts one step more than `s`, of the class of an opcode, and a conditional branch if there
was one. -/
structure Counted (s : Statistics) (op : Opcode) (branch : Option Bool) (t : Statistics) :
    Prop where
  steps : t.steps = s.steps + 1
  count : ∀ c, t.count c = if c = op.instructionClass then s.count c + 1 else s.count c
  unknown : t.unknown = s.unknown
  taken : t.taken = if branch = some true then s.taken + 1 else s.taken
  notTaken : t.notTaken = if branch = some false then s.notTaken + 1 else s.notTaken

theorem counted_record (s : Statistics) (op : Opcode) : s.Counted op none (s.record op) := by
  refine ⟨?_, fun c => ?_, ?_, ?_, ?_⟩
  · cases op <;> rfl
  · rw [record, count_setCount]
    split
    · rename_i hc
      rw [hc]
    · cases c <;> rfl
  all_goals cases op <;> rfl

theorem Counted.recordBranch (h : s.Counted op none t) (taken : Bool) :
    s.Counted op (some taken) (t.recordBranch taken) := by
  cases taken
  · exact ⟨h.steps, h.count, h.unknown, h.taken, congrArg (· + 1) h.notTaken⟩
  · exact ⟨h.steps, h.count, h.unknown, congrArg (· + 1) h.taken, h.notTaken⟩

theorem Counted.observeDepths {branch : Option Bool} (h : s.Counted op branch t) (data ret : Nat) :
    s.Counted op branch (t.observeDepths data ret) :=
  ⟨h.steps, h.count, h.unknown, h.taken, h.notTaken⟩

/-- Peak depths are not touched while a step is recorded. -/
theorem counted_branch (s : Statistics) (op : Opcode) (branch : Option Bool) :
    s.Counted op branch (branch.elim (s.record op) (s.record op).recordBranch) ∧
      (branch.elim (s.record op) (s.record op).recordBranch).maxData = s.maxData ∧
      (branch.elim (s.record op) (s.record op).recordBranch).maxReturn = s.maxReturn := by
  have hc := s.counted_record op
  have hd : (s.record op).maxData = s.maxData := by cases op <;> rfl
  have hr : (s.record op).maxReturn = s.maxReturn := by cases op <;> rfl
  cases branch with
  | none => exact ⟨hc, hd, hr⟩
  | some taken =>
    refine ⟨hc.recordBranch taken, ?_, ?_⟩
    · cases taken <;> exact hd
    · cases taken <;> exact hr

end Statistics

namespace Snapshot

/-- What a step reports: itself and, if it prints, the character with the low byte of the top
cell. -/
def events (s : Snapshot) : List Event :=
  .step s ::
    match Opcode.ofByte? s.opcode, s.data.cells with
    | some .print, c :: _ => [.print ⟨Char.ofUInt8 c.toUInt8, c.toUInt8⟩]
    | _, _ => []

end Snapshot

namespace Machine

variable {σ : Type} {obs : Observer σ} {m : Machine σ} {addr : Nat} {b : UInt8} {op : Opcode}

/-- The machine once an opcode has been read, reported and counted. -/
def fetched (obs : Observer σ) (m : Machine σ) (op : Opcode) : Machine σ :=
  { m.beginStep obs op.byte with stats := m.stats.record op }

theorem hasNext_iff : m.hasNext = true ↔ m.halted = false ∧ m.pc < m.program.size := by
  simp [hasNext]

theorem step_idle (h : m.hasNext = false) : m.step obs = (.ok .noInstruction, m) := by
  cases hh : m.halted with
  | true => simp [step, hh]
  | false =>
    have hp : m.program[m.pc]? = none := by simpa [hasNext, hh] using h
    simp [step, hh, hp]

theorem step_unknown (hh : m.halted = false) (hb : m.program[m.pc]? = some b)
    (ho : Opcode.ofByte? b = none) :
    m.step obs =
      (.ok (.unknownOpcode m.pc b), { m.beginStep obs b with stats := m.stats.recordUnknown }) := by
  simp [step, hh, hb, ho, beginStep]

theorem step_opcode (hh : m.halted = false) (hb : m.program[m.pc]? = some b)
    (ho : Opcode.ofByte? b = some op) :
    m.step obs = endStep ((m.fetched obs op).execute obs m.pc op) := by
  obtain rfl := Opcode.ofByte?_eq_some_iff.1 ho
  simp [step, hh, hb, fetched, beginStep]

/-- The end of a step adds to the statistics, and only after an instruction without a fault. -/
theorem endStep_eq (x : Except Fault Outcome × Machine σ) :
    endStep x = (x.1, { x.2 with
      stats := match x.1 with
        | .ok _ => x.2.stats.observeDepths x.2.data.depth x.2.ret.depth
        | .error _ => x.2.stats }) := by
  obtain ⟨_ | _, m⟩ := x <;> rfl

theorem execute_program (obs : Observer σ) (m : Machine σ) (addr : Nat) (op : Opcode) :
    (m.execute obs addr op).2.program = m.program := by
  cases op <;> simp only [execute, withOperand, binary, branch, emit, proceed, fault] <;>
    repeat' split
  all_goals rfl

theorem execute_halted (obs : Observer σ) (m : Machine σ) (addr : Nat) (op : Opcode) :
    (m.execute obs addr op).2.halted = (m.halted || op == .halt) := by
  cases op <;> simp only [execute, withOperand, binary, branch, emit, proceed, fault] <;>
    repeat' split
  all_goals simp

theorem execute_pc_of_bare (obs : Observer σ) (m : Machine σ) (addr : Nat)
    (ho : op.hasOperand = false) : (m.execute obs addr op).2.pc = m.pc := by
  cases op with
  | push | brIf | jump => simp [Opcode.hasOperand] at ho
  | _ =>
    simp only [execute, binary, emit, proceed, fault]
    repeat' split
    all_goals rfl

/-- An instruction reports nothing but the character it prints. -/
theorem execute_observer (obs : Observer σ) (m : Machine σ) (addr : Nat) (op : Opcode) :
    (m.execute obs addr op).2.observer =
      match op, m.data.cells with
      | .print, c :: _ => obs.onPrint ⟨Char.ofUInt8 c.toUInt8, c.toUInt8⟩ m.observer
      | _, _ => m.observer := by
  cases op <;> simp only [execute, withOperand, binary, branch, emit, proceed, fault] <;>
    repeat' split
  all_goals simp_all

/-- An instruction counts nothing but a conditional branch that finds its operand and its cell. -/
theorem execute_stats (obs : Observer σ) (m : Machine σ) (addr : Nat) (op : Opcode) :
    (m.execute obs addr op).2.stats =
      match op, m.program.word? m.pc, m.data.cells with
      | .brIf, some _, c :: _ => m.stats.recordBranch (c != 0)
      | _, _, _ => m.stats := by
  cases op <;> simp only [execute, withOperand, binary, branch, emit, proceed, fault] <;>
    repeat' split
  all_goals simp_all

theorem step_program (obs : Observer σ) (m : Machine σ) : (m.step obs).2.program = m.program := by
  cases hn : m.hasNext with
  | false => rw [step_idle hn]
  | true =>
    obtain ⟨hh, hp⟩ := hasNext_iff.1 hn
    have hb := Array.getElem?_eq_getElem hp
    cases ho : Opcode.ofByte? m.program[m.pc] with
    | none => rw [step_unknown hh hb ho]; rfl
    | some op =>
      rw [step_opcode hh hb ho, endStep_eq]
      exact execute_program obs _ _ _

/-- Every executed step reports its own events and no others. -/
theorem step_observer (obs : Observer σ) (hh : m.halted = false) (hb : m.program[m.pc]? = some b) :
    (m.step obs).2.observer =
      (Snapshot.events ⟨m.pc, b, m.data, m.ret⟩).foldl obs.receive m.observer := by
  cases ho : Opcode.ofByte? b with
  | none =>
    rw [step_unknown hh hb ho]
    simp [Snapshot.events, ho, beginStep, Observer.receive]
  | some op =>
    rw [step_opcode hh hb ho, endStep_eq]
    obtain rfl := Opcode.ofByte?_eq_some_iff.1 ho
    simp only [execute_observer, Snapshot.events, ho, fetched, beginStep]
    split <;> split <;> simp_all [Observer.receive]

/-- The operand of an opcode at an address is complete, and both stacks are deep enough for it. -/
structure Ready (m : Machine σ) (addr : Nat) (op : Opcode) : Prop where
  operand : op.hasOperand = true → addr + 5 ≤ m.program.size
  data : op.dataNeeds ≤ m.data.depth
  ret : op.returnNeeds ≤ m.ret.depth

theorem withOperand_complete (hp : m.pc = addr + 1) (hw : addr + 5 ≤ m.program.size) :
    ∃ v, v.toNat = m.program.littleEndian (addr + 1) ∧
      ∀ k, m.withOperand addr k = k v { m with pc := addr + 5 } := by
  obtain ⟨v, hv, hn⟩ : ∃ v, m.program.word? (addr + 1) = some v ∧ v.toNat = _ :=
    Program.exists_word? (by omega)
  refine ⟨v, hn, fun k => ?_⟩
  simp [withOperand, hp, hv]

theorem execute_ok (obs : Observer σ) (hp : m.pc = addr + 1) (h : m.Ready addr op) :
    (m.execute obs addr op).1 = .ok (if op = .halt then .halted else .continue) := by
  obtain ⟨hw, hd, hr⟩ := h
  cases op with
  | add | sub | mul | eq | ltS | swap | dupSecond =>
    obtain ⟨y, x, cs, hc⟩ := Stack.exists_cells_of_two hd
    simp [execute, binary, proceed, hc]
  | drop | print | dup | toR =>
    obtain ⟨c, cs, hc⟩ := Stack.exists_cells_of_one hd
    simp [execute, proceed, hc]
  | fromR | rFetch =>
    obtain ⟨c, cs, hc⟩ := Stack.exists_cells_of_one hr
    simp [execute, proceed, hc]
  | push | jump =>
    obtain ⟨v, -, hv⟩ := withOperand_complete hp (hw rfl)
    simp [execute, hv, proceed]
  | brIf =>
    obtain ⟨v, -, hv⟩ := withOperand_complete hp (hw rfl)
    obtain ⟨c, cs, hc⟩ := Stack.exists_cells_of_one hd
    simp [execute, hv, branch, proceed, hc]
  | depth | rDepth | halt => rfl

theorem fetched_ready (obs : Observer σ) (h : m.Ready m.pc op) : (m.fetched obs op).Ready m.pc op :=
  ⟨h.operand, h.data, h.ret⟩

theorem step_ready (obs : Observer σ) (hh : m.halted = false) (hb : m.program[m.pc]? = some b)
    (ho : Opcode.ofByte? b = some op) (h : m.Ready m.pc op) :
    m.step obs =
      (.ok (if op = .halt then .halted else .continue),
        let x := ((m.fetched obs op).execute obs m.pc op).2
        { x with stats := x.stats.observeDepths x.data.depth x.ret.depth }) := by
  rw [step_opcode hh hb ho, endStep_eq, execute_ok obs rfl (fetched_ready obs h)]

theorem execute_truncated (hp : m.pc = addr + 1) (ho : op.hasOperand = true)
    (hs : m.program.size < addr + 5) :
    m.execute obs addr op = m.fault (.truncatedProgram addr) := by
  have hv : m.program.word? m.pc = none := Program.word?_eq_none (by omega)
  cases op with
  | push | brIf | jump => simp [execute, withOperand, hv]
  | _ => simp [Opcode.hasOperand] at ho

theorem execute_stackUnderflow (hp : m.pc = addr + 1)
    (hw : op.hasOperand = true → addr + 5 ≤ m.program.size) (hd : m.data.depth < op.dataNeeds) :
    m.execute obs addr op =
      { m with
        pc := addr + op.width
        data := if op.popsTwo then .empty else m.data }.fault (.stackUnderflow addr) := by
  cases op with
  | add | sub | mul | eq | ltS | swap | dupSecond =>
    obtain hc | ⟨x, hc⟩ := Stack.cells_of_lt_two hd <;>
      simp [execute, binary, hc, Opcode.width, Opcode.hasOperand, Opcode.popsTwo, ← hp]
  | drop | print | dup | toR =>
    have hc := Stack.cells_of_lt_one hd
    simp [execute, hc, Opcode.width, Opcode.hasOperand, Opcode.popsTwo, ← hp]
  | brIf =>
    obtain ⟨v, -, hv⟩ := withOperand_complete hp (hw rfl)
    have hc := Stack.cells_of_lt_one hd
    simp [execute, hv, branch, hc, Opcode.width, Opcode.hasOperand, Opcode.popsTwo]
  | _ => simp [Opcode.dataNeeds] at hd

theorem execute_returnStackUnderflow (hr : m.ret.depth < op.returnNeeds) :
    m.execute obs addr op = m.fault (.returnStackUnderflow addr) := by
  cases op with
  | fromR | rFetch =>
    have hc := Stack.cells_of_lt_one hr
    simp [execute, hc]
  | _ => simp [Opcode.returnNeeds] at hr

/-- A fault leaves the program counter behind what was read, and loses a cell that was taken off. -/
theorem execute_fault {f : Fault} (obs : Observer σ) (hp : m.pc = addr + 1)
    (hf : op.fault? addr m.program.size m.data.depth m.ret.depth = some f) :
    m.execute obs addr op =
      { m with
        pc := if f = Fault.stackUnderflow addr then addr + op.width else addr + 1
        data := if op.popsTwo then .empty else m.data }.fault f := by
  obtain ⟨ho, hs, rfl⟩ | ⟨hw, hd, rfl⟩ | ⟨hr, rfl⟩ := Opcode.fault?_eq_some hf
  · have hpop : op.popsTwo = false := by cases op <;> simp_all [Opcode.hasOperand, Opcode.popsTwo]
    rw [execute_truncated hp ho hs]
    simp [hpop, ← hp]
  · rw [execute_stackUnderflow hp hw hd]
    simp
  · have hpop : op.popsTwo = false := by cases op <;> simp_all [Opcode.returnNeeds, Opcode.popsTwo]
    rw [execute_returnStackUnderflow hr]
    simp [hpop, ← hp]

end Machine

end TwoStack
