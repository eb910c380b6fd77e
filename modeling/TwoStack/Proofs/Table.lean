import TwoStack.Proofs.Step

/-! The instruction table over the integers. A step that can do its work is a row of it. -/

namespace TwoStack

/-- A machine as the table sees it: cells and characters are integers, and the top of a stack stands
first. -/
structure Reading where
  pc : Nat
  data : List Int
  ret : List Int
  output : List Int
  halted : Bool
  deriving DecidableEq

namespace Reading

/-- The value of a cell in a signed comparison. -/
def signed (v : Int) : Int := if v < 0x80000000 then v else v - 0x100000000

/-- Stack effects. There is none where a stack is not deep enough. -/
def stackEffect (operand : Nat) : Opcode → List Int → List Int → Option (List Int × List Int)
  | .push, d, r => some (operand :: d, r)
  | .add, b :: a :: d, r => some ((a + b) % 0x100000000 :: d, r)
  | .sub, b :: a :: d, r => some ((a - b) % 0x100000000 :: d, r)
  | .mul, b :: a :: d, r => some (a * b % 0x100000000 :: d, r)
  | .drop, _ :: d, r => some (d, r)
  | .print, _ :: d, r => some (d, r)
  | .eq, b :: a :: d, r => some ((if a = b then 1 else 0) :: d, r)
  | .ltS, b :: a :: d, r => some ((if signed a < signed b then 1 else 0) :: d, r)
  | .brIf, _ :: d, r => some (d, r)
  | .jump, d, r => some (d, r)
  | .dup, v :: d, r => some (v :: v :: d, r)
  | .swap, b :: a :: d, r => some (a :: b :: d, r)
  | .dupSecond, b :: a :: d, r => some (a :: b :: a :: d, r)
  | .toR, v :: d, r => some (d, v :: r)
  | .fromR, d, v :: r => some (v :: d, r)
  | .rFetch, d, v :: r => some (v :: d, v :: r)
  | .depth, d, r => some (d.length % 0x100000000 :: d, r)
  | .rDepth, d, r => some (r.length % 0x100000000 :: d, r)
  | .halt, d, r => some (d, r)
  | _, _, _ => none

/-- Whether an instruction goes to its operand. -/
def jumps : Opcode → List Int → Bool
  | .jump, _ => true
  | .brIf, c :: _ => c ≠ 0
  | _, _ => false

/-- How a conditional branch goes. -/
def branch? : Opcode → List Int → Option Bool
  | .brIf, c :: _ => some (c ≠ 0)
  | _, _ => none

/-- The code points an instruction adds to the output. -/
def written : Opcode → List Int → List Int
  | .print, v :: _ => [v % 0x100]
  | _, _ => []

/-- The instruction table. -/
def row (operand : Nat) (s : Reading) (op : Opcode) : Option Reading :=
  (stackEffect operand op s.data s.ret).map fun (d, r) =>
    { pc := if jumps op s.data then operand else s.pc + op.width
      data := d
      ret := r
      output := s.output ++ written op s.data
      halted := s.halted || op == .halt }

end Reading

/-- The integer in a cell. -/
def cell (c : UInt32) : Int := c.toNat

/-- The integers in a stack, the top first. -/
def Stack.ints (s : Stack) : List Int := s.cells.map cell

/-- The code points of a text. -/
def codes (s : String) : List Int := s.toList.map fun c => (c.toNat : Int)

def Machine.reading {σ : Type} (m : Machine σ) : Reading where
  pc := m.pc
  data := m.data.ints
  ret := m.ret.ints
  output := codes m.output
  halted := m.halted

theorem cell_add (a b : UInt32) : cell (a + b) = (cell a + cell b) % 0x100000000 := by
  simp only [cell, UInt32.toNat_add]
  omega

theorem cell_sub (a b : UInt32) : cell (a - b) = (cell a - cell b) % 0x100000000 := by
  have ha := a.toNat_lt
  have hb := b.toNat_lt
  simp only [cell, UInt32.toNat_sub]
  omega

theorem cell_mul (a b : UInt32) : cell (a * b) = cell a * cell b % 0x100000000 := by
  rw [cell, UInt32.toNat_mul, Int.natCast_emod, Int.natCast_mul]
  rfl

theorem cell_inj {a b : UInt32} : cell a = cell b ↔ a = b := by
  rw [cell, cell, Int.natCast_inj, UInt32.toNat_inj]

theorem cell_eq_zero_iff {a : UInt32} : cell a = 0 ↔ a = 0 := cell_inj (b := 0)

theorem cell_flag (b : Bool) : cell (Machine.flag b) = if b then 1 else 0 := by
  cases b <;> rfl

theorem cell_depthCell (s : Stack) : cell s.depthCell = s.ints.length % 0x100000000 := by
  simp [cell, Stack.depthCell, Stack.depth, Stack.ints]

/-- The two's complement reading of a word is the table's signed value. -/
theorem toInt_toInt32 (a : UInt32) : a.toInt32.toInt = Reading.signed (cell a) := by
  have ha := a.toNat_lt
  rw [Int32.toInt, UInt32.toBitVec_toInt32, BitVec.toInt_eq_toNat_cond, UInt32.toNat_toBitVec]
  by_cases h : a.toNat < 0x80000000
  · rw [if_pos (by omega), Reading.signed, if_pos (by unfold cell; omega), cell]
  · rw [if_neg (by omega), Reading.signed, if_neg (by unfold cell; omega), cell]
    rfl

theorem codes_push (s : String) (c : UInt32) :
    codes (s.push (Char.ofUInt8 c.toUInt8)) = codes s ++ [cell c % 0x100] := by
  have hc : (Char.ofUInt8 c.toUInt8).toNat = c.toUInt8.toUInt32.toNat := rfl
  rw [UInt8.toNat_toUInt32, UInt32.toNat_toUInt8] at hc
  simp [codes, cell, hc]

namespace Machine

variable {σ : Type} {m : Machine σ} {addr : Nat} {op : Opcode}

theorem execute_stackEffect (obs : Observer σ) (hp : m.pc = addr + 1) (h : m.Ready addr op) :
    Reading.stackEffect (m.program.littleEndian (addr + 1)) op m.data.ints m.ret.ints =
      some ((m.execute obs addr op).2.data.ints, (m.execute obs addr op).2.ret.ints) := by
  obtain ⟨hw, hd, hr⟩ := h
  cases op with
  | add | sub | mul | eq | ltS | swap | dupSecond =>
    obtain ⟨y, x, cs, hc⟩ := Stack.exists_cells_of_two hd
    simp [execute, binary, proceed, hc, Stack.ints, Reading.stackEffect, cell_add, cell_sub,
      cell_mul, cell_flag, cell_inj, Int32.lt_iff_toInt_lt, toInt_toInt32]
  | drop | print | dup | toR =>
    obtain ⟨c, cs, hc⟩ := Stack.exists_cells_of_one hd
    simp [execute, emit, proceed, hc, Stack.ints, Reading.stackEffect]
  | fromR | rFetch =>
    obtain ⟨c, cs, hc⟩ := Stack.exists_cells_of_one hr
    simp [execute, proceed, hc, Stack.ints, Reading.stackEffect]
  | push | jump =>
    obtain ⟨v, hn, hv⟩ := withOperand_complete hp (hw rfl)
    simp [execute, hv, proceed, ← hn, Stack.ints, Reading.stackEffect, cell]
  | brIf =>
    obtain ⟨v, hn, hv⟩ := withOperand_complete hp (hw rfl)
    obtain ⟨c, cs, hc⟩ := Stack.exists_cells_of_one hd
    simp [execute, hv, branch, proceed, hc, Stack.ints, Reading.stackEffect]
  | depth | rDepth =>
    simp only [execute, proceed, Reading.stackEffect, ← cell_depthCell]
    rfl
  | halt => rfl

theorem execute_pc (obs : Observer σ) (hp : m.pc = addr + 1) (h : m.Ready addr op) :
    (m.execute obs addr op).2.pc =
      if Reading.jumps op m.data.ints then m.program.littleEndian (addr + 1)
      else addr + op.width := by
  obtain ⟨hw, hd, -⟩ := h
  cases op with
  | push | jump =>
    obtain ⟨v, hn, hv⟩ := withOperand_complete hp (hw rfl)
    simp [execute, hv, proceed, ← hn, Reading.jumps, Opcode.width, Opcode.hasOperand]
  | brIf =>
    obtain ⟨v, hn, hv⟩ := withOperand_complete hp (hw rfl)
    obtain ⟨c, cs, hc⟩ := Stack.exists_cells_of_one hd
    simp [execute, hv, branch, proceed, hc, ← hn, Stack.ints, Reading.jumps, cell_eq_zero_iff,
      Opcode.width, Opcode.hasOperand]
  | _ =>
    rw [execute_pc_of_bare obs m addr rfl]
    simp [hp, Reading.jumps, Opcode.width, Opcode.hasOperand]

theorem execute_output (obs : Observer σ) (m : Machine σ) (addr : Nat) (op : Opcode) :
    codes (m.execute obs addr op).2.output = codes m.output ++ Reading.written op m.data.ints := by
  cases op <;> simp only [execute, withOperand, binary, branch, emit, proceed, fault] <;>
    repeat' split
  all_goals simp_all [Reading.written, Stack.ints, codes_push]

theorem execute_row (obs : Observer σ) (hp : m.pc = addr + 1) (h : m.Ready addr op) :
    { m.reading with pc := addr }.row (m.program.littleEndian (addr + 1)) op =
      some (m.execute obs addr op).2.reading := by
  simp only [Reading.row, reading, execute_stackEffect obs hp h, execute_pc obs hp h,
    execute_output, execute_halted, Option.map_some]
  rfl

theorem execute_branch (obs : Observer σ) (hp : m.pc = addr + 1) (h : m.Ready addr op) :
    (m.execute obs addr op).2.stats =
      (Reading.branch? op m.data.ints).elim m.stats m.stats.recordBranch := by
  rw [execute_stats]
  cases op with
  | brIf =>
    obtain ⟨v, hv, -⟩ : ∃ v, m.program.word? m.pc = some v ∧ v.toNat = _ :=
      Program.exists_word? (by have := h.operand rfl; omega)
    obtain ⟨c, cs, hc⟩ := Stack.exists_cells_of_one h.data
    have ht : (c != 0) = decide (cell c ≠ 0) := by simp [cell_eq_zero_iff, bne]; rfl
    simp [hv, hc, Reading.branch?, Stack.ints, ht]
  | _ => simp [Reading.branch?]

/-- A ready instruction counts its step and its branch; peak depths wait for the end of the step. -/
theorem fetched_execute_counted (obs : Observer σ) (h : m.Ready m.pc op) :
    m.stats.Counted op (Reading.branch? op m.data.ints)
        ((m.fetched obs op).execute obs m.pc op).2.stats ∧
      ((m.fetched obs op).execute obs m.pc op).2.stats.maxData = m.stats.maxData ∧
      ((m.fetched obs op).execute obs m.pc op).2.stats.maxReturn = m.stats.maxReturn := by
  rw [execute_branch obs rfl (fetched_ready obs h)]
  exact m.stats.counted_branch op _

/-- A ready step is the table's row. Of what the table leaves out, the program stays, the step is
counted, and the observer receives the step and what it prints. -/
theorem ready_step_realizes_table (obs : Observer σ) (m : Machine σ) (b : UInt8) (op : Opcode)
    (hh : m.halted = false) (hb : m.program[m.pc]? = some b) (ho : Opcode.ofByte? b = some op)
    (hr : m.Ready m.pc op) :
    ∃ t, m.step obs = (.ok (if op = .halt then .halted else .continue), t) ∧
      m.reading.row (m.program.littleEndian (m.pc + 1)) op = some t.reading ∧
      t.program = m.program ∧
      m.stats.Counted op (Reading.branch? op m.data.ints) t.stats ∧
      t.stats.maxData = max m.stats.maxData t.data.depth ∧
      t.stats.maxReturn = max m.stats.maxReturn t.ret.depth ∧
      t.observer = (Snapshot.events ⟨m.pc, b, m.data, m.ret⟩).foldl obs.receive m.observer := by
  have hs := step_ready obs hh hb ho hr
  have hprogram := step_program obs m
  have hobserver := step_observer obs hh hb
  rw [hs] at hprogram hobserver
  obtain ⟨hc, hd, hq⟩ := fetched_execute_counted obs hr
  refine ⟨_, hs, ?_, hprogram, hc.observeDepths _ _, ?_, ?_, hobserver⟩
  · exact execute_row obs rfl (fetched_ready obs hr)
  · exact congrArg (max · _) hd
  · exact congrArg (max · _) hq

/-- The least cell is below the greatest one in the signed order. -/
theorem ready_step_realizes_table_ltS :
    ∃ t, ({ fresh #[0x0A] () with data := ⟨[0x7FFFFFFF, 0x80000000]⟩ } : Machine Unit).step
        .silent = (.ok .continue, t) ∧ t.reading = ⟨1, [1], [], [], false⟩ := by
  obtain ⟨t, hs, hr, -⟩ := ready_step_realizes_table .silent
    { fresh #[0x0A] () with data := ⟨[0x7FFFFFFF, 0x80000000]⟩ } 0x0A .ltS rfl rfl rfl
    ⟨by decide, by decide, by decide⟩
  exact ⟨t, hs, Option.some.inj (hr.symm.trans (by decide +kernel))⟩

end Machine

end TwoStack
