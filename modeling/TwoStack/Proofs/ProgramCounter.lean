import TwoStack.Proofs.Decoding
import TwoStack.Proofs.Recording

/-! Only a branch leads behind the end of the program, and then to its operand. -/

namespace TwoStack

/-- The step goes to `target`: it is a jump, or a conditional branch over a cell that is not zero,
and `target` is its operand. -/
structure Snapshot.BranchesTo (p : Program) (s : Snapshot) (target : Nat) : Prop where
  opcode : s.opcode = 0x0F ∨ s.opcode = 0x0E ∧ ∃ c, s.data.peek? = some c ∧ c ≠ 0
  operand : ∃ v, p.word? (s.pc + 1) = some v ∧ v.toNat = target

theorem Snapshot.BranchesTo.lt {p : Program} {s : Snapshot} {target : Nat}
    (h : s.BranchesTo p target) : target < UInt32.size := by
  obtain ⟨v, -, rfl⟩ := h.operand
  exact v.toNat_lt

namespace Machine

variable {σ : Type} {obs : Observer σ} {m u : Machine σ} {s : Snapshot} {op : Opcode}

theorem branchesTo_of_jumps (hb : s.opcode = op.byte)
    (hj : Reading.jumps op s.data.ints = true) (hw : s.pc + 5 ≤ m.program.size) :
    s.BranchesTo m.program (m.program.littleEndian (s.pc + 1)) := by
  obtain ⟨v, hv, hn⟩ := Program.exists_word? (show s.pc + 1 + 4 ≤ m.program.size by omega)
  refine ⟨?_, v, hv, hn⟩
  obtain ⟨pc, b, ⟨cells⟩, ret⟩ := s
  rw [hb]
  cases op with
  | jump => exact Or.inl rfl
  | brIf =>
    cases cells with
    | nil => simp [Reading.jumps, Stack.ints] at hj
    | cons c cs =>
      have hc : c ≠ 0 := by simpa [Reading.jumps, Stack.ints, cell_eq_zero_iff] using hj
      exact Or.inr ⟨rfl, c, rfl, hc⟩
  | _ => simp [Reading.jumps] at hj

/-- What was read of an instruction lies inside the program. -/
theorem width_le_of_operand (hb : m.program[m.pc]? = some op.byte)
    (hw : op.hasOperand = true → m.pc + 5 ≤ m.program.size) :
    m.pc + op.width ≤ m.program.size := by
  have hlt := (Array.getElem?_eq_some_iff.1 hb).1
  unfold Opcode.width
  split
  · exact hw ‹_›
  · omega

/-- A step leads to an address in the program or to its end, unless it branches. Faults and
unassigned bytes are steps like others here. -/
theorem step_pc_le_or_branchesTo (obs : Observer σ) (h : m.upcoming? = some s) :
    (m.step obs).2.pc ≤ m.program.size ∨ s.BranchesTo m.program (m.step obs).2.pc := by
  obtain ⟨hh, hp, hb, hd, -⟩ := upcoming?_eq_some_iff.1 h
  have hlt := (Array.getElem?_eq_some_iff.1 hb).1
  cases executes obs (hasNext_of_upcoming? h) with
  | unknown b hbm ho hs =>
    rw [hs]
    exact Or.inl (show m.pc + 1 ≤ m.program.size by omega)
  | fault op f hbm hf hs =>
    left
    rw [hs]
    show m.faultPc op f ≤ m.program.size
    rw [← faultPc_eq hf]
    rcases Opcode.fault?_eq_some hf with ⟨-, -, rfl⟩ | ⟨hw, -, rfl⟩ | ⟨-, rfl⟩
    · rw [if_neg (by simp)]
      omega
    · rw [if_pos rfl]
      exact width_le_of_operand hbm hw
    · rw [if_neg (by simp)]
      omega
  | ready op hbm hr hs =>
    rw [step_pc_of_ok hh hbm (congrArg Prod.fst hs)]
    by_cases hj : Reading.jumps op m.data.ints = true
    · right
      have hw := hr.operand (hasOperand_of_jumps hj)
      have hbyte : s.opcode = op.byte := Option.some.inj (hb.symm.trans (hp ▸ hbm))
      rw [if_pos hj, hp]
      rw [hd] at hj
      exact branchesTo_of_jumps hbyte hj (hp ▸ hw)
    · left
      rw [if_neg hj]
      exact width_le_of_operand hbm hr.operand

/-- The last step on record goes to `target`. -/
def BranchedTo (p : Program) (m : Machine (Array Event)) (target : Nat) : Prop :=
  ∃ s, m.snapshots.getLast? = some s ∧ s.BranchesTo p target

/-- The machine stands in its program, at its end, or where its last step branched to. -/
structure Bounded (p : Program) (m : Machine (Array Event)) : Prop where
  program : m.program = p
  pc : m.pc ≤ p.size ∨ BranchedTo p m m.pc

theorem bounded_fresh (p : Program) : Bounded p (fresh p #[]) :=
  ⟨rfl, Or.inl (Nat.zero_le _)⟩

theorem bounded_step {p : Program} {m : Machine (Array Event)} (hn : m.hasNext = true)
    (h : Bounded p m) : Bounded p (m.step .recorder).2 := by
  obtain ⟨rfl, -⟩ := h
  obtain ⟨s, hs⟩ := exists_upcoming? hn
  refine ⟨step_program _ m, ?_⟩
  rcases step_pc_le_or_branchesTo .recorder hs with hle | hbr
  · exact Or.inl hle
  · right
    refine ⟨s, ?_, hbr⟩
    rw [step_snapshots_of_upcoming? hs, List.getLast?_concat]

theorem bounded_calls (p : Program) (cs : List Call) :
    Bounded p ((fresh p #[]).calls .recorder cs).2 :=
  calls_keep (fun _ hn h => bounded_step hn h) (bounded_fresh p) cs

theorem calls_concat (obs : Observer σ) (m : Machine σ) (cs : List Call) (c : Call) :
    (m.calls obs (cs ++ [c])).2 = ((m.calls obs cs).2.call obs c).2 := by
  induction cs generalizing m with
  | nil => rfl
  | cons d cs ih => exact ih (m.call obs d).2

/-- All observers see the same program counter. -/
theorem calls_pc (p : Program) (cs : List Call) (obs : Observer σ) (start : σ) :
    ((fresh p start).calls obs cs).2.pc = ((fresh p #[]).calls .recorder cs).2.pc :=
  congrArg (·.2.pc) (calls_eq_recorded obs p start cs)

theorem pc_of_endOfProgram {n q : Nat} {x : Summary} (h : m.run obs n = (.ok x, u))
    (hq : x.termination = .endOfProgram q) : u.pc = q ∧ u.program.size ≤ q := by
  obtain ⟨k, v, -, he⟩ := run_eq_iff.1 h
  cases he with
  | rest hk hn =>
    cases hh : u.halted with
    | true => simp [summary, restTermination, hh] at hq
    | false =>
      obtain rfl : u.pc = q := by simpa [summary, restTermination, hh] using hq
      exact ⟨rfl, by simpa [hasNext, hh] using hn⟩
  | exhausted hn | halted hk hs | unknown hk hs => simp [summary] at hq

/-- Wherever calls lead, the program counter is in the program or at its end, or it is the operand
of the branch that was executed last. So a program counter of 64 bits does not overflow when it
moves past an opcode or an operand, and a run that leaves the program ends right behind it or at
such an operand. -/
theorem pc_never_overshoots (p : Program) (hp : p.size ≤ 0x7FFFFFFFFFFFFFFF) (cs : List Call)
    (obs : Observer σ) (start : σ) :
    let t := ((fresh p start).calls obs cs).2
    (t.pc ≤ p.size ∨
        BranchedTo p ((fresh p #[]).calls .recorder cs).2 t.pc ∧ t.pc < UInt32.size) ∧
      (t.hasNext = true → ∀ b, (t.beginStep obs b).pc < UInt64.size ∧
        ∀ v, t.program.word? (t.beginStep obs b).pc = some v →
          (t.beginStep obs b).pc + 4 < UInt64.size) ∧
      ∀ n x u q, t.run obs n = (.ok x, u) → x.termination = .endOfProgram q →
        q = p.size ∨ BranchedTo p ((fresh p #[]).calls .recorder (cs ++ [.run n])).2 q := by
  intro t
  have hprogram : t.program = p := calls_program obs _ cs
  have hpc := calls_pc p cs obs start
  refine ⟨?_, ?_, ?_⟩
  · rcases (bounded_calls p cs).pc with hle | hbr
    · exact Or.inl (hpc ▸ hle)
    · rw [← hpc] at hbr
      obtain ⟨s, -, hs⟩ := id hbr
      exact Or.inr ⟨hbr, hs.lt⟩
  · intro hn b
    have hlt := (hasNext_iff.1 hn).2
    have hsize : UInt64.size = 0x10000000000000000 := rfl
    rw [hprogram] at hlt
    refine ⟨show t.pc + 1 < _ by omega, ?_⟩
    intro v hv
    have hle := (Program.word?_eq_some hv).1
    rw [hprogram] at hle
    omega
  · intro n x u q hrun hq
    have hu : ((fresh p start).calls obs (cs ++ [.run n])).2 = u := by
      rw [calls_concat]
      exact congrArg Prod.snd hrun
    obtain ⟨rfl, hge⟩ := pc_of_endOfProgram hrun hq
    have hup : u.program = p := by rw [← hu, calls_program]; rfl
    have hupc := calls_pc p (cs ++ [.run n]) obs start
    rw [hu] at hupc
    rcases (bounded_calls p (cs ++ [.run n])).pc with hle | hbr
    · left
      rw [hup] at hge
      omega
    · right
      rwa [hupc]

/-- A branch to the largest operand, and a run that rests there. -/
theorem pc_never_overshoots_branch :
    let p : Program := #[0x01, 1, 0, 0, 0, 0x0E, 0xFF, 0xFF, 0xFF, 0xFF]
    let t := ((fresh p ()).calls .silent [.run 1, .step]).2
    p.size ≤ 0x7FFFFFFFFFFFFFFF ∧ p.size < t.pc ∧
      BranchedTo p ((fresh p #[]).calls .recorder [.run 1, .step]).2 t.pc ∧
      BranchedTo p ((fresh p #[]).calls .recorder [.run 1, .step, .run 4]).2 0xFFFFFFFF := by
  intro p t
  have hp : p.size ≤ 0x7FFFFFFFFFFFFFFF := by decide
  have hpc : p.size < t.pc := by decide
  have hsize : (0xFFFFFFFF : Nat) ≠ p.size := by decide
  have hend : (t.run .silent 4).1 = .ok ⟨0, "", .empty, .empty, .endOfProgram 0xFFFFFFFF⟩ := by
    decide +kernel
  obtain ⟨hstand, -, hrest⟩ := pc_never_overshoots p hp [.run 1, .step] .silent ()
  refine ⟨hp, hpc, ?_, ?_⟩
  · rcases hstand with hle | hbr
    · exact (Nat.not_le_of_lt hpc hle).elim
    · exact hbr.1
  · rcases hrun : t.run .silent 4 with ⟨r, u⟩
    rw [hrun] at hend
    obtain rfl : r = _ := hend
    rcases hrest 4 _ u 0xFFFFFFFF hrun rfl with heq | hbr
    · exact (hsize heq).elim
    · exact hbr

end Machine

end TwoStack
