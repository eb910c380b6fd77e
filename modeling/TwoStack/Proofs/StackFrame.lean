import TwoStack.Proofs.Decoding
import TwoStack.Proofs.Recording

/-! A run that meets no fault and asks for no depth goes the same way over any cells. -/

namespace TwoStack

namespace Stack

variable {s : Stack} {base : List UInt32}

/-- The stack with further cells beneath it, the lowest first. -/
def above (base : List UInt32) (s : Stack) : Stack := ofBottomUp (base ++ s.bottomUp)

@[simp]
theorem cells_above : (s.above base).cells = s.cells ++ base.reverse := by
  simp [above, ofBottomUp, bottomUp]

@[simp]
theorem mk_above (cs : List UInt32) : above base ⟨cs⟩ = ⟨cs ++ base.reverse⟩ :=
  Stack.ext cells_above

theorem push_above (c : UInt32) : (s.above base).push c = (s.push c).above base := by
  simp [Stack.ext_iff]

theorem depth_le_above : s.depth ≤ (s.above base).depth := by
  simp [depth]

end Stack

def Summary.above (base rbase : List UInt32) (s : Summary) : Summary :=
  { s with data := s.data.above base, ret := s.ret.above rbase }

namespace Machine

variable {σ τ : Type} {base rbase : List UInt32} {m : Machine σ} {u : Machine τ} {addr k n : Nat}
  {op : Opcode}

/-- The same machine with further cells beneath its stacks. -/
def above (base rbase : List UInt32) (m : Machine σ) : Machine σ :=
  { m with data := m.data.above base, ret := m.ret.above rbase }

/-- `u` is `m` with further cells beneath its stacks. Nothing is said of statistics, which keep peak
depths, and of what is observed. -/
structure Framed (base rbase : List UInt32) (m : Machine σ) (u : Machine τ) : Prop where
  program : u.program = m.program
  pc : u.pc = m.pc
  data : u.data = m.data.above base
  ret : u.ret = m.ret.above rbase
  halted : u.halted = m.halted
  output : u.output = m.output

theorem Framed.ready (h : Framed base rbase m u) (hr : m.Ready addr op) : u.Ready addr op := by
  refine ⟨?_, ?_, ?_⟩
  · rw [h.program]
    exact hr.operand
  · rw [h.data]
    exact Nat.le_trans hr.data Stack.depth_le_above
  · rw [h.ret]
    exact Nat.le_trans hr.ret Stack.depth_le_above

theorem Framed.hasNext (h : Framed base rbase m u) : u.hasNext = m.hasNext := by
  rw [Machine.hasNext, Machine.hasNext, h.halted, h.pc, h.program]

/-- An instruction that finds its cells finds the same ones over any others. -/
theorem Framed.execute (o : Observer σ) (q : Observer τ) (h : Framed base rbase m u)
    (hp : m.pc = addr + 1) (hr : m.Ready addr op) (hd : op ≠ .depth) (hrd : op ≠ .rDepth) :
    Framed base rbase (m.execute o addr op).2 (u.execute q addr op).2 := by
  have hoperand (ho : op.hasOperand = true) : ∃ v, m.program.word? (addr + 1) = some v := by
    have hw := hr.operand ho
    obtain ⟨v, hv, -⟩ := Program.exists_word? (show addr + 1 + 4 ≤ m.program.size by omega)
    exact ⟨v, hv⟩
  obtain ⟨hprogram, hpc, hdata, hret, hhalted, houtput⟩ := h
  cases op with
  | add | sub | mul | eq | ltS | swap | dupSecond =>
    obtain ⟨y, x, cs, hc⟩ := Stack.exists_cells_of_two hr.data
    constructor <;> simp [Machine.execute, binary, proceed, *]
  | drop | print | dup | toR =>
    obtain ⟨c, cs, hc⟩ := Stack.exists_cells_of_one hr.data
    constructor <;> simp [Machine.execute, emit, proceed, Stack.push_above, *]
  | fromR | rFetch =>
    obtain ⟨c, cs, hc⟩ := Stack.exists_cells_of_one hr.ret
    constructor <;> simp [Machine.execute, proceed, Stack.push_above, *]
  | push | jump =>
    obtain ⟨v, hv⟩ := hoperand rfl
    constructor <;> simp [Machine.execute, withOperand, proceed, Stack.push_above, *]
  | brIf =>
    obtain ⟨v, hv⟩ := hoperand rfl
    obtain ⟨c, cs, hc⟩ := Stack.exists_cells_of_one hr.data
    constructor <;> simp [Machine.execute, withOperand, branch, proceed, *]
  | depth => exact (hd rfl).elim
  | rDepth => exact (hrd rfl).elim
  | halt => exact ⟨hprogram, hpc, hdata, hret, rfl, houtput⟩

/-- A step that met no fault had its cells, and has them over more cells. -/
theorem framed_step (o : Observer σ) (q : Observer τ) {r : Outcome} {t : Machine σ}
    (h : Framed base rbase m u) (hs : m.step o = (.ok r, t))
    (hd : ∀ s ∈ m.upcoming?, s.opcode ≠ Opcode.depth.byte ∧ s.opcode ≠ Opcode.rDepth.byte) :
    ∃ v, u.step q = (.ok r, v) ∧ Framed base rbase t v := by
  cases hn : m.hasNext with
  | false =>
    have hu : u.hasNext = false := h.hasNext.trans hn
    rw [step_idle hn] at hs
    obtain ⟨hr, rfl⟩ := Prod.mk.inj hs
    exact ⟨u, by rw [step_idle hu, hr], h⟩
  | true =>
    obtain ⟨hh, hp⟩ := hasNext_iff.1 hn
    have hb := Array.getElem?_eq_getElem hp
    generalize m.program[m.pc] = b at hb
    have hsb := hd ⟨m.pc, b, m.data, m.ret⟩ (upcoming?_eq_some_iff.2 ⟨hh, rfl, hb, rfl, rfl⟩)
    have huh : u.halted = false := h.halted.trans hh
    have hub : u.program[u.pc]? = some b := by rw [h.program, h.pc, hb]
    cases ho : Opcode.ofByte? b with
    | none =>
      rw [step_unknown hh hb ho] at hs
      obtain ⟨hr, rfl⟩ := Prod.mk.inj hs
      refine ⟨_, by rw [step_unknown huh hub ho, h.pc, hr], ?_⟩
      exact ⟨h.program, congrArg (· + 1) h.pc, h.data, h.ret, h.halted, h.output⟩
    | some op =>
      obtain rfl := Opcode.ofByte?_eq_some_iff.1 ho
      have hr : m.Ready m.pc op := ready_of_ok hh hb (by rw [hs])
      have hur : u.Ready u.pc op := h.pc ▸ h.ready hr
      have hf : Framed base rbase (m.fetched o op) (u.fetched q op) :=
        ⟨h.program, congrArg (· + 1) h.pc, h.data, h.ret, h.halted, h.output⟩
      have hx := hf.execute o q rfl (fetched_ready o hr) (mt (congrArg Opcode.byte) hsb.1)
        (mt (congrArg Opcode.byte) hsb.2)
      rw [step_ready o hh hb ho hr] at hs
      obtain ⟨hro, rfl⟩ := Prod.mk.inj hs
      refine ⟨_, by rw [step_ready q huh hub ho hur, hro], ?_⟩
      rw [h.pc]
      exact ⟨hx.program, hx.pc, hx.data, hx.ret, hx.halted, hx.output⟩

/-- None of the recorded steps asks for a depth. -/
def Unmeasured (m : Machine (Array Event)) : Prop :=
  ∀ s ∈ m.snapshots, s.opcode ≠ Opcode.depth.byte ∧ s.opcode ≠ Opcode.rDepth.byte

theorem unmeasured_of_steps {m t : Machine (Array Event)} {rs : List (Except Fault Outcome)}
    (h : Steps .recorder m rs t) (ht : t.Unmeasured) : m.Unmeasured := by
  intro s hs
  obtain ⟨ss, hss, -⟩ := steps_recorded h
  apply ht
  rw [hss]
  exact List.mem_append_left _ hs

theorem framed_executed (q : Observer τ) {m t : Machine (Array Event)} {r : Outcome}
    (h : Framed base rbase m u) (hs : m.step .recorder = (.ok r, t)) (ht : t.Unmeasured) :
    ∃ v, u.step q = (.ok r, v) ∧ Framed base rbase t v := by
  refine framed_step .recorder q h hs ?_
  intro s hsnap
  have hrecorded := step_snapshots_of_upcoming? hsnap
  rw [hs] at hrecorded
  apply ht
  simp [hrecorded]

theorem framed_steps (q : Observer τ) {m t : Machine (Array Event)} (h : Framed base rbase m u)
    (hs : Steps .recorder m (goOn k) t) (ht : t.Unmeasured) :
    ∃ v, Steps q u (goOn k) v ∧ Framed base rbase t v := by
  induction k generalizing m u with
  | zero =>
    cases hs
    exact ⟨u, .refl, h⟩
  | succ k ih =>
    cases hs with
    | @head m w t r rs hw hx hrest =>
      obtain ⟨u', hu', h'⟩ := framed_executed q h hw (unmeasured_of_steps hrest ht)
      obtain ⟨v, hv, hframed⟩ := ih h' hrest
      exact ⟨v, .head hu' hx hv, hframed⟩

theorem framed_ends (q : Observer τ) {m t : Machine (Array Event)} {s : Summary}
    (h : Framed base rbase m u) (he : Ends .recorder n k m (.ok s, t)) (ht : t.Unmeasured) :
    ∃ v, Ends q n k u (.ok (s.above base rbase), v) ∧ Framed base rbase t v := by
  have hsummary {x : Machine (Array Event)} {v : Machine τ} (hx : Framed base rbase x v) (j : Nat)
      (e : Termination) : v.summary j e = (x.summary j e).above base rbase := by
    simp [summary, Summary.above, hx.data, hx.ret, hx.output]
  cases he with
  | exhausted hn =>
    rw [← hsummary h]
    exact ⟨u, .exhausted (h.hasNext.trans hn), h⟩
  | rest hk hn =>
    have hrest : u.restTermination = m.restTermination := by
      simp [restTermination, h.halted, h.pc]
    rw [← hsummary h, ← hrest]
    exact ⟨u, .rest hk (h.hasNext.trans hn), h⟩
  | halted hk hs =>
    obtain ⟨v, hv, hframed⟩ := framed_executed q h hs ht
    rw [← hsummary hframed]
    exact ⟨v, .halted hk hv, hframed⟩
  | unknown hk hs =>
    obtain ⟨v, hv, hframed⟩ := framed_executed q h hs ht
    rw [← hsummary hframed]
    exact ⟨v, .unknown hk hv, hframed⟩

theorem framed_run (q : Observer τ) {m t : Machine (Array Event)} {s : Summary}
    (h : Framed base rbase m u) (hr : m.run .recorder n = (.ok s, t)) (ht : t.Unmeasured) :
    ∃ v, u.run q n = (.ok (s.above base rbase), v) ∧ Framed base rbase t v := by
  obtain ⟨k, w, hw, he⟩ := run_eq_iff.1 hr
  obtain ⟨last, -, hlast, -⟩ := ends_steps he
  obtain ⟨u', hu', h'⟩ := framed_steps q h hw (unmeasured_of_steps hlast ht)
  obtain ⟨v, hv, hframed⟩ := framed_ends q h' he ht
  exact ⟨v, run_eq_iff.2 ⟨k, u', hu', hv⟩, hframed⟩

/-- The bytes of the instructions that a run executes, in order. -/
def executedBytes (m : Machine σ) (budget : Nat) : List UInt8 :=
  ((m.map fun _ => #[]).run .recorder budget).2.snapshots.map Snapshot.opcode

/-- What lies beneath the stacks does not matter to a run that finishes and executes neither `depth`
nor `rdepth`: over any other cells it finishes with the same steps, termination, output, program
counter and halt, and these cells are still beneath its stacks. -/
theorem run_leaves_cells_beneath (obs : Observer σ) (m : Machine σ) (budget : Nat)
    (base rbase : List UInt32) (s : Summary) (t : Machine σ)
    (h : m.run obs budget = (.ok s, t))
    (hd : Opcode.depth.byte ∉ m.executedBytes budget)
    (hr : Opcode.rDepth.byte ∉ m.executedBytes budget) :
    ∃ v, (m.above base rbase).run obs budget = (.ok (s.above base rbase), v) ∧
      Framed base rbase t v := by
  rcases hx : (m.map fun _ => #[]).run .recorder budget with ⟨r, x⟩
  rw [run_eq_recorded, hx] at h
  obtain ⟨rfl, rfl⟩ := Prod.mk.inj h
  have hsource : Framed base rbase (m.map fun _ => (#[] : Array Event)) (m.above base rbase) :=
    ⟨rfl, rfl, rfl, rfl, rfl, rfl⟩
  have hquiet : x.Unmeasured := by
    intro e he
    have hmem : e.opcode ∈ m.executedBytes budget := by
      rw [executedBytes, hx]
      exact List.mem_map_of_mem he
    refine ⟨?_, ?_⟩
    · intro heq
      exact hd (heq ▸ hmem)
    · intro heq
      exact hr (heq ▸ hmem)
  obtain ⟨v, hv, hframed⟩ := framed_run obs hsource hx hquiet
  exact ⟨v, hv, hframed.program, hframed.pc, hframed.data, hframed.ret, hframed.halted,
    hframed.output⟩

/-- A loop that looks at the cell on the return stack and counts down to zero. -/
theorem run_leaves_cells_beneath_loop :
    let p : Program :=
      #[0x32, 0x13, 0x14, 0x05, 0x13, 0x05, 0x01, 1, 0, 0, 0, 0x03, 0x12, 0x0E, 0, 0, 0, 0]
    let m : Machine Unit := { fresh p () with data := .ofBottomUp [2], ret := .ofBottomUp [7] }
    let s : Summary := ⟨20, "", .ofBottomUp [0], .ofBottomUp [7], .endOfProgram 18⟩
    m.run .silent 40 = (.ok s, (m.run .silent 40).2) ∧
      Opcode.depth.byte ∉ m.executedBytes 40 ∧ Opcode.rDepth.byte ∉ m.executedBytes 40 ∧
      ∃ v, (m.above [8, 9] [5]).run .silent 40 =
        (.ok ⟨20, "", .ofBottomUp [8, 9, 0], .ofBottomUp [5, 7], .endOfProgram 18⟩, v) := by
  intro p m s
  have h : m.run .silent 40 = (.ok s, (m.run .silent 40).2) := by decide +kernel
  have hd : Opcode.depth.byte ∉ m.executedBytes 40 := by decide +kernel
  have hr : Opcode.rDepth.byte ∉ m.executedBytes 40 := by decide +kernel
  obtain ⟨v, hv, -⟩ := run_leaves_cells_beneath .silent m 40 [8, 9] [5] s _ h hd hr
  exact ⟨h, hd, hr, v, hv⟩

end Machine

end TwoStack
