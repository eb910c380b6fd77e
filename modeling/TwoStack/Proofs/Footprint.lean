import TwoStack.Proofs.Decoding
import TwoStack.Proofs.Recording

/-! A run depends on the bytes it reads and on no others. -/

namespace TwoStack

/-- The addresses that a step reads: its own and, if its opcode takes an operand, the four after
it. -/
def Snapshot.footprint (s : Snapshot) : List Nat :=
  if (Opcode.ofByte? s.opcode).any Opcode.hasOperand then
    [s.pc, s.pc + 1, s.pc + 2, s.pc + 3, s.pc + 4]
  else [s.pc]

/-- Whether a result tells where the image ends. -/
def metEnd : Except Fault Summary → Bool
  | .ok ⟨_, _, _, _, .endOfProgram _⟩ => true
  | .error (.truncatedProgram _) => true
  | _ => false

namespace Program

variable {p q : Program} {addr : Nat} {as bs : List Nat}

/-- What stands in one image at the given addresses stands there in the other. -/
def AgreesOn (p q : Program) (as : List Nat) : Prop :=
  ∀ a ∈ as, ∀ b ∈ p[a]?, q[a]? = some b

instance (p q : Program) (as : List Nat) : Decidable (p.AgreesOn q as) :=
  inferInstanceAs (Decidable (∀ a ∈ as, ∀ b ∈ p[a]?, q[a]? = some b))

theorem AgreesOn.mono (h : p.AgreesOn q bs) (hs : ∀ a ∈ as, a ∈ bs) : p.AgreesOn q as :=
  fun a ha => h a (hs a ha)

theorem AgreesOn.getElem? (h : p.AgreesOn q as) (ha : addr ∈ as) (hp : addr < p.size) :
    q[addr]? = p[addr]? := by
  have hb := Array.getElem?_eq_getElem hp
  rw [h addr ha _ hb, hb]

theorem AgreesOn.word? (h : p.AgreesOn q [addr, addr + 1, addr + 2, addr + 3])
    (hw : addr + 4 ≤ p.size) : q.word? addr = p.word? addr := by
  have h₀ : q[addr]? = p[addr]? := h.getElem? (by simp) (by omega)
  have h₁ : q[addr + 1]? = p[addr + 1]? := h.getElem? (by simp) (by omega)
  have h₂ : q[addr + 2]? = p[addr + 2]? := h.getElem? (by simp) (by omega)
  have h₃ : q[addr + 3]? = p[addr + 3]? := h.getElem? (by simp) (by omega)
  simp only [Program.word?, h₀, h₁, h₂, h₃]

theorem agreesOn_append (p q : Program) (as : List Nat) : p.AgreesOn (p ++ q) as := by
  intro a _ b hb
  have hlt := (Array.getElem?_eq_some_iff.1 hb).1
  rw [Array.getElem?_append_left hlt]
  exact hb

end Program

namespace Machine

variable {σ : Type} {obs : Observer σ} {m t u : Machine σ} {q : Program} {s : Snapshot}
  {k n : Nat}

/-- The same machine over another program. -/
def withProgram (q : Program) (m : Machine σ) : Machine σ := { m with program := q }

theorem execute_withProgram (obs : Observer σ) (m : Machine σ) (addr : Nat) {op : Opcode}
    (hw : op.hasOperand = true → q.word? m.pc = m.program.word? m.pc) :
    (m.withProgram q).execute obs addr op = (m.execute obs addr op).map id (withProgram q) := by
  cases op with
  | push | brIf | jump =>
    simp only [execute, withOperand, branch, proceed, fault, withProgram, hw rfl]
    repeat' split
    all_goals rfl
  | _ =>
    simp only [execute, binary, emit, proceed, fault, withProgram]
    repeat' split
    all_goals rfl

theorem endStep_withProgram (q : Program) (x : Except Fault Outcome × Machine σ) :
    endStep (x.map id (withProgram q)) = (endStep x).map id (withProgram q) := by
  obtain ⟨_ | _, m⟩ := x <;> rfl

/-- A complete operand is part of what a step reads. -/
theorem word?_of_agreesOn {op : Opcode} (h : m.upcoming? = some s)
    (ho : Opcode.ofByte? s.opcode = some op) (hop : op.hasOperand = true)
    (hw : m.pc + 5 ≤ m.program.size) (ha : m.program.AgreesOn q s.footprint) :
    q.word? (m.pc + 1) = m.program.word? (m.pc + 1) := by
  obtain ⟨-, hp, -⟩ := upcoming?_eq_some_iff.1 h
  refine Program.AgreesOn.word? (ha.mono ?_) (by omega)
  intro a has
  simp only [Snapshot.footprint, ho, hop, Option.any_some, if_true, ← hp]
  exact List.mem_cons_of_mem _ has

/-- A step whose operand is not cut short goes alike over every program with the bytes it reads. -/
theorem step_withProgram (h : m.upcoming? = some s) (ha : m.program.AgreesOn q s.footprint)
    (ht : ∀ a, (m.step obs).1 ≠ .error (.truncatedProgram a)) :
    (m.withProgram q).step obs = (m.step obs).map id (withProgram q) := by
  obtain ⟨hh, hp, hb, -⟩ := upcoming?_eq_some_iff.1 h
  rw [← hp] at hb
  have hh' : (m.withProgram q).halted = false := hh
  have hb' : (m.withProgram q).program[(m.withProgram q).pc]? = some s.opcode := by
    refine ha m.pc ?_ _ hb
    rw [hp, Snapshot.footprint]
    split <;> simp
  cases ho : Opcode.ofByte? s.opcode with
  | none =>
    rw [step_unknown hh hb ho, step_unknown hh' hb' ho]
    rfl
  | some op =>
    have hw : op.hasOperand = true → m.pc + 5 ≤ m.program.size := by
      intro hop
      have hb₀ : m.program[m.pc]? = some op.byte := by rw [hb, Opcode.ofByte?_eq_some_iff.1 ho]
      have hnot := mt (step_truncated_iff obs hh hb₀).2 (ht m.pc)
      simp only [hop, true_and] at hnot
      omega
    rw [step_opcode hh hb ho, step_opcode hh' hb' ho, ← endStep_withProgram,
      ← execute_withProgram]
    · rfl
    · intro hop
      exact word?_of_agreesOn h ho hop (hw hop) ha

/-- The addresses that the recorded steps of a machine have read. -/
def footprint (m : Machine (Array Event)) : List Nat := m.snapshots.flatMap Snapshot.footprint

theorem footprint_steps {m t : Machine (Array Event)} {rs : List (Except Fault Outcome)}
    (h : Steps .recorder m rs t) : ∀ a ∈ m.footprint, a ∈ t.footprint := by
  intro a ha
  obtain ⟨ss, hss, -⟩ := steps_recorded h
  rw [footprint, hss, List.flatMap_append]
  exact List.mem_append_left _ ha

theorem executed_withProgram {m t : Machine (Array Event)} {r : Except Fault Outcome}
    (h : m.step .recorder = (r, t)) (hx : r ≠ .ok .noInstruction)
    (ht : ∀ a, r ≠ .error (.truncatedProgram a)) (ha : m.program.AgreesOn q t.footprint) :
    (m.withProgram q).step .recorder = (r, t.withProgram q) := by
  obtain ⟨s, hs⟩ := exists_upcoming? (hasNext_of_executed h hx)
  have hsnap := step_snapshots_of_upcoming? hs
  rw [h] at hsnap
  have hread : ∀ a ∈ s.footprint, a ∈ t.footprint := by
    intro a ha
    rw [footprint, hsnap, List.flatMap_append]
    exact List.mem_append_right _ (by simpa using ha)
  rw [step_withProgram hs (ha.mono hread) (by rw [h]; exact ht), h]
  rfl

theorem steps_withProgram {m t : Machine (Array Event)} (h : Steps .recorder m (goOn k) t)
    (ha : m.program.AgreesOn q t.footprint) :
    Steps .recorder (m.withProgram q) (goOn k) (t.withProgram q) := by
  induction k generalizing m with
  | zero =>
    cases h
    exact .refl
  | succ k ih =>
    cases h with
    | @head m u t r rs hs hx ht =>
      have hu := ha.mono (footprint_steps ht)
      refine .head (executed_withProgram hs hx (by simp) hu) hx (ih ht ?_)
      rw [program_of_step hs]
      exact ha

/-- A longer program could go on where this one ends, but not after a halt. -/
theorem ends_withProgram {u t : Machine (Array Event)} {r : Except Fault Summary}
    (h : Ends .recorder n k u (r, t)) (hr : metEnd r = false) (hsize : u.program.size ≤ q.size)
    (ha : u.program.AgreesOn q t.footprint) :
    Ends .recorder n k (u.withProgram q) (r, t.withProgram q) := by
  cases h with
  | exhausted hn =>
    obtain ⟨hh, hp⟩ := hasNext_iff.1 hn
    exact .exhausted (hasNext_iff.2 ⟨hh, Nat.lt_of_lt_of_le hp hsize⟩)
  | rest hk hn =>
    cases hh : u.halted with
    | true => exact .rest hk (by simp [hasNext, withProgram, hh])
    | false => simp [metEnd, summary, restTermination, hh] at hr
  | halted hk hs => exact .halted hk (executed_withProgram hs (by simp) (by simp) ha)
  | unknown hk hs => exact .unknown hk (executed_withProgram hs (by simp) (by simp) ha)
  | fault hk hs =>
    refine .fault hk (executed_withProgram hs (by simp) ?_ ha)
    intro a hf
    obtain rfl := Except.error.inj hf
    simp [metEnd] at hr

theorem run_withProgram {m t : Machine (Array Event)} {r : Except Fault Summary}
    (h : m.run .recorder n = (r, t)) (hr : metEnd r = false) (hsize : m.program.size ≤ q.size)
    (ha : m.program.AgreesOn q t.footprint) :
    (m.withProgram q).run .recorder n = (r, t.withProgram q) := by
  obtain ⟨k, u, hu, he⟩ := run_eq_iff.1 h
  have hp := steps_program hu
  obtain ⟨last, -, hend, -⟩ := ends_steps he
  refine run_eq_iff.2 ⟨k, _, steps_withProgram hu (ha.mono (footprint_steps hend)), ?_⟩
  exact ends_withProgram he hr (hp ▸ hsize) (hp ▸ ha)

/-- A run that does not come to the end of its program reads all it depends on: over a program that
is no shorter and has the bytes it read, it ends with the same result in the same machine. So
nothing that is appended matters. -/
theorem unread_bytes_do_not_matter (p : Program) (n : Nat) (r : Except Fault Summary)
    (t : Machine (Array Event)) (h : (fresh p #[]).run .recorder n = (r, t))
    (hr : metEnd r = false) :
    (∀ q : Program, p.size ≤ q.size → p.AgreesOn q t.footprint →
        (fresh q #[]).run .recorder n = (r, t.withProgram q)) ∧
      ∀ bs : Program, (fresh (p ++ bs) #[]).run .recorder n = (r, t.withProgram (p ++ bs)) := by
  have hrun (q : Program) (hsize : p.size ≤ q.size) (ha : p.AgreesOn q t.footprint) :
      (fresh q #[]).run .recorder n = (r, t.withProgram q) :=
    run_withProgram h hr hsize ha
  refine ⟨hrun, ?_⟩
  intro bs
  exact hrun (p ++ bs) (by simp) (Program.agreesOn_append p bs _)

/-- A jump goes around a byte that may be any other, and nothing behind the halt is read. -/
theorem unread_bytes_do_not_matter_jump :
    let p : Program := #[0x01, 0x41, 0, 0, 0, 0x08, 0x0F, 12, 0, 0, 0, 0x07, 0xFF]
    let q : Program := #[0x01, 0x41, 0, 0, 0, 0x08, 0x0F, 12, 0, 0, 0, 0x02, 0xFF, 0x01]
    let x := (fresh p #[]).run .recorder 9
    metEnd x.1 = false ∧ p.size ≤ q.size ∧ p.AgreesOn q x.2.footprint ∧
      (fresh q #[]).run .recorder 9 = (x.1, x.2.withProgram q) := by
  intro p q x
  have hr : metEnd x.1 = false := by decide +kernel
  have hsize : p.size ≤ q.size := by decide
  have ha : p.AgreesOn q x.2.footprint := by decide +kernel
  have hx : x = (x.1, x.2) := (Prod.eta x).symm
  exact ⟨hr, hsize, ha, (unread_bytes_do_not_matter p 9 x.1 x.2 hx hr).1 q hsize ha⟩

end Machine

end TwoStack
