import TwoStack.Proofs.Decoding
import TwoStack.Proofs.Recording

/-! The lines of a listing follow each other, and a run whose branches go to lines stays on them. -/

namespace TwoStack

namespace Line

/-- Where a branch with a complete operand may go. -/
def target? (l : Line) : Option Nat :=
  match l.item with
  | .immediate .jump v | .immediate .brIf v => some v.toNat
  | _ => none

theorem exists_at? {p : Program} {addr : Nat} (h : addr < p.size) :
    ∃ l, at? p addr = some l := by
  simp [at?, Item.at?, Array.getElem?_eq_getElem h]

theorem opcode_of_at? {p : Program} {addr : Nat} {l : Line} (h : at? p addr = some l) :
    p[addr]? = some l.item.opcode := by
  obtain ⟨it, hi, rfl⟩ := Option.map_eq_some_iff.1 h
  obtain ⟨b, hb, rfl⟩ := Option.map_eq_some_iff.1 hi
  rw [hb]
  split
  · rfl
  · rename_i op ho
    obtain rfl := Opcode.ofByte?_eq_some_iff.1 ho
    repeat' split
    all_goals rfl

/-- The line of an opcode with a complete operand is as wide as the instruction, and a branch has its
operand for a target. -/
theorem complete_of_at? {p : Program} {addr : Nat} {l : Line} {op : Opcode}
    (h : at? p addr = some l) (hb : p[addr]? = some op.byte)
    (hw : op.hasOperand = true → addr + 5 ≤ p.size) :
    l.next = addr + op.width ∧
      (op = .jump ∨ op = .brIf → l.target? = some (p.littleEndian (addr + 1))) := by
  obtain ⟨it, hit, rfl⟩ := Option.map_eq_some_iff.1 h
  cases hop : op.hasOperand with
  | false =>
    obtain rfl := Option.some.inj (hit.symm.trans (Item.at?_bare hb hop))
    refine ⟨by simp [next, Item.size, Item.encode, Opcode.width, hop], ?_⟩
    rintro (rfl | rfl) <;> simp [Opcode.hasOperand] at hop
  | true =>
    have hs := hw hop
    obtain ⟨v, hv, hn⟩ : ∃ v, p.word? (addr + 1) = some v ∧ v.toNat = _ :=
      Program.exists_word? (by omega)
    obtain rfl := Option.some.inj (hit.symm.trans (Item.at?_immediate hb hop hv))
    refine ⟨by simp [next, Item.size, Item.encode, Word.bytes, Opcode.width, hop], ?_⟩
    rintro (rfl | rfl) <;> exact congrArg some hn

end Line

namespace Program

variable {p : Program} {addr : Nat} {l : Line}

theorem linesFrom_eq_cons (h : Line.at? p addr = some l) :
    p.linesFrom addr = l :: p.linesFrom l.next := by
  rw [linesFrom]
  split
  · simp_all
  · rename_i l' h'
    obtain rfl := Option.some.inj (h.symm.trans h')
    rfl

/-- Every line stands at its address. -/
theorem at?_of_mem_linesFrom (h : l ∈ p.linesFrom addr) : Line.at? p l.addr = some l := by
  fun_induction linesFrom p addr with
  | case1 addr hat => simp at h
  | case2 addr l' hat ih =>
    rcases List.mem_cons.1 h with rfl | h
    · rw [(Line.addr_of_at? hat).1]
      exact hat
    · exact ih h

/-- Behind a line another one begins, unless the image ends there. -/
theorem next_mem_linesFrom (h : l ∈ p.linesFrom addr) (hn : l.next < p.size) :
    l.next ∈ (p.linesFrom addr).map Line.addr := by
  fun_induction linesFrom p addr with
  | case1 addr hat => simp at h
  | case2 addr l' hat ih =>
    rcases List.mem_cons.1 h with rfl | h
    · obtain ⟨k, hk⟩ := Line.exists_at? hn
      rw [linesFrom_eq_cons hk]
      simp [(Line.addr_of_at? hk).1]
    · exact List.mem_cons_of_mem _ (ih h)

/-- The addresses at which the lines of the listing begin. -/
def boundaries (p : Program) : List Nat := p.listing.map Line.addr

theorem zero_mem_boundaries (h : 0 < p.size) : 0 ∈ p.boundaries := by
  obtain ⟨l, hl⟩ := Line.exists_at? h
  rw [boundaries, listing, linesFrom_eq_cons hl]
  simp [(Line.addr_of_at? hl).1]

/-- Every branch goes to the beginning of a line or out of the image. -/
def TargetsListed (p : Program) : Prop :=
  ∀ l ∈ p.listing, ∀ a ∈ l.target?, a ∈ p.boundaries ∨ p.size ≤ a

instance : DecidablePred TargetsListed := fun p =>
  inferInstanceAs (Decidable (∀ l ∈ p.listing, ∀ a ∈ l.target?, a ∈ p.boundaries ∨ p.size ≤ a))

end Program

namespace Machine

variable {σ : Type} {obs : Observer σ} {m t : Machine σ} {l : Line} {k : Nat}

theorem branch_of_jumps {op : Opcode} {d : List Int} (h : Reading.jumps op d = true) :
    op = .jump ∨ op = .brIf := by
  cases op <;> simp_all [Reading.jumps]

/-- A step that goes on comes to the next line or to the target of its own. -/
theorem step_pc_of_line (h : m.step obs = (.ok .continue, t))
    (hl : Line.at? m.program m.pc = some l) : t.pc = l.next ∨ l.target? = some t.pc := by
  obtain ⟨hh, hp⟩ := hasNext_iff.1 (hasNext_of_executed h (by simp))
  have hb := Array.getElem?_eq_getElem hp
  cases ho : Opcode.ofByte? m.program[m.pc] with
  | none => simp [step_unknown hh hb ho] at h
  | some op =>
    rw [← Opcode.ofByte?_eq_some_iff.1 ho] at hb
    have hr : (m.step obs).1 = .ok .continue := by rw [h]
    obtain ⟨hnext, htarget⟩ := Line.complete_of_at? hl hb (ready_of_ok hh hb hr).operand
    have hpc := step_pc_of_ok hh hb hr
    rw [h] at hpc
    by_cases hj : Reading.jumps op m.data.ints = true
    · rw [if_pos hj] at hpc
      rw [htarget (branch_of_jumps hj)]
      exact Or.inr (congrArg some hpc.symm)
    · rw [if_neg hj, ← hnext] at hpc
      exact Or.inl hpc

/-- A machine stands where a line begins, or outside its program. -/
def OnListing (m : Machine σ) : Prop := m.pc ∈ m.program.boundaries ∨ m.program.size ≤ m.pc

theorem onListing_fresh (p : Program) (start : σ) : OnListing (fresh p start) := by
  rcases Nat.eq_zero_or_pos p.size with h | h
  · exact Or.inr (Nat.le_of_eq h)
  · exact Or.inl (Program.zero_mem_boundaries h)

/-- A step leads to the start of a line, or out of the program. -/
theorem onListing_step (hc : m.program.TargetsListed) (hm : OnListing m)
    (h : m.step obs = (.ok .continue, t)) : OnListing t := by
  have hp := program_of_step h
  rcases hm with hm | hm
  · obtain ⟨l, hl, ha⟩ := List.mem_map.1 hm
    have hat := Program.at?_of_mem_linesFrom hl
    rw [ha] at hat
    rw [OnListing, hp]
    rcases step_pc_of_line h hat with hpc | hpc
    · rw [hpc]
      rcases Nat.lt_or_ge l.next m.program.size with hn | hn
      · exact Or.inl (Program.next_mem_linesFrom hl hn)
      · exact Or.inr hn
    · exact hc l hl _ hpc
  · have := (hasNext_iff.1 (hasNext_of_executed h (by simp))).2
    omega

theorem onListing_steps (hc : m.program.TargetsListed) (hm : OnListing m)
    (h : Steps obs m (goOn k) t) : OnListing t := by
  induction k generalizing m with
  | zero =>
    cases h
    exact hm
  | succ k ih =>
    cases h with
    | @head m u t r rs hs hx ht =>
      exact ih (program_of_step hs ▸ hc) (onListing_step hc hm hs) ht

theorem recorded_on_listing {p : Program} {budget : Nat} {s : Snapshot} (hc : p.TargetsListed)
    (hs : s ∈ ((fresh p #[]).run .recorder budget).2.snapshots) :
    s.pc ∈ p.boundaries ∧ p[s.pc]? = some s.opcode := by
  obtain ⟨i, hi⟩ := List.mem_iff_getElem?.1 hs
  obtain ⟨u, hu, hnext⟩ := fresh_run_recorded hi
  have hp : u.program = p := steps_program hu
  obtain ⟨-, hpc, hb, -⟩ := upcoming?_eq_some_iff.1 hnext
  have hon := onListing_steps hc (onListing_fresh p #[]) hu
  rw [OnListing, hp, hpc] at hon
  rw [hp] at hb
  have hlt := (Array.getElem?_eq_some_iff.1 hb).1
  refine ⟨?_, hb⟩
  rcases hon with hon | hon
  · exact hon
  · omega

/-- If the branches in a listing go to lines or out of the image, a run fetches only where a line
begins, and it finds the opcode of that line. -/
theorem run_stays_on_listing (p : Program) (hc : p.TargetsListed) (budget : Nat) :
    let t := ((fresh p #[]).run .recorder budget).2
    (∀ a ∈ Event.addresses t.observer.toList, a ∈ p.boundaries) ∧
      ∀ s ∈ t.snapshots, ∀ l ∈ p.listing, l.addr = s.pc → l.item.opcode = s.opcode := by
  intro t
  refine ⟨?_, ?_⟩
  · intro a ha
    rw [← Event.map_pc_snapshots] at ha
    obtain ⟨s, hs, rfl⟩ := List.mem_map.1 ha
    exact (recorded_on_listing hc hs).1
  · intro s hs l hl hls
    have hb := Line.opcode_of_at? (Program.at?_of_mem_linesFrom hl)
    rw [hls, (recorded_on_listing hc hs).2] at hb
    exact (Option.some.inj hb).symm

/-- A loop that counts down, with a cut operand behind it. -/
theorem run_stays_on_listing_loop :
    let p : Program :=
      #[0x01, 3, 0, 0, 0, 0x01, 1, 0, 0, 0, 0x03, 0x12, 0x0E, 5, 0, 0, 0, 0x0F, 5]
    p.TargetsListed ∧ p.boundaries = [0, 5, 10, 11, 12, 17] ∧
      ∀ a ∈ Event.addresses ((fresh p #[]).run .recorder 20).2.observer.toList,
        a ∈ p.boundaries := by
  intro p
  have hc : p.TargetsListed := by decide +kernel
  exact ⟨hc, by decide +kernel, (run_stays_on_listing p hc 20).1⟩

end Machine

end TwoStack
