import TwoStack.Listing
import TwoStack.Proofs.FaultLaw
import TwoStack.Proofs.ItemText
import TwoStack.Proofs.Table

/-! The listing and the machine read an image alike, at every address. -/

namespace TwoStack

namespace Item

variable {p : Program} {addr : Nat} {b : UInt8} {op : Opcode}

theorem at?_raw (hb : p[addr]? = some b) (ho : Opcode.ofByte? b = none) :
    at? p addr = some (raw b) := by
  simp [at?, hb, ho]

theorem at?_bare (hb : p[addr]? = some op.byte) (hop : op.hasOperand = false) :
    at? p addr = some (bare op) := by
  simp [at?, hb, hop]

theorem at?_immediate {v : UInt32} (hb : p[addr]? = some op.byte) (hop : op.hasOperand = true)
    (hv : p.word? (addr + 1) = some v) : at? p addr = some (immediate op v) := by
  simp [at?, hb, hop, hv]

theorem at?_truncated (hb : p[addr]? = some op.byte) (hop : op.hasOperand = true)
    (hs : p.size < addr + 5) :
    at? p addr = some (truncated op (p.extract (addr + 1) p.size).toList) := by
  simp [at?, hb, hop, Program.word?_eq_none (show p.size < addr + 1 + 4 by omega)]

/-- An instruction whose operand is complete is listed with it. -/
theorem exists_complete_at? (hb : p[addr]? = some op.byte)
    (hw : op.hasOperand = true → addr + 5 ≤ p.size) :
    ∃ it, at? p addr = some it ∧ it.Complete ∧ it.opcode = op.byte ∧ it.size = op.width ∧
      (op.hasOperand = true → Text.operand? it.text = some (p.littleEndian (addr + 1))) := by
  cases hop : op.hasOperand with
  | false =>
    refine ⟨_, at?_bare hb hop, hop, rfl, ?_, by simp⟩
    simp [size, encode, Opcode.width, hop]
  | true =>
    obtain ⟨v, hv, hn⟩ : ∃ v, p.word? (addr + 1) = some v ∧ v.toNat = _ :=
      Program.exists_word? (by have := hw hop; omega)
    refine ⟨_, at?_immediate hb hop hv, hop, rfl, ?_, ?_⟩
    · simp [size, encode, Word.bytes, Opcode.width, hop]
    · intro _
      rw [operand?_text_immediate, hn]

end Item

/-- Whether the instruction at a line goes to its operand: a jump does, and so does a conditional
branch over a cell that is not zero. -/
def Line.Jumps (l : Line) (data : Stack) : Prop :=
  l.item.opcode = Opcode.jump.byte ∨
    l.item.opcode = Opcode.brIf.byte ∧ ∃ c, data.peek? = some c ∧ c ≠ 0

namespace Machine

variable {σ : Type} {obs : Observer σ} {m : Machine σ} {b : UInt8} {op : Opcode} {l : Line}

/-- A line and a step at its address agree on what stands there. -/
structure Agrees (obs : Observer σ) (m : Machine σ) (l : Line) : Prop where
  addr : l.addr = m.pc
  reported : (m.step obs).2.observer =
    (Snapshot.events ⟨m.pc, l.item.opcode, m.data, m.ret⟩).foldl obs.receive m.observer
  unknown : (m.step obs).1 = .ok (.unknownOpcode m.pc l.item.opcode) ↔
    ".byte".toList <+: l.item.text.toList
  truncated : (m.step obs).1 = .error (.truncatedProgram m.pc) ↔
    "<truncated>".toList <:+ l.item.text.toList
  jumps : ∀ r, (m.step obs).1 = .ok r → l.Jumps m.data →
    Text.operand? l.item.text = some (m.step obs).2.pc
  proceeds : ∀ r, (m.step obs).1 = .ok r → ¬ l.Jumps m.data → (m.step obs).2.pc = l.next
  pushes : ∀ r, (m.step obs).1 = .ok r → l.item.opcode = Opcode.push.byte →
    ∃ v, Text.operand? l.item.text = some v.toNat ∧ (m.step obs).2.data = m.data.push v
  underflows : ∀ f, (m.step obs).1 = .error f → f ≠ .truncatedProgram m.pc →
    (m.step obs).2.pc = l.next

theorem jumps_iff {data : Stack} (h : l.item.opcode = op.byte) :
    l.Jumps data ↔ Reading.jumps op data.ints = true := by
  obtain ⟨cells⟩ := data
  unfold Line.Jumps
  rw [h]
  cases op with
  | brIf =>
    cases cells <;>
      simp [Reading.jumps, Stack.peek?, Stack.ints, Opcode.byte, cell_eq_zero_iff]
  | _ => simp [Reading.jumps, Opcode.byte]

theorem hasOperand_of_jumps {d : List Int} (h : Reading.jumps op d = true) :
    op.hasOperand = true := by
  cases op <;> simp_all [Reading.jumps, Opcode.hasOperand]

theorem step_result (obs : Observer σ) (hh : m.halted = false)
    (hb : m.program[m.pc]? = some op.byte) :
    (m.step obs).1 =
      (m.faultAt? op).elim (.ok (if op = .halt then .halted else .continue)) .error := by
  have ho := Opcode.ofByte?_byte op
  cases hf : m.faultAt? op with
  | none => rw [step_ready obs hh hb ho (faultAt?_eq_none_iff.1 hf)]; rfl
  | some f => rw [step_fault obs hh hb ho hf]; rfl

theorem step_truncated_iff (obs : Observer σ) (hh : m.halted = false)
    (hb : m.program[m.pc]? = some op.byte) :
    (m.step obs).1 = .error (.truncatedProgram m.pc) ↔
      op.hasOperand = true ∧ m.program.size < m.pc + 5 := by
  rw [step_result obs hh hb, faultAt?, Opcode.fault?]
  grind

theorem ready_of_ok {r : Outcome} (hh : m.halted = false) (hb : m.program[m.pc]? = some op.byte)
    (hr : (m.step obs).1 = .ok r) : m.Ready m.pc op := by
  rw [step_result obs hh hb] at hr
  cases hf : m.faultAt? op with
  | none => exact faultAt?_eq_none_iff.1 hf
  | some f => simp [hf] at hr

theorem step_pc_of_ok {r : Outcome} (hh : m.halted = false)
    (hb : m.program[m.pc]? = some op.byte) (hr : (m.step obs).1 = .ok r) :
    (m.step obs).2.pc =
      if Reading.jumps op m.data.ints then m.program.littleEndian (m.pc + 1)
      else m.pc + op.width := by
  have h := ready_of_ok hh hb hr
  rw [step_ready obs hh hb (Opcode.ofByte?_byte op) h]
  exact execute_pc obs rfl (fetched_ready obs h)

/-- An underflow is met behind the whole instruction. -/
theorem step_pc_of_underflow {f : Fault} (hh : m.halted = false)
    (hb : m.program[m.pc]? = some op.byte) (hf : (m.step obs).1 = .error f)
    (hne : f ≠ .truncatedProgram m.pc) : (m.step obs).2.pc = m.pc + op.width := by
  rw [step_result obs hh hb] at hf
  cases hg : m.faultAt? op with
  | none => simp [hg] at hf
  | some g =>
    obtain rfl : g = f := by simpa [hg] using hf
    rw [step_fault obs hh hb (Opcode.ofByte?_byte op) hg]
    change m.faultPc op g = _
    rw [← faultPc_eq hg]
    obtain ⟨-, -, rfl⟩ | ⟨-, -, rfl⟩ | ⟨hr, rfl⟩ := Opcode.fault?_eq_some hg
    · exact (hne rfl).elim
    · rw [if_pos rfl]
    · cases op with
      | fromR | rFetch => rfl
      | _ => simp [Opcode.returnNeeds] at hr

theorem step_push_data {r : Outcome} (hh : m.halted = false)
    (hb : m.program[m.pc]? = some Opcode.push.byte) (hr : (m.step obs).1 = .ok r) :
    ∃ v, v.toNat = m.program.littleEndian (m.pc + 1) ∧ (m.step obs).2.data = m.data.push v := by
  have h := ready_of_ok hh hb hr
  obtain ⟨v, hn, hv⟩ := withOperand_complete (m := m.fetched obs .push) rfl (h.operand rfl)
  refine ⟨v, hn, ?_⟩
  rw [step_ready obs hh hb (Opcode.ofByte?_byte .push) h, execute, hv]
  rfl

theorem agrees_raw (obs : Observer σ) (hh : m.halted = false) (hb : m.program[m.pc]? = some b)
    (ho : Opcode.ofByte? b = none) : Agrees obs m ⟨m.pc, .raw b⟩ := by
  have hs : m.step obs = _ := step_unknown hh hb ho
  have hne := Opcode.ofByte?_eq_none_iff.1 ho
  refine ⟨rfl, step_observer obs hh hb, ?_, ?_, ?_, ?_, ?_, ?_⟩
  · exact iff_of_true (by rw [hs]; rfl) ((Item.byte_prefix_text_iff _).2 ⟨b, rfl⟩)
  · refine iff_of_false (by simp [hs]) ?_
    rw [Item.truncated_suffix_text_iff]
    simp
  · rintro r - (hj | ⟨hj, -⟩)
    · exact (hne .jump hj.symm).elim
    · exact (hne .brIf hj.symm).elim
  · intro r _ _
    rw [hs]
    rfl
  · intro r _ hp
    exact (hne .push hp.symm).elim
  · intro f hf
    simp [hs] at hf

theorem agrees_truncated (obs : Observer σ) (hh : m.halted = false)
    (hb : m.program[m.pc]? = some op.byte) (hop : op.hasOperand = true)
    (hs : m.program.size < m.pc + 5) (bs : List UInt8) :
    Agrees obs m ⟨m.pc, .truncated op bs⟩ := by
  have hf := (step_truncated_iff obs hh hb).2 ⟨hop, hs⟩
  refine ⟨rfl, step_observer obs hh hb, ?_, ?_, ?_, ?_, ?_, ?_⟩
  · refine iff_of_false (by simp [hf]) ?_
    rw [Item.byte_prefix_text_iff]
    simp
  · exact iff_of_true hf ((Item.truncated_suffix_text_iff _).2 ⟨op, bs, rfl⟩)
  · intro r hr
    simp [hf] at hr
  · intro r hr
    simp [hf] at hr
  · intro r hr
    simp [hf] at hr
  · intro f hr hne
    exact (hne (Except.error.inj (hr.symm.trans hf))).elim

theorem agrees_complete (obs : Observer σ) (hh : m.halted = false)
    (hb : m.program[m.pc]? = some op.byte) {it : Item} (hc : it.Complete)
    (ho : it.opcode = op.byte) (hsize : it.size = op.width)
    (hw : op.hasOperand = true → m.pc + 5 ≤ m.program.size)
    (htext : op.hasOperand = true →
      Text.operand? it.text = some (m.program.littleEndian (m.pc + 1))) :
    Agrees obs m ⟨m.pc, it⟩ := by
  have hj : Line.Jumps ⟨m.pc, it⟩ m.data ↔ _ := jumps_iff ho
  have hnext : Line.next ⟨m.pc, it⟩ = m.pc + op.width := congrArg (m.pc + ·) hsize
  refine ⟨rfl, ?_, ?_, ?_, ?_, ?_, ?_, ?_⟩
  · rw [ho]
    exact step_observer obs hh hb
  · refine iff_of_false ?_ ?_
    · rw [step_result obs hh hb]
      cases m.faultAt? op with
      | none => by_cases hop : op = .halt <;> simp [hop]
      | some f => simp
    · rw [Item.byte_prefix_text_iff]
      rintro ⟨b, rfl⟩
      have hn : Opcode.ofByte? b = none := hc
      rw [show b = op.byte from ho, Opcode.ofByte?_byte] at hn
      simp at hn
  · rw [step_truncated_iff obs hh hb, Item.truncated_suffix_text_iff]
    refine iff_of_false ?_ ?_
    · rintro ⟨hop, hs⟩
      have := hw hop
      omega
    · rintro ⟨op', bs, rfl⟩
      exact hc
  · intro r hr hl
    have hl' := hj.1 hl
    rw [step_pc_of_ok hh hb hr, if_pos hl']
    exact htext (hasOperand_of_jumps hl')
  · intro r hr hl
    rw [step_pc_of_ok hh hb hr, if_neg (mt hj.2 hl), hnext]
  · intro r hr hp
    obtain rfl : op = .push := Opcode.byte_injective (ho.symm.trans hp)
    obtain ⟨v, hn, hd⟩ := step_push_data hh hb hr
    refine ⟨v, ?_, hd⟩
    rw [hn]
    exact htext rfl
  · intro f hf hne
    rw [step_pc_of_underflow hh hb hf hne, hnext]

/-- The line at the address of a step tells what the step finds: the byte it reports, whether that
byte is unassigned or its operand is cut short, and where and with which operand it goes on. -/
theorem listing_agrees_with_step (obs : Observer σ) (m : Machine σ) (hh : m.halted = false)
    (hp : m.pc < m.program.size) :
    ∃ l, Line.at? m.program m.pc = some l ∧ Agrees obs m l := by
  have hb := Array.getElem?_eq_getElem hp
  have hline {it : Item} (h : Item.at? m.program m.pc = some it) :
      Line.at? m.program m.pc = some ⟨m.pc, it⟩ := by
    rw [Line.at?, h]
    rfl
  cases ho : Opcode.ofByte? m.program[m.pc] with
  | none => exact ⟨_, hline (Item.at?_raw hb ho), agrees_raw obs hh hb ho⟩
  | some op =>
    rw [← Opcode.ofByte?_eq_some_iff.1 ho] at hb
    by_cases hw : op.hasOperand = true ∧ m.program.size < m.pc + 5
    · exact ⟨_, hline (Item.at?_truncated hb hw.1 hw.2), agrees_truncated obs hh hb hw.1 hw.2 _⟩
    · have hw' : op.hasOperand = true → m.pc + 5 ≤ m.program.size := by
        intro hop
        simp only [hop, true_and] at hw
        omega
      obtain ⟨it, hat, hc, hop, hsize, htext⟩ := Item.exists_complete_at? hb hw'
      exact ⟨_, hline hat, agrees_complete obs hh hb hc hop hsize hw' htext⟩

/-- A jump is found inside the operand of a push, where no line of the listing begins. -/
theorem listing_agrees_with_step_jump :
    ∃ l, Line.at? #[0x01, 0x0F, 0x02, 0x00, 0x00, 0x00] 1 = some l ∧ l.item.text = "jump 2" ∧
      Text.operand? l.item.text = some
        (({ fresh #[0x01, 0x0F, 0x02, 0x00, 0x00, 0x00] () with pc := 1 } : Machine Unit).step
          .silent).2.pc := by
  obtain ⟨l, hl, h⟩ := listing_agrees_with_step .silent
    { fresh #[0x01, 0x0F, 0x02, 0x00, 0x00, 0x00] () with pc := 1 } rfl (by decide)
  obtain rfl : (⟨1, .immediate .jump 2⟩ : Line) = l := Option.some.inj (Eq.trans (by rfl) hl)
  exact ⟨_, hl, by rfl, h.jumps .continue rfl (Or.inl rfl)⟩

end Machine

end TwoStack
