import Mathlib.Algebra.GroupWithZero.Nat
import TwoStack.Item
import TwoStack.Proofs.Steps
import TwoStack.Proofs.Table

/-! Running a program that does not branch is folding the effects of its instructions. -/

namespace TwoStack

namespace Reading

theorem stackEffect_of_bare {op : Opcode} (h : op.hasOperand = false) (n : Nat) (d r : List Int) :
    stackEffect n op d r = stackEffect 0 op d r := by
  unfold stackEffect
  split <;> simp_all [Opcode.hasOperand]

theorem stackEffect_eq_none {op : Opcode} {n : Nat} {d r : List Int}
    (h : d.length < op.dataNeeds ∨ r.length < op.returnNeeds) :
    stackEffect n op d r = none := by
  unfold stackEffect
  split <;> simp only [Opcode.dataNeeds, Opcode.returnNeeds, List.length_cons, reduceCtorEq] at h ⊢
  all_goals omega

end Reading

/-- An instruction that goes on to the one behind it. -/
inductive Straight where
  | push (v : UInt32)
  | bare (op : Opcode) (hop : op.hasOperand = false := by decide) (hne : op ≠ .halt := by decide)

/-- What instructions work on: the stacks, the top first, and the code points written. -/
structure Contents where
  data : List Int
  ret : List Int
  output : List Int
  deriving DecidableEq

def Contents.empty : Contents := ⟨[], [], []⟩

/-- Which stack was not deep enough. -/
inductive Underflow where
  | data
  | ret
  deriving DecidableEq

def Underflow.fault (addr : Nat) : Underflow → Fault
  | data => .stackUnderflow addr
  | ret => .returnStackUnderflow addr

namespace Straight

def opcode : Straight → Opcode
  | push _ => .push
  | bare op _ _ => op

def operand : Straight → Nat
  | push v => v.toNat
  | bare _ _ _ => 0

def item : Straight → Item
  | push v => .immediate .push v
  | bare op _ _ => .bare op

/-- The effect of an instruction, by the instruction table. -/
def effect (c : Contents) (i : Straight) : Except Underflow Contents :=
  match Reading.stackEffect i.operand i.opcode c.data c.ret with
  | some (d, r) => .ok ⟨d, r, c.output ++ Reading.written i.opcode c.data⟩
  | none => .error (if i.opcode.returnNeeds = 0 then .data else .ret)

/-- The effects of instructions, one after another up to the first that fails. -/
def effects (is : List Straight) (c : Contents) : Except Underflow Contents :=
  is.foldlM effect c

def width (i : Straight) : Nat := i.opcode.width

/-- The image of a list of instructions. -/
def image (is : List Straight) : Program := assemble (is.map item)

variable {i : Straight} {p : Program} {addr : Nat} {bs : List UInt8}

theorem size_item (i : Straight) : i.item.encode.length = i.width := by
  cases i with
  | push v => rfl
  | bare op hop hne => simp [item, Item.encode, width, opcode, Opcode.width, hop]

/-- An instruction is read where its bytes stand. -/
theorem decoded (h : p.toList.drop addr = i.item.encode ++ bs) :
    p[addr]? = some i.opcode.byte ∧ (i.opcode.hasOperand = true → addr + 5 ≤ p.size) ∧
      ∀ d r, Reading.stackEffect (p.littleEndian (addr + 1)) i.opcode d r =
        Reading.stackEffect i.operand i.opcode d r := by
  cases i with
  | push v =>
    obtain ⟨hs, hv⟩ := Program.word?_eq_some (Program.word?_of_drop (Program.drop_succ h))
    refine ⟨Program.getElem?_of_drop h, fun _ => by omega, fun d r => ?_⟩
    rw [← hv]
    rfl
  | bare op hop hne =>
    refine ⟨Program.getElem?_of_drop h, fun ho => ?_, Reading.stackEffect_of_bare hop _⟩
    exact absurd ho (by simp [opcode, hop])

theorem opcode_ne_halt (i : Straight) : i.opcode ≠ .halt := by
  cases i with
  | push v => simp [opcode]
  | bare op hop hne => exact hne

theorem jumps_opcode (i : Straight) (d : List Int) : Reading.jumps i.opcode d = false := by
  cases i with
  | push v => rfl
  | bare op hop hne =>
    change Reading.jumps op d = false
    cases op with
    | brIf | jump => simp [Opcode.hasOperand] at hop
    | _ => rfl

theorem size_image (is : List Straight) : (image is).size = (is.map width).sum := by
  induction is with
  | nil => rfl
  | cons i is ih =>
    simp only [image, assemble, List.size_toArray, List.map_cons, List.flatMap_cons,
      List.length_append, List.sum_cons, size_item] at ih ⊢
    rw [ih]

theorem effects_cons_ok {is : List Straight} {c d : Contents} (h : i.effect c = .ok d) :
    effects (i :: is) c = effects is d := by
  rw [effects, List.foldlM_cons, h]
  rfl

theorem effects_cons_error {is : List Straight} {c : Contents} {e : Underflow}
    (h : i.effect c = .error e) : effects (i :: is) c = .error e := by
  rw [effects, List.foldlM_cons, h]
  rfl

/-- Effects that fail succeed up to a first instruction that fails. -/
theorem effects_eq_error {is : List Straight} {c : Contents} {e : Underflow}
    (h : effects is c = .error e) :
    ∃ pre i post c', is = pre ++ i :: post ∧ effects pre c = .ok c' ∧ i.effect c' = .error e := by
  induction is generalizing c with
  | nil => cases h
  | cons i is ih =>
    cases hi : i.effect c with
    | error e' =>
      obtain rfl : e' = e := Except.error.inj ((effects_cons_error hi).symm.trans h)
      exact ⟨[], i, is, c, rfl, rfl, hi⟩
    | ok d =>
      rw [effects_cons_ok hi] at h
      obtain ⟨pre, j, post, d', rfl, hpre, hj⟩ := ih h
      exact ⟨i :: pre, j, post, d', rfl, (effects_cons_ok hi).trans hpre, hj⟩

theorem effects_append (is js : List Straight) (c : Contents) :
    effects (is ++ js) c = effects is c >>= effects js :=
  List.foldlM_append

/-- Pushing values stacks them up. -/
theorem effects_push (vs : List UInt32) (c : Contents) :
    effects (vs.map push) c = .ok { c with data := vs.reverse.map cell ++ c.data } := by
  induction vs generalizing c with
  | nil => rfl
  | cons v vs ih =>
    have he : (push v).effect c = .ok { c with data := cell v :: c.data } := by
      simp [effect, opcode, operand, Reading.stackEffect, Reading.written, cell]
    rw [List.map_cons, effects_cons_ok he, ih]
    simp

end Straight

namespace Machine

open Straight

variable {σ : Type} {obs : Observer σ} {m : Machine σ} {i : Straight} {is : List Straight}
  {bs : List UInt8} {c : Contents} {e : Underflow}

def contents (m : Machine σ) : Contents := ⟨m.data.ints, m.ret.ints, codes m.output⟩

/-- A machine is not halted, and the given bytes are left of its program. -/
structure Before (m : Machine σ) (bs : List UInt8) : Prop where
  halted : m.halted = false
  left : m.program.toList.drop m.pc = bs

theorem Before.next {t : Machine σ} (hm : m.Before (i.item.encode ++ bs)) (hh : t.halted = false)
    (hprogram : t.program = m.program) (hpc : t.pc = m.pc + i.width) : t.Before bs := by
  refine ⟨hh, ?_⟩
  rw [hprogram, hpc, ← List.drop_drop, hm.left, ← size_item, List.drop_left]

theorem effect_of_ready (obs : Observer σ) (hm : m.Before (i.item.encode ++ bs))
    (h : m.Ready m.pc i.opcode) :
    i.effect m.contents =
      .ok ((m.fetched obs i.opcode).execute obs m.pc i.opcode).2.contents := by
  obtain ⟨-, -, hv⟩ := decoded hm.left
  have hs := execute_stackEffect obs (m := m.fetched obs i.opcode) rfl (fetched_ready obs h)
  change Reading.stackEffect (m.program.littleEndian (m.pc + 1)) _ m.data.ints m.ret.ints = _ at hs
  rw [hv] at hs
  simp only [effect, contents, hs, execute_output]
  rfl

/-- The operand of a push is part of its bytes, so it is never cut short. -/
theorem effect_of_fault {f : Fault} (hm : m.Before (i.item.encode ++ bs))
    (hf : m.faultAt? i.opcode = some f) :
    ∃ e, i.effect m.contents = .error e ∧ f = e.fault m.pc := by
  obtain ⟨-, hw, -⟩ := decoded hm.left
  have hnone (h : m.data.depth < i.opcode.dataNeeds ∨ m.ret.depth < i.opcode.returnNeeds) :
      Reading.stackEffect i.operand i.opcode m.data.ints m.ret.ints = none :=
    Reading.stackEffect_eq_none (by simpa [Stack.ints, Stack.depth] using h)
  obtain ⟨ho, hs, -⟩ | ⟨-, hdata, rfl⟩ | ⟨hret, rfl⟩ := Opcode.fault?_eq_some hf
  · have := hw ho
    omega
  · have hr : i.opcode.returnNeeds = 0 := by
      cases h : i.opcode <;> simp_all [Opcode.dataNeeds, Opcode.returnNeeds]
    exact ⟨.data, by simp [effect, contents, hnone (Or.inl hdata), hr], rfl⟩
  · have hr : i.opcode.returnNeeds ≠ 0 := by omega
    exact ⟨.ret, by simp [effect, contents, hnone (Or.inr hret), hr], rfl⟩

/-- Before the bytes of an instruction, a step has its effect. -/
theorem step_of_effect_ok (obs : Observer σ) (hm : m.Before (i.item.encode ++ bs))
    (he : i.effect m.contents = .ok c) :
    ∃ t, m.step obs = (.ok .continue, t) ∧ t.contents = c ∧ t.pc = m.pc + i.width ∧
      t.Before bs := by
  obtain ⟨hb, -, -⟩ := decoded hm.left
  cases hf : m.faultAt? i.opcode with
  | some f =>
    obtain ⟨e, he', -⟩ := effect_of_fault hm hf
    simp [he'] at he
  | none =>
    have hr := faultAt?_eq_none_iff.1 hf
    have hs := step_ready obs hm.halted hb (Opcode.ofByte?_byte _) hr
    rw [if_neg i.opcode_ne_halt] at hs
    have hprogram := execute_program obs (m.fetched obs i.opcode) m.pc i.opcode
    have hhalted := execute_halted obs (m.fetched obs i.opcode) m.pc i.opcode
    rw [beq_false_of_ne i.opcode_ne_halt, Bool.or_false] at hhalted
    have hpc := execute_pc obs (m := m.fetched obs i.opcode) rfl (fetched_ready obs hr)
    rw [jumps_opcode] at hpc
    refine ⟨_, hs, ?_, hpc, hm.next (hhalted.trans hm.halted) hprogram hpc⟩
    exact Except.ok.inj ((effect_of_ready obs hm hr).symm.trans he)

theorem step_of_effect_error (obs : Observer σ) (hm : m.Before (i.item.encode ++ bs))
    (he : i.effect m.contents = .error e) : ∃ t, m.step obs = (.error (e.fault m.pc), t) := by
  obtain ⟨hb, -, -⟩ := decoded hm.left
  cases hf : m.faultAt? i.opcode with
  | none =>
    rw [effect_of_ready obs hm (faultAt?_eq_none_iff.1 hf)] at he
    simp at he
  | some f =>
    obtain ⟨e', he', rfl⟩ := effect_of_fault hm hf
    obtain rfl : e = e' := Except.error.inj (he.symm.trans he')
    exact ⟨_, step_fault obs hm.halted hb (Opcode.ofByte?_byte _) hf⟩

/-- Before the bytes of instructions, as many steps have their effects. -/
theorem steps_of_effects (obs : Observer σ)
    (hm : m.Before ((is.map item).flatMap Item.encode ++ bs))
    (he : effects is m.contents = .ok c) :
    ∃ t, Steps obs m (goOn is.length) t ∧ t.contents = c ∧ t.pc = m.pc + (is.map width).sum ∧
      t.Before bs := by
  induction is generalizing m with
  | nil =>
    obtain rfl : m.contents = c := Except.ok.inj he
    exact ⟨m, .refl, rfl, rfl, hm⟩
  | cons i is ih =>
    rw [List.map_cons, List.flatMap_cons, List.append_assoc] at hm
    cases hi : i.effect m.contents with
    | error e =>
      rw [effects_cons_error hi] at he
      cases he
    | ok d =>
      rw [effects_cons_ok hi] at he
      obtain ⟨u, hs, rfl, hp, hu⟩ := step_of_effect_ok obs hm hi
      obtain ⟨t, ht, hc, hpt, htb⟩ := ih hu he
      refine ⟨t, .head hs (by simp) ht, hc, ?_, htb⟩
      rw [hpt, hp, List.map_cons, List.sum_cons, Nat.add_assoc]

theorem before_fresh (is : List Straight) (start : σ) :
    (fresh (image is) start).Before ((is.map item).flatMap Item.encode) := by
  refine ⟨rfl, ?_⟩
  simp [fresh, image, assemble]

theorem run_of_effects_ok (obs : Observer σ) (start : σ) {budget : Nat} (hb : is.length ≤ budget)
    (he : effects is .empty = .ok c) :
    ∃ s t, (fresh (image is) start).run obs budget = (.ok s, t) ∧ s.steps = is.length ∧
      s.termination = .endOfProgram (image is).size ∧
      s.data.ints = c.data ∧ s.ret.ints = c.ret ∧ codes s.output = c.output := by
  have hm := before_fresh is start
  rw [← List.append_nil (List.flatMap _ _)] at hm
  obtain ⟨t, hs, rfl, hp, ht⟩ := steps_of_effects obs hm he
  have hpc : t.pc = (image is).size := by simpa [fresh, size_image] using hp
  have hn : t.hasNext = false := by
    have hle : t.program.size ≤ t.pc := by simpa using ht.left
    simp [hasNext, hle]
  have hr : t.restTermination = .endOfProgram (image is).size := by
    simp [restTermination, ht.halted, hpc]
  exact ⟨_, t, run_eq_iff.2 ⟨_, t, hs, .rest hb hn⟩, rfl, hr, rfl, rfl, rfl⟩

theorem run_of_effects_error (obs : Observer σ) (start : σ) {budget : Nat}
    (hb : is.length ≤ budget) (he : effects is .empty = .error e) :
    ∃ pre i post c t, is = pre ++ i :: post ∧ effects pre .empty = .ok c ∧
      i.effect c = .error e ∧
      (fresh (image is) start).run obs budget = (.error (e.fault (pre.map width).sum), t) := by
  obtain ⟨pre, i, post, c, rfl, hpre, hi⟩ := effects_eq_error he
  have hm := before_fresh (pre ++ i :: post) start
  rw [List.map_append, List.flatMap_append] at hm
  obtain ⟨u, hs, rfl, hp, hu⟩ := steps_of_effects obs hm hpre
  obtain ⟨t, ht⟩ := step_of_effect_error obs hu hi
  have hpc : u.pc = (pre.map width).sum := by simpa [fresh] using hp
  rw [hpc] at ht
  have hk : pre.length < budget := by
    simp only [List.length_append, List.length_cons] at hb
    omega
  exact ⟨pre, i, post, _, t, rfl, hpre, hi, run_eq_iff.2 ⟨_, u, hs, .fault hk ht⟩⟩

/-- Pushed values stay as they are under instructions that do nothing to them. -/
theorem run_pushed (obs : Observer σ) (start : σ) {vs : List UInt32} {tail : List Straight}
    {budget : Nat} (hb : (vs.map push ++ tail).length ≤ budget)
    (ht : effects tail ⟨vs.reverse.map cell, [], []⟩ = .ok ⟨vs.reverse.map cell, [], []⟩) :
    ∃ s t, (fresh (image (vs.map push ++ tail)) start).run obs budget = (.ok s, t) ∧
      s.data.bottomUp = vs := by
  have he : effects (vs.map push ++ tail) .empty = .ok ⟨vs.reverse.map cell, [], []⟩ := by
    rw [effects_append, effects_push]
    simp only [Contents.empty, List.append_nil]
    exact ht
  obtain ⟨s, t, hs, -, -, hd, -⟩ := run_of_effects_ok obs start hb he
  refine ⟨s, t, hs, ?_⟩
  have hcells : s.data.cells = vs.reverse :=
    (List.map_inj_right fun _ _ h => cell_inj.1 h).1 hd
  rw [Stack.bottomUp, hcells, List.reverse_reverse]

/-- Running the image of a list of instructions that do not branch is folding their effects: the
run comes to the end of the image with what the effects leave, or it meets the first underflow at
the address of its instruction. So a tail such as `dup`, `swap`, `drop` or `>r`, `r>` leaves pushed
values as they are. -/
theorem straight_line_run (obs : Observer σ) (start : σ) (is : List Straight) (budget : Nat)
    (hb : is.length ≤ budget) :
    (∀ c, effects is .empty = .ok c →
        ∃ s t, (fresh (image is) start).run obs budget = (.ok s, t) ∧ s.steps = is.length ∧
          s.termination = .endOfProgram (image is).size ∧
          s.data.ints = c.data ∧ s.ret.ints = c.ret ∧ codes s.output = c.output) ∧
      (∀ e, effects is .empty = .error e →
        ∃ pre i post c t, is = pre ++ i :: post ∧ effects pre .empty = .ok c ∧
          i.effect c = .error e ∧
          (fresh (image is) start).run obs budget = (.error (e.fault (pre.map width).sum), t)) ∧
      ∀ vs tail, vs ≠ [] → is = vs.map push ++ tail →
        tail = [.bare .dup, .bare .swap, .bare .drop] ∨ tail = [.bare .toR, .bare .fromR] →
        ∃ s t, (fresh (image is) start).run obs budget = (.ok s, t) ∧ s.data.bottomUp = vs := by
  refine ⟨fun c he => run_of_effects_ok obs start hb he,
    fun e he => run_of_effects_error obs start hb he, ?_⟩
  rintro vs tail hvs rfl htail
  apply run_pushed obs start hb
  obtain ⟨v, d, hv⟩ := List.exists_cons_of_ne_nil (mt List.reverse_eq_nil_iff.1 hvs)
  rw [hv]
  rcases htail with rfl | rfl <;> rfl

/-- A product that wraps around is printed by its low byte and moved to the return stack. -/
theorem straight_line_run_mul :
    [push 0x7FFFFFFF, push 3, .bare .mul, .bare .dup, .bare .print, .bare .toR].length ≤ 6 ∧
      ∃ s t, (fresh (image [push 0x7FFFFFFF, push 3, .bare .mul, .bare .dup, .bare .print,
          .bare .toR]) ()).run .silent 6 = (.ok s, t) ∧ s.steps = 6 ∧
        s.termination = .endOfProgram 14 ∧ s.data.ints = [] ∧ s.ret.ints = [0x7FFFFFFD] ∧
        codes s.output = [0xFD] := by
  have hb : [push 0x7FFFFFFF, push 3, .bare .mul, .bare .dup, .bare .print,
      .bare .toR].length ≤ 6 := by decide
  exact ⟨hb, (straight_line_run .silent () _ 6 hb).1 ⟨[], [0x7FFFFFFD], [0xFD]⟩ (by rfl)⟩

end Machine

end TwoStack
