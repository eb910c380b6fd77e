import Mathlib.Data.List.Chain
import TwoStack.Proofs.Observers
import TwoStack.Proofs.Steps

/-! A recorded trace can be replayed step by step, and it tells all that was printed. -/

namespace TwoStack

/-- The character of a print. -/
def Event.character? : Event → Option Char
  | .step _ => none
  | .print p => some p.character

namespace Snapshot

/-- What a step prints: under opcode `0x08` the character of the top cell's low byte. -/
def printed? (s : Snapshot) : Option Printed :=
  if s.opcode = 0x08 then
    s.data.peek?.map fun c => ⟨Char.ofNat (c.toNat % 256), UInt8.ofNat (c.toNat % 256)⟩
  else none

theorem printed_eq (c : UInt32) :
    (⟨Char.ofUInt8 c.toUInt8, c.toUInt8⟩ : Printed) =
      ⟨Char.ofNat (c.toNat % 256), UInt8.ofNat (c.toNat % 256)⟩ := by
  have hb : UInt8.ofNat (c.toNat % 256) = c.toUInt8 := by
    rw [← UInt8.toNat_inj]
    simp
  have hc : Char.ofNat (c.toNat % 256) = Char.ofUInt8 c.toUInt8 := by
    have hn : (Char.ofUInt8 c.toUInt8).toNat = c.toUInt8.toUInt32.toNat := rfl
    rw [UInt8.toNat_toUInt32, UInt32.toNat_toUInt8] at hn
    rw [← hn, Char.ofNat_toNat]
  rw [hb, hc]

theorem events_eq (s : Snapshot) : s.events = .step s :: (s.printed?.map .print).toList := by
  obtain ⟨pc, b, ⟨cells⟩, ret⟩ := s
  by_cases hb : b = 0x08
  · subst hb
    have ho : Opcode.ofByte? 0x08 = some .print := rfl
    cases cells with
    | nil => simp [events, printed?, Stack.peek?, ho]
    | cons c cs => simp [events, printed?, Stack.peek?, ho, printed_eq]
  · have ho : Opcode.ofByte? b ≠ some .print := by
      intro h
      exact hb (Opcode.ofByte?_eq_some_iff.1 h).symm
    have hp : printed? ⟨pc, b, ⟨cells⟩, ret⟩ = none := if_neg hb
    rw [hp, events]
    split
    · exact (ho ‹_›).elim
    · rfl

theorem snapshots_events (s : Snapshot) : Event.snapshots s.events = [s] := by
  rw [events_eq]
  cases s.printed? <;> rfl

end Snapshot

namespace Machine

variable {σ τ : Type} {m : Machine σ} {u : Machine τ} {b : UInt8}

theorem execute_output_push (obs : Observer σ) (m : Machine σ) (addr : Nat) (op : Opcode) :
    (m.execute obs addr op).2.output =
      match op, m.data.cells with
      | .print, c :: _ => m.output.push (Char.ofUInt8 c.toUInt8)
      | _, _ => m.output := by
  cases op <;> simp only [execute, withOperand, binary, branch, emit, proceed, fault] <;>
    repeat' split
  all_goals simp_all

/-- Every executed step adds to the output what it reports as printed. -/
theorem step_output (obs : Observer σ) (hh : m.halted = false) (hb : m.program[m.pc]? = some b) :
    (m.step obs).2.output.toList =
      m.output.toList ++
        (Snapshot.events ⟨m.pc, b, m.data, m.ret⟩).filterMap Event.character? := by
  cases ho : Opcode.ofByte? b with
  | none =>
    rw [step_unknown hh hb ho]
    simp [Snapshot.events, ho, beginStep, Event.character?]
  | some op =>
    rw [step_opcode hh hb ho, endStep_eq]
    simp only [execute_output_push, Snapshot.events, ho, fetched, beginStep]
    split <;> split <;> simp_all [List.filterMap_cons, Event.character?]

theorem step_recorder {m : Machine (Array Event)} (hh : m.halted = false)
    (hb : m.program[m.pc]? = some b) :
    (m.step .recorder).2.observer.toList =
      m.observer.toList ++ Snapshot.events ⟨m.pc, b, m.data, m.ret⟩ := by
  rw [step_observer .recorder hh hb, Observer.toList_foldl_receive_recorder]

/-- The part of a machine that decides how it goes on. -/
structure Core where
  program : Program
  pc : Nat
  data : Stack
  ret : Stack
  halted : Bool
  deriving DecidableEq

def core (m : Machine σ) : Core := ⟨m.program, m.pc, m.data, m.ret, m.halted⟩

theorem core_eq_iff :
    m.core = u.core ↔
      m.program = u.program ∧ m.pc = u.pc ∧ m.data = u.data ∧ m.ret = u.ret ∧
        m.halted = u.halted := by
  simp [core]

theorem execute_core (o : Observer σ) (q : Observer τ) (h : m.core = u.core) (addr : Nat)
    (op : Opcode) : (m.execute o addr op).map id core = (u.execute q addr op).map id core := by
  obtain ⟨hp, hc, hd, hr, hh⟩ := core_eq_iff.1 h
  cases op <;>
    simp only [execute, withOperand, binary, branch, emit, proceed, fault, hp, hc, hd, hr] <;>
    repeat' split
  all_goals simp [core, hp, hc, hd, hr, hh]

theorem endStep_core (x : Except Fault Outcome × Machine σ) :
    (endStep x).map id core = x.map id core := by
  obtain ⟨_ | _, m⟩ := x <;> rfl

/-- Output, statistics and observer have no part in how a step goes. -/
theorem step_core (o : Observer σ) (q : Observer τ) (h : m.core = u.core) :
    (m.step o).map id core = (u.step q).map id core := by
  obtain ⟨hp, hc, hd, hr, hh⟩ := core_eq_iff.1 h
  cases hn : u.hasNext with
  | false =>
    have hm : m.hasNext = false := by simpa [hasNext, hp, hc, hh] using hn
    rw [step_idle hn, step_idle hm]
    simp [h]
  | true =>
    obtain ⟨huh, hup⟩ := hasNext_iff.1 hn
    have hub := Array.getElem?_eq_getElem hup
    have hmh : m.halted = false := hh.trans huh
    have hmb : m.program[m.pc]? = some u.program[u.pc] := by rw [hp, hc, hub]
    cases ho : Opcode.ofByte? u.program[u.pc] with
    | none =>
      rw [step_unknown huh hub ho, step_unknown hmh hmb ho]
      simp [core, beginStep, hp, hc, hd, hr, hh]
    | some op =>
      have hf : (m.fetched o op).core = (u.fetched q op).core := by
        simp [core, fetched, beginStep, hp, hc, hd, hr, hh]
      rw [step_opcode huh hub ho, step_opcode hmh hmb ho, endStep_core, endStep_core, hc]
      exact execute_core o q hf u.pc op

/-- One step of any machine that is not halted and stands at a snapshot ends at the given place. -/
def LeadsTo (p : Program) (s : Snapshot) (pc : Nat) (data ret : Stack) : Prop :=
  ∀ (τ : Type) (q : Observer τ) (u : Machine τ), u.core = ⟨p, s.pc, s.data, s.ret, false⟩ →
    (u.step q).2.pc = pc ∧ (u.step q).2.data = data ∧ (u.step q).2.ret = ret

theorem step_leadsTo (obs : Observer σ) (hh : m.halted = false) (b : UInt8) :
    LeadsTo m.program ⟨m.pc, b, m.data, m.ret⟩ (m.step obs).2.pc (m.step obs).2.data
      (m.step obs).2.ret := by
  intro τ q u hu
  have hm : u.core = m.core := by rw [hu, core, hh]
  have hs := congrArg Prod.snd (step_core q obs hm)
  obtain ⟨-, hp, hd, hr, -⟩ := core_eq_iff.1 hs
  exact ⟨hp, hd, hr⟩

/-- The steps that a machine has recorded. -/
def snapshots (m : Machine (Array Event)) : List Snapshot :=
  Event.snapshots m.observer.toList

theorem step_snapshots {m : Machine (Array Event)} (hh : m.halted = false)
    (hb : m.program[m.pc]? = some b) :
    (m.step .recorder).2.snapshots = m.snapshots ++ [⟨m.pc, b, m.data, m.ret⟩] := by
  rw [snapshots, step_recorder hh hb, Event.snapshots, List.filterMap_append]
  exact congrArg _ (Snapshot.snapshots_events _)

/-- What a machine has recorded is an execution of a program that ends where the machine stands. -/
structure Replays (p : Program) (m : Machine (Array Event)) : Prop where
  program : m.program = p
  start : m.snapshots = [] → m.pc = 0 ∧ m.data = .empty ∧ m.ret = .empty
  first : ∀ s, m.snapshots.head? = some s → s.pc = 0 ∧ s.data = .empty ∧ s.ret = .empty
  fetched : ∀ s ∈ m.snapshots, s.pc < p.size ∧ p[s.pc]? = some s.opcode
  linked : m.snapshots.IsChain fun s t => LeadsTo p s t.pc t.data t.ret
  last : ∀ s, m.snapshots.getLast? = some s → LeadsTo p s m.pc m.data m.ret
  prints : m.observer.toList =
    m.snapshots.flatMap fun s => .step s :: (s.printed?.map .print).toList
  output : m.output.toList = m.observer.toList.filterMap Event.character?

theorem replays_fresh (p : Program) : Replays p (fresh p #[]) := by
  refine ⟨rfl, fun _ => ⟨rfl, rfl, rfl⟩, ?_, ?_, ?_, ?_, rfl, rfl⟩
  all_goals simp [snapshots, fresh, Event.snapshots]

theorem replays_step {p : Program} {m : Machine (Array Event)} (hn : m.hasNext = true)
    (h : Replays p m) : Replays p (m.step .recorder).2 := by
  obtain ⟨hh, hpc⟩ := hasNext_iff.1 hn
  have hb := Array.getElem?_eq_getElem hpc
  have hp := h.program
  have hlead := step_leadsTo .recorder hh m.program[m.pc]
  have hevents := step_recorder hh hb
  have hsnap := step_snapshots hh hb
  have houtput := step_output .recorder hh hb
  have hprogram := step_program .recorder m
  generalize hs : (⟨m.pc, m.program[m.pc], m.data, m.ret⟩ : Snapshot) = s at *
  generalize (m.step .recorder).2 = t at *
  refine ⟨hprogram.trans hp, ?_, ?_, ?_, ?_, ?_, ?_, ?_⟩
  · simp [hsnap]
  · intro r hr
    rw [hsnap] at hr
    cases hm : m.snapshots with
    | nil =>
      obtain rfl : s = r := by simpa [hm] using hr
      subst hs
      exact h.start hm
    | cons a as => exact h.first r (by simpa [hm] using hr)
  · intro r hr
    rw [hsnap, List.mem_append, List.mem_singleton] at hr
    rcases hr with hr | rfl
    · exact h.fetched r hr
    · subst hs hp
      exact ⟨hpc, hb⟩
  · rw [hsnap, List.isChain_append]
    refine ⟨h.linked, List.isChain_singleton s, ?_⟩
    intro r hr r' hr'
    obtain rfl : s = r' := by simpa using hr'
    subst hs
    exact h.last r hr
  · intro r hr
    obtain rfl : s = r := by simpa [hsnap] using hr
    exact hp ▸ hlead
  · rw [hevents, hsnap, List.flatMap_append, ← h.prints, Snapshot.events_eq]
    simp
  · rw [houtput, hevents, List.filterMap_append, h.output]

/-- After any calls on a fresh machine, also after faults and unassigned bytes, what was recorded is
an execution that ends where the machine stands, and the output is what it prints. -/
theorem trace_is_replayable (p : Program) (cs : List Call) :
    Replays p ((fresh p #[]).calls .recorder cs).2 :=
  calls_keep (fun _ hn h => replays_step hn h) (replays_fresh p) cs

end Machine

end TwoStack
