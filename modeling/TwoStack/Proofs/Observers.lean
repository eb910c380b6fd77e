import TwoStack.Proofs.Step
import TwoStack.Run

/-! Observers do not act on the machine they observe; the recorder maps to every other one. -/

namespace TwoStack

variable {ρ σ τ : Type}

namespace Event

def snapshot? : Event → Option Snapshot
  | .step s => some s
  | .print _ => none

/-- The steps of a trace, in order. -/
def snapshots (es : List Event) : List Snapshot :=
  es.filterMap snapshot?

theorem map_pc_snapshots (es : List Event) : (snapshots es).map Snapshot.pc = addresses es := by
  rw [snapshots, addresses, List.map_filterMap]
  congr 1
  funext e
  cases e <;> rfl

end Event

namespace Observer

/-- A map of states that turns the handlers of one observer into those of another. -/
structure Hom (o : Observer σ) (q : Observer τ) where
  map : σ → τ
  map_onStep : ∀ s st, map (o.onStep s st) = q.onStep s (map st)
  map_onPrint : ∀ p st, map (o.onPrint p st) = q.onPrint p (map st)

/-- Every observer can be silenced. -/
def silence (o : Observer σ) : o.Hom silent where
  map _ := ()
  map_onStep _ _ := rfl
  map_onPrint _ _ := rfl

/-- What an observer makes of recorded events. -/
def replay (o : Observer σ) (start : σ) : recorder.Hom o where
  map es := es.toList.foldl o.receive start
  map_onStep s es := by simp [recorder, receive]
  map_onPrint p es := by simp [recorder, receive]

/-- The observer that is found at a place. -/
def found (o : Observer σ) (place : Place ρ σ) : (o.forward place).Hom o where
  map := place.get
  map_onStep _ _ := place.get_set _ _
  map_onPrint _ _ := place.get_set _ _

/-- An observer that leaves prints alone is handed the steps. -/
theorem foldl_receive_onStep (onStep : Snapshot → σ → σ) (es : List Event) (start : σ) :
    es.foldl ({ onStep } : Observer σ).receive start =
      (Event.snapshots es).foldl (fun st s => onStep s st) start := by
  induction es generalizing start with
  | nil => rfl
  | cons e es ih =>
    cases e with
    | step s => exact ih (onStep s start)
    | print p => exact ih start

theorem foldl_receive_both (o : Observer σ) (q : Observer τ) (es : List Event) (a : σ) (b : τ) :
    es.foldl (o.both q).receive (a, b) = (es.foldl o.receive a, es.foldl q.receive b) := by
  induction es generalizing a b with
  | nil => rfl
  | cons e es ih => cases e <;> exact ih _ _

theorem toList_foldl_receive_recorder (es : Array Event) (fs : List Event) :
    (fs.foldl recorder.receive es).toList = es.toList ++ fs := by
  induction fs generalizing es with
  | nil => simp
  | cons f fs ih =>
    rw [List.foldl_cons, ih]
    cases f <;> simp [receive, recorder]

end Observer

namespace Machine

variable {o : Observer σ} {q : Observer τ}

/-- The same machine with another observer state. -/
def map (f : σ → τ) (m : Machine σ) : Machine τ :=
  { m with observer := f m.observer }

theorem execute_map (h : o.Hom q) (m : Machine σ) (addr : Nat) (op : Opcode) :
    (m.map h.map).execute q addr op = (m.execute o addr op).map id (map h.map) := by
  cases op with
  | print =>
    cases hc : m.data.cells <;> simp [execute, emit, proceed, fault, map, hc, h.map_onPrint]
  | _ =>
    simp only [execute, withOperand, binary, branch, proceed, fault, map]
    repeat' split
    all_goals rfl

theorem beginStep_map (h : o.Hom q) (m : Machine σ) (b : UInt8) :
    (m.map h.map).beginStep q b = (m.beginStep o b).map h.map := by
  simp [beginStep, map, h.map_onStep]

theorem endStep_map (f : σ → τ) (x : Except Fault Outcome × Machine σ) :
    endStep (x.map id (map f)) = (endStep x).map id (map f) := by
  obtain ⟨_ | _, m⟩ := x <;> rfl

theorem step_map (h : o.Hom q) (m : Machine σ) :
    (m.map h.map).step q = (m.step o).map id (map h.map) := by
  cases hn : m.hasNext with
  | false =>
    have hq : (m.map h.map).hasNext = false := hn
    rw [step_idle hn, step_idle hq]
    rfl
  | true =>
    obtain ⟨hh, hp⟩ := hasNext_iff.1 hn
    have hb := Array.getElem?_eq_getElem hp
    have hh' : (m.map h.map).halted = false := hh
    have hb' : (m.map h.map).program[(m.map h.map).pc]? = some m.program[m.pc] := hb
    cases ho : Opcode.ofByte? m.program[m.pc] with
    | none =>
      rw [step_unknown hh hb ho, step_unknown hh' hb' ho, beginStep_map]
      rfl
    | some op =>
      have hf : (m.map h.map).fetched q op = (m.fetched o op).map h.map := by
        rw [fetched, beginStep_map]
        rfl
      rw [step_opcode hh hb ho, step_opcode hh' hb' ho, hf, ← endStep_map, ← execute_map]
      rfl

theorem runFrom_map (h : o.Hom q) (m : Machine σ) (taken left : Nat) :
    (m.map h.map).runFrom q taken left = (m.runFrom o taken left).map id (map h.map) := by
  induction left generalizing m taken with
  | zero => rfl
  | succ left ih =>
    rw [runFrom, runFrom, step_map h m]
    rcases m.step o with ⟨f | r, u⟩
    · rfl
    · cases r with
      | «continue» => exact ih u (taken + 1)
      | halted | unknownOpcode pc b | noInstruction => rfl

/-- A run is the recorded run of the same machine, and its observer is told what was recorded. -/
theorem run_eq_recorded (o : Observer σ) (m : Machine σ) (budget : Nat) :
    m.run o budget =
      ((m.map fun _ => #[]).run .recorder budget).map id
        (map fun es => es.toList.foldl o.receive m.observer) :=
  runFrom_map (o.replay m.observer) (m.map fun _ => #[]) 0 budget

theorem call_map (h : o.Hom q) (m : Machine σ) (c : Call) :
    (m.map h.map).call q c = (m.call o c).map id (map h.map) := by
  cases c with
  | step =>
    rw [call, step_map]
    rfl
  | run budget =>
    rw [call, run, runFrom_map]
    rfl

/-- Mapping observers commutes with answering calls. -/
theorem calls_map (h : o.Hom q) (m : Machine σ) (cs : List Call) :
    (m.map h.map).calls q cs = (m.calls o cs).map id (map h.map) := by
  induction cs generalizing m with
  | nil => rfl
  | cons c cs ih =>
    simp only [calls, call_map, Prod.map_fst, Prod.map_snd, id_eq, ih]
    rfl

/-- Calls are answered as those of a recorded machine, and their observer is told what was
recorded. -/
theorem calls_eq_recorded (o : Observer σ) (program : Program) (start : σ) (cs : List Call) :
    (fresh program start).calls o cs =
      ((fresh program #[]).calls .recorder cs).map id
        (map fun es => es.toList.foldl o.receive start) :=
  calls_map (o.replay start) (fresh program #[]) cs

/-- Whoever observes, the machine does what it does unobserved, and the observer is told what a
recorder records. -/
theorem calls_eq_silent (program : Program) (cs : List Call) (obs : Observer σ) (start : σ) :
    (fresh program start).calls obs cs =
      ((fresh program ()).calls .silent cs).map id (map fun _ =>
        ((fresh program #[]).calls .recorder cs).2.observer.toList.foldl obs.receive start) := by
  have hsilent := calls_map obs.silence (fresh program start) cs
  have hrecorded := calls_eq_recorded obs program start cs
  have hquiet : (fresh program start).map obs.silence.map = fresh program () := rfl
  rw [← hquiet, hsilent, hrecorded]
  rfl

/-- Observers are passive: whatever they do, the machine does what it does unobserved. They are told
what a recorder records, and so is one that is kept elsewhere, in a box or by an owner who lends it.
An observer that leaves prints alone is told the recorded steps. -/
theorem observers_are_passive (program : Program) (cs : List Call) (obs : Observer σ) (start : σ)
    (place : Place ρ σ) (r : ρ) (onStep : Snapshot → σ → σ) :
    let es := ((fresh program #[]).calls .recorder cs).2.observer.toList
    (∃ rs t, (fresh program ()).calls .silent cs = (rs, t) ∧
        (fresh program start).calls obs cs = (rs, t.map fun _ => es.foldl obs.receive start)) ∧
      place.get ((fresh program r).calls (obs.forward place) cs).2.observer =
        ((fresh program (place.get r)).calls obs cs).2.observer ∧
      ((fresh program start).calls { onStep } cs).2.observer =
        (Event.snapshots es).foldl (fun st s => onStep s st) start ∧
      ((fresh program #[]).calls .addresses cs).2.observer.toList = Event.addresses es := by
  intro es
  have hsteps {α : Type} (f : Snapshot → α → α) (a : α) :
      ((fresh program a).calls { onStep := f } cs).2.observer =
        (Event.snapshots es).foldl (fun st s => f s st) a := by
    rw [calls_eq_silent, ← Observer.foldl_receive_onStep]
    rfl
  refine ⟨⟨_, _, rfl, calls_eq_silent program cs obs start⟩, ?_, hsteps onStep start, ?_⟩
  · have hfound := calls_map (obs.found place) (fresh program r) cs
    exact (congrArg (·.2.observer) hfound).symm
  · rw [Observer.addresses, hsteps, List.foldl_push_eq_append, Event.map_pc_snapshots]
    simp

end Machine

end TwoStack
