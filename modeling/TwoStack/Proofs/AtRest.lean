import TwoStack.Proofs.Tally

/-! A machine at rest answers every call without change, and a halt is the last it does. -/

namespace TwoStack

namespace Opcode

variable {op : Opcode}

theorem byte_eq_halt_iff : op.byte = 0xFF ↔ op = .halt := by
  cases op <;> simp [byte]

theorem system_eq_class_iff : .system = op.instructionClass ↔ op = .halt := by
  cases op <;> simp [instructionClass]

end Opcode

/-- None of the steps in a trace is a halt. -/
def NoHalt (es : List Event) : Prop := ∀ s ∈ Event.snapshots es, s.opcode ≠ 0xFF

/-- A halt prints nothing. -/
theorem Snapshot.events_of_halt {s : Snapshot} (h : s.opcode = 0xFF) : s.events = [.step s] := by
  have hp : s.printed? = none := if_neg (by rw [h]; decide)
  rw [events_eq, hp]
  rfl

theorem NoHalt.opcode_ne {es : List Event} {s : Snapshot} (h : NoHalt es) (hs : .step s ∈ es) :
    s.opcode ≠ 0xFF :=
  h s (List.mem_filterMap.2 ⟨_, hs, rfl⟩)

theorem NoHalt.append_events {es : List Event} {s : Snapshot} (h : NoHalt es)
    (hs : s.opcode ≠ 0xFF) : NoHalt (es ++ s.events) := by
  intro r hr
  rw [Event.snapshots, List.filterMap_append] at hr
  rcases List.mem_append.1 hr with hr | hr
  · exact h r hr
  · change r ∈ Event.snapshots s.events at hr
    rw [Snapshot.snapshots_events, List.mem_singleton] at hr
    rw [hr]
    exact hs

namespace Machine

variable {σ : Type} {m : Machine σ} {b : UInt8}

theorem step_halted_iff (obs : Observer σ) (hh : m.halted = false)
    (hb : m.program[m.pc]? = some b) : (m.step obs).2.halted = true ↔ b = 0xFF := by
  cases ho : Opcode.ofByte? b with
  | none =>
    rw [step_unknown hh hb ho]
    refine iff_of_false (by simp [beginStep, hh]) ?_
    rintro rfl
    exact Opcode.ofByte?_eq_none_iff.1 ho .halt rfl
  | some op =>
    obtain rfl := Opcode.ofByte?_eq_some_iff.1 ho
    rw [step_opcode hh hb ho, endStep_eq, Opcode.byte_eq_halt_iff]
    simp [execute_halted, fetched, beginStep, hh]

theorem step_system (obs : Observer σ) (hh : m.halted = false)
    (hb : m.program[m.pc]? = some b) :
    (m.step obs).2.stats.system = if b = 0xFF then m.stats.system + 1 else m.stats.system := by
  cases ho : Opcode.ofByte? b with
  | none =>
    have hne : b ≠ 0xFF := by
      rintro rfl
      exact Opcode.ofByte?_eq_none_iff.1 ho .halt rfl
    rw [step_unknown hh hb ho, if_neg hne]
    rfl
  | some op =>
    have hc := (step_counted obs hh hb ho).count .system
    obtain rfl := Opcode.ofByte?_eq_some_iff.1 ho
    simp only [Opcode.system_eq_class_iff] at hc
    simp only [Opcode.byte_eq_halt_iff]
    exact hc

/-- While a machine can go on, it has neither counted nor recorded a halt. A halted machine has
counted one, and its trace ends with it. -/
inductive HaltsLast (m : Machine (Array Event)) : Prop
  | going (hh : m.halted = false) (hc : m.stats.system = 0) (he : NoHalt m.observer.toList)
  | halted {es : List Event} {s : Snapshot} (hh : m.halted = true) (hc : m.stats.system = 1)
      (ht : m.observer.toList = es ++ [.step s]) (he : NoHalt es)

theorem haltsLast_fresh (p : Program) : HaltsLast (fresh p #[]) :=
  .going rfl rfl fun _ hs => by simp [fresh, Event.snapshots] at hs

/-- A halt adds one event, its own; any other step leaves the trace without a halt. -/
theorem haltsLast_step {m : Machine (Array Event)} (hn : m.hasNext = true) (h : HaltsLast m) :
    HaltsLast (m.step .recorder).2 := by
  obtain ⟨hh, hlt⟩ := hasNext_iff.1 hn
  have hb := Array.getElem?_eq_getElem hlt
  generalize m.program[m.pc] = b at hb
  have htrace := step_recorder hh hb
  have hcount := step_system .recorder hh hb
  have hhalt := step_halted_iff .recorder hh hb
  cases h with
  | halted hh' => simp [hh] at hh'
  | going _ hc he =>
    by_cases hop : b = 0xFF
    · rw [Snapshot.events_of_halt hop] at htrace
      rw [if_pos hop, hc] at hcount
      exact .halted (hhalt.2 hop) hcount htrace he
    · rw [if_neg hop, hc] at hcount
      refine .going ?_ hcount ?_
      · exact Bool.eq_false_iff.2 (mt hhalt.1 hop)
      · rw [htrace]
        exact he.append_events hop

theorem haltsLast_calls (p : Program) (cs : List Call) :
    HaltsLast ((fresh p #[]).calls .recorder cs).2 :=
  calls_keep (fun _ hn h => haltsLast_step hn h) (haltsLast_fresh p) cs

theorem HaltsLast.last {m : Machine (Array Event)} {i : Nat} {s : Snapshot} (h : HaltsLast m)
    (hi : m.observer.toList[i]? = some (.step s)) (hs : s.opcode = 0xFF) :
    i + 1 = m.observer.toList.length := by
  cases h with
  | going _ _ he => exact (he.opcode_ne (List.mem_of_getElem? hi) hs).elim
  | @halted es r _ _ ht he =>
    rw [ht] at hi ⊢
    have hlt := (List.getElem?_eq_some_iff.1 hi).1
    rw [List.length_append, List.length_singleton] at hlt ⊢
    rcases Nat.lt_or_ge i es.length with hbefore | hafter
    · rw [List.getElem?_append_left hbefore] at hi
      exact (he.opcode_ne (List.mem_of_getElem? hi) hs).elim
    · omega

/-- Why there is no step to take, whatever is asked for. -/
def restReply (m : Machine σ) : Call → Reply
  | .step => .stepped (.ok .noInstruction)
  | .run _ =>
    .ran (.ok ⟨0, m.output, m.data, m.ret, if m.halted then .halted else .endOfProgram m.pc⟩)

theorem run_idle (obs : Observer σ) (h : m.hasNext = false) (budget : Nat) :
    m.run obs budget = (.ok (m.summary 0 m.restTermination), m) :=
  run_eq_iff.2 ⟨0, m, .refl, .rest (Nat.zero_le budget) h⟩

theorem call_idle (obs : Observer σ) (h : m.hasNext = false) (c : Call) :
    m.call obs c = (m.restReply c, m) := by
  cases c with
  | step =>
    rw [call, step_idle h]
    rfl
  | run budget =>
    rw [call, run_idle obs h]
    rfl

theorem calls_idle (obs : Observer σ) (h : m.hasNext = false) (cs : List Call) :
    m.calls obs cs = (cs.map m.restReply, m) := by
  induction cs with
  | nil => rfl
  | cons c cs ih => simp [calls, call_idle obs h, ih]

/-- A machine that calls have led to is halted if and only if it has counted a halt, which it does at
most once, and a recorded halt is the last event of all. Once it is halted or outside its program,
no call changes it, and each says why. -/
theorem stopped_machines_rest (p : Program) (cs : List Call) (obs : Observer σ) (start : σ) :
    let t := ((fresh p start).calls obs cs).2
    let es := ((fresh p #[]).calls .recorder cs).2.observer.toList
    (t.halted = true ↔ t.stats.system = 1) ∧ (t.halted = false → t.stats.system = 0) ∧
      (∀ i s, es[i]? = some (.step s) → s.opcode = 0xFF → i + 1 = es.length) ∧
      (t.halted = true ∨ p.size ≤ t.pc → ∀ ds, t.calls obs ds = (ds.map t.restReply, t)) := by
  intro t es
  have hlast := haltsLast_calls p cs
  have hrecorded := congrArg Prod.snd (calls_eq_recorded obs p start cs)
  have hhalted : t.halted = ((fresh p #[]).calls .recorder cs).2.halted :=
    congrArg Machine.halted hrecorded
  have hsystem : t.stats.system = ((fresh p #[]).calls .recorder cs).2.stats.system :=
    congrArg (·.stats.system) hrecorded
  rw [hhalted, hsystem]
  refine ⟨?_, ?_, fun i s hi hs => hlast.last hi hs, ?_⟩
  · cases hlast with
    | going hh hc => simp [hh, hc]
    | halted hh hc => simp [hh, hc]
  · intro hgoing
    cases hlast with
    | going hh hc => exact hc
    | halted hh hc => simp [hh] at hgoing
  · intro hstop ds
    have hprogram : t.program = p := calls_program obs _ cs
    have hn : t.hasNext = false := by
      rw [Bool.eq_false_iff, Ne, hasNext_iff, hprogram, hhalted]
      rcases hstop with hh | hpc
      · simp [hh]
      · omega
    exact calls_idle obs hn ds

/-- A halt on the last byte, where both reasons to rest meet. -/
theorem stopped_machines_rest_halt :
    let t := ((fresh #[0xFF] ()).calls .silent [.run 3]).2
    t.halted = true ∧ t.pc = 1 ∧ t.stats.system = 1 ∧
      t.calls .silent [.step, .run 0, .run 9] =
        ([.stepped (.ok .noInstruction), .ran (.ok ⟨0, "", .empty, .empty, .halted⟩),
          .ran (.ok ⟨0, "", .empty, .empty, .halted⟩)], t) := by
  intro t
  have hh : t.halted = true := by decide
  obtain ⟨hcount, -, -, hrest⟩ := stopped_machines_rest #[0xFF] [.run 3] .silent ()
  exact ⟨hh, by decide, hcount.1 hh, hrest (Or.inl hh) [.step, .run 0, .run 9]⟩

end Machine

end TwoStack
