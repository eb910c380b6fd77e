import TwoStack.Fault
import TwoStack.Program
import TwoStack.Statistics
import TwoStack.Trace

/-! One step of the machine. A fault keeps the state in which it was met. -/

namespace TwoStack

/-- A machine with its program, reporting to an observer with states in `σ`. -/
structure Machine (σ : Type) where
  program : Program
  pc : Nat
  data : Stack
  ret : Stack
  halted : Bool
  output : String
  stats : Statistics
  observer : σ
  deriving DecidableEq

/-- How a step ended. -/
inductive Outcome where
  | continue
  | halted
  | unknownOpcode (pc : Nat) (opcode : UInt8)
  /-- Nothing was executed: the machine is halted or outside its program. -/
  | noInstruction
  deriving DecidableEq

namespace Outcome

/-- Whether another step may follow. -/
def shouldContinue : Outcome → Bool
  | .continue => true
  | _ => false

/-- Whether the step counts as one. -/
def executed : Outcome → Bool
  | noInstruction => false
  | _ => true

end Outcome

namespace Machine

variable {σ : Type}

/-- A machine at the start of a program, with empty stacks and no output. -/
def fresh (program : Program) (observer : σ) : Machine σ where
  program := program
  pc := 0
  data := .empty
  ret := .empty
  halted := false
  output := ""
  stats := {}
  observer := observer

/-- Whether there is an instruction to execute. -/
def hasNext (m : Machine σ) : Bool :=
  !m.halted && m.pc < m.program.size

/-- Goes on with the next instruction. -/
def proceed (m : Machine σ) : Except Fault Outcome × Machine σ :=
  (.ok .continue, m)

def fault (m : Machine σ) (f : Fault) : Except Fault Outcome × Machine σ :=
  (.error f, m)

/-- Replaces the two top cells, `a` below `b`, by `f a b`. A single cell is lost. -/
def binary (m : Machine σ) (addr : Nat) (f : UInt32 → UInt32 → UInt32) :
    Except Fault Outcome × Machine σ :=
  match m.data.cells with
  | b :: a :: d => { m with data := ⟨f a b :: d⟩ }.proceed
  | _ => { m with data := .empty }.fault (.stackUnderflow addr)

/-- Goes to an address if the top cell, which is removed, is not zero. -/
def branch (m : Machine σ) (addr : Nat) (target : UInt32) : Except Fault Outcome × Machine σ :=
  match m.data.cells with
  | [] => m.fault (.stackUnderflow addr)
  | c :: d =>
    let taken := c != 0
    { m with
      data := ⟨d⟩
      pc := if taken then target.toNat else m.pc
      stats := m.stats.recordBranch taken }.proceed

/-- Adds a byte to the output, as the character with its code, and reports it. -/
def emit (obs : Observer σ) (m : Machine σ) (b : UInt8) : Machine σ :=
  let c := Char.ofUInt8 b
  { m with output := m.output.push c, observer := obs.onPrint ⟨c, b⟩ m.observer }

/-- Hands on the operand at the program counter and moves past it. -/
def withOperand (m : Machine σ) (addr : Nat)
    (k : UInt32 → Machine σ → Except Fault Outcome × Machine σ) :
    Except Fault Outcome × Machine σ :=
  match m.program.word? m.pc with
  | none => m.fault (.truncatedProgram addr)
  | some v => k v { m with pc := m.pc + 4 }

/-- One for true, zero for false. -/
def flag (b : Bool) : UInt32 :=
  if b then 1 else 0

/-- The effect of the instruction at `addr`, once its opcode has been read. -/
def execute (obs : Observer σ) (m : Machine σ) (addr : Nat) :
    Opcode → Except Fault Outcome × Machine σ
  | .push => m.withOperand addr fun v m => { m with data := m.data.push v }.proceed
  | .add => m.binary addr fun a b => a + b
  | .sub => m.binary addr fun a b => a - b
  | .mul => m.binary addr fun a b => a * b
  | .drop =>
    match m.data.cells with
    | [] => m.fault (.stackUnderflow addr)
    | _ :: d => { m with data := ⟨d⟩ }.proceed
  | .print =>
    match m.data.cells with
    | [] => m.fault (.stackUnderflow addr)
    | c :: d => ({ m with data := ⟨d⟩ }.emit obs c.toUInt8).proceed
  | .eq => m.binary addr fun a b => flag (a == b)
  | .ltS => m.binary addr fun a b => flag (a.toInt32 < b.toInt32)
  | .brIf => m.withOperand addr fun target m => m.branch addr target
  | .jump => m.withOperand addr fun target m => { m with pc := target.toNat }.proceed
  | .dup =>
    match m.data.cells with
    | [] => m.fault (.stackUnderflow addr)
    | c :: d => { m with data := ⟨c :: c :: d⟩ }.proceed
  | .swap =>
    match m.data.cells with
    | b :: a :: d => { m with data := ⟨a :: b :: d⟩ }.proceed
    | _ => { m with data := .empty }.fault (.stackUnderflow addr)
  | .dupSecond =>
    match m.data.cells with
    | b :: a :: d => { m with data := ⟨a :: b :: a :: d⟩ }.proceed
    | _ => m.fault (.stackUnderflow addr)
  | .toR =>
    match m.data.cells with
    | [] => m.fault (.stackUnderflow addr)
    | c :: d => { m with data := ⟨d⟩, ret := m.ret.push c }.proceed
  | .fromR =>
    match m.ret.cells with
    | [] => m.fault (.returnStackUnderflow addr)
    | c :: r => { m with data := m.data.push c, ret := ⟨r⟩ }.proceed
  | .rFetch =>
    match m.ret.cells with
    | [] => m.fault (.returnStackUnderflow addr)
    | c :: _ => { m with data := m.data.push c }.proceed
  | .depth => { m with data := m.data.push m.data.depthCell }.proceed
  | .rDepth => { m with data := m.data.push m.ret.depthCell }.proceed
  | .halt => (.ok .halted, { m with halted := true })

/-- Reports a step and moves past its opcode byte. -/
def beginStep (obs : Observer σ) (m : Machine σ) (opcode : UInt8) : Machine σ :=
  { m with
    pc := m.pc + 1
    observer := obs.onStep ⟨m.pc, opcode, m.data, m.ret⟩ m.observer }

/-- Depths are observed only after a step that met no fault. -/
def endStep : Except Fault Outcome × Machine σ → Except Fault Outcome × Machine σ
  | (.ok o, m) => (.ok o, { m with stats := m.stats.observeDepths m.data.depth m.ret.depth })
  | (.error f, m) => (.error f, m)

/-- Executes one instruction. -/
def step (obs : Observer σ) (m : Machine σ) : Except Fault Outcome × Machine σ :=
  if m.halted then (.ok .noInstruction, m)
  else
    match m.program[m.pc]? with
    | none => (.ok .noInstruction, m)
    | some b =>
      let addr := m.pc
      let m := m.beginStep obs b
      match Opcode.ofByte? b with
      | none => (.ok (.unknownOpcode addr b), { m with stats := m.stats.recordUnknown })
      | some op => endStep ({ m with stats := m.stats.record op }.execute obs addr op)

end Machine

end TwoStack
