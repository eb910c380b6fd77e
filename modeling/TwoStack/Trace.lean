import TwoStack.Stack

/-! What a machine reports while it runs, and the observers that receive it. -/

namespace TwoStack

/-- The machine at the start of a step. -/
structure Snapshot where
  pc : Nat
  opcode : UInt8
  data : Stack
  ret : Stack
  deriving DecidableEq

/-- A character added to the output. -/
structure Printed where
  character : Char
  byte : UInt8
  deriving DecidableEq

inductive Event where
  | step (snapshot : Snapshot)
  | print (printed : Printed)
  deriving DecidableEq

/-- Handlers that update a state of their own on every event. -/
structure Observer (σ : Type) where
  onStep : Snapshot → σ → σ := fun _ s => s
  onPrint : Printed → σ → σ := fun _ s => s

/-- A place in a larger state. What was put there is found there. -/
structure Place (ρ σ : Type) where
  get : ρ → σ
  set : σ → ρ → ρ
  get_set : ∀ v r, get (set v r) = v

namespace Place

variable {σ τ : Type}

/-- The whole state: a box and what it holds. -/
def whole : Place σ σ where
  get v := v
  set v _ := v
  get_set _ _ := rfl

/-- The first of two parts: what is lent by an owner of more. -/
def first : Place (σ × τ) σ where
  get := Prod.fst
  set v r := (v, r.2)
  get_set _ _ := rfl

end Place

namespace Observer

variable {ρ σ τ : Type}

def silent : Observer Unit := {}

/-- Keeps every event, in order. -/
def recorder : Observer (Array Event) where
  onStep s es := es.push (.step s)
  onPrint p es := es.push (.print p)

/-- Keeps the address of every step, in order. -/
def addresses : Observer (Array Nat) where
  onStep s as := as.push s.pc

/-- Hands every event on to an observer that is kept at a place. -/
def forward (o : Observer σ) (place : Place ρ σ) : Observer ρ where
  onStep s r := place.set (o.onStep s (place.get r)) r
  onPrint p r := place.set (o.onPrint p (place.get r)) r

/-- Two observers side by side. -/
def both (o : Observer σ) (q : Observer τ) : Observer (σ × τ) where
  onStep s st := (o.onStep s st.1, q.onStep s st.2)
  onPrint p st := (o.onPrint p st.1, q.onPrint p st.2)

/-- Hands an event to its handler. -/
def receive (o : Observer σ) (st : σ) : Event → σ
  | .step s => o.onStep s st
  | .print p => o.onPrint p st

end Observer

namespace Event

/-- The address of a step. -/
def pc? : Event → Option Nat
  | .step s => some s.pc
  | .print _ => none

/-- The addresses of the steps in a trace, in order. -/
def addresses (es : List Event) : List Nat :=
  es.filterMap pc?

end Event

end TwoStack
