import TwoStack.Stack

/-! What an observer says of a stack is what popping it would show. -/

namespace TwoStack

namespace Stack

/-- A change to a stack. -/
inductive Operation where
  | push (c : UInt32)
  | pop

/-- What a pop returns, and the stack it leaves. An empty stack stays as it is. -/
def popped (s : Stack) : Option UInt32 × Stack :=
  match s.pop? with
  | none => (none, s)
  | some (c, t) => (some c, t)

/-- Performs operations one after another. Beside the stack they leave stands what the pops among
them returned. -/
def perform (s : Stack) : List Operation → List (Option UInt32) × Stack
  | [] => ([], s)
  | .push c :: ops => (s.push c).perform ops
  | .pop :: ops =>
    let (r, t) := s.popped
    let (rs, u) := t.perform ops
    (r :: rs, u)

theorem perform_push (s : Stack) (c : UInt32) (ops : List Operation) :
    s.perform (.push c :: ops) = (s.push c).perform ops := rfl

theorem perform_pop (s : Stack) (ops : List Operation) :
    s.perform (.pop :: ops) =
      (s.popped.1 :: (s.popped.2.perform ops).1, (s.popped.2.perform ops).2) := rfl

theorem perform_append (s : Stack) (ops more : List Operation) :
    s.perform (ops ++ more) =
      ((s.perform ops).1 ++ ((s.perform ops).2.perform more).1,
        ((s.perform ops).2.perform more).2) := by
  induction ops generalizing s with
  | nil => rfl
  | cons op ops ih =>
    cases op with
    | push c => exact ih (s.push c)
    | pop => rw [List.cons_append, perform_pop, perform_pop, ih, List.cons_append]

theorem popped_push (s : Stack) (c : UInt32) : (s.push c).popped = (some c, s) := rfl

theorem popped_fst (s : Stack) : s.popped.1 = s.peekAt? 0 := by
  obtain ⟨_ | ⟨c, cs⟩⟩ := s <;> rfl

/-- A pop brings every cell that it leaves one place nearer to the top. -/
theorem peekAt?_popped (s : Stack) (n : Nat) : s.popped.2.peekAt? n = s.peekAt? (n + 1) := by
  obtain ⟨_ | ⟨c, cs⟩⟩ := s <;> rfl

theorem peek?_eq_peekAt? (s : Stack) : s.peek? = s.peekAt? 0 := List.head?_eq_getElem?

/-- Seen from the bottom, the place of a cell is what remains of the depth without it and the cells
above it. If nothing can remain, there is no such cell. -/
theorem peekAt?_eq_bottomUp (s : Stack) (n : Nat) :
    s.peekAt? n = if n + 1 ≤ s.depth then s.bottomUp[s.depth - (n + 1)]? else none := by
  have hlength : s.cells.length = s.depth := rfl
  by_cases h : n + 1 ≤ s.depth
  · have hplace : s.depth - 1 - (s.depth - (n + 1)) = n := by omega
    rw [if_pos h, bottomUp, List.getElem?_reverse (by omega), hlength, hplace, peekAt?]
  · rw [if_neg h]
    exact List.getElem?_eq_none (Nat.le_of_not_lt h)

theorem perform_pops (s : Stack) (n : Nat) :
    (s.perform (List.replicate n .pop)).1 = (List.range n).map s.peekAt? := by
  induction n generalizing s with
  | zero => rfl
  | succ n ih =>
    have hshift : s.popped.2.peekAt? = s.peekAt? ∘ Nat.succ := funext (peekAt?_popped s)
    rw [List.replicate_succ, perform_pop, popped_fst, ih, hshift, List.range_succ_eq_map,
      List.map_cons, List.map_map]

/-- Popping goes well down to the bottom and not beyond. -/
theorem perform_pops_depth (s : Stack) :
    (s.perform (List.replicate (s.depth + 1) .pop)).1 = s.cells.map some ++ [none] := by
  obtain ⟨cs⟩ := s
  induction cs with
  | nil => rfl
  | cons c cs ih => exact congrArg (some c :: ·) ih

/-- Pops undo pushes, the last one first. -/
theorem perform_pushes_pops (s : Stack) (vs : List UInt32) :
    s.perform (vs.map .push ++ List.replicate vs.length .pop) = (vs.reverse.map some, s) := by
  induction vs generalizing s with
  | nil => rfl
  | cons v vs ih =>
    have hsplit : (v :: vs).map Operation.push ++ List.replicate (v :: vs).length .pop =
        .push v :: (vs.map .push ++ List.replicate vs.length .pop ++ [.pop]) := by
      rw [List.length_cons, List.replicate_succ', List.map_cons, List.cons_append,
        List.append_assoc]
    rw [hsplit, perform_push, perform_append, ih, perform_pop, popped_push, List.reverse_cons,
      List.map_append]
    rfl

/-- Whatever was pushed and popped before, on a new stack or on one with cells: the cell that is seen
`n` places below the top, counted from there or from the bottom, is what the last of `n + 1` pops
returns, and none is seen if that pop finds none. The top is the cell at no distance. The depth is the
number of pops that return a cell before the first that does not. Pops return pushed cells in
reverse, and as many of them leave the stack as it was. -/
theorem observers_agree_with_pops (init : Option (List UInt32)) (history : List Operation) :
    let s := ((init.elim empty ofBottomUp).perform history).2
    (∀ n, (s.perform (List.replicate (n + 1) .pop)).1[n]? = some (s.peekAt? n) ∧
        s.peekAt? n = if n + 1 ≤ s.depth then s.bottomUp[s.depth - (n + 1)]? else none) ∧
      s.peek? = s.peekAt? 0 ∧
      (∃ cs : List UInt32, cs.length = s.depth ∧
        (s.perform (List.replicate (s.depth + 1) .pop)).1 = cs.map some ++ [none]) ∧
      ∀ vs : List UInt32, s.perform (vs.map .push ++ List.replicate vs.length .pop) =
        (vs.reverse.map some, s) := by
  intro s
  refine ⟨fun n => ⟨?_, s.peekAt?_eq_bottomUp n⟩, s.peek?_eq_peekAt?,
    ⟨s.cells, rfl, s.perform_pops_depth⟩, s.perform_pushes_pops⟩
  rw [perform_pops, List.getElem?_map, List.getElem?_range (Nat.lt_succ_self n), Option.map_some]

end Stack

end TwoStack
