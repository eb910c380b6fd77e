import TwoStack.Proofs.Assembly

/-! Behind an image whose last line is complete, another one is listed as it is alone. -/

namespace TwoStack

namespace Item

variable {p : Program} {addr : Nat} {it : Item}

/-- A complete unit is found whatever is appended to its image: its bytes end before. -/
theorem at?_append_of_complete (h : at? p addr = some it) (hc : it.Complete) (q : Program) :
    at? (p ++ q) addr = some it := by
  have hle : addr ≤ p.toList.length := Nat.le_of_lt (lt_size_of_at? h)
  have hdrop : (p ++ q).toList.drop addr =
      it.encode ++ (p.toList.drop (addr + it.size) ++ q.toList) := by
    rw [Array.toList_append, List.drop_append_of_le_length hle, drop_of_at? h, List.append_assoc]
  exact at?_of_drop hc hdrop

/-- Behind another image a unit is found as it is alone. Whether its operand is cut short is decided
by the end of the whole, which lies as much further on as the unit. -/
theorem at?_append_add (p q : Program) (addr : Nat) :
    at? (p ++ q) (p.size + addr) = at? q addr := by
  have hbyte (a : Nat) : (p ++ q)[p.size + a]? = q[a]? := by
    rw [Array.getElem?_append_right (Nat.le_add_right _ _), Nat.add_sub_cancel_left]
  have hword : (p ++ q).word? (p.size + (addr + 1)) = q.word? (addr + 1) := by
    simp only [Program.word?, Nat.add_assoc, hbyte]
  have hrest : ((p ++ q).extract (p.size + (addr + 1)) (p ++ q).size).toList =
      (q.extract (addr + 1) q.size).toList := by
    simp
  simp only [at?, hbyte, Nat.add_assoc, hword, hrest]

end Item

namespace Line

/-- The same unit, `n` bytes further on. -/
def shift (n : Nat) (l : Line) : Line := { l with addr := n + l.addr }

theorem next_shift (n : Nat) (l : Line) : (l.shift n).next = n + l.next :=
  Nat.add_assoc n l.addr l.item.size

theorem at?_append_add (p q : Program) (addr : Nat) :
    at? (p ++ q) (p.size + addr) = (at? q addr).map (shift p.size) := by
  rw [at?, Item.at?_append_add, at?, Option.map_map]
  rfl

end Line

namespace Program

variable {p : Program} {addr : Nat}

/-- The lines of the second image are those it has alone. -/
theorem linesFrom_append_add (p q : Program) (addr : Nat) :
    (p ++ q).linesFrom (p.size + addr) = (q.linesFrom addr).map (Line.shift p.size) := by
  fun_induction linesFrom q addr with
  | case1 addr hat =>
    apply linesFrom_eq_nil
    have hend := Line.at?_eq_none_iff.1 hat
    rw [Array.size_append]
    omega
  | case2 addr l hat ih =>
    have hshift : Line.at? (p ++ q) (p.size + addr) = some (l.shift p.size) := by
      rw [Line.at?_append_add, hat, Option.map_some]
    rw [linesFrom_eq_cons hshift, Line.next_shift, ih, List.map_cons]

/-- Complete lines stay, and the listing goes on where the first image ends. -/
theorem linesFrom_append_of_complete (q : Program) (ha : addr ≤ p.size)
    (hc : ∀ l ∈ p.linesFrom addr, l.item.Complete) :
    (p ++ q).linesFrom addr = p.linesFrom addr ++ (p ++ q).linesFrom p.size := by
  fun_induction linesFrom p addr with
  | case1 addr hat =>
    have hend : addr = p.size := Nat.le_antisymm ha (Line.at?_eq_none_iff.1 hat)
    rw [hend, List.nil_append]
  | case2 addr l hat ih =>
    have hline : Line.at? (p ++ q) addr = some l := by
      obtain ⟨it, hit, rfl⟩ := Option.map_eq_some_iff.1 hat
      rw [Line.at?, Item.at?_append_of_complete hit (hc _ List.mem_cons_self) q]
      rfl
    have hrest := ih (Line.next_le_of_at? hat) fun k hk => hc k (List.mem_cons_of_mem _ hk)
    rw [linesFrom_eq_cons hline, hrest, List.cons_append]

/-- If no line of an image is truncated, the listing of the image with another behind it is its own
listing and then the lines of the other, each with its opcode, bytes and text and with its address
raised by the length of the first image. A truncated line of the other is no exception. -/
theorem listing_of_append (p q : Program) (h : p.Untruncated) :
    (p ++ q).listing = p.listing ++ q.listing.map (Line.shift p.size) := by
  have hc : ∀ l ∈ p.linesFrom 0, l.item.Complete := fun l hl =>
    complete_of_untruncated h _ (List.mem_map_of_mem hl)
  have hsecond : (p ++ q).linesFrom p.size = q.listing.map (Line.shift p.size) :=
    linesFrom_append_add p q 0
  rw [listing, linesFrom_append_of_complete q (Nat.zero_le _) hc, hsecond]
  rfl

/-- The first image ends with the last byte of an operand, the second one inside an operand. -/
theorem listing_of_append_truncated :
    let p : Program := #[0x07, 0x01, 0x05, 0x00, 0x00, 0x00]
    let q : Program := #[0xFF, 0x0F, 0x02, 0x00]
    p.Untruncated ∧
      (p ++ q).listing =
        [⟨0, .raw 0x07⟩, ⟨1, .immediate .push 5⟩, ⟨6, .bare .halt⟩,
          ⟨7, .truncated .jump [0x02, 0x00]⟩] := by
  intro p q
  have hp : p.Untruncated := by decide +kernel
  refine ⟨hp, ?_⟩
  rw [listing_of_append p q hp]
  decide +kernel

end Program

end TwoStack
