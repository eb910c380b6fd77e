import TwoStack.Proofs.Boundaries

/-! The listing cuts an image into consecutive pieces: nothing is left out or listed twice. -/

namespace TwoStack

namespace Item

variable {p : Program} {addr : Nat} {it : Item}

/-- The ways a unit can stand at an address. -/
inductive Stands (p : Program) (addr : Nat) : Item → Prop
  | raw {b : UInt8} (hb : p[addr]? = some b) (ho : Opcode.ofByte? b = none) : Stands p addr (.raw b)
  | bare {op : Opcode} (hb : p[addr]? = some op.byte) (hop : op.hasOperand = false) :
      Stands p addr (.bare op)
  | immediate {op : Opcode} {v : UInt32} (hb : p[addr]? = some op.byte) (hop : op.hasOperand = true)
      (hv : p.word? (addr + 1) = some v) : Stands p addr (.immediate op v)
  | truncated {op : Opcode} (hb : p[addr]? = some op.byte) (hop : op.hasOperand = true)
      (hs : p.size < addr + 5) : Stands p addr (.truncated op (p.toList.drop (addr + 1)))

theorem stands_of_at? (h : at? p addr = some it) : Stands p addr it := by
  obtain ⟨b, hb, -⟩ := Option.map_eq_some_iff.1 h
  cases ho : Opcode.ofByte? b with
  | none =>
    obtain rfl := Option.some.inj ((at?_raw hb ho).symm.trans h)
    exact .raw hb ho
  | some op =>
    rw [← Opcode.ofByte?_eq_some_iff.1 ho] at hb
    cases hop : op.hasOperand with
    | false =>
      obtain rfl := Option.some.inj ((at?_bare hb hop).symm.trans h)
      exact .bare hb hop
    | true =>
      by_cases hs : p.size < addr + 5
      · have hpresent : (p.extract (addr + 1) p.size).toList = p.toList.drop (addr + 1) := by
          simp [List.take_of_length_le]
        obtain rfl := Option.some.inj ((at?_truncated hb hop hs).symm.trans h)
        rw [hpresent]
        exact .truncated hb hop hs
      · obtain ⟨v, hv, -⟩ := Program.exists_word? (show addr + 1 + 4 ≤ p.size by omega)
        obtain rfl := Option.some.inj ((at?_immediate hb hop hv).symm.trans h)
        exact .immediate hb hop hv

/-- A unit is listed where its bytes stand. -/
theorem drop_of_at? (h : at? p addr = some it) :
    p.toList.drop addr = it.encode ++ p.toList.drop (addr + it.size) := by
  cases stands_of_at? h with
  | raw hb | bare hb => exact Program.drop_of_getElem? hb
  | immediate hb hop hv =>
    rw [Program.drop_of_getElem? hb, Program.drop_of_word? hv]
    rfl
  | @truncated op hb hop hs =>
    have hrest : p.toList.length ≤ addr + size (.truncated op (p.toList.drop (addr + 1))) := by
      simp only [size, encode, List.length_cons, List.length_drop]
      omega
    rw [List.drop_eq_nil_of_le hrest, List.append_nil]
    exact Program.drop_of_getElem? hb

end Item

namespace Line

variable {p : Program} {addr : Nat} {l : Line}

def bytes (l : Line) : List UInt8 := l.item.encode

theorem drop_of_at? (h : at? p addr = some l) :
    p.toList.drop addr = l.bytes ++ p.toList.drop l.next := by
  obtain ⟨it, hit, rfl⟩ := Option.map_eq_some_iff.1 h
  exact Item.drop_of_at? hit

theorem at?_eq_none_iff : at? p addr = none ↔ p.size ≤ addr := by
  simp [at?, Item.at?]

/-- The bytes of a line lie inside the image. -/
theorem next_le_of_at? (h : at? p addr = some l) : l.next ≤ p.size := by
  obtain ⟨ha, hlt⟩ := addr_of_at? h
  have hlen := congrArg List.length (drop_of_at? h)
  have hnext : l.next = addr + l.bytes.length := by rw [next, ha]; rfl
  simp only [List.length_append, List.length_drop, Array.length_toList] at hlen
  omega

theorem bytes_of_at? (h : at? p addr = some l) : l.bytes = (p.extract addr l.next).toList := by
  have hnext : l.next - addr = l.bytes.length := by
    rw [next, (addr_of_at? h).1]
    exact Nat.add_sub_cancel_left _ _
  rw [Array.toList_extract, List.extract_eq_take_drop, hnext, drop_of_at? h, List.take_left]

/-- Only the end of the image can cut an operand short. -/
theorem next_of_truncated (h : at? p addr = some l)
    (ht : "<truncated>".toList <:+ l.item.text.toList) : l.next = p.size := by
  obtain ⟨it, hit, rfl⟩ := Option.map_eq_some_iff.1 h
  obtain ⟨op, bs, rfl⟩ := (Item.truncated_suffix_text_iff _).1 ht
  cases Item.stands_of_at? hit with
  | truncated hb hop hs =>
    have hlt := (Array.getElem?_eq_some_iff.1 hb).1
    simp only [next, Item.size, Item.encode, List.length_cons, List.length_drop,
      Array.length_toList]
    omega

end Line

namespace Program

variable {p : Program} {addr : Nat} {l : Line} {pre post : List Line}

theorem linesFrom_eq_nil (h : p.size ≤ addr) : p.linesFrom addr = [] := by
  have hat := Line.at?_eq_none_iff.2 h
  rw [linesFrom]
  split
  · rfl
  · simp_all

theorem at?_of_linesFrom {ls : List Line} (h : p.linesFrom addr = l :: ls) :
    Line.at? p addr = some l ∧ ls = p.linesFrom l.next := by
  rcases Nat.lt_or_ge addr p.size with hlt | hge
  · obtain ⟨k, hk⟩ := Line.exists_at? hlt
    rw [linesFrom_eq_cons hk] at h
    obtain ⟨rfl, rfl⟩ := List.cons.inj h
    exact ⟨hk, rfl⟩
  · rw [linesFrom_eq_nil hge] at h
    cases h

theorem flatMap_bytes_linesFrom (p : Program) (addr : Nat) :
    (p.linesFrom addr).flatMap Line.bytes = p.toList.drop addr := by
  fun_induction linesFrom p addr with
  | case1 addr hat =>
    rw [List.drop_eq_nil_of_le (Line.at?_eq_none_iff.1 hat)]
    rfl
  | case2 addr l hat ih => rw [List.flatMap_cons, ih, Line.drop_of_at? hat]

/-- A line stands behind the bytes of the lines before it, and the listing goes on behind it. -/
theorem linesFrom_split (h : p.linesFrom addr = pre ++ l :: post) :
    l.addr = addr + (pre.flatMap Line.bytes).length ∧ Line.at? p l.addr = some l ∧
      post = p.linesFrom l.next := by
  induction pre generalizing addr with
  | nil =>
    obtain ⟨hat, hpost⟩ := at?_of_linesFrom h
    obtain ⟨rfl, -⟩ := Line.addr_of_at? hat
    exact ⟨rfl, hat, hpost⟩
  | cons k pre ih =>
    obtain ⟨hat, hrest⟩ := at?_of_linesFrom h
    obtain ⟨rfl, -⟩ := Line.addr_of_at? hat
    obtain ⟨haddr, hl⟩ := ih hrest.symm
    refine ⟨?_, hl⟩
    rw [haddr, List.flatMap_cons, List.length_append, ← Nat.add_assoc]
    rfl

/-- Where the line after the lines `ls` begins, at the latest at the end of the image. -/
def nextAddr (p : Program) (ls : List Line) : Nat := (ls.head?.map Line.addr).getD p.size

theorem nextAddr_linesFrom (h : addr ≤ p.size) : p.nextAddr (p.linesFrom addr) = addr := by
  rcases Nat.lt_or_eq_of_le h with hlt | rfl
  · obtain ⟨k, hk⟩ := Line.exists_at? hlt
    rw [linesFrom_eq_cons hk]
    exact (Line.addr_of_at? hk).1
  · rw [linesFrom_eq_nil (Nat.le_refl _)]
    rfl

/-- `l` stands between the lines `pre` and `post` of an image. -/
structure Placed (p : Program) (pre : List Line) (l : Line) (post : List Line) : Prop where
  addr : l.addr = (pre.flatMap Line.bytes).length
  opcode : ∃ bs, l.bytes = l.item.opcode :: bs
  at? : Line.at? p l.addr = some l
  next : l.next = p.nextAddr post
  truncated : "<truncated>".toList <:+ l.item.text.toList → post = []

theorem placed_of_listing (h : p.listing = pre ++ l :: post) : Placed p pre l post := by
  obtain ⟨haddr, hat, hpost⟩ := linesFrom_split h
  refine ⟨?_, l.item.encode_eq_cons, hat, ?_, ?_⟩
  · rw [haddr, Nat.zero_add]
  · rw [hpost, nextAddr_linesFrom (Line.next_le_of_at? hat)]
  · intro ht
    rw [hpost, linesFrom_eq_nil (Nat.le_of_eq (Line.next_of_truncated hat ht).symm)]

/-- Each line takes up at least one byte, so there are no more lines than bytes. -/
theorem length_linesFrom_le (p : Program) (addr : Nat) :
    (p.linesFrom addr).length ≤ p.size - addr := by
  fun_induction linesFrom p addr with
  | case1 addr hat => exact Nat.zero_le _
  | case2 addr l hat ih =>
    have hlt := l.lt_next
    have hle := Line.next_le_of_at? hat
    rw [(Line.addr_of_at? hat).1] at hlt
    rw [List.length_cons]
    omega

/-- The listing partitions the image. A line is found at every address inside the image; its bytes
are a piece of the image and the next address lies behind it, so the listing comes to an end. The
lines of the listing are consecutive pieces from the beginning to the end, and only the last of them
can be truncated. -/
theorem listing_partitions_image (p : Program) :
    (∀ addr, Line.at? p addr = none ↔ p.size ≤ addr) ∧
      (∀ addr l, Line.at? p addr = some l →
        addr < l.next ∧ l.next ≤ p.size ∧ l.bytes = (p.extract addr l.next).toList) ∧
      p.listing.length ≤ p.size ∧
      p.listing.flatMap Line.bytes = p.toList ∧
      ∀ pre l post, p.listing = pre ++ l :: post → Placed p pre l post := by
  refine ⟨fun addr => Line.at?_eq_none_iff, ?_, length_linesFrom_le p 0,
    flatMap_bytes_linesFrom p 0, fun pre l post => placed_of_listing⟩
  intro addr l h
  have hlt := l.lt_next
  rw [(Line.addr_of_at? h).1] at hlt
  exact ⟨hlt, Line.next_le_of_at? h, Line.bytes_of_at? h⟩

end Program

end TwoStack
