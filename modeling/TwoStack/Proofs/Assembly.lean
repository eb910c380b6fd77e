import TwoStack.Proofs.Partition

/-! Listing inverts assembly: the units of an image are found again, and their texts tell it. -/

namespace TwoStack

namespace Item

variable {p : Program} {addr : Nat} {it : Item} {its others : List Item} {bs : List UInt8}

/-- How a complete unit is written, as bytes and as text. -/
inductive Written : Item → List UInt8 → String → Prop
  | bare {op : Opcode} (hop : op.hasOperand = false) : Written (.bare op) [op.byte] op.mnemonic
  | immediate {op : Opcode} {v : UInt32} (hop : op.hasOperand = true) :
      Written (.immediate op v)
        (op.byte ::
          [v.toNat, v.toNat / 0x100, v.toNat / 0x10000, v.toNat / 0x1000000].map UInt8.ofNat)
        (op.mnemonic ++ " " ++ v.toNat.repr)
  | raw {b : UInt8} (ho : Opcode.ofByte? b = none) :
      Written (.raw b) [b]
        (".byte 0x" ++ String.ofList [Nat.digitChar (b.toNat / 16), Nat.digitChar (b.toNat % 16)])

theorem written_of_complete (h : it.Complete) : Written it it.encode it.text := by
  cases it with
  | truncated => exact h.elim
  | bare op => exact .bare h
  | raw b =>
    rw [text, Text.hexByte_eq]
    exact .raw h
  | immediate op v =>
    rw [encode, Word.bytes_eq_map]
    exact .immediate h

/-- A complete unit is found where its bytes stand. -/
theorem at?_of_drop (hc : it.Complete) (h : p.toList.drop addr = it.encode ++ bs) :
    at? p addr = some it := by
  cases it with
  | truncated => exact hc.elim
  | bare op => exact at?_bare (Program.getElem?_of_drop h) hc
  | raw b => exact at?_raw (Program.getElem?_of_drop h) hc
  | immediate op v =>
    exact at?_immediate (Program.getElem?_of_drop h) hc
      (Program.word?_of_drop (Program.drop_succ h))

/-- The units as lines, the first of them at an address. -/
def linesAt (addr : Nat) : List Item → List Line
  | [] => []
  | it :: its => ⟨addr, it⟩ :: linesAt (addr + it.size) its

theorem length_linesAt (addr : Nat) (its : List Item) : (linesAt addr its).length = its.length := by
  induction its generalizing addr with
  | nil => rfl
  | cons it its ih => simp [linesAt, ih]

theorem map_item_linesAt (addr : Nat) (its : List Item) :
    (linesAt addr its).map Line.item = its := by
  induction its generalizing addr with
  | nil => rfl
  | cons it its ih => simp [linesAt, ih]

theorem linesAt_append (addr : Nat) (its others : List Item) :
    linesAt addr (its ++ others) =
      linesAt addr its ++ linesAt (addr + (its.flatMap encode).length) others := by
  induction its generalizing addr with
  | nil => rfl
  | cons it its ih =>
    simp only [List.cons_append, linesAt, ih, List.flatMap_cons, List.length_append, size,
      Nat.add_assoc]

/-- Complete units with the same texts are the same, one by one. -/
theorem eq_of_map_text (hc : ∀ it ∈ its, it.Complete) (ho : ∀ it ∈ others, it.Complete)
    (h : its.map text = others.map text) : its = others := by
  induction its generalizing others with
  | nil => exact (List.map_eq_nil_iff.1 h.symm).symm
  | cons it its ih =>
    cases others with
    | nil => simp at h
    | cons o others =>
      rw [List.map_cons, List.map_cons] at h
      obtain ⟨htext, hrest⟩ := List.cons.inj h
      obtain rfl := text_injective (hc it List.mem_cons_self) (ho o List.mem_cons_self) htext
      rw [ih (fun i hi => hc i (List.mem_cons_of_mem _ hi))
        (fun i hi => ho i (List.mem_cons_of_mem _ hi)) hrest]

end Item

namespace Program

variable {p q : Program} {addr : Nat} {its : List Item}

/-- Where the bytes of complete units stand, these units are listed. -/
theorem linesFrom_of_drop (hc : ∀ it ∈ its, it.Complete)
    (h : p.toList.drop addr = its.flatMap Item.encode) :
    p.linesFrom addr = Item.linesAt addr its := by
  induction its generalizing addr with
  | nil => exact linesFrom_eq_nil (by simpa using h)
  | cons it its ih =>
    rw [List.flatMap_cons] at h
    have hat : Line.at? p addr = some ⟨addr, it⟩ := by
      rw [Line.at?, Item.at?_of_drop (hc it List.mem_cons_self) h]
      rfl
    have hrest : p.toList.drop (addr + it.size) = its.flatMap Item.encode := by
      rw [← List.drop_drop, h]
      exact List.drop_left
    rw [linesFrom_eq_cons hat, Item.linesAt]
    exact congrArg _ (ih (fun i hi => hc i (List.mem_cons_of_mem _ hi)) hrest)

theorem listing_assemble (hc : ∀ it ∈ its, it.Complete) :
    (assemble its).listing = Item.linesAt 0 its :=
  linesFrom_of_drop hc (by simp [assemble])

/-- No line of the listing is truncated. -/
def Untruncated (p : Program) : Prop :=
  ∀ l ∈ p.listing, ¬ "<truncated>".toList <:+ l.item.text.toList

instance : DecidablePred Untruncated := fun p =>
  inferInstanceAs (Decidable (∀ l ∈ p.listing, ¬ "<truncated>".toList <:+ l.item.text.toList))

/-- The texts of the listing, line by line. -/
def texts (p : Program) : List String := p.listing.map fun l => l.item.text

theorem complete_of_untruncated (h : p.Untruncated) :
    ∀ it ∈ p.listing.map Line.item, it.Complete := by
  intro it hit
  obtain ⟨l, hl, rfl⟩ := List.mem_map.1 hit
  have ht := h l hl
  obtain ⟨it, hat, hline⟩ := Option.map_eq_some_iff.1 (at?_of_mem_linesFrom hl)
  rw [← hline] at ht ⊢
  cases Item.stands_of_at? hat with
  | raw hb ho => exact ho
  | bare hb hop => exact hop
  | immediate hb hop hv => exact hop
  | truncated hb hop hs => exact (ht ((Item.truncated_suffix_text_iff _).2 ⟨_, _, rfl⟩)).elim

/-- An image is assembled from the units of its listing. -/
theorem assemble_listing (p : Program) : assemble (p.listing.map Line.item) = p := by
  have h : p.listing.flatMap Line.bytes = p.toList := flatMap_bytes_linesFrom p 0
  rw [assemble, List.flatMap_map]
  exact (congrArg List.toArray h).trans Array.toArray_toList

theorem texts_assemble (hc : ∀ it ∈ its, it.Complete) :
    (assemble its).texts = its.map Item.text := by
  have h := congrArg (List.map Item.text) (Item.map_item_linesAt 0 its)
  rw [texts, listing_assemble hc, ← h, List.map_map]
  rfl

theorem eq_of_texts_eq (hp : p.Untruncated) (hq : q.Untruncated) (h : p.texts = q.texts) :
    p = q := by
  have hits : p.listing.map Line.item = q.listing.map Line.item := by
    apply Item.eq_of_map_text (complete_of_untruncated hp) (complete_of_untruncated hq)
    rw [List.map_map, List.map_map]
    exact h
  rw [← assemble_listing p, hits, assemble_listing]

/-- A unit has the line of its own number, behind the bytes of the units before. -/
theorem line_of_unit {pre post : List Item} {it : Item} (hc : ∀ i ∈ pre ++ it :: post, i.Complete) :
    (assemble (pre ++ it :: post)).listing[pre.length]? =
      some ⟨(pre.flatMap Item.encode).length, it⟩ := by
  have hlen : (Item.linesAt 0 pre).length ≤ pre.length := Nat.le_of_eq (Item.length_linesAt 0 pre)
  rw [listing_assemble hc, Item.linesAt_append, List.getElem?_append_right hlen,
    Item.length_linesAt, Nat.sub_self, Item.linesAt, Nat.zero_add]
  rfl

/-- Listing inverts assembly. The image of complete units has one line for each of them, in order,
with its bytes, its address and its text. The texts tell the units apart, so images without a
truncated line and with the same texts are equal. -/
theorem listing_inverts_assembly :
    (∀ its : List Item, (∀ it ∈ its, it.Complete) →
        (assemble its).listing.length = its.length ∧
          ∀ pre it post, its = pre ++ it :: post →
            ∃ l, (assemble its).listing[pre.length]? = some l ∧ l.bytes = it.encode ∧
              l.addr = (pre.flatMap Item.encode).length ∧ it.Written l.bytes l.item.text) ∧
      (∀ its others : List Item, (∀ it ∈ its, it.Complete) → (∀ it ∈ others, it.Complete) →
        (assemble its).texts = (assemble others).texts → its = others) ∧
      ∀ p q : Program, p.Untruncated → q.Untruncated → p.texts = q.texts → p = q := by
  refine ⟨?_, ?_, fun p q hp hq => eq_of_texts_eq hp hq⟩
  · intro its hc
    refine ⟨by rw [listing_assemble hc, Item.length_linesAt], ?_⟩
    rintro pre it post rfl
    exact ⟨_, line_of_unit hc, rfl, rfl, Item.written_of_complete (hc it (by simp))⟩
  · intro its others hc ho h
    rw [texts_assemble hc, texts_assemble ho] at h
    exact Item.eq_of_map_text hc ho h

/-- The greatest operand, between a byte whose first digit is zero and a bare opcode. -/
theorem listing_inverts_assembly_jump :
    let its : List Item := [.raw 0x07, .immediate .jump 0xFFFFFFFF, .bare .rFetch]
    let p : Program := #[0x07, 0x0F, 0xFF, 0xFF, 0xFF, 0xFF, 0x32]
    (∀ it ∈ its, it.Complete) ∧ assemble its = p ∧ (assemble its).listing.length = 3 ∧
      p.Untruncated ∧ p.texts = [".byte 0x07", "jump 4294967295", "r@"] ∧
      ∀ q : Program, q.Untruncated → q.texts = p.texts → q = p := by
  intro its p
  have hc : ∀ it ∈ its, it.Complete := by decide
  have hp : p.Untruncated := by decide +kernel
  refine ⟨hc, by decide +kernel, (listing_inverts_assembly.1 its hc).1, hp, by decide +kernel, ?_⟩
  intro q hq ht
  exact listing_inverts_assembly.2.2 q p hq hp ht

end Program

end TwoStack
