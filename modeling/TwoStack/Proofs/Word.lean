import TwoStack.Program

/-! The words of an image as numbers. -/

namespace TwoStack

namespace Word

theorem bytes_eq_map (v : UInt32) :
    bytes v =
      [v.toNat, v.toNat / 0x100, v.toNat / 0x10000, v.toNat / 0x1000000].map UInt8.ofNat := by
  simp only [bytes, List.map_cons, List.map_nil, List.cons.injEq, and_true, ← UInt8.toNat_inj,
    UInt32.toNat_toUInt8, UInt8.toNat_ofNat', UInt32.toNat_div,
    show (0x100 : UInt32).toNat = 0x100 from rfl, show (0x10000 : UInt32).toNat = 0x10000 from rfl,
    show (0x1000000 : UInt32).toNat = 0x1000000 from rfl]

/-- Four bytes are the bytes of the word they make up. -/
theorem bytes_ofBytes (b₀ b₁ b₂ b₃ : UInt8) :
    bytes (ofBytes b₀ b₁ b₂ b₃) = [b₀, b₁, b₂, b₃] := by
  have h₀ := b₀.toNat_lt
  have h₁ := b₁.toNat_lt
  have h₂ := b₂.toNat_lt
  have h₃ := b₃.toNat_lt
  simp only [bytes_eq_map, toNat_ofBytes, List.map_cons, List.map_nil, List.cons.injEq, and_true,
    ← UInt8.toNat_inj, UInt8.toNat_ofNat']
  omega

end Word

namespace Program

variable {p : Program} {addr : Nat}

/-- The number written in four bytes from an address on, the low byte first. Bytes outside the
image count as zero. -/
def littleEndian (p : Program) (addr : Nat) : Nat :=
  (p.getD addr 0).toNat + 0x100 * (p.getD (addr + 1) 0).toNat +
    0x10000 * (p.getD (addr + 2) 0).toNat + 0x1000000 * (p.getD (addr + 3) 0).toNat

theorem getElem?_eq_some_getD (h : addr < p.size) : p[addr]? = some (p.getD addr 0) := by
  simp [Array.getD_eq_getD_getElem?, Array.getElem?_eq_getElem h]

theorem word?_eq_none (h : p.size < addr + 4) : p.word? addr = none := by
  have h₃ : p[addr + 3]? = none := Array.getElem?_eq_none (by omega)
  simp [word?, h₃]

theorem word?_eq_ofBytes (h : addr + 4 ≤ p.size) :
    p.word? addr = some (Word.ofBytes (p.getD addr 0) (p.getD (addr + 1) 0) (p.getD (addr + 2) 0)
      (p.getD (addr + 3) 0)) := by
  have h₀ : p[addr]? = some (p.getD addr 0) := getElem?_eq_some_getD (by omega)
  have h₁ : p[addr + 1]? = some (p.getD (addr + 1) 0) := getElem?_eq_some_getD (by omega)
  have h₂ : p[addr + 2]? = some (p.getD (addr + 2) 0) := getElem?_eq_some_getD (by omega)
  have h₃ : p[addr + 3]? = some (p.getD (addr + 3) 0) := getElem?_eq_some_getD (by omega)
  simp only [word?, h₀, h₁, h₂, h₃]
  rfl

/-- A word is read wherever its four bytes lie inside the image. -/
theorem exists_word? (h : addr + 4 ≤ p.size) :
    ∃ v, p.word? addr = some v ∧ v.toNat = p.littleEndian addr :=
  ⟨_, word?_eq_ofBytes h, Word.toNat_ofBytes _ _ _ _⟩

theorem word?_eq_some {v : UInt32} (h : p.word? addr = some v) :
    addr + 4 ≤ p.size ∧ v.toNat = p.littleEndian addr := by
  by_cases hs : addr + 4 ≤ p.size
  · obtain ⟨w, hw, hn⟩ := exists_word? hs
    obtain rfl := Option.some.inj (hw.symm.trans h)
    exact ⟨hs, hn⟩
  · rw [word?_eq_none (by omega)] at h
    simp at h

theorem word?_eq_some_iff {v : UInt32} :
    p.word? addr = some v ↔ addr + 4 ≤ p.size ∧ v.toNat = p.littleEndian addr := by
  refine ⟨word?_eq_some, ?_⟩
  rintro ⟨hs, hn⟩
  obtain ⟨w, hw, hwn⟩ := exists_word? hs
  rw [hw, UInt32.toNat_inj.1 (hwn.trans hn.symm)]

theorem isSome_word?_iff : (p.word? addr).isSome ↔ addr + 4 ≤ p.size := by
  rw [Option.isSome_iff_exists]
  constructor
  · rintro ⟨v, hv⟩
    exact (word?_eq_some hv).1
  · intro hs
    obtain ⟨v, hv, -⟩ := exists_word? hs
    exact ⟨v, hv⟩

/-- Inside the image no byte is made up. -/
theorem littleEndian_eq (h : addr + 4 ≤ p.size) :
    p.littleEndian addr =
      p[addr].toNat + 0x100 * p[addr + 1].toNat + 0x10000 * p[addr + 2].toNat +
        0x1000000 * p[addr + 3].toNat := by
  have hbyte (a : Nat) (ha : a < p.size) : p.getD a 0 = p[a] := by
    simp [Array.getD_eq_getD_getElem?, ha]
  rw [littleEndian, hbyte addr, hbyte (addr + 1), hbyte (addr + 2), hbyte (addr + 3)]

theorem getElem?_of_drop {b : UInt8} {bs : List UInt8} (h : p.toList.drop addr = b :: bs) :
    p[addr]? = some b := by
  rw [← Array.getElem?_toList, ← List.head?_drop, h]
  rfl

theorem drop_succ {b : UInt8} {bs : List UInt8} (h : p.toList.drop addr = b :: bs) :
    p.toList.drop (addr + 1) = bs := by
  rw [← List.drop_drop, h]
  rfl

/-- The bytes of a word are read as that word. -/
theorem word?_of_drop {v : UInt32} {bs : List UInt8}
    (h : p.toList.drop addr = Word.bytes v ++ bs) : p.word? addr = some v := by
  obtain ⟨b₀, b₁, b₂, b₃, hbytes, hv⟩ := Word.bytes_eq v
  rw [hbytes] at h
  have h₁ := drop_succ h
  have h₂ := drop_succ h₁
  have h₃ := drop_succ h₂
  simp only [word?, getElem?_of_drop h, getElem?_of_drop h₁, getElem?_of_drop h₂,
    getElem?_of_drop h₃]
  exact congrArg some hv

/-- The bytes of a word are read back wherever they were put. -/
theorem word?_append_bytes (x y : Program) (v : UInt32) :
    (x ++ (Word.bytes v).toArray ++ y).word? x.size = some v := by
  have hdrop : (x ++ (Word.bytes v).toArray ++ y).toList.drop x.size =
      Word.bytes v ++ y.toList := by
    rw [Array.toList_append, Array.toList_append, List.append_assoc]
    exact List.drop_left
  exact word?_of_drop hdrop

theorem drop_of_getElem? {b : UInt8} (h : p[addr]? = some b) :
    p.toList.drop addr = b :: p.toList.drop (addr + 1) := by
  obtain ⟨hlt, rfl⟩ := Array.getElem?_eq_some_iff.1 h
  exact List.drop_eq_getElem_cons hlt

/-- A word is read only where its bytes stand. -/
theorem drop_of_word? {v : UInt32} (h : p.word? addr = some v) :
    p.toList.drop addr = Word.bytes v ++ p.toList.drop (addr + 4) := by
  obtain ⟨hs, -⟩ := word?_eq_some h
  obtain rfl := Option.some.inj ((word?_eq_ofBytes hs).symm.trans h)
  rw [Word.bytes_ofBytes, drop_of_getElem? (getElem?_eq_some_getD (show addr < p.size by omega)),
    drop_of_getElem? (getElem?_eq_some_getD (show addr + 1 < p.size by omega)),
    drop_of_getElem? (getElem?_eq_some_getD (show addr + 2 < p.size by omega)),
    drop_of_getElem? (getElem?_eq_some_getD (show addr + 3 < p.size by omega))]
  rfl

/-- At whatever address, a word is read exactly if all four of its bytes lie inside the image. It is
the number they write, the low byte first, and fits into 32 bits. Its end is not computed modulo
2^64, so an address close to there does not lead back to the start of the image. In turn the bytes of
any word, put anywhere between other bytes, are read as that word. -/
theorem word_fetch_exact (p : Program) (addr : Nat) (v : UInt32) :
    ((p.word? addr).isSome ↔ addr + 4 ≤ p.size) ∧
      (p.word? addr = some v ↔
        ∃ _ : addr + 4 ≤ p.size,
          v.toNat = p[addr].toNat + 0x100 * p[addr + 1].toNat + 0x10000 * p[addr + 2].toNat +
            0x1000000 * p[addr + 3].toNat ∧ v.toNat < UInt32.size) ∧
      ∀ x y : Program, (x ++ (Word.bytes v).toArray ++ y).word? x.size = some v := by
  refine ⟨isSome_word?_iff, ?_, fun x y => word?_append_bytes x y v⟩
  rw [word?_eq_some_iff]
  constructor
  · rintro ⟨hs, hn⟩
    exact ⟨hs, hn.trans (littleEndian_eq hs), v.toNat_lt⟩
  · rintro ⟨hs, hn, -⟩
    exact ⟨hs, hn.trans (littleEndian_eq hs).symm⟩

/-- Modulo 2^64 this word would end behind the first byte. -/
example : Program.word? #[0x01, 0xEF, 0xBE, 0xAD, 0xDE] 0xFFFFFFFFFFFFFFFD = none := by decide

end Program

end TwoStack
