import TwoStack.Item

/-! The text of a unit tells what kind of unit it is, and its operand can be read back. -/

namespace TwoStack

namespace Text

/-- The number written in decimal after the first blank of a text. -/
def operand? (text : String) : Option Nat :=
  match text.toList.dropWhile (· ≠ ' ') with
  | [] => none
  | _ :: ds =>
    if ds ≠ [] ∧ ds.all Char.isDigit then some (Nat.ofDigitChars 10 ds 0) else none

theorem getLast?_toDigits {b : Nat} (hb : 1 < b) (n : Nat) :
    (Nat.toDigits b n).getLast? = some (Nat.digitChar (n % b)) := by
  rw [Nat.toDigits_eq_if hb]
  by_cases hn : n < b
  · rw [if_pos hn, Nat.mod_eq_of_lt hn, List.getLast?_singleton]
  · rw [if_neg hn, List.getLast?_concat]

/-- A number ends with a digit. -/
theorem getLast?_append_toDigits_ne {b : Nat} (hb : 1 < b) (hb' : b ≤ 16) (cs : List Char)
    (n : Nat) : (cs ++ Nat.toDigits b n).getLast? ≠ some '>' := by
  have hdigit : ∀ d < 16, Nat.digitChar d ≠ '>' := by decide
  have hd : n % b < 16 := by
    have := Nat.mod_lt n (by omega : b > 0)
    omega
  rw [List.getLast?_append, getLast?_toDigits hb]
  simp [hdigit _ hd]

theorem all_isDigit_decimal (n : Nat) : (Nat.toDigits 10 n).all Char.isDigit = true := by
  rw [List.all_eq_true]
  intro c hc
  exact Nat.isDigit_of_mem_toDigits (by decide) (by decide) hc

/-- A byte has two digits, also where the first is zero. -/
theorem hexByte_eq (b : UInt8) :
    hexByte b = String.ofList [Nat.digitChar (b.toNat / 16), Nat.digitChar (b.toNat % 16)] := by
  have hb := b.toNat_lt
  have hdigits : Nat.toDigits 16 (b.toNat / 16) = [Nat.digitChar (b.toNat / 16)] :=
    Nat.toDigits_of_lt_base (by omega)
  by_cases hn : b.toNat < 16
  · rw [hexByte, Nat.toDigits_of_lt_base hn, Nat.div_eq_of_lt hn, Nat.mod_eq_of_lt hn]
    rfl
  · rw [hexByte, Nat.toDigits_eq_if (by decide), if_neg hn, hdigits]
    rfl

theorem hexByte_injective {a b : UInt8} (h : hexByte a = hexByte b) : a = b := by
  have hdigit : ∀ i < 16, ∀ j < 16, Nat.digitChar i = Nat.digitChar j → i = j := by decide
  have ha := a.toNat_lt
  have hb := b.toNat_lt
  rw [hexByte_eq, hexByte_eq, String.ofList_inj, List.cons.injEq, List.cons.injEq] at h
  have hhigh := hdigit _ (by omega) _ (by omega) h.1
  have hlow := hdigit _ (by omega) _ (by omega) h.2.1
  rw [← UInt8.toNat_inj]
  omega

end Text

namespace Opcode

theorem mnemonic_injective {a b : Opcode} (h : a.mnemonic = b.mnemonic) : a = b := by
  have hall : ∀ a ∈ all, ∀ b ∈ all, a.mnemonic = b.mnemonic → a = b := by decide +kernel
  exact hall a a.mem_all b b.mem_all h

theorem mnemonic_ne_byte (op : Opcode) : op.mnemonic ≠ ".byte" := by
  cases op <;> decide

end Opcode

namespace Item

/-- The first word of the text. -/
def word : Item → String
  | bare op | immediate op _ | truncated op _ => op.mnemonic
  | raw _ => ".byte"

theorem blank_notMem_mnemonic (op : Opcode) : ' ' ∉ op.mnemonic.toList := by
  cases op <;> decide

theorem ne_blank_of_mem_word (it : Item) : ∀ c ∈ it.word.toList, decide (c ≠ ' ') = true := by
  intro c hc
  apply decide_eq_true
  rintro rfl
  cases it with
  | raw b => simp [word] at hc
  | bare op | immediate op _ | truncated op _ => exact blank_notMem_mnemonic op hc

theorem takeWhile_text (it : Item) : it.text.toList.takeWhile (· ≠ ' ') = it.word.toList := by
  obtain ⟨rest, htext, hrest⟩ :
      ∃ rest, it.text.toList = it.word.toList ++ rest ∧ rest.takeWhile (· ≠ ' ') = [] := by
    cases it with
    | bare op => exact ⟨[], by simp [text, word], rfl⟩
    | immediate op v => exact ⟨' ' :: (Text.decimal v.toNat).toList, by simp [text, word], rfl⟩
    | raw b => exact ⟨" 0x".toList ++ (Text.hexByte b).toList, by simp [text, word], by simp⟩
    | truncated op bs => exact ⟨" <truncated>".toList, by simp [text, word], by simp⟩
  rw [htext, List.takeWhile_append_of_pos it.ne_blank_of_mem_word, hrest, List.append_nil]

theorem operand?_text_immediate (op : Opcode) (v : UInt32) :
    Text.operand? (immediate op v).text = some v.toNat := by
  have hd : (immediate op v).text.toList.dropWhile (· ≠ ' ') = ' ' :: Nat.toDigits 10 v.toNat := by
    have hm : ∀ c ∈ op.mnemonic.toList, decide (c ≠ ' ') = true :=
      (immediate op v).ne_blank_of_mem_word
    simp only [text, Text.decimal, String.toList_append, String.toList_ofList, List.append_assoc]
    rw [List.dropWhile_append_of_pos hm]
    rfl
  have hne : Nat.toDigits 10 v.toNat ≠ [] := Nat.toDigits_ne_nil
  rw [Text.operand?, hd]
  simp [hne, Text.all_isDigit_decimal, Nat.ofDigitChars_ten_toDigits]

/-- Complete units with the same text are the same: the first word tells the opcode, the opcode
whether there is an operand, and numbers can be read back. -/
theorem text_injective {a b : Item} (ha : a.Complete) (hb : b.Complete) (h : a.text = b.text) :
    a = b := by
  have hword : a.word = b.word := by
    rw [← String.toList_inj, ← takeWhile_text, ← takeWhile_text, h]
  cases a with
  | truncated => exact ha.elim
  | raw x =>
    cases b with
    | truncated => exact hb.elim
    | raw y =>
      rw [text, text, String.append_right_inj] at h
      rw [Text.hexByte_injective h]
    | bare op | immediate op _ => exact (op.mnemonic_ne_byte hword.symm).elim
  | bare op =>
    cases b with
    | truncated => exact hb.elim
    | raw y => exact (op.mnemonic_ne_byte hword).elim
    | bare op' => rw [Opcode.mnemonic_injective hword]
    | immediate op' w =>
      obtain rfl := Opcode.mnemonic_injective hword
      have hno : op.hasOperand = false := ha
      exact (Bool.eq_false_iff.1 hno hb).elim
  | immediate op v =>
    cases b with
    | truncated => exact hb.elim
    | raw y => exact (op.mnemonic_ne_byte hword).elim
    | bare op' =>
      obtain rfl := Opcode.mnemonic_injective hword
      have hno : op.hasOperand = false := hb
      exact (Bool.eq_false_iff.1 hno ha).elim
    | immediate op' w =>
      obtain rfl := Opcode.mnemonic_injective hword
      have hv := operand?_text_immediate op v
      rw [h, operand?_text_immediate] at hv
      rw [UInt32.toNat_inj.1 (Option.some.inj hv)]

/-- Only an unassigned byte is listed as a byte: no mnemonic begins with a point. -/
theorem byte_prefix_text_iff (it : Item) :
    ".byte".toList <+: it.text.toList ↔ ∃ b, it = raw b := by
  have hmn (op : Opcode) (cs : List Char) : ¬ ".byte".toList <+: op.mnemonic.toList ++ cs := by
    cases op <;> simp [Opcode.mnemonic]
  cases it with
  | raw b => simp [text]
  | bare op => simpa [text] using hmn op []
  | immediate op v => simpa [text] using hmn op (' ' :: (Text.decimal v.toNat).toList)
  | truncated op bs => simpa [text] using hmn op " <truncated>".toList

/-- Only a cut operand is listed as truncated: other texts end with a digit or a mnemonic. -/
theorem truncated_suffix_text_iff (it : Item) :
    "<truncated>".toList <:+ it.text.toList ↔ ∃ op bs, it = truncated op bs := by
  have hlast {cs : List Char} (h : "<truncated>".toList <:+ cs) : cs.getLast? = some '>' := by
    obtain ⟨ds, rfl⟩ := h
    simp
  cases it with
  | truncated op bs =>
    refine iff_of_true ⟨op.mnemonic.toList ++ [' '], ?_⟩ ⟨op, bs, rfl⟩
    simp [text]
  | bare op =>
    refine iff_of_false ?_ (by simp)
    cases op <;> decide
  | immediate op v =>
    refine iff_of_false ?_ (by simp)
    intro h
    have hl := hlast h
    simp only [text, Text.decimal, String.toList_append, String.toList_ofList] at hl
    exact Text.getLast?_append_toDigits_ne (by decide) (by decide) _ _ hl
  | raw b =>
    refine iff_of_false ?_ (by simp)
    intro h
    have hl := hlast h
    simp only [text, Text.hexByte, String.toList_append, String.toList_ofList, List.leftpad,
      ← List.append_assoc] at hl
    exact Text.getLast?_append_toDigits_ne (by decide) (by decide) _ _ hl

end Item

end TwoStack
