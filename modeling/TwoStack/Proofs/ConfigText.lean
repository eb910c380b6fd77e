import TwoStack.Config
import TwoStack.Proofs.RecordText

/-! A configuration is read from every text that gives its settings, by name or in order. -/

namespace TwoStack.Config

open Json Reader

/-- The names of the settings, in order. -/
def settingNames : List String := ["max_steps", "trace_instructions", "print_stats"]

/-- The texts of the values of the settings, in order. -/
def settingTexts (c : Config) : List (List Char) :=
  [(Text.decimal c.maxSteps).toList, booleanText c.traceInstructions, booleanText c.printStats]

/-- A member that gives a setting of `c`, or one of another name with any value. -/
inductive Setting (c : Config) : String × List Char → Prop
  | maxSteps {e : List Char} (h : Padded (Text.decimal c.maxSteps).toList e) :
      Setting c ("max_steps", e)
  | traceInstructions {e : List Char} (h : Padded (booleanText c.traceInstructions) e) :
      Setting c ("trace_instructions", e)
  | printStats {e : List Char} (h : Padded (booleanText c.printStats) e) :
      Setting c ("print_stats", e)
  | other {key : String} {e : List Char} (hk : key ∉ settingNames) (he : Derives .element e) :
      Setting c (key, e)

/-- All settings but the named ones have their defaults. -/
structure DefaultsBut (names : List String) (c : Config) : Prop where
  maxSteps : "max_steps" ∉ names → c.maxSteps = 1000
  traceInstructions : "trace_instructions" ∉ names → c.traceInstructions = true
  printStats : "print_stats" ∉ names → c.printStats = false

/-- The text of the settings of `c`: an object that names each at most once, or a list of the first
few. Those that are not given have their defaults. -/
inductive SettingsText (c : Config) : List Char → Prop
  | object {ms : List (String × List Char)} {t : List Char} (h : ObjectText ms t)
      (hs : ∀ m ∈ ms, Setting c m)
      (once : ∀ name ∈ settingNames, (ms.map Prod.fst).count name ≤ 1)
      (hd : DefaultsBut (ms.map Prod.fst) c) : SettingsText c t
  | list {t : List Char} (k : Nat) (h : ListText ((settingTexts c).take k) t)
      (hd : DefaultsBut (settingNames.take k) c) : SettingsText c t

/-- A member that holds the settings of `c`, or one of another name with any value. -/
inductive Part (c : Config) : String × List Char → Prop
  | general {g e : List Char} (hg : SettingsText c g) (h : Padded g e) : Part c ("general", e)
  | other {key : String} {e : List Char} (hk : key ≠ "general") (he : Derives .element e) :
      Part c (key, e)

/-- The text of `c`: an object that has its settings at most once, or a list of nothing but them.
Without them all have their defaults. -/
inductive ConfigText (c : Config) : List Char → Prop
  | object {ms : List (String × List Char)} {t : List Char} (h : ObjectText ms t)
      (hp : ∀ m ∈ ms, Part c m) (once : (ms.map Prod.fst).count "general" ≤ 1)
      (hd : "general" ∉ ms.map Prod.fst → DefaultsBut [] c) : ConfigText c t
  | list {g t : List Char} (hg : SettingsText c g) (h : ListText [g] t) : ConfigText c t
  | emptyList {t : List Char} (h : ListText [] t) (hd : DefaultsBut [] c) : ConfigText c t

/-- The draft that holds the named settings of `c`. -/
def Draft.given (c : Config) (names : List String) : Draft where
  maxSteps := if "max_steps" ∈ names then some c.maxSteps else none
  traceInstructions := if "trace_instructions" ∈ names then some c.traceInstructions else none
  printStats := if "print_stats" ∈ names then some c.printStats else none

theorem getD_ite {α : Type} {p : Prop} [Decidable p] {x default : α} (h : ¬p → x = default) :
    (if p then some x else none).getD default = x := by
  by_cases hp : p
  · simp [hp]
  · simp [hp, h hp]

theorem complete_given {c : Config} {names : List String} (h : DefaultsBut names c) :
    (Draft.given c names).complete = c := by
  simp only [Draft.given, Draft.complete, getD_ite h.maxSteps, getD_ite h.traceInstructions,
    getD_ite h.printStats]

theorem given_nil (c : Config) : Draft.given c [] = {} := by
  simp [Draft.given]

/-- Each field reads its own setting and keeps what is there of the others. -/
theorem reads_setting {c : Config} (hn : c.maxSteps < UInt64.size) {i : Fin 3} {e : List Char}
    (hp : Padded ((settingTexts c).get i) e) (names : List String) :
    Reads ((draftFields.get i).read (.given c names)) e
      (.given c (names ++ [settingNames.get i])) := by
  rcases i with ⟨_ | _ | _ | i, hi⟩
  · refine reads_of_reads (reads_count hn hp) fun cs tail hr => ?_
    simp [draftFields, settingNames, Draft.given, hr, bind, Except.bind, pure, Except.pure]
  · refine reads_of_reads (reads_boolean hp) fun cs tail hr => ?_
    simp [draftFields, settingNames, Draft.given, hr, bind, Except.bind, pure, Except.pure]
  · refine reads_of_reads (reads_boolean hp) fun cs tail hr => ?_
    simp [draftFields, settingNames, Draft.given, hr, bind, Except.bind, pure, Except.pure]
  · omega

/-- A member gives the setting it names and no other. -/
theorem takes_setting {c : Config} {names : List String} {m : String × List Char}
    (hn : c.maxSteps < UInt64.size) (hs : Setting c m)
    (hnew : m.1 ∈ settingNames → m.1 ∉ names) :
    Takes draftFields (.given c names) m (.given c (names ++ [m.1])) := by
  cases hs with
  | maxSteps h =>
    have hfree : "max_steps" ∉ names := hnew (by simp [settingNames])
    refine .read rfl ?_ (reads_setting hn (i := 0) h names)
    simp [Draft.given, hfree]
  | traceInstructions h =>
    have hfree : "trace_instructions" ∉ names := hnew (by simp [settingNames])
    refine .read rfl ?_ (reads_setting hn (i := 1) h names)
    simp [Draft.given, hfree]
  | printStats h =>
    have hfree : "print_stats" ∉ names := hnew (by simp [settingNames])
    refine .read rfl ?_ (reads_setting hn (i := 2) h names)
    simp [Draft.given, hfree]
  | @other key e hk he =>
    simp only [settingNames, List.mem_cons, List.not_mem_nil, or_false, not_or] at hk
    have hsame : Draft.given c (names ++ [key]) = Draft.given c names := by
      simp [Draft.given, Ne.symm hk.1, Ne.symm hk.2.1, Ne.symm hk.2.2]
    rw [hsame]
    exact .skip (by simp [draftFields, Ne.symm hk.1, Ne.symm hk.2.1, Ne.symm hk.2.2]) he

/-- Members read one after another give what they name, whatever their order. -/
theorem fills_settings {c : Config} (hn : c.maxSteps < UInt64.size)
    {ms : List (String × List Char)} (hs : ∀ m ∈ ms, Setting c m) (names : List String)
    (once : ∀ name ∈ settingNames, (names ++ ms.map Prod.fst).count name ≤ 1) :
    Fills draftFields (.given c names) ms (.given c (names ++ ms.map Prod.fst)) := by
  induction ms generalizing names with
  | nil => simpa using .nil
  | cons m ms ih =>
    have hnew : m.1 ∈ settingNames → m.1 ∉ names := by
      intro hm
      have hcount := once m.1 hm
      simp only [List.map_cons, List.count_append, List.count_cons_self] at hcount
      exact List.count_eq_zero.1 (by omega)
    have hrest := ih (fun m' hm' => hs m' (by simp [hm'])) (names ++ [m.1]) (by simpa using once)
    rw [List.append_assoc] at hrest
    exact .cons (takes_setting hn (hs m (by simp)) hnew) hrest

theorem opens_decimal (n : Nat) : Opens (Text.decimal n).toList := by
  obtain ⟨c, cs, hcons, hc⟩ := exists_cons_of_numberText (numberText_decimal n)
  exact ⟨c, cs, hcons, isBlank_of_numeric hc, ne_of_numeric hc (by decide)⟩

theorem opens_boolean (b : Bool) : Opens (booleanText b) := by
  cases b with
  | true => exact ⟨'t', _, rfl, rfl, by decide⟩
  | false => exact ⟨'f', _, rfl, rfl, by decide⟩

/-- The values of a list are read as the first settings. -/
theorem fillsInOrder_settings {c : Config} (hn : c.maxSteps < UInt64.size) (k : Nat) :
    FillsInOrder draftFields (.given c []) ((settingTexts c).take k)
      (.given c (settingNames.take k)) := by
  have h₀ := fun e hp => reads_setting hn (i := 0) (e := e) hp []
  have h₁ := fun e hp => reads_setting hn (i := 1) (e := e) hp ["max_steps"]
  have h₂ := fun e hp => reads_setting hn (i := 2) (e := e) hp ["max_steps", "trace_instructions"]
  have hsteps := opens_decimal c.maxSteps
  have htrace := opens_boolean c.traceInstructions
  have hstats := opens_boolean c.printStats
  rcases k with _ | _ | _ | k
  · exact .nil
  · exact .cons hsteps h₀ .nil
  · exact .cons hsteps h₀ (.cons htrace h₁ .nil)
  · simp only [settingTexts, settingNames, List.take_succ_cons, List.take_nil]
    exact .cons hsteps h₀ (.cons htrace h₁ (.cons hstats h₂ .nil))

theorem reads_settings {c : Config} (hn : c.maxSteps < UInt64.size) {g : List Char}
    (hg : SettingsText c g) :
    ∃ d : Draft, d.complete = c ∧ ∀ e, Padded g e → Reads draft e d := by
  cases hg with
  | object h hs once hd =>
    have hfills := fills_settings hn hs [] once
    rw [given_nil] at hfills
    exact ⟨_, complete_given hd, fun e hp => reads_object h hfills hp _⟩
  | list k h hd =>
    have hfills := fillsInOrder_settings hn k
    rw [given_nil] at hfills
    exact ⟨_, complete_given hd, fun e hp => reads_list h hfills hp _⟩

theorem opens_settings {c : Config} {g : List Char} (hg : SettingsText c g) : Opens g := by
  cases hg with
  | object h =>
    obtain ⟨cs, hcons⟩ := exists_cons_of_bracketed h
    exact ⟨'\x7b', cs, hcons, rfl, by decide⟩
  | list k h =>
    obtain ⟨cs, hcons⟩ := exists_cons_of_bracketed h
    exact ⟨'[', cs, hcons, rfl, by decide⟩

/-- The one field of the root reads the settings. -/
theorem reads_general {e : List Char} {d : Draft} (h : Reads draft e d) :
    Reads ((rootFields.get ⟨0, by decide⟩).read none) e (some d) := by
  refine reads_of_reads h fun cs tail hr => ?_
  simp [rootFields, hr, bind, Except.bind, pure, Except.pure]

theorem takes_other {c : Config} {m : String × List Char} (hp : Part c m) (hm : m.1 ≠ "general")
    (r : Option Draft) : Takes rootFields r m r := by
  cases hp with
  | general => exact absurd rfl hm
  | other hk he => exact .skip (by simp [rootFields, Ne.symm hk]) he

theorem fills_others {c : Config} {ms : List (String × List Char)} (hp : ∀ m ∈ ms, Part c m)
    (hm : "general" ∉ ms.map Prod.fst) (r : Option Draft) : Fills rootFields r ms r := by
  induction ms with
  | nil => exact .nil
  | cons m ms ih =>
    simp only [List.map_cons, List.mem_cons, not_or] at hm
    exact .cons (takes_other (hp m (by simp)) (Ne.symm hm.1) r)
      (ih (fun m' hm' => hp m' (by simp [hm'])) hm.2)

theorem complete_default {c : Config} (h : DefaultsBut [] c) : ({} : Draft).complete = c := by
  rw [← given_nil c]
  exact complete_given h

/-- The members before and after the settings are passed over. -/
theorem fills_parts {c : Config} (hn : c.maxSteps < UInt64.size)
    {ms : List (String × List Char)} (hp : ∀ m ∈ ms, Part c m)
    (once : (ms.map Prod.fst).count "general" ≤ 1)
    (hd : "general" ∉ ms.map Prod.fst → DefaultsBut [] c) :
    ∃ r, Fills rootFields none ms r ∧ (r.getD {}).complete = c := by
  induction ms with
  | nil => exact ⟨none, .nil, complete_default (hd (by simp))⟩
  | cons m ms ih =>
    have hms : ∀ m' ∈ ms, Part c m' := fun m' hm' => hp m' (by simp [hm'])
    by_cases hm : m.1 = "general"
    · have hrest : "general" ∉ ms.map Prod.fst := by
        rw [List.map_cons, hm, List.count_cons_self] at once
        exact List.count_eq_zero.1 (by omega)
      cases hp m (by simp) with
      | general hg h =>
        obtain ⟨d, hcomplete, hread⟩ := reads_settings hn hg
        exact ⟨some d, .cons (.read rfl rfl (reads_general (hread _ h)))
          (fills_others hms hrest _), hcomplete⟩
      | other hk => exact absurd hm hk
    · rw [List.map_cons, List.count_cons_of_ne hm] at once
      obtain ⟨r, hfills, hcomplete⟩ := ih hms once fun h => hd (by simp [Ne.symm hm, h])
      exact ⟨r, .cons (takes_other (hp m (by simp)) hm none) hfills, hcomplete⟩

theorem reads_root {c : Config} (hn : c.maxSteps < UInt64.size) {t e : List Char}
    (h : ConfigText c t) (hp : Padded t e) :
    ∃ r, Reads root e r ∧ (r.getD {}).complete = c := by
  cases h with
  | object h hm once hd =>
    obtain ⟨r, hfills, hcomplete⟩ := fills_parts hn hm once hd
    exact ⟨r, reads_object h hfills hp _, hcomplete⟩
  | list hg h =>
    obtain ⟨d, hcomplete, hread⟩ := reads_settings hn hg
    have hfills : FillsInOrder rootFields none _ (some d) :=
      .cons (opens_settings hg) (fun e hp => reads_general (hread e hp)) .nil
    exact ⟨some d, reads_list h hfills hp _, hcomplete⟩
  | emptyList h hd => exact ⟨none, reads_list h .nil hp _, complete_default hd⟩

theorem whole_of_reads {α : Type} {r : Reader α} {text : String} {a : α}
    (h : Reads r text.toList a) : whole r text = .ok a := by
  obtain ⟨tail, hread, htail⟩ := h [] (by simp [Closing])
  rw [List.append_nil] at hread
  simp [whole, hread, htail, bind, Except.bind, pure, Except.pure]

/-- Settings are read alike in any order, by name or in a list, whatever else stands in the text;
those that are not given take their defaults. -/
theorem parse_of_configText {c : Config} {t : List Char} {text : String} (h : ConfigText c t)
    (hp : Padded t text.toList) (hn : c.maxSteps < UInt64.size) : parse text = .ok c := by
  obtain ⟨r, hread, hcomplete⟩ := reads_root hn h hp
  simp [parse, whole_of_reads hread, hcomplete, bind, Except.bind, pure, Except.pure]

/-- Settings out of order among other members, one behind blanks and one key with a code. -/
theorem parse_of_configText_reordered :
    parse (" \x7b\"a\":[\x7b\x7d],\"\\u0067eneral\":\x7b\"print_stats\":true,\"b\":null," ++
      "\"max_steps\" : 18446744073709551615\x7d\x7d") =
      .ok { maxSteps := 18446744073709551615, traceInstructions := true, printStats := true } := by
  have hnone : Blank [] := by simp [Blank]
  have hblank : Blank [' '] := by simp [Blank]
  have hplain {v : List Char} : Padded v v := ⟨[], [], hnone, hnone, by simp⟩
  have hvalue {v : List Char} (hv : Derives .value v) : Derives .element v := by
    simpa using Derives.element hnone hv hnone
  have hmember (key : String) (e : List Char) :
      MemberText (key, e) ('"' :: (key.toList.flatMap Document.escape ++ ['"'] ++ ':' :: e)) :=
    ⟨[], _, [], hnone, Document.spells_escape key, hnone, rfl⟩
  have hsteps : MemberText ("max_steps", " 18446744073709551615".toList)
      "\"max_steps\" : 18446744073709551615".toList :=
    ⟨[], _, [' '], hnone, Document.spells_escape "max_steps", hblank, by decide⟩
  have hgeneral (e : List Char) : MemberText ("general", e) ("\"\\u0067eneral\":".toList ++ e) := by
    obtain ⟨ps, hl, hj⟩ := Document.spells_escape "eneral"
    have hhex {n : Nat} (hn : n < 16) : HexDigit n (Nat.digitChar n) := ⟨hn, Or.inl rfl⟩
    have hcode := Literal.code (hhex (n := 0) (by decide)) (hhex (n := 0) (by decide))
      (hhex (n := 6) (by decide)) (hhex (n := 7) (by decide)) hl
    have hkey : "general".toList = Char.ofNat 0x67 :: "eneral".toList := by decide
    have hjoins : Joins (.code 0x67 :: ps) "general".toList := by
      rw [hkey]
      exact .code (by decide) hj
    exact ⟨[], _, [], hnone, ⟨_, hcode, hjoins⟩, hnone, rfl⟩
  have hsettings := SettingsText.object
    (c := { maxSteps := 18446744073709551615, traceInstructions := true, printStats := true })
    (.parts (.cons (hmember "print_stats" (booleanText true))
      (.cons (hmember "b" "null".toList) (.last hsteps))))
    (List.forall_mem_cons.2 ⟨.printStats hplain, List.forall_mem_cons.2
      ⟨.other (by decide) (hvalue .null), List.forall_mem_cons.2
        ⟨.maxSteps ⟨[' '], [], hblank, hnone, by decide +kernel⟩, by simp⟩⟩⟩)
    (by decide)
    ⟨fun h => absurd (by decide) h, fun _ => rfl, fun h => absurd (by decide) h⟩
  have hconfig := ConfigText.object
    (.parts (.cons (hmember "a" "[\x7b\x7d]".toList) (.last (hgeneral _))))
    (List.forall_mem_cons.2
      ⟨.other (by decide) (hvalue (.list (.lastElement (hvalue (.emptyObject hnone))))),
        List.forall_mem_cons.2 ⟨.general hsettings hplain, by simp⟩⟩)
    (by decide) fun h => absurd (by decide) h
  exact parse_of_configText hconfig ⟨[' '], [], hblank, hnone, by decide +kernel⟩ (by decide)

end TwoStack.Config
