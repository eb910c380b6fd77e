import TwoStack.Proofs.Reporting
import TwoStack.Proofs.StepLimit

/-! The exit code of a run tells of the files and the budget alone, not of presentation. -/

namespace TwoStack

section Files

variable (read read' : String → Except ReadFailure ByteArray)

/-- The configuration that is named, if any, can be read, and it limits a run to `n` steps. -/
inductive Limits : Option String → Nat → Prop
  | default : Limits none 1000
  | file {path text : String} {c : Config} (hr : read path = .ok text.toUTF8)
      (hc : Config.parse text = .ok c) : Limits (some path) c.maxSteps

/-- The configuration that is named cannot be used, for the reason given. -/
inductive ConfigFailure : Option String → String → Prop
  | unreadable {path : String} {f : ReadFailure} (h : read path = .error f) :
      ConfigFailure (some path) ("could not read config '" ++ path ++ "': " ++ f.message)
  | notText {path : String} {bytes : ByteArray} (hr : read path = .ok bytes)
      (ht : ∀ text : String, bytes ≠ text.toUTF8) :
      ConfigFailure (some path)
        ("could not read config '" ++ path ++ "': stream did not contain valid UTF-8")
  | malformed {path text : String} (hr : read path = .ok text.toUTF8)
      (hc : Config.parse text = .error .malformed) :
      ConfigFailure (some path) "invalid configuration"
  | invalid {path text detail : String} {problem : Config.Problem}
      (hr : read path = .ok text.toUTF8) (hc : Config.parse text = .error problem)
      (hd : problem.detail? = some detail) :
      ConfigFailure (some path) ("invalid configuration: " ++ detail)

/-- There is no program in the file, for the reason given. -/
inductive ProgramFailure (file : String) : String → Prop
  | unreadable {f : ReadFailure} (h : read file = .error f) :
      ProgramFailure file ("could not read program '" ++ file ++ "': " ++ f.message)
  | empty (h : read file = .ok ⟨#[]⟩) : ProgramFailure file ("program '" ++ file ++ "' is empty")

/-- The files and options make a run of `p` with this budget. -/
structure Starts (o : RunOptions) (p : Program) (budget : Nat) : Prop where
  limit : ∃ n, Limits read o.config n ∧ budget = o.maxSteps.getD n
  program : read o.file = .ok ⟨p⟩
  nonempty : p ≠ #[]

/-- The files do not make a run. The program is blamed only if the configuration is in order. -/
inductive Blamed (o : RunOptions) : String → Prop
  | config {message : String} (h : ConfigFailure read o.config message) : Blamed o message
  | program {n : Nat} {message : String} (hc : Limits read o.config n)
      (h : ProgramFailure read o.file message) : Blamed o message

/-- Two configurations that differ in nothing but the presentation of a run. -/
inductive SameLimit : Option String → Option String → Prop
  | default : SameLimit none none
  | content {path path' : String} (h : read' path' = read path) :
      SameLimit (some path) (some path')
  | settings {path path' text text' : String} {c c' : Config} (hr : read path = .ok text.toUTF8)
      (hc : Config.parse text = .ok c) (hr' : read' path' = .ok text'.toUTF8)
      (hc' : Config.parse text' = .ok c') (h : c'.maxSteps = c.maxSteps) :
      SameLimit (some path) (some path')

end Files

variable {read read' : String → Except ReadFailure ByteArray} {config config' : Option String}
  {o o' : RunOptions} {p : Program} {n budget : Nat} {message : String}

theorem decodeText_toUTF8 (text : String) : decodeText text.toUTF8 = .ok text := by
  have hv : text.toUTF8.IsValidUTF8 := text.isValidUTF8
  simp only [decodeText, String.fromUTF8?, hv, dite_true]
  rfl

theorem decodeText_of_ne {bytes : ByteArray} (h : ∀ text : String, bytes ≠ text.toUTF8) :
    decodeText bytes = .error .notText := by
  have hv : ¬ bytes.IsValidUTF8 := fun hv => h (.fromUTF8 bytes hv) rfl
  simp only [decodeText, String.fromUTF8?, hv, dite_false]

theorem Config.load_text (path text : String) :
    load path (.ok text.toUTF8) = (parse text).mapError .invalid := by
  simp only [load, Except.bind, decodeText_toUTF8]

/-- Something can be said of every problem but one. -/
theorem Config.Problem.eq_malformed_or_detail (problem : Problem) :
    problem = .malformed ∨ ∃ detail, problem.detail? = some detail := by
  cases problem with
  | malformed => exact Or.inl rfl
  | invalidType | invalidValue | duplicateField => exact Or.inr ⟨_, rfl⟩

theorem limits_or_configFailure (read : String → Except ReadFailure ByteArray)
    (config : Option String) :
    (∃ n, Limits read config n) ∨ ∃ message, ConfigFailure read config message := by
  cases config with
  | none => exact Or.inl ⟨_, .default⟩
  | some path =>
    rcases hr : read path with f | bytes
    · exact Or.inr ⟨_, .unreadable hr⟩
    · by_cases ht : ∃ text : String, bytes = text.toUTF8
      · obtain ⟨text, rfl⟩ := ht
        rcases hc : Config.parse text with problem | c
        · rcases problem.eq_malformed_or_detail with rfl | ⟨detail, hd⟩
          · exact Or.inr ⟨_, .malformed hr hc⟩
          · exact Or.inr ⟨_, .invalid hr hc hd⟩
        · exact Or.inl ⟨_, .file hr hc⟩
      · exact Or.inr ⟨_, .notText hr (not_exists.1 ht)⟩

theorem loadConfig_of_limits (h : Limits read o.config n) :
    ∃ c, o.loadConfig read = .ok c ∧ c.maxSteps = n := by
  rw [RunOptions.loadConfig]
  generalize o.config = config at h
  cases h with
  | default => exact ⟨{}, rfl, rfl⟩
  | @file path text c hr hc =>
    refine ⟨c, ?_, rfl⟩
    simp only [hr, Config.load_text, hc, Except.mapError]

theorem loadConfig_of_configFailure (h : ConfigFailure read o.config message) :
    ∃ e, o.loadConfig read = .error e ∧ e.message = message := by
  rw [RunOptions.loadConfig]
  generalize o.config = config at h
  cases h with
  | @unreadable path f hr =>
    refine ⟨.unreadable path f, ?_, Config.LoadError.message_unreadable path f⟩
    simp only [Config.load, hr, Except.bind]
  | @notText path bytes hr ht =>
    refine ⟨.unreadable path .notText, ?_, ?_⟩
    · simp only [Config.load, hr, decodeText_of_ne ht, Except.bind]
    · simp [Config.LoadError.message_unreadable, ReadFailure.message, String.append_assoc]
  | @malformed path text hr hc =>
    refine ⟨.invalid .malformed, ?_, rfl⟩
    simp only [hr, Config.load_text, hc, Except.mapError]
  | @invalid path text detail problem hr hc hd =>
    refine ⟨.invalid problem, ?_, Config.LoadError.message_invalid hd⟩
    simp only [hr, Config.load_text, hc, Except.mapError]

theorem program_or_programFailure (read : String → Except ReadFailure ByteArray) (file : String) :
    (∃ p : Program, read file = .ok ⟨p⟩ ∧ p ≠ #[]) ∨
      ∃ message, ProgramFailure read file message := by
  rcases hr : read file with f | bytes
  · exact Or.inr ⟨_, .unreadable hr⟩
  · obtain ⟨p⟩ := bytes
    by_cases hp : p = #[]
    · subst hp
      exact Or.inr ⟨_, .empty hr⟩
    · exact Or.inl ⟨p, rfl, hp⟩

theorem load_of_program {file : String} (hr : read file = .ok ⟨p⟩) (hp : p ≠ #[]) :
    Program.load file (read file) = .ok p := by
  simp [Program.load, hr, ByteArray.isEmpty, ByteArray.size, hp]

theorem load_of_programFailure {file : String} (h : ProgramFailure read file message) :
    ∃ e, Program.load file (read file) = .error e ∧ e.message = message := by
  cases h with
  | @unreadable f hr => exact ⟨.unreadable file f, by simp [Program.load, hr], rfl⟩
  | empty hr =>
    refine ⟨.empty file, ?_, rfl⟩
    simp [Program.load, hr, ByteArray.isEmpty, ByteArray.size]

/-- Either there is a run, or something is blamed. -/
theorem starts_or_blamed (read : String → Except ReadFailure ByteArray) (o : RunOptions) :
    (∃ p budget, Starts read o p budget) ∨ ∃ message, Blamed read o message := by
  rcases limits_or_configFailure read o.config with ⟨n, hn⟩ | ⟨message, hc⟩
  · rcases program_or_programFailure read o.file with ⟨p, hr, hp⟩ | ⟨message, hf⟩
    · exact Or.inl ⟨p, _, ⟨n, hn, rfl⟩, hr, hp⟩
    · exact Or.inr ⟨message, .program hn hf⟩
  · exact Or.inr ⟨message, .config hc⟩

open Machine Json

/-- However a run is reported, its exit code is that of the run no one is told of. -/
theorem exitCode_report (p : Program) (c : Config) (json : Bool) :
    (if json then runAsDocument p c else runAsText p c).exitCode =
      exitCodeOf ((fresh p ()).run .silent c.maxSteps).1 := by
  have hsilent : ((fresh p ()).run .silent c.maxSteps).1 = (recorded p c.maxSteps).1 := by
    rw [run_eq_recorded]
    rfl
  rw [hsilent]
  cases json <;> simp only [runAsDocument, runAsText, launch_eq_recorded] <;> rfl

theorem exitCode_of_starts (h : Starts read o p budget) (verbosity : Nat) :
    ((Request.run verbosity o).answer read).exitCode =
      exitCodeOf ((fresh p ()).run .silent budget).1 := by
  obtain ⟨⟨n, hn, rfl⟩, hr, hp⟩ := h
  obtain ⟨c, hc, rfl⟩ := loadConfig_of_limits hn
  simp only [Request.answer, hc, load_of_program hr hp]
  exact exitCode_report p (o.effective c) o.json

theorem answer_of_blamed (h : Blamed read o message) (verbosity : Nat) :
    (Request.run verbosity o).answer read = .failure message := by
  cases h with
  | config h =>
    obtain ⟨e, he, rfl⟩ := loadConfig_of_configFailure h
    simp only [Request.answer, he]
  | program hc h =>
    obtain ⟨c, hload, -⟩ := loadConfig_of_limits hc
    obtain ⟨e, he, rfl⟩ := load_of_programFailure h
    simp only [Request.answer, hload, he]

theorem exitCodeOf_eq_zero {r : Except Fault Summary} :
    exitCodeOf r = 0 ↔ ∃ s, r = .ok s := by
  cases r <;> simp [exitCodeOf]

theorem exitCode_eq_zero {verbosity : Nat} :
    ((Request.run verbosity o).answer read).exitCode = 0 ↔
      ∃ p budget s, Starts read o p budget ∧ ((fresh p ()).run .silent budget).1 = .ok s := by
  constructor
  · intro h
    rcases starts_or_blamed read o with ⟨p, budget, hs⟩ | ⟨message, hb⟩
    · rw [exitCode_of_starts hs, exitCodeOf_eq_zero] at h
      obtain ⟨s, hrun⟩ := h
      exact ⟨p, budget, s, hs, hrun⟩
    · rw [answer_of_blamed hb] at h
      exact absurd h (by simp [Response.failure])
  · rintro ⟨p, budget, s, hs, hrun⟩
    rw [exitCode_of_starts hs, exitCodeOf_eq_zero]
    exact ⟨s, hrun⟩

theorem exitCode_eq_zero_or_one (read : String → Except ReadFailure ByteArray) (verbosity : Nat)
    (o : RunOptions) :
    ((Request.run verbosity o).answer read).exitCode = 0 ∨
      ((Request.run verbosity o).answer read).exitCode = 1 := by
  rcases starts_or_blamed read o with ⟨p, budget, hs⟩ | ⟨message, hb⟩
  · rw [exitCode_of_starts hs]
    rcases ((fresh p ()).run .silent budget).1 with f | s
    · exact Or.inr rfl
    · exact Or.inl rfl
  · exact Or.inr (by rw [answer_of_blamed hb]; rfl)

theorem SameLimit.symm (h : SameLimit read read' config config') :
    SameLimit read' read config' config := by
  cases h with
  | default => exact .default
  | content h => exact .content h.symm
  | settings hr hc hr' hc' h => exact .settings hr' hc' hr hc h.symm

theorem limits_of_sameLimit (h : SameLimit read read' config config') (hn : Limits read config n) :
    Limits read' config' n := by
  cases hn with
  | default =>
    cases h
    exact .default
  | @file path text c hr hc =>
    cases h with
    | content h => exact .file (h.trans hr) hc
    | @settings path path' text₁ text' c₁ c' hr₁ hc₁ hr' hc' hmax =>
      have htext : text₁ = text := by
        rw [hr₁] at hr
        exact String.toByteArray_inj.1 (Except.ok.inj hr)
      have hsame : c₁ = c := by
        rw [htext, hc] at hc₁
        exact (Except.ok.inj hc₁).symm
      rw [← hsame, ← hmax]
      exact .file hr' hc'

theorem starts_of_sameLimit (hn : o'.maxSteps = o.maxSteps) (hf : read' o'.file = read o.file)
    (hc : SameLimit read read' o.config o'.config) (h : Starts read o p budget) :
    Starts read' o' p budget := by
  obtain ⟨⟨n, hlimit, rfl⟩, hr, hp⟩ := h
  exact ⟨⟨n, limits_of_sameLimit hc hlimit, by rw [hn]⟩, hf.trans hr, hp⟩

/-- A run that ends well does so however it is presented. -/
theorem exitCode_zero_of_sameLimit {verbosity : Nat} (hn : o'.maxSteps = o.maxSteps)
    (hf : read' o'.file = read o.file) (hc : SameLimit read read' o.config o'.config)
    (h : ((Request.run verbosity o).answer read).exitCode = 0) (verbosity' : Nat) :
    ((Request.run verbosity' o').answer read').exitCode = 0 := by
  obtain ⟨p, budget, s, hs, hrun⟩ := exitCode_eq_zero.1 h
  exact exitCode_eq_zero.2 ⟨p, budget, s, starts_of_sameLimit hn hf hc hs, hrun⟩

/-- A configuration is read from the plain list of its settings. -/
theorem Config.parse_of_listed {c : Config} {text : String} (hn : c.maxSteps < UInt64.size)
    (ht : text.toList = '[' :: ('[' :: ((Text.decimal c.maxSteps).toList ++
      ',' :: (booleanText c.traceInstructions ++ ',' :: booleanText c.printStats) ++ [']']) ++
      [']'])) : parse text = .ok c := by
  have hsettings : SettingsText c _ :=
    .list 3 (.parts (.cons (padded_self _) (.cons (padded_self _) (.last (padded_self _)))))
      ⟨fun h => absurd (by decide) h, fun h => absurd (by decide) h,
        fun h => absurd (by decide) h⟩
  have hconfig : ConfigText c text.toList := by
    rw [ht]
    exact .list hsettings (.parts (.last (padded_self _)))
  obtain ⟨r, hread, hcomplete⟩ := reads_root hn hconfig (padded_self _)
  rw [parse_of_reads hread, hcomplete]

/-- The exit code is zero if and only if the files make a run and that run meets no fault, and one
otherwise. Invocations that differ in nothing but presentation end with the same code, and the
output does not depend on the verbosity. If the files make no run, nothing is written but one error;
it is the one of the configuration if there is one. -/
theorem exit_code_of_files_and_budget (read : String → Except ReadFailure ByteArray)
    (verbosity : Nat) (o : RunOptions) (hostSeconds : String) :
    let r := (Request.run verbosity o).answer read
    (r.exitCode = 0 ↔
        ∃ p budget s, Starts read o p budget ∧ ((fresh p ()).run .silent budget).1 = .ok s) ∧
      (r.exitCode = 0 ∨ r.exitCode = 1) ∧
      (∀ read' verbosity' o', o'.maxSteps = o.maxSteps → read' o'.file = read o.file →
        SameLimit read read' o.config o'.config →
        ((Request.run verbosity' o').answer read').exitCode = r.exitCode) ∧
      (∀ verbosity', ((Request.run verbosity' o).answer read).output hostSeconds =
        r.output hostSeconds) ∧
      ((∃ p budget, Starts read o p budget) ∨ ∃ message, Blamed read o message) ∧
      ∀ message, Blamed read o message →
        r.exitCode = 1 ∧ r.output hostSeconds = "" ∧ r.logLines verbosity = [] ∧
          r.plainErrors verbosity = "Error: " ++ message ++ "\n" := by
  intro r
  refine ⟨exitCode_eq_zero, exitCode_eq_zero_or_one read verbosity o, ?_, fun _ => rfl,
    starts_or_blamed read o, ?_⟩
  · intro read' verbosity' o' hn hf hc
    rcases exitCode_eq_zero_or_one read verbosity o with h | h
    · exact (exitCode_zero_of_sameLimit hn hf hc h verbosity').trans h.symm
    · rcases exitCode_eq_zero_or_one read' verbosity' o' with h' | h'
      · have hzero := exitCode_zero_of_sameLimit hn.symm hf.symm hc.symm h' verbosity
        exact h'.trans hzero.symm
      · exact h'.trans h.symm
  · intro message hb
    have hr : r = .failure message := answer_of_blamed hb verbosity
    rw [hr]
    refine ⟨rfl, ?_, rfl, ?_⟩
    · simp [Response.failure, Response.output]
    · simp [Response.failure, Response.plainErrors, Log.shown, Text.lines]

/-- Two steps of which the second meets a fault, under two configurations that stop before it. A
third is missing, and so is the program it is for. -/
theorem exit_code_of_files_and_budget_stopped :
    let read : String → Except ReadFailure ByteArray := fun path =>
      if path = "image" then .ok ⟨#[0x33, 0x02]⟩
      else if path = "plain" then .ok "[[1,true,false]]".toUTF8
      else if path = "quiet" then .ok "[[1,false,true]]".toUTF8
      else .error .notFound
    let code (verbosity : Nat) (o : RunOptions) := ((Request.run verbosity o).answer read).exitCode
    let failed := (Request.run 0 ⟨"other", none, some "absent", false, false, false⟩).answer read
    code 0 ⟨"image", none, some "plain", false, false, false⟩ = 0 ∧
      code 3 ⟨"image", none, some "quiet", true, true, true⟩ = 0 ∧
      failed.exitCode = 1 ∧ failed.output "" = "" ∧ failed.plainErrors 0 =
        "Error: could not read config 'absent': No such file or directory (os error 2)\n" := by
  intro read code failed
  have hplain : Config.parse "[[1,true,false]]" = .ok { maxSteps := 1 } :=
    Config.parse_of_listed (by decide) (by decide +kernel)
  have hquiet : Config.parse "[[1,false,true]]" =
      .ok { maxSteps := 1, traceInstructions := false, printStats := true } :=
    Config.parse_of_listed (by decide) (by decide +kernel)
  have hstarts : Starts read ⟨"image", none, some "plain", false, false, false⟩ #[0x33, 0x02] 1 :=
    ⟨⟨1, .file rfl hplain, rfl⟩, rfl, by simp⟩
  obtain ⟨hzero, -, hsame, -⟩ := exit_code_of_files_and_budget read 0
    ⟨"image", none, some "plain", false, false, false⟩ ""
  have hcode := hzero.2 ⟨_, 1, _, hstarts, rfl⟩
  refine ⟨hcode, ?_, ?_⟩
  · exact (hsame read 3 ⟨"image", none, some "quiet", true, true, true⟩ rfl rfl
      (.settings rfl hplain rfl hquiet rfl)).trans hcode
  · obtain ⟨-, -, -, -, -, hblamed⟩ := exit_code_of_files_and_budget read 0
      ⟨"other", none, some "absent", false, false, false⟩ ""
    obtain ⟨hcode, hout, -, herr⟩ := hblamed _ (.config (.unreadable rfl))
    exact ⟨hcode, hout, herr⟩

end TwoStack
