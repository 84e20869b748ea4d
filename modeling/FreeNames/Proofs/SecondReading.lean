import FreeNames.Analysis

/-!
# Second readings

A text is read strictly and, if it is refused and the caller asks for it, once more tolerantly. What a caller
gets follows from the two readings alone (`Reader.parse_of_ok`, `Reader.parse_of_refused`,
`Reader.parse_of_isBreak`), whatever they do: a text that is read strictly is never read again, a second
reading gives its own tree and faults next to the message of the first, the readings depend on two of the
settings only, and analysing a text is analysing the tree that it is read as.

One thing does not hold. A failure that is no refusal breaks a reading off, and nothing catches it. So a
caller who asks for a second reading may be told of it in place of the first refusal
(`Reader.failsAsStrict_iff`).
-/

namespace FreeNames

/-- Whether a reading broke off, where it should have refused the text. -/
def Grammar.Failure.isBreak : Grammar.Failure → Bool
  | refused _ => false
  | strayTemplate => true
  | outOfSteps => true

/-- The findings with what is known of how the text was read. -/
def Findings.readAs (o : Outcome) (f : Findings) : Findings :=
  { f with parsingError := o.parsingError, diagnostics := o.diagnostics }

namespace Request

/-- Readings depend on the ranges and the sort of program that are asked for, and on no other setting. -/
theorem effective_congr {r s : Request}
    (hranges : (r.options.getD .default).ranges = (s.options.getD .default).ranges)
    (hsort : (r.options.getD .default).sort = (s.options.getD .default).sort) :
    r.effective = s.effective := by
  simp [effective, Options.forAnalysis, hranges, hsort]

end Request

namespace Reader

variable (read : Reader) (r : Request) (text : String)

/-- The strict reading that a caller gets. -/
def strict : Except Grammar.Failure Grammar.Parsed := read r.effective false text

/-- The tolerant reading that a caller may get. -/
def tolerant : Except Grammar.Failure Grammar.Parsed := read r.effective true text

variable {read r text}

/-! ### What a caller gets -/

theorem parse_of_ok {p : Grammar.Parsed} (hs : read.strict r text = .ok p) :
    read.parse r text = (.ok ⟨p.tree, r.name, none, p.passed⟩, []) := by
  unfold strict at hs
  simp [parse, hs]

theorem parse_of_isBreak {f : Grammar.Failure} (hs : read.strict r text = .error f)
    (hf : f.isBreak = true) : read.parse r text = (.error f, []) := by
  unfold strict at hs
  cases f <;> simp_all [parse, Grammar.Failure.isBreak]

theorem parse_of_refused {e : Grammar.SyntaxError} (hs : read.strict r text = .error (.refused e)) :
    read.parse r text = if r.loose then read.retry r text e else (.error (.refused e), []) := by
  unfold strict at hs
  simp [parse, hs]

theorem retry_of_ok {p : Grammar.Parsed} (ht : read.tolerant r text = .ok p) (e : Grammar.SyntaxError) :
    read.retry r text e =
      (.ok ⟨p.tree, r.name, some e.message, p.passed⟩, [r.strictRecord e]) := by
  unfold tolerant at ht
  simp [retry, ht]

theorem retry_of_refused {e' : Grammar.SyntaxError} (ht : read.tolerant r text = .error (.refused e'))
    (e : Grammar.SyntaxError) :
    read.retry r text e = (.error (.refused e), [r.strictRecord e, r.tolerantRecord e']) := by
  unfold tolerant at ht
  simp [retry, ht]

theorem retry_of_isBreak {f : Grammar.Failure} (ht : read.tolerant r text = .error f)
    (hf : f.isBreak = true) (e : Grammar.SyntaxError) :
    read.retry r text e = (.error f, [r.strictRecord e]) := by
  unfold tolerant at ht
  cases f <;> simp_all [retry, Grammar.Failure.isBreak]

/-- A caller's readings depend on the settings only through those of the readings. -/
theorem parse_congr {options : Option Options}
    (h : { r with options := options }.effective = r.effective) :
    read.parse { r with options := options } text = read.parse r text := by
  unfold parse retry
  rw [h]
  rfl

/-! ### Whose failure a caller is told of -/

variable (read r text)

/-- A caller is told of the strict reading's failure, and exactly if no second reading is asked for or it
fails as well. -/
def FailsAsStrict : Prop :=
  ∀ f, (read.parse r text).1 = .error f ↔
    read.strict r text = .error f ∧ (r.loose = false ∨ ∃ g, read.tolerant r text = .error g)

/-- A second reading is asked for, and one of the two breaks off where the other one does not. -/
def BreaksOff : Prop :=
  r.loose = true ∧
    ((∃ e g, read.strict r text = .error (.refused e) ∧ read.tolerant r text = .error g ∧
        g.isBreak = true) ∨
      ∃ f p, read.strict r text = .error f ∧ f.isBreak = true ∧ read.tolerant r text = .ok p)

variable {read r text}

/-- A failure is a refusal or it breaks the reading off. -/
theorem isRefused_or_isBreak (f : Grammar.Failure) : (∃ e, f = .refused e) ∨ f.isBreak = true := by
  cases f <;> simp [Grammar.Failure.isBreak]

/-- A caller is told of the strict reading's failure where no second reading is made or the second one
refuses the text as well, and of the second one's failure where that breaks off. -/
theorem parse_eq_error_iff {f : Grammar.Failure} :
    (read.parse r text).1 = .error f ↔
      (read.strict r text = .error f ∧
        (r.loose = false ∨ f.isBreak = true ∨ ∃ e, read.tolerant r text = .error (.refused e))) ∨
      (r.loose = true ∧ (∃ e, read.strict r text = .error (.refused e)) ∧
        read.tolerant r text = .error f ∧ f.isBreak = true) := by
  cases hs : read.strict r text with
  | ok p => simp [parse_of_ok hs]
  | error f' =>
    obtain ⟨e, rfl⟩ | hf' := isRefused_or_isBreak f'
    · by_cases hl : r.loose = false
      · simp [parse_of_refused hs, hl]
      · have hloose : r.loose = true := by simpa using hl
        rw [parse_of_refused hs, if_pos hloose]
        cases ht : read.tolerant r text with
        | ok p =>
          rw [retry_of_ok ht]
          simp only [reduceCtorEq, Except.error.injEq, hloose, Bool.true_eq_false, exists_false, false_and,
            and_false, or_false, false_or, false_iff, not_and, Bool.not_eq_true]
          rintro rfl
          rfl
        | error g =>
          obtain ⟨e', rfl⟩ | hg := isRefused_or_isBreak g
          · simp only [retry_of_refused ht, Except.error.injEq]
            constructor
            · intro h
              exact .inl ⟨h, .inr (.inr ⟨e', rfl⟩)⟩
            · rintro (⟨h, -⟩ | ⟨-, -, h, hf⟩)
              · exact h
              · rw [← h] at hf
                exact absurd hf Bool.false_ne_true
          · simp only [retry_of_isBreak ht hg, Except.error.injEq]
            constructor
            · rintro rfl
              exact .inr ⟨hloose, ⟨e, rfl⟩, rfl, hg⟩
            · rintro (⟨h, hl' | hf | ⟨e', rfl⟩⟩ | ⟨-, -, h, -⟩)
              · exact absurd hl' hl
              · rw [← h] at hf
                exact absurd hf Bool.false_ne_true
              · exact absurd hg Bool.false_ne_true
              · exact h
    · simp only [parse_of_isBreak hs hf', Except.error.injEq]
      constructor
      · rintro rfl
        exact .inl ⟨rfl, .inr (.inl hf')⟩
      · rintro (⟨h, -⟩ | ⟨-, ⟨e, rfl⟩, -⟩)
        · exact h
        · exact absurd hf' Bool.false_ne_true

/-- A caller is told of the strict reading's failure unless a reading breaks off by itself. -/
theorem failsAsStrict_iff : read.FailsAsStrict r text ↔ ¬ read.BreaksOff r text := by
  constructor
  · rintro h ⟨hl, ⟨e, g, hs, ht, hg⟩ | ⟨f, p, hs, hf, ht⟩⟩
    · have hstrict := ((h g).mp (parse_eq_error_iff.mpr (.inr ⟨hl, ⟨e, hs⟩, ht, hg⟩))).1
      obtain rfl : Grammar.Failure.refused e = g := by simpa [hs] using hstrict
      exact absurd hg Bool.false_ne_true
    · have htolerant := ((h f).mp (parse_eq_error_iff.mpr (.inl ⟨hs, .inr (.inl hf)⟩))).2
      simp [hl, ht] at htolerant
  · intro hnot f
    rw [parse_eq_error_iff]
    by_cases hl : r.loose = false
    · simp [hl]
    have hloose : r.loose = true := by simpa using hl
    constructor
    · rintro (⟨hs, hcause⟩ | ⟨-, ⟨e, hs⟩, ht, hf⟩)
      · refine ⟨hs, .inr ?_⟩
        obtain hl' | hf | ⟨e, ht⟩ := hcause
        · exact absurd hl' hl
        · cases ht : read.tolerant r text with
          | ok p => exact absurd ⟨hloose, .inr ⟨f, p, hs, hf, ht⟩⟩ hnot
          | error g => exact ⟨g, rfl⟩
        · exact ⟨_, ht⟩
      · exact absurd ⟨hloose, .inl ⟨e, f, hs, ht, hf⟩⟩ hnot
    · rintro ⟨hs, hl' | ⟨g, ht⟩⟩
      · exact absurd hl' hl
      · refine .inl ⟨hs, .inr ?_⟩
        obtain ⟨e, rfl⟩ | hf := isRefused_or_isBreak f
        · obtain ⟨e', rfl⟩ | hg := isRefused_or_isBreak g
          · exact .inr ⟨e', ht⟩
          · exact absurd ⟨hloose, .inl ⟨e, g, hs, ht, hg⟩⟩ hnot
        · exact .inl hf

/-- What comes of a second reading has its tree and its faults, and the message of the first reading. -/
theorem outcome_of_strict_error {f : Grammar.Failure} {o : Outcome} (hs : read.strict r text = .error f)
    (ho : (read.parse r text).1 = .ok o) :
    ∃ e p, f = .refused e ∧ read.tolerant r text = .ok p ∧
      o = ⟨p.tree, r.name, some e.message, p.passed⟩ := by
  obtain ⟨e, rfl⟩ | hf := isRefused_or_isBreak f
  · by_cases hl : r.loose = true
    · rw [parse_of_refused hs, if_pos hl] at ho
      cases ht : read.tolerant r text with
      | ok p =>
        rw [retry_of_ok ht] at ho
        exact ⟨e, p, rfl, rfl, by simpa using ho.symm⟩
      | error g =>
        obtain ⟨e', rfl⟩ | hg := isRefused_or_isBreak g
        · simp [retry_of_refused ht] at ho
        · simp [retry_of_isBreak ht hg] at ho
    · simp [parse_of_refused hs, hl] at ho
  · simp [parse_of_isBreak hs hf] at ho

end Reader

/-! ### Analysing a text -/

/-- What a tree is called shows in the log only. -/
theorem Tree.findings_analyze_congr (t : Tree) (name name' : Text) (e : Option Text)
    (passed : List Grammar.SyntaxError) :
    (t.analyze name).findings e passed = (t.analyze name').findings e passed := by
  unfold Tree.analyze
  split
  · rfl
  · simp only
    split
    · rfl
    · split <;> rfl

theorem Analyzed.findings_readAs (a : Analyzed) (o : Outcome) :
    a.findings o.parsingError o.diagnostics = (a.findings none []).map (Findings.readAs o) := by
  unfold findings
  cases a.result <;> rfl

namespace Source

variable {read : Reader} {r : Request} {text : String}

theorem analyze_text_of_error {f : Grammar.Failure} (h : (read.parse r text).1 = .error f) :
    ((Source.text text).analyze read r).1 = .error (.unreadable f) := by
  rcases hp : read.parse r text with ⟨result, log⟩
  simp_all [analyze]

/-- A text is analysed as the tree that it is read as, whatever is asked for with the tree. -/
theorem analyze_text_of_ok {o : Outcome} (h : (read.parse r text).1 = .ok o) (s : Request) :
    ((Source.text text).analyze read r).1 =
      ((Source.tree (Tree.ofValue o.tree)).analyze read s).1.map (Findings.readAs o) := by
  rcases hp : read.parse r text with ⟨result, log⟩
  have hresult : result = .ok o := by simpa [hp] using h
  simp only [analyze, hp, hresult]
  rw [← Analyzed.findings_readAs, Tree.findings_analyze_congr]

/-- An analysis depends on the settings only through those of the readings. -/
theorem analyze_congr {options : Option Options}
    (h : { r with options := options }.effective = r.effective) (s : Source) :
    s.analyze read { r with options := options } = s.analyze read r := by
  cases s with
  | text t => simp only [analyze, Reader.parse_congr h]
  | tree t => rfl

end Source

/-! ### A refused text -/

/-- The failure of a reading. -/
def Reader.failure? {α : Type} : Except Grammar.Failure α → Option Grammar.Failure
  | .ok _ => none
  | .error f => some f

theorem Reader.eq_error_of_failure? {α : Type} {x : Except Grammar.Failure α} {f : Grammar.Failure}
    (h : failure? x = some f) : x = .error f := by
  cases x <;> simp_all [failure?]

/-- A caller who asks for a second reading of a bad text. -/
def secondChance : Request := ⟨none, true, "<input>"⟩

/-! ### What a caller may rely on -/

/-- What comes of reading a text, whatever the two readings do. The first part says exactly which failures
a caller is told of, the second when that is the strict reading's as it should be. -/
theorem second_reading (read : Reader) (r : Request) (text : String) :
    (∀ f, (read.parse r text).1 = .error f ↔
      (read.strict r text = .error f ∧
        (r.loose = false ∨ f.isBreak = true ∨ ∃ e, read.tolerant r text = .error (.refused e))) ∨
      (r.loose = true ∧ (∃ e, read.strict r text = .error (.refused e)) ∧
        read.tolerant r text = .error f ∧ f.isBreak = true)) ∧
    (read.FailsAsStrict r text ↔ ¬ read.BreaksOff r text) ∧
    (∀ p, read.strict r text = .ok p → ∀ loose,
      (read.parse { r with loose := loose } text).1 = .ok ⟨p.tree, r.name, none, p.passed⟩) ∧
    (∀ f o, read.strict r text = .error f → (read.parse r text).1 = .ok o →
      ∃ e p, f = .refused e ∧ read.tolerant r text = .ok p ∧
        o = ⟨p.tree, r.name, some e.message, p.passed⟩) ∧
    (∀ options : Option Options,
      (options.getD .default).ranges = (r.options.getD .default).ranges →
      (options.getD .default).sort = (r.options.getD .default).sort →
        read.parse { r with options := options } text = read.parse r text ∧
        ∀ s : Source, s.analyze read { r with options := options } = s.analyze read r) ∧
    (∀ f, (read.parse r text).1 = .error f →
      ((Source.text text).analyze read r).1 = .error (.unreadable f)) ∧
    ∀ o, (read.parse r text).1 = .ok o → ∀ s : Request,
      ((Source.text text).analyze read r).1 =
        ((Source.tree (Tree.ofValue o.tree)).analyze read s).1.map (Findings.readAs o) := by
  refine ⟨fun f => Reader.parse_eq_error_iff, Reader.failsAsStrict_iff, ?_, ?_, ?_, ?_, ?_⟩
  · intro p hs loose
    have hs' : read.strict { r with loose := loose } text = .ok p := hs
    rw [Reader.parse_of_ok hs']
  · intro f o
    exact Reader.outcome_of_strict_error
  · intro options hranges hsort
    have heffective : { r with options := options }.effective = r.effective :=
      Request.effective_congr hranges hsort
    exact ⟨Reader.parse_congr heffective, Source.analyze_congr heffective⟩
  · intro f
    exact Source.analyze_text_of_error
  · intro o ho s
    exact Source.analyze_text_of_ok ho s

/-- Without the template the second reading succeeds, and its outcome has the first one's message. -/
theorem second_reading_secondChance :
    ∃ o, (Reader.parse Grammar.read secondChance "1 = 2").1 = .ok o ∧
      o.parsingError = some (Text.ofString "Line 1: Invalid left-hand side in assignment") := by
  have hs : Reader.strict Grammar.read secondChance "1 = 2" =
      .error (.refused ⟨1, 2, .badAssignmentTarget⟩) :=
    Reader.eq_error_of_failure? (by decide +kernel)
  obtain ⟨-, -, -, houtcome, -⟩ := second_reading Grammar.read secondChance "1 = 2"
  have hok : Reader.failure? (Reader.parse Grammar.read secondChance "1 = 2").1 = none := by decide +kernel
  cases ho : (Reader.parse Grammar.read secondChance "1 = 2").1 with
  | error f => simp [ho, Reader.failure?] at hok
  | ok o =>
    obtain ⟨e, p, he, -, rfl⟩ := houtcome _ o hs ho
    obtain rfl := Grammar.Failure.refused.inj he
    have hmessage : Grammar.SyntaxError.message ⟨1, 2, .badAssignmentTarget⟩ =
        Text.ofString "Line 1: Invalid left-hand side in assignment" := by decide +kernel
    exact ⟨_, rfl, by rw [hmessage]⟩

/-- The text is refused for its first statement. The second reading passes over that and breaks off at the
empty hole of the template, and this is what the caller is told of. -/
theorem secondChance_not_failsAsStrict :
    ¬ Reader.FailsAsStrict Grammar.read secondChance "1 = 2; `${}`" := by
  have hs : Reader.strict Grammar.read secondChance "1 = 2; `${}`" =
      .error (.refused ⟨1, 2, .badAssignmentTarget⟩) :=
    Reader.eq_error_of_failure? (by decide +kernel)
  have ht : Reader.tolerant Grammar.read secondChance "1 = 2; `${}`" = .error .strayTemplate :=
    Reader.eq_error_of_failure? (by decide +kernel)
  intro h
  exact Reader.failsAsStrict_iff.mp h ⟨rfl, .inl ⟨_, _, hs, ht, rfl⟩⟩

end FreeNames
