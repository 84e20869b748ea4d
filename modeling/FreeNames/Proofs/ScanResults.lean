import FreeNames.CommandLine.Scan
import FreeNames.Proofs.FreeReferences
import FreeNames.Proofs.Grouping
import FreeNames.Proofs.SecondReading

/-!
# What comes of a scan

A scan of a path meets one of three things: nothing that it can read, a text that is refused, or a text that
it reports on (`IsOrdinary`). Each fixes what is written and how the scan ends. Names that must not be free
are looked for after the report is written, so they decide on the exit code and on one line of errors and
have no part in the report. That line is told from the others by how it begins: the log of an analysis has
no warnings but those of a second reading (`Source.warnings_analyze`).

A line is what is written at once; a path or a message in it may have line ends of its own.
-/

namespace FreeNames

/-! ### What is logged -/

/-- A step of a builder adds nothing but details to its log. -/
theorem Building.level_of_mem_perform {b c : Building} {act : Act} (h : b.perform act = .ok c)
    {r : Log.Record} (hr : r ∈ c.log) : r ∈ b.log ∨ r.level = .debug := by
  cases act with
  | note text =>
    obtain rfl := Except.ok.inj h
    obtain hr | rfl : r ∈ b.log ∨ r = ⟨.debug, .scopes, text⟩ := by simpa using hr
    · exact .inl hr
    · exact .inr rfl
  | create label =>
    simp only [perform, create] at h
    split at h
    · split at h
      · obtain rfl := Except.ok.inj h
        exact .inl hr
      · cases h
    · obtain rfl := Except.ok.inj h
      exact .inl hr
  | reach label =>
    cases hset : b.reach label with
    | error fault => simp [perform, hset, Bind.bind, Except.bind] at h
    | ok set =>
      obtain rfl : b = c := by simpa [perform, hset, Bind.bind, Except.bind, pure, Except.pure] using h
      exact .inl hr
  | bind label name =>
    cases hset : b.reach label with
    | error fault => simp [perform, bind, hset, Bind.bind, Except.bind] at h
    | ok set =>
      simp only [perform, bind, hset, Bind.bind, Except.bind, pure, Except.pure] at h
      obtain rfl := Except.ok.inj h
      exact .inl hr
  | fail fault => cases h

/-- A builder adds nothing but details to its log. -/
theorem Building.level_of_mem_run (acts : List Act) :
    ∀ {b : Building} {r : Log.Record}, r ∈ (b.run acts).1.log → r ∈ b.log ∨ r.level = .debug := by
  induction acts with
  | nil => exact fun h => .inl h
  | cons act rest ih =>
    intro b r h
    cases hp : b.perform act with
    | error fault => exact .inl (by simpa [run, hp] using h)
    | ok c =>
      obtain hr | hr := ih (by simpa [run, hp] using h)
      · exact Building.level_of_mem_perform hp hr
      · exact .inr hr

theorem level_of_mem_buildScopes {tables : Tables} {root : Value} {r : Log.Record}
    (h : r ∈ (buildScopes tables root).1.log) : r.level = .debug := by
  obtain h | h := Building.level_of_mem_run _ h
  · cases h
  · exact h

/-- The analysis of a tree warns of nothing. -/
theorem Tree.level_of_mem_log {t : Tree} {name : Text} {r : Log.Record} (h : r ∈ (t.analyze name).log) :
    r.level ≠ .warning := by
  have hbuilt : r ∈ (buildScopes t.tables t.root).1.log → r.level ≠ .warning := by
    intro hr
    simp [level_of_mem_buildScopes hr]
  unfold Tree.analyze at h
  split at h
  · cases h
  · simp only at h
    split at h
    · exact hbuilt h
    · split at h
      · exact hbuilt h
      · obtain h | h := List.mem_append.mp h
        · exact hbuilt h
        · obtain rfl := List.mem_singleton.mp h
          simp [Tree.countRecord]

/-- Reading a text logs what the refusals of its readings are. -/
theorem Reader.mem_parse_log {read : Reader} {r : Request} {text : String} {record : Log.Record}
    (h : record ∈ (read.parse r text).2) :
    ∃ e, record = r.strictRecord e ∨ record = r.tolerantRecord e := by
  cases hs : read.strict r text with
  | ok p => simp [Reader.parse_of_ok hs] at h
  | error f =>
    obtain ⟨e, rfl⟩ | hf := Reader.isRefused_or_isBreak f
    · rw [Reader.parse_of_refused hs] at h
      split at h
      · cases ht : read.tolerant r text with
        | ok p => exact ⟨e, .inl (by simpa [Reader.retry_of_ok ht] using h)⟩
        | error g =>
          obtain ⟨e', rfl⟩ | hg := Reader.isRefused_or_isBreak g
          · rw [Reader.retry_of_refused ht] at h
            obtain h | h : record = r.strictRecord e ∨ record = r.tolerantRecord e' := by simpa using h
            · exact ⟨e, .inl h⟩
            · exact ⟨e', .inr h⟩
          · exact ⟨e, .inl (by simpa [Reader.retry_of_isBreak ht hg] using h)⟩
      · cases h
    · simp [Reader.parse_of_isBreak hs hf] at h

/-- An analysis of a text warns only of readings that are refused. -/
theorem Source.warnings_analyze {read : Reader} {r : Request} {text : String} {record : Log.Record}
    (h : record ∈ ((Source.text text).analyze read r).2) (hw : record.level = .warning) :
    ∃ e, record = r.strictRecord e ∨ record = r.tolerantRecord e := by
  have hparse : record ∈ (read.parse r text).2 →
      ∃ e, record = r.strictRecord e ∨ record = r.tolerantRecord e := Reader.mem_parse_log
  rcases hp : read.parse r text with ⟨_ | o, log⟩
  · simp only [analyze, hp] at h
    exact hparse (by rwa [hp])
  · simp only [analyze, hp] at h
    obtain h | h := List.mem_append.mp h
    · exact hparse (by rwa [hp])
    · exact absurd hw (Tree.level_of_mem_log h)

/-! ### What is reported -/

/-- The names that a report is about. -/
def Report.names (r : Report) : List Name := r.entries.map Entry.name

/-- The entry of a group. -/
def Group.entry (g : Group) : Except Fault Entry := do return Entry.mk g.name (← g.positions)

theorem Group.name_of_entry {g : Group} {entry : Entry} (h : g.entry = .ok entry) :
    entry.name = g.name := by
  unfold Group.entry at h
  cases hg : g.positions with
  | error fault => simp [hg, bind, Except.bind] at h
  | ok sites =>
    obtain rfl : Entry.mk g.name sites = entry := by
      simpa [hg, bind, Except.bind, pure, Except.pure] using h
    rfl

theorem Group.names_of_entries {groups : List Group} :
    ∀ {entries : List Entry}, groups.mapM Group.entry = .ok entries →
      entries.map Entry.name = groups.map Group.name := by
  induction groups with
  | nil =>
    intro entries h
    cases h
    rfl
  | cons g rest ih =>
    intro entries h
    rw [List.mapM_cons] at h
    cases hg : g.entry with
    | error fault => simp [hg, bind, Except.bind] at h
    | ok first =>
      cases hrest : rest.mapM Group.entry with
      | error fault => simp [hg, hrest, bind, Except.bind] at h
      | ok others =>
        simp only [hg, hrest, bind, Except.bind, pure, Except.pure, Except.ok.injEq] at h
        rw [← h, List.map_cons, List.map_cons, Group.name_of_entry hg, ih hrest]

/-- A report is about the names that were found. -/
theorem Report.names_ofFindings {f : Findings} {source : Text} {r : Report}
    (h : Report.ofFindings f source = .ok r) : r.names = f.names := by
  have h : (f.groups.mapM Group.entry >>= fun entries =>
      pure (Report.mk source f.parsingError entries)) = .ok r := h
  cases hentries : f.groups.mapM Group.entry with
  | error fault => simp [hentries, bind, Except.bind] at h
  | ok entries =>
    obtain rfl : Report.mk source f.parsingError entries = r := by
      simpa [hentries, bind, Except.bind, pure, Except.pure] using h
    exact Group.names_of_entries hentries

theorem Analyzed.result_of_findings {a : Analyzed} {e : Option Text} {passed : List Grammar.SyntaxError}
    {f : Findings} (h : a.findings e passed = .ok f) : a.result = .ok f.groups := by
  unfold findings at h
  cases hr : a.result with
  | error fault => simp [hr] at h
  | ok found =>
    obtain rfl : Findings.mk a.tree found e passed = f := by simpa [hr] using h
    rfl

/-- The names that an analysis finds are in order, each once. -/
theorem Source.sorted_names {read : Reader} {r : Request} {text : String} {f : Findings}
    (h : ((Source.text text).analyze read r).1 = .ok f) : f.names.Pairwise fun x y => x.key < y.key := by
  rcases hp : read.parse r text with ⟨_ | o, log⟩
  · simp [analyze, hp] at h
  · simp only [analyze, hp] at h
    have hresult := Analyzed.result_of_findings h
    obtain ⟨-, -, refs, -, hgroups⟩ := Tree.analyze_result_eq_ok_iff.mp hresult
    exact List.pairwise_map.mpr (sorted_of_groups hgroups)

namespace CommandLine

/-! ### How lines begin -/

/-- How the line of unexpected names begins. -/
def unexpectedHeading : Text := "ERROR: unexpected globals: "

/-- Two beginnings that differ are not both beginnings of one text. -/
theorem not_begins_append {a b : Text} (hab : ¬ a.points <+: b.points) (hba : ¬ b.points <+: a.points)
    (rest : Text) : ¬ a.points <+: (b ++ rest).points := by
  intro h
  obtain h | h := List.prefix_or_prefix_of_prefix h (List.prefix_append b.points rest.points)
  · exact hab h
  · exact hba h

/-- No line of the log looks like the line of unexpected names. -/
theorem not_begins_of_mem_logLines {read : Reader} {r : Request} {text : String} {verbose : Bool}
    {line : Text} (h : line ∈ logLines verbose ((Source.text text).analyze read r).2) :
    ¬ unexpectedHeading.points <+: line.points := by
  unfold logLines at h
  split at h
  · obtain ⟨record, -, rfl⟩ := List.mem_map.mp h
    simp only [Log.Record.verbose, Text.append_assoc]
    cases record.level <;> exact not_begins_append (by decide +kernel) (by decide +kernel) _
  · obtain ⟨record, hr, rfl⟩ := List.mem_map.mp h
    obtain ⟨hr, hw⟩ := List.mem_filter.mp hr
    obtain ⟨e, rfl | rfl⟩ := Source.warnings_analyze hr (by simpa using hw)
    · simp only [Request.strictRecord, Text.append_assoc]
      exact not_begins_append (by decide +kernel) (by decide +kernel) _
    · simp only [Request.tolerantRecord, Text.append_assoc]
      exact not_begins_append (by decide +kernel) (by decide +kernel) _

/-! ### What a scan meets -/

/-- There is nothing at the path that can be read. -/
def Input.IsUnread (input : Input) : Prop := input = .missing ∨ ∃ reason, input = .unreadable reason

/-- The text at the path. -/
def Input.text? : Input → Option String
  | file bytes => textOf bytes
  | _ => none

section

variable (read : Reader) (args : ScanArguments) (path : String) (input : Input)

/-- The text at the path is refused. -/
def IsRefused : Prop :=
  ∃ text e, input.text? = some text ∧
    ((Source.text text).analyze read (scanRequest args path)).1 = .error (.unreadable (.refused e))

/-- There is no text at the path, or none that can be reported on. -/
def HasNoReport : Prop := input.IsUnread ∨ IsRefused read args path input

/-- The text at the path is analysed, and this is the report of it. -/
def IsReported (report : Report) : Prop :=
  ∃ text findings, input.text? = some text ∧
    ((Source.text text).analyze read (scanRequest args path)).1 = .ok findings ∧
    Report.ofFindings findings path = .ok report

/-- There is nothing to read, or a text that is refused or reported on: nothing else goes wrong. -/
def IsOrdinary : Prop :=
  HasNoReport read args path input ∨ ∃ report, IsReported read args path input report

/-- A name is not among the allowed ones. -/
def IsUnexpected (name : Name) : Prop := ∀ allowed ∈ args.allow, name ≠ .text allowed

instance (name : Name) : Decidable (IsUnexpected args name) :=
  inferInstanceAs (Decidable (∀ allowed ∈ args.allow, name ≠ .text allowed))

/-- Free names are looked for, and one is reported that is not allowed. -/
def HasUnexpected : Prop :=
  args.failOnGlobals = true ∧
    ∃ report, IsReported read args path input report ∧ ∃ name ∈ report.names, IsUnexpected args name

/-- What a scan writes of errors, but for unexpected names: the log, and why there is no report. -/
def otherLines (verbose : Bool) : Input → List Text
  | .missing => ["ERROR: Input file not found: " ++ path]
  | .unreadable reason => ["ERROR: Failed to read " ++ path ++ ": " ++ reason]
  | .refused _ => []
  | .file bytes =>
    match textOf bytes with
    | none => []
    | some text =>
      let (result, log) := (Source.text text).analyze read (scanRequest args path)
      logLines verbose log ++
        match result with
        | .error (.unreadable (.refused e)) => ["ERROR " ++ path ++ ": " ++ e.message]
        | _ => []

end

variable {read : Reader} {args : ScanArguments} {path : String} {input : Input}

/-- There is either no report or one. -/
theorem IsReported.not_hasNoReport {report : Report} (h : IsReported read args path input report) :
    ¬ HasNoReport read args path input := by
  obtain ⟨text, findings, ht, hf, -⟩ := h
  rintro ((rfl | ⟨reason, rfl⟩) | ⟨text', e, ht', he⟩)
  · simp [Input.text?] at ht
  · simp [Input.text?] at ht
  · obtain rfl : text = text' := by simpa [ht] using ht'
    simp [hf] at he

theorem IsReported.eq {report report' : Report} (h : IsReported read args path input report)
    (h' : IsReported read args path input report') : report = report' := by
  obtain ⟨text, findings, ht, hf, hr⟩ := h
  obtain ⟨text', findings', ht', hf', hr'⟩ := h'
  obtain rfl : text = text' := by simpa [ht] using ht'
  obtain rfl : findings = findings' := by simpa [hf] using hf'
  simpa [hr] using hr'

/-! ### What a scan writes and how it ends -/

theorem Input.exists_of_text? {text : String} (h : input.text? = some text) :
    ∃ bytes, input = .file bytes ∧ textOf bytes = some text := by
  cases input with
  | file bytes => exact ⟨bytes, rfl, h⟩
  | _ => simp [text?] at h

theorem scan_of_hasNoReport (verbose : Bool) (h : HasNoReport read args path input) :
    scan read verbose args path input =
      ⟨.exit 1, "", unlines (otherLines read args path verbose input)⟩ := by
  obtain (rfl | ⟨reason, rfl⟩) | ⟨text, e, ht, he⟩ := h
  · rfl
  · rfl
  · obtain ⟨bytes, rfl, hb⟩ := Input.exists_of_text? ht
    simp [scan, scanText, otherLines, hb, he]

theorem scan_of_isReported (verbose : Bool) {report : Report}
    (h : IsReported read args path input report) :
    scan read verbose args path input =
      ⟨.exit (verdict args report.names).1, reportText args report,
        unlines (otherLines read args path verbose input ++ (verdict args report.names).2)⟩ := by
  obtain ⟨text, findings, ht, hf, hr⟩ := h
  obtain ⟨bytes, rfl, hb⟩ := Input.exists_of_text? ht
  simp [scan, scanText, otherLines, hb, hf, hr, Report.names_ofFindings hr]

theorem mem_unexpected {names : List Name} {name : Name} :
    name ∈ unexpected args names ↔ name ∈ names ∧ IsUnexpected args name := by
  simp [unexpected, IsUnexpected]

/-- A scan that is to fail for unexpected names does so, and names them. -/
theorem verdict_of_unexpected {names : List Name} (hfail : args.failOnGlobals = true)
    (h : ∃ name ∈ names, IsUnexpected args name) :
    verdict args names =
      (1, [unexpectedHeading ++ Text.join ", " ((unexpected args names).map Name.plain)]) := by
  obtain ⟨name, hname, hun⟩ := h
  have hne : (unexpected args names).isEmpty = false := by
    simpa using List.ne_nil_of_mem (mem_unexpected.mpr ⟨hname, hun⟩)
  simp [verdict, hfail, hne, unexpectedHeading]

theorem verdict_of_not_unexpected {names : List Name}
    (h : ¬ (args.failOnGlobals = true ∧ ∃ name ∈ names, IsUnexpected args name)) :
    verdict args names = (0, []) := by
  have hcond : (args.failOnGlobals && !(unexpected args names).isEmpty) = false := by
    by_contra hc
    apply h
    simp only [Bool.not_eq_false, Bool.and_eq_true, Bool.not_eq_true', List.isEmpty_eq_false_iff] at hc
    obtain ⟨name, hname⟩ := List.exists_mem_of_ne_nil _ hc.2
    exact ⟨hc.1, name, mem_unexpected.mp hname⟩
  simp [verdict, hcond]

theorem hasUnexpected_iff {report : Report} (h : IsReported read args path input report) :
    HasUnexpected read args path input ↔
      args.failOnGlobals = true ∧ ∃ name ∈ report.names, IsUnexpected args name := by
  constructor
  · rintro ⟨hfail, report', h', hname⟩
    rw [h.eq h']
    exact ⟨hfail, hname⟩
  · rintro ⟨hfail, hname⟩
    exact ⟨hfail, report, h, hname⟩

theorem isEmpty_append (a b : Text) : (a ++ b).isEmpty = (a.isEmpty && b.isEmpty) := by
  cases ha : a.points <;> simp [Text.isEmpty, ha]

theorem isEmpty_unlines (lines : List Text) : (unlines lines).isEmpty = lines.isEmpty := by
  cases lines with
  | nil => rfl
  | cons line rest =>
    have hend : (Text.ofString "\n").points ≠ [] := by decide
    simp [unlines, Text.concat, Text.isEmpty, hend]

/-- Nothing is written of a report only if it is to be lines and there are none. -/
theorem isEmpty_reportText (args : ScanArguments) (report : Report) :
    (reportText args report).isEmpty = true ↔ args.json = false ∧ report.lines = [] := by
  unfold reportText
  by_cases hj : args.json = true
  · have hend : (Text.ofString "\n").isEmpty = false := by decide
    simp [hj, isEmpty_append, hend]
  · simp [hj, isEmpty_unlines]

/-- None of the other lines looks like the line of unexpected names. -/
theorem not_begins_of_mem_otherLines {verbose : Bool} {line : Text}
    (h : line ∈ otherLines read args path verbose input) :
    ¬ unexpectedHeading.points <+: line.points := by
  cases input with
  | missing =>
    obtain rfl := List.mem_singleton.mp h
    exact not_begins_append (by decide +kernel) (by decide +kernel) _
  | unreadable reason =>
    obtain rfl := List.mem_singleton.mp h
    simp only [Text.append_assoc]
    exact not_begins_append (by decide +kernel) (by decide +kernel) _
  | refused fault => cases h
  | file bytes =>
    simp only [otherLines] at h
    split at h
    · cases h
    · obtain h | h := List.mem_append.mp h
      · exact not_begins_of_mem_logLines h
      · split at h
        · obtain rfl := List.mem_singleton.mp h
          simp only [Text.append_assoc]
          exact not_begins_append (by decide +kernel) (by decide +kernel) _
        · cases h

/-! ### What comes of a scan -/

/-- A scan ends with one of two exit codes. -/
theorem ending_scan (verbose : Bool) (h : IsOrdinary read args path input) :
    ((scan read verbose args path input).ending = .exit 1 ∧
      (HasNoReport read args path input ∨ HasUnexpected read args path input)) ∨
    ((scan read verbose args path input).ending = .exit 0 ∧
      ¬ (HasNoReport read args path input ∨ HasUnexpected read args path input)) := by
  obtain h | ⟨report, h⟩ := h
  · rw [scan_of_hasNoReport verbose h]
    exact .inl ⟨rfl, .inl h⟩
  · rw [scan_of_isReported verbose h]
    by_cases hun : HasUnexpected read args path input
    · obtain ⟨hfail, hname⟩ := (hasUnexpected_iff h).mp hun
      rw [verdict_of_unexpected hfail hname]
      exact .inl ⟨rfl, .inr hun⟩
    · rw [verdict_of_not_unexpected (mt (hasUnexpected_iff h).mpr hun)]
      exact .inr ⟨rfl, not_or.mpr ⟨h.not_hasNoReport, hun⟩⟩

theorem ending_scan_eq_one_iff (verbose : Bool) (h : IsOrdinary read args path input) :
    (scan read verbose args path input).ending = .exit 1 ↔
      HasNoReport read args path input ∨ HasUnexpected read args path input := by
  obtain ⟨he, hc⟩ | ⟨he, hc⟩ := ending_scan verbose h <;> simp [he, hc]

theorem ending_scan_eq_zero_iff (verbose : Bool) (h : IsOrdinary read args path input) :
    (scan read verbose args path input).ending = .exit 0 ↔
      ¬ (HasNoReport read args path input ∨ HasUnexpected read args path input) := by
  obtain ⟨he, hc⟩ | ⟨he, hc⟩ := ending_scan verbose h <;> simp [he, hc]

/-- The report is written, whether or not names must not be free. -/
theorem out_scan_gate (verbose : Bool) (h : IsOrdinary read args path input) (fail : Bool)
    (allow : List String) :
    (scan read verbose { args with failOnGlobals := fail, allow := allow } path input).out =
      (scan read verbose args path input).out := by
  obtain h | ⟨report, h⟩ := h
  · have h' : HasNoReport read { args with failOnGlobals := fail, allow := allow } path input := h
    rw [scan_of_hasNoReport verbose h, scan_of_hasNoReport verbose h']
  · have h' : IsReported read { args with failOnGlobals := fail, allow := allow } path input report := h
    rw [scan_of_isReported verbose h, scan_of_isReported verbose h']
    rfl

theorem isEmpty_out_scan_iff (verbose : Bool) (h : IsOrdinary read args path input) :
    (scan read verbose args path input).out.isEmpty = true ↔
      HasNoReport read args path input ∨
        ∃ report, IsReported read args path input report ∧ args.json = false ∧ report.lines = [] := by
  obtain h | ⟨report, h⟩ := h
  · rw [scan_of_hasNoReport verbose h]
    exact iff_of_true rfl (.inl h)
  · rw [scan_of_isReported verbose h, isEmpty_reportText]
    constructor
    · exact fun hlines => .inr ⟨report, h, hlines⟩
    · rintro (hno | ⟨report', h', hlines⟩)
      · exact absurd hno h.not_hasNoReport
      · rwa [h.eq h']

theorem err_scan_of_not_hasUnexpected (verbose : Bool) (h : IsOrdinary read args path input)
    (hun : ¬ HasUnexpected read args path input) :
    (scan read verbose args path input).err = unlines (otherLines read args path verbose input) := by
  obtain h | ⟨report, h⟩ := h
  · rw [scan_of_hasNoReport verbose h]
  · rw [scan_of_isReported verbose h, verdict_of_not_unexpected (mt (hasUnexpected_iff h).mpr hun),
      List.append_nil]

theorem IsReported.sorted_names {report : Report} (h : IsReported read args path input report) :
    report.names.Pairwise fun x y => x.key < y.key := by
  obtain ⟨text, findings, -, hf, hr⟩ := h
  rw [Report.names_ofFindings hr]
  exact Source.sorted_names hf

/-- The last line of errors has the unexpected names, in order. -/
theorem err_scan_of_hasUnexpected (verbose : Bool) (hun : HasUnexpected read args path input) :
    ∃ names : List Name,
      (scan read verbose args path input).err =
        unlines (otherLines read args path verbose input ++
          [unexpectedHeading ++ Text.join ", " (names.map Name.plain)]) ∧
      (∀ name, name ∈ names ↔
        (∃ report, IsReported read args path input report ∧ name ∈ report.names) ∧
          IsUnexpected args name) ∧
      names.Pairwise fun x y => x.key < y.key := by
  obtain ⟨hfail, report, h, hname⟩ := hun
  refine ⟨unexpected args report.names, ?_, fun name => ?_, ?_⟩
  · rw [scan_of_isReported verbose h, verdict_of_unexpected hfail hname]
  · rw [mem_unexpected]
    refine and_congr_left fun _ => ⟨fun hm => ⟨report, h, hm⟩, ?_⟩
    rintro ⟨report', h', hm⟩
    rwa [h.eq h']
  · exact h.sorted_names.filter _

/-- A name that is allowed stays so if more names are. -/
theorem HasUnexpected.of_subset {allow : List String} (hsub : args.allow ⊆ allow)
    (h : HasUnexpected read { args with allow := allow } path input) :
    HasUnexpected read args path input := by
  obtain ⟨hfail, report, hreport, name, hname, hun⟩ := h
  exact ⟨hfail, report, hreport, name, hname, fun allowed ha => hun allowed (hsub ha)⟩

/-- The exit code of a scan, what it writes as its report, and what it says of unexpected names. -/
theorem scan_results (verbose : Bool) (h : IsOrdinary read args path input) :
    ((scan read verbose args path input).ending = .exit 1 ↔
      input.IsUnread ∨ IsRefused read args path input ∨ HasUnexpected read args path input) ∧
    ((scan read verbose args path input).ending = .exit 0 ↔
      ¬ (input.IsUnread ∨ IsRefused read args path input ∨ HasUnexpected read args path input)) ∧
    ((scan read verbose args path input).out.isEmpty = true ↔
      input.IsUnread ∨ IsRefused read args path input ∨
        ∃ report, IsReported read args path input report ∧ args.json = false ∧ report.lines = []) ∧
    (∀ report, IsReported read args path input report →
      (scan read verbose args path input).out = reportText args report) ∧
    (∀ fail allow, (scan read verbose { args with failOnGlobals := fail, allow := allow } path input).out =
      (scan read verbose args path input).out) ∧
    (∀ line ∈ otherLines read args path verbose input, ¬ unexpectedHeading.points <+: line.points) ∧
    (¬ HasUnexpected read args path input →
      (scan read verbose args path input).err = unlines (otherLines read args path verbose input)) ∧
    (HasUnexpected read args path input → ∃ names : List Name,
      (scan read verbose args path input).err =
        unlines (otherLines read args path verbose input ++
          [unexpectedHeading ++ Text.join ", " (names.map Name.plain)]) ∧
      (∀ name, name ∈ names ↔
        (∃ report, IsReported read args path input report ∧ name ∈ report.names) ∧
          IsUnexpected args name) ∧
      names.Pairwise fun x y => x.key < y.key) ∧
    ∀ allow, args.allow ⊆ allow → (scan read verbose args path input).ending = .exit 0 →
      (scan read verbose { args with allow := allow } path input).ending = .exit 0 := by
  refine ⟨?_, ?_, ?_, fun report hr => by rw [scan_of_isReported verbose hr], out_scan_gate verbose h,
    fun line => not_begins_of_mem_otherLines, err_scan_of_not_hasUnexpected verbose h,
    err_scan_of_hasUnexpected verbose, fun allow hsub hzero => ?_⟩
  · rw [ending_scan_eq_one_iff verbose h, HasNoReport, or_assoc]
  · rw [ending_scan_eq_zero_iff verbose h, HasNoReport, or_assoc]
  · rw [isEmpty_out_scan_iff verbose h, HasNoReport, or_assoc]
  · have h' : IsOrdinary read { args with allow := allow } path input := h
    rw [ending_scan_eq_zero_iff verbose h']
    rw [ending_scan_eq_zero_iff verbose h] at hzero
    exact fun hcause => hzero (hcause.imp (fun hno => hno) fun hun => hun.of_subset hsub)

/-- The report on the text at a path. -/
def reportOn? (read : Reader) (args : ScanArguments) (path : String) (input : Input) : Option Report := do
  let text ← input.text?
  let findings ← ((Source.text text).analyze read (scanRequest args path)).1.toOption
  (Report.ofFindings findings path).toOption

theorem isReported_of_reportOn? {report : Report} (h : reportOn? read args path input = some report) :
    IsReported read args path input report := by
  simp only [reportOn?, bind, Option.bind_eq_some_iff] at h
  obtain ⟨text, ht, findings, hf, hr⟩ := h
  exact ⟨text, findings, ht, eq_ok_of_toOption hf, eq_ok_of_toOption hr⟩

/-- Arguments that allow the name `a` to be free, and no other one. -/
def gatedArguments : ScanArguments := ⟨"p.js", false, false, false, true, ["a"]⟩

/-- A file that calls a function with two names. -/
def callingFile : Input := .file "c(a, b)".toUTF8

theorem scan_results_callingFile :
    IsOrdinary Grammar.read gatedArguments "/p.js" callingFile ∧
    (scan Grammar.read false gatedArguments "/p.js" callingFile).ending = .exit 1 := by
  have hnames : (reportOn? Grammar.read gatedArguments "/p.js" callingFile).map Report.names =
      some [.text "a", .text "b", .text "c"] := by decide +kernel
  obtain ⟨report, hreport, hnames⟩ := Option.map_eq_some_iff.mp hnames
  have h := isReported_of_reportOn? hreport
  have hordinary : IsOrdinary Grammar.read gatedArguments "/p.js" callingFile := .inr ⟨report, h⟩
  have hun : HasUnexpected Grammar.read gatedArguments "/p.js" callingFile := by
    refine ⟨rfl, report, h, .text "b", by simp [hnames], ?_⟩
    decide
  exact ⟨hordinary, (scan_results false hordinary).1.mpr (.inr (.inr hun))⟩

end CommandLine

end FreeNames
