import FreeNames.Proofs.JsonWriting

/-!
# What a JSON report tells

A JSON report is an object with the source, the message of the strict reading, and the names, each with its places. It
is a JSON text, and the report can be made again from the data that the text stands for (`Report.ofData?`), which looks
for every part under the name of its field.
-/

namespace FreeNames

namespace Json

/-! ### Values that can be written -/

theorem isWritable_array (items : List Value) : isWritable (.array items) = items.all isWritable := by
  rw [isWritable]
  induction items with
  | nil => rfl
  | cons v items ih => rw [areWritableItems, ih, List.all_cons]

theorem isWritable_object (label : Nat) (fields : List (String × Value)) :
    isWritable (.object label fields) = fields.all fun x => isWritable x.2 := by
  rw [isWritable]
  induction fields with
  | nil => rfl
  | cons x fields ih => rw [areWritableFields, ih, List.all_cons]

theorem isWritable_of_isCoordinate {v : Value} (h : v.IsCoordinate) : isWritable v = true := by
  rcases h with rfl | ⟨n, rfl⟩ <;> rfl

/-! ### The parts of data -/

namespace Data

/-- The field of an object. -/
def field? (name : String) : Data → Option Data
  | object fields => fields.lookup (Text.ofString name)
  | _ => none

/-- The items of an array. -/
def items? : Data → Option (List Data)
  | array items => some items
  | _ => none

/-- A text. -/
def text? : Data → Option Text
  | text t => some t
  | _ => none

/-- A text, or null. -/
def message? : Data → Option (Option Text)
  | null => some none
  | text t => some (some t)
  | _ => none

/-- A whole number, or null. -/
def coordinate? : Data → Option Value
  | null => some .null
  | int n => some (.int n)
  | _ => none

end Data

end Json

open Json (Data Writes)

/-! ### Reading a report -/

/-- The position that data is. -/
def Position.ofData? (d : Data) : Option Position := do
  let line ← (← d.field? "line").coordinate?
  let column ← (← d.field? "column").coordinate?
  return ⟨line, column⟩

/-- The name and the places that data is. -/
def Entry.ofData? (d : Data) : Option Entry := do
  let name ← (← d.field? "name").text?
  let sites ← (← (← d.field? "sites").items?).mapM Position.ofData?
  return ⟨.text name, sites⟩

/-- The report that data is. -/
def Report.ofData? (d : Data) : Option Report := do
  let source ← (← d.field? "source").text?
  let parsingError ← (← d.field? "parsing_error").message?
  let entries ← (← (← d.field? "globals").items?).mapM Entry.ofData?
  return ⟨source, parsingError, entries⟩

variable {n : Nat}

/-- If every item is written as data from which it can be made again, so are all of them. -/
theorem exists_writes_items {α : Type} {f : α → Value} {ofData? : Data → Option α} : ∀ {l : List α},
    (∀ a ∈ l, ∃ d, Writes n (f a) d ∧ ofData? d = some a) →
    ∃ ds, Writes (n + 1) (.array (l.map f)) (.array ds) ∧ ds.mapM ofData? = some l := by
  intro l h
  have hitems : ∃ ds, List.Forall₂ (Writes n) (l.map f) ds ∧ ds.mapM ofData? = some l := by
    induction l with
    | nil => exact ⟨[], .nil, rfl⟩
    | cons a l ih =>
      obtain ⟨⟨d, hd, had⟩, hrest⟩ := List.forall_mem_cons.mp h
      obtain ⟨ds, hds, hlds⟩ := ih hrest
      exact ⟨d :: ds, .cons hd hds, by rw [List.mapM_cons, had, hlds]; rfl⟩
  obtain ⟨ds, hds, hl⟩ := hitems
  exact ⟨ds, Json.writes_array hds, hl⟩

theorem Value.IsCoordinate.exists_writes {v : Value} (h : v.IsCoordinate) :
    ∃ d, Writes (n + 1) v d ∧ d.coordinate? = some v := by
  rcases h with rfl | ⟨i, rfl⟩
  · exact ⟨.null, Json.writes_null, rfl⟩
  · exact ⟨.int i, Json.writes_int i, rfl⟩

theorem Position.IsNumbered.exists_writes {p : Position} (h : p.IsNumbered) :
    ∃ d, Writes (n + 2) (Report.siteValue p) d ∧ Position.ofData? d = some p := by
  obtain ⟨line, hline, hreadLine⟩ := h.1.exists_writes (n := n)
  obtain ⟨column, hcolumn, hreadColumn⟩ := h.2.exists_writes (n := n)
  refine ⟨.object [(.ofString "line", line), (.ofString "column", column)],
    Json.writes_object (.cons ⟨rfl, hline⟩ (.cons ⟨rfl, hcolumn⟩ .nil)), ?_⟩
  show (do return ⟨← line.coordinate?, ← column.coordinate?⟩ : Option Position) = some p
  rw [hreadLine, hreadColumn]
  rfl

/-- An entry whose name is a text and whose places are by whole numbers. -/
structure Entry.IsNumbered (e : Entry) : Prop where
  name : ∃ t : Text, e.name = .text t
  sites : ∀ p ∈ e.sites, p.IsNumbered

theorem Entry.IsNumbered.exists_writes {e : Entry} (h : e.IsNumbered) :
    ∃ d, Writes (n + 4) (Report.entryValue e) d ∧ Entry.ofData? d = some e := by
  obtain ⟨t, ht⟩ := h.name
  obtain ⟨name, sites⟩ := e
  obtain rfl : name = .text t := ht
  obtain ⟨ds, hsites, hread⟩ := exists_writes_items (n := n + 2) fun p hp => (h.sites p hp).exists_writes
  refine ⟨.object [(.ofString "name", .text t), (.ofString "sites", .array ds)],
    Json.writes_object (.cons ⟨rfl, Json.writes_text t⟩ (.cons ⟨rfl, hsites⟩ .nil)), ?_⟩
  show (do return ⟨.text t, ← ds.mapM Position.ofData?⟩ : Option Entry) = some ⟨.text t, sites⟩
  rw [hread]
  rfl

namespace Report

theorem exists_writes {r : Report} (h : ∀ e ∈ r.entries, e.IsNumbered) :
    ∃ d, Writes 6 r.toValue d ∧ ofData? d = some r := by
  obtain ⟨source, parsingError, entries⟩ := r
  obtain ⟨ds, hentries, hread⟩ := exists_writes_items (n := 4) fun e he => (h e he).exists_writes
  have hparts : ∀ {v : Value} {message : Data}, Writes 5 v message → message.message? = some parsingError →
      ∃ d, Writes 6 (.object 0 [("source", .text source), ("parsing_error", v),
        ("globals", .array (entries.map entryValue))]) d ∧ ofData? d = some ⟨source, parsingError, entries⟩ := by
    intro v message hmessage hreadMessage
    refine ⟨.object [(.ofString "source", .text source), (.ofString "parsing_error", message),
      (.ofString "globals", .array ds)], Json.writes_object (.cons ⟨rfl, Json.writes_text source⟩
        (.cons ⟨rfl, hmessage⟩ (.cons ⟨rfl, hentries⟩ .nil))), ?_⟩
    show (do return ⟨source, ← message.message?, ← ds.mapM Entry.ofData?⟩ : Option Report) = _
    rw [hread, hreadMessage]
    rfl
  cases parsingError with
  | none => exact hparts Json.writes_null rfl
  | some message => exact hparts (Json.writes_text message) rfl

theorem isWritable_toValue {r : Report} (h : ∀ e ∈ r.entries, e.IsNumbered) : Json.isWritable r.toValue = true := by
  have hsite : ∀ {p : Position}, p.IsNumbered → Json.isWritable (siteValue p) = true := by
    intro p hp
    simp [siteValue, Json.isWritable_object, Json.isWritable_of_isCoordinate hp.1,
      Json.isWritable_of_isCoordinate hp.2]
  have hentry : ∀ e ∈ r.entries, Json.isWritable (entryValue e) = true := by
    intro e he
    obtain ⟨t, ht⟩ := (h e he).name
    have hname : Json.isWritable e.name.toValue = true := by
      rw [ht]
      rfl
    have hsites : ∀ p ∈ e.sites, Json.isWritable (siteValue p) = true := fun p hp => hsite ((h e he).sites p hp)
    simpa [entryValue, Json.isWritable_object, Json.isWritable_array, hname] using hsites
  have htext : ∀ t : Text, Json.isWritable (.text t) = true := fun _ => rfl
  have hnull : Json.isWritable .null = true := rfl
  obtain ⟨source, parsingError, entries⟩ := r
  cases parsingError <;>
    simpa [toValue, Json.isWritable_object, Json.isWritable_array, htext, hnull] using hentry

end Report

/-- **A JSON report decodes to the result.** Take findings in which the names are texts, of any code points, and the
positions are by whole numbers as far as they are known. They can be reported under any label, and the report can be
written as JSON. What is written is a JSON text and stands for one thing only, which the reader finds; and the report
that this is has the label as its source, the message of the strict reading, and the groups in order with their names
and their positions. -/
theorem json_report_decodes {f : Findings} (label : Text) (hnames : ∀ g ∈ f.groups, ∃ t : Text, g.name = .text t)
    (hplaces : ∀ g ∈ f.groups, ∀ r ∈ g.references, ∃ p, r.position = .ok p ∧ p.IsNumbered) :
    ∃ (report : Report) (text : Text) (d : Data),
      Report.ofFindings f label = .ok report ∧ report.json? = .ok text ∧
      (∀ d', Json.Spells text d' ↔ d' = d) ∧ Json.read text = some d ∧ Report.ofData? d = some report ∧
      report.source = label ∧ report.parsingError = f.parsingError ∧
      List.Forall₂ (fun g e => Entry.IsOf e g) f.groups report.entries := by
  obtain ⟨report, hreport⟩ := Report.exists_ofFindings label fun g hg r hr => (hplaces g hg r hr).imp fun _ hp => hp.1
  obtain ⟨hsource, herror, hentries⟩ := Report.ofFindings_eq_ok_iff.mp hreport
  have hnumbered : ∀ e ∈ report.entries, e.IsNumbered := by
    intro e he
    obtain ⟨g, hg, hof⟩ := exists_of_mem_right hentries he
    exact ⟨hof.1 ▸ hnames g hg, hof.forall_sites (hplaces g hg)⟩
  obtain ⟨d, hwrites, hdata⟩ := Report.exists_writes hnumbered
  have hread : Json.read report.json = some d := Json.read_eq_some_iff.mpr (Json.spells_write hwrites)
  refine ⟨report, report.json, d, hreport, if_pos (Report.isWritable_toValue hnumbered), fun d' => ?_, hread, hdata,
    hsource, herror, hentries⟩
  rw [← Json.read_eq_some_iff, hread, Option.some.injEq, eq_comm]

/-- Findings with a name that has a quote, a backslash, control characters and an accent, at a place that is known and
at one that is not, and with another name at a line only. -/
def escapedFindings : Findings where
  tree := .ofValue .null
  groups :=
    [⟨.text "\"\\\n\x01é", [located 0 "x" [("line", .int (-1)), ("column", .int 20)], located 3 "x" []]⟩,
     ⟨.text "b", [located 6 "b" [("line", .int 3)]]⟩]
  parsingError := some "\t\"odd\""
  diagnostics := []

theorem json_report_decodes_escapedFindings :
    ∃ (report : Report) (text : Text) (d : Data),
      Report.ofFindings escapedFindings "in \"quotes\"" = .ok report ∧ report.json? = .ok text ∧
      Json.Spells text d ∧ Report.ofData? d = some report ∧ report.source = "in \"quotes\"" ∧
      report.parsingError = some "\t\"odd\"" ∧
      report.entries.map Entry.name = [.text "\"\\\n\x01é", .text "b"] := by
  have hknown : Position.IsNumbered ⟨.int (-1), .int 20⟩ := ⟨.inr ⟨-1, rfl⟩, .inr ⟨20, rfl⟩⟩
  have hunknown : Position.IsNumbered ⟨.null, .null⟩ := ⟨.inl rfl, .inl rfl⟩
  have hline : Position.IsNumbered ⟨.int 3, .null⟩ := ⟨.inr ⟨3, rfl⟩, .inl rfl⟩
  have hplaces : ∀ g ∈ escapedFindings.groups, ∀ r ∈ g.references, ∃ p, r.position = .ok p ∧ p.IsNumbered := by
    simp only [escapedFindings, List.forall_mem_cons]
    exact ⟨⟨⟨_, rfl, hknown⟩, ⟨_, rfl, hunknown⟩, fun r hr => absurd hr List.not_mem_nil⟩,
      ⟨⟨_, rfl, hline⟩, fun r hr => absurd hr List.not_mem_nil⟩, fun g hg => absurd hg List.not_mem_nil⟩
  have hnames : ∀ g ∈ escapedFindings.groups, ∃ t : Text, g.name = .text t := by
    simp [escapedFindings]
  obtain ⟨report, text, d, hreport, hjson, hspells, -, hdata, hsource, herror, hentries⟩ :=
    json_report_decodes "in \"quotes\"" hnames hplaces
  refine ⟨report, text, d, hreport, hjson, (hspells d).mpr rfl, hdata, hsource, herror, ?_⟩
  have hsame : report.entries.map Entry.name = escapedFindings.groups.map Group.name := by
    rw [← List.forall₂_eq_eq_eq, List.forall₂_map_left_iff, List.forall₂_map_right_iff]
    exact hentries.flip.imp fun e g hof => hof.1
  exact hsame

end FreeNames
