import FreeNames.CommandLine.Scan
import FreeNames.Proofs.ReportedSites
import Mathlib

/-!
# What lines of text tell

A line of a text report is a name, a tab, and places with a comma and a blank between them; a place is a line, a line
and a column with a colon between them, or nothing. Each of these separators is absent from the parts that it
separates, so the parts can be told again: the first separator in a text is where the first part ends
(`eq_of_append_cons`). The one thing that does not show is whether there are no places or one that is not known, and
no group is without references.

The warning of a tolerant reading is told from the other lines by having no tab.
-/

namespace FreeNames

/-! ### Separators -/

/-- Two lists are split in the same way at the first separator. -/
theorem eq_of_append_cons {α : Type} {a : α} : ∀ {l m l' m' : List α}, a ∉ l → a ∉ m →
    l ++ a :: l' = m ++ a :: m' → l = m ∧ l' = m'
  | [], [], _, _, _, _, h => ⟨rfl, (List.cons.inj h).2⟩
  | [], b :: m, _, _, _, hm, h => absurd (List.cons.inj h).1 fun hb => hm (hb ▸ List.mem_cons_self)
  | b :: l, [], _, _, hl, _, h => absurd (List.cons.inj h).1 fun hb => hl (hb ▸ List.mem_cons_self)
  | b :: l, c :: m, _, _, hl, hm, h => by
    obtain ⟨hbc, hrest⟩ := List.cons.inj h
    obtain ⟨hlm, htails⟩ := eq_of_append_cons (mt (List.mem_cons_of_mem b) hl) (mt (List.mem_cons_of_mem c) hm) hrest
    exact ⟨by rw [hbc, hlm], htails⟩

/-- Lists are equal if their images are, and items of equal images are equal. -/
theorem eq_of_map_eq_map {α β : Type} {f : α → β} : ∀ {l m : List α},
    (∀ a ∈ l, ∀ b ∈ m, f a = f b → a = b) → l.map f = m.map f → l = m
  | [], [], _, _ => rfl
  | [], _ :: _, _, h => by simp at h
  | _ :: _, [], _, h => by simp at h
  | a :: l, b :: m, hinj, h => by
    obtain ⟨hab, hrest⟩ := List.cons.inj h
    rw [hinj a List.mem_cons_self b List.mem_cons_self hab, eq_of_map_eq_map (fun x hx y hy =>
      hinj x (List.mem_cons_of_mem a hx) y (List.mem_cons_of_mem b hy)) hrest]

namespace Text

/-- There is no such character in the text. -/
def Lacks (t : Text) (c : Char) : Prop := CodePoint.ofChar c ∉ t.points

instance (t : Text) (c : Char) : Decidable (t.Lacks c) := inferInstanceAs (Decidable (_ ∉ _))

theorem ext_points {s t : Text} (h : s.points = t.points) : s = t := by
  cases s
  cases t
  exact congrArg mk h

theorem Lacks.append {s t : Text} {c : Char} (hs : s.Lacks c) (ht : t.Lacks c) : (s ++ t).Lacks c :=
  fun h => (List.mem_append.mp h).elim hs ht

theorem Lacks.join {separator : Text} {c : Char} (hs : separator.Lacks c) :
    ∀ {parts : List Text}, (∀ t ∈ parts, t.Lacks c) → (Text.join separator parts).Lacks c
  | [], _ => List.not_mem_nil
  | [part], h => h part List.mem_cons_self
  | part :: next :: rest, h => by
    obtain ⟨hpart, hrest⟩ := List.forall_mem_cons.mp h
    exact (hpart.append hs).append (Lacks.join hs hrest)

theorem decimal_injective : Function.Injective decimal :=
  fun _ _ h => Int.repr_inj.mp (ofString_injective h)

theorem lacks_decimal {c : Char} (hsign : c ≠ '-') (hdigit : c.isDigit = false) (n : Int) : (decimal n).Lacks c :=
  ofChar_not_mem_decimal hsign hdigit n

theorem points_join_ne_nil {separator part : Text} {rest : List Text} (h : part.points ≠ []) :
    (join separator (part :: rest)).points ≠ [] := by
  cases rest with
  | nil => exact h
  | cons next rest => simp [join, h]

/-- Parts without the separator can be told from what they are joined to, if it is known whether there are any. -/
theorem join_inj {separator : Text} {c : Char} {rest : List CodePoint}
    (hs : separator.points = CodePoint.ofChar c :: rest) :
    ∀ {l m : List Text}, (∀ t ∈ l, t.Lacks c) → (∀ t ∈ m, t.Lacks c) → (l = [] ↔ m = []) →
      join separator l = join separator m → l = m
  | [], m, _, _, hempty, _ => (hempty.mp rfl).symm
  | _ :: _, [], _, _, hempty, _ => hempty.mpr rfl
  | [a], [b], _, _, _, h => by rw [show a = b from h]
  | [a], b :: b' :: m, hl, _, _, h => by
    -- The separator is in the text on the right and not in the one on the left.
    have hmem : CodePoint.ofChar c ∈ (join separator (b :: b' :: m)).points := by
      simp [join, hs]
    rw [← h] at hmem
    exact absurd hmem (hl a List.mem_cons_self)
  | a :: a' :: l, [b], _, hm, _, h => by
    have hmem : CodePoint.ofChar c ∈ (join separator (a :: a' :: l)).points := by
      simp [join, hs]
    rw [h] at hmem
    exact absurd hmem (hm b List.mem_cons_self)
  | a :: a' :: l, b :: b' :: m, hl, hm, _, h => by
    obtain ⟨ha, hl⟩ := List.forall_mem_cons.mp hl
    obtain ⟨hb, hm⟩ := List.forall_mem_cons.mp hm
    have hpoints := congrArg points h
    simp only [join, points_append, hs, List.append_assoc, List.cons_append] at hpoints
    obtain ⟨hab, hrest⟩ := eq_of_append_cons ha hb hpoints
    have hjoin := ext_points (List.append_cancel_left hrest)
    rw [ext_points hab, join_inj hs hl hm (by simp) hjoin]

end Text

/-- Lines without line ends can be told from the text that they make. -/
theorem CommandLine.unlines_inj : ∀ {l m : List Text}, (∀ t ∈ l, t.Lacks '\n') → (∀ t ∈ m, t.Lacks '\n') →
    unlines l = unlines m → l = m
  | [], [], _, _, _ => rfl
  | [], b :: m, _, _, h => by
    have hpoints := congrArg Text.points h
    simp [unlines, Text.concat, Text.ofString, Text.ofChars] at hpoints
  | a :: l, [], _, _, h => by
    have hpoints := congrArg Text.points h
    simp [unlines, Text.concat, Text.ofString, Text.ofChars] at hpoints
  | a :: l, b :: m, hl, hm, h => by
    obtain ⟨ha, hl⟩ := List.forall_mem_cons.mp hl
    obtain ⟨hb, hm⟩ := List.forall_mem_cons.mp hm
    have hend : (Text.ofString "\n").points = [CodePoint.ofChar '\n'] := rfl
    have hpoints := congrArg Text.points h
    simp only [unlines, Text.concat, List.map_cons, List.flatMap_cons, Text.points_append, hend, List.append_assoc,
      List.singleton_append] at hpoints
    obtain ⟨hab, hrest⟩ := eq_of_append_cons ha hb hpoints
    rw [Text.ext_points hab, unlines_inj hl hm (Text.ext_points hrest)]

/-! ### Places -/

/-- A position that shows in a line: by whole numbers, with no column where the line is not known. -/
def Position.IsListed (p : Position) : Prop := p.IsNumbered ∧ (p.line = .null → p.column = .null)

/-- The numbers that a position shows. -/
def Position.shown (p : Position) : List Int :=
  match p.line, p.column with
  | .int line, .int column => [line, column]
  | .int line, _ => [line]
  | _, _ => []

namespace Position

variable {p q : Position}

theorem IsListed.cases (h : p.IsListed) : p = ⟨.null, .null⟩ ∨ (∃ line : Int, p = ⟨.int line, .null⟩) ∨
    ∃ line column : Int, p = ⟨.int line, .int column⟩ := by
  obtain ⟨line, column⟩ := p
  obtain ⟨⟨rfl | ⟨n, rfl⟩, hcolumn⟩, hnull⟩ := h
  · exact .inl (by rw [show column = .null from hnull rfl])
  · rcases hcolumn with rfl | ⟨m, rfl⟩
    · exact .inr (.inl ⟨n, rfl⟩)
    · exact .inr (.inr ⟨n, m, rfl⟩)

/-- A position that shows is known by the numbers that it shows. -/
theorem IsListed.eq_of_shown (hp : p.IsListed) (hq : q.IsListed) (h : p.shown = q.shown) : p = q := by
  obtain rfl | ⟨n, rfl⟩ | ⟨n, m, rfl⟩ := hp.cases <;> obtain rfl | ⟨n', rfl⟩ | ⟨n', m', rfl⟩ := hq.cases <;>
    simp_all [shown]

/-- A place is written as its numbers with colons between them. -/
theorem IsListed.siteText_eq (h : p.IsListed) : Report.siteText p = Text.join ":" (p.shown.map Text.decimal) := by
  obtain rfl | ⟨n, rfl⟩ | ⟨n, m, rfl⟩ := h.cases <;> rfl

theorem IsListed.lacks_siteText (h : p.IsListed) {c : Char} (hsign : c ≠ '-') (hdigit : c.isDigit = false)
    (hcolon : c ≠ ':') : (Report.siteText p).Lacks c := by
  rw [h.siteText_eq]
  refine Text.Lacks.join ?_ ?_
  · intro hmem
    exact hcolon (CodePoint.ofChar_injective (List.mem_singleton.mp hmem))
  · intro t ht
    obtain ⟨n, -, rfl⟩ := List.mem_map.mp ht
    exact Text.lacks_decimal hsign hdigit n

theorem IsListed.eq_of_siteText (hp : p.IsListed) (hq : q.IsListed)
    (h : Report.siteText p = Report.siteText q) : p = q := by
  rw [hp.siteText_eq, hq.siteText_eq] at h
  have hcolon : ∀ (r : Position), ∀ t ∈ r.shown.map Text.decimal, t.Lacks ':' := by
    intro r t ht
    obtain ⟨n, -, rfl⟩ := List.mem_map.mp ht
    exact Text.lacks_decimal (by decide) (by decide) n
  -- No number is the empty text, so it shows whether there is any.
  have hempty : ∀ {r s : Position}, Text.join ":" (r.shown.map Text.decimal) =
      Text.join ":" (s.shown.map Text.decimal) → r.shown.map Text.decimal = [] → s.shown.map Text.decimal = [] := by
    intro r s heq hr
    cases hs : s.shown with
    | nil => rfl
    | cons n rest =>
      rw [hr, hs] at heq
      exact absurd (congrArg Text.points heq).symm (Text.points_join_ne_nil (Text.decimal_ne_empty n))
  refine hp.eq_of_shown hq ((List.map_injective_iff.mpr Text.decimal_injective) ?_)
  exact Text.join_inj rfl (hcolon p) (hcolon q) ⟨hempty h, hempty h.symm⟩ h

end Position

/-! ### Entries -/

/-- An entry that shows in a line: its name is a text without tabs and line ends, and there are places, which show. -/
structure Entry.IsListed (e : Entry) : Prop where
  name : ∃ t : Text, e.name = .text t ∧ t.Lacks '\t' ∧ t.Lacks '\n'
  nonempty : e.sites ≠ []
  sites : ∀ p ∈ e.sites, p.IsListed

/-- A group that shows in a line. -/
structure Group.IsListed (g : Group) : Prop where
  name : ∃ t : Text, g.name = .text t ∧ t.Lacks '\t' ∧ t.Lacks '\n'
  nonempty : g.references ≠ []
  places : ∀ r ∈ g.references, ∃ p, r.position = .ok p ∧ p.IsListed

theorem Group.IsListed.entry {g : Group} {e : Entry} (h : g.IsListed) (he : e.IsOf g) : e.IsListed := by
  refine ⟨he.1 ▸ h.name, fun hnil => ?_, he.forall_sites h.places⟩
  have hall := mapM_eq_ok_iff.mp he.2
  rw [hnil, List.forall₂_nil_right_iff] at hall
  exact h.nonempty hall

namespace Entry.IsListed

variable {e e' : Entry}

theorem lacks_siteText (h : e.IsListed) {c : Char} (hsign : c ≠ '-') (hdigit : c.isDigit = false) (hcolon : c ≠ ':') :
    ∀ s ∈ e.sites.map Report.siteText, s.Lacks c :=
  List.forall_mem_map.mpr fun p hp => (h.sites p hp).lacks_siteText hsign hdigit hcolon

/-- There is one tab in the line of an entry, behind the name. -/
theorem exists_entryText (h : e.IsListed) : ∃ t sites : Text, e.name = .text t ∧ t.Lacks '\t' ∧ t.Lacks '\n' ∧
    sites = Text.join ", " (e.sites.map Report.siteText) ∧ sites.Lacks '\n' ∧
    (Report.entryText e).points = t.points ++ CodePoint.ofChar '\t' :: sites.points := by
  obtain ⟨t, hname, htab, hline⟩ := h.name
  refine ⟨t, _, hname, htab, hline, rfl, ?_, ?_⟩
  · exact Text.Lacks.join (by decide) (h.lacks_siteText (by decide) (by decide) (by decide))
  · have htab : (Text.ofString "\t").points = [CodePoint.ofChar '\t'] := rfl
    rw [Report.entryText, hname, Text.points_append, Text.points_append, htab, List.append_assoc]
    rfl

/-- The name and the places of an entry can be told from its line. -/
theorem eq_of_entryText (h : e.IsListed) (h' : e'.IsListed) (heq : Report.entryText e = Report.entryText e') :
    e = e' := by
  obtain ⟨t, sites, hname, ht, -, rfl, -, hpoints⟩ := h.exists_entryText
  obtain ⟨t', sites', hname', ht', -, rfl, -, hpoints'⟩ := h'.exists_entryText
  rw [heq, hpoints'] at hpoints
  obtain ⟨htext, hjoin⟩ := eq_of_append_cons ht' ht hpoints
  have hcomma : ∀ {e : Entry}, e.IsListed → ∀ s ∈ e.sites.map Report.siteText, s.Lacks ',' :=
    fun he => he.lacks_siteText (by decide) (by decide) (by decide)
  have hnonempty : e.sites.map Report.siteText = [] ↔ e'.sites.map Report.siteText = [] := by
    simp [h.nonempty, h'.nonempty]
  have htexts := Text.join_inj rfl (hcomma h) (hcomma h') hnonempty (Text.ext_points hjoin.symm)
  have hsites := eq_of_map_eq_map (fun p hp q hq => (h.sites p hp).eq_of_siteText (h'.sites q hq)) htexts
  have hnames : e.name = e'.name := by rw [hname, hname', Text.ext_points htext]
  obtain ⟨name, sites⟩ := e
  obtain ⟨name', sites'⟩ := e'
  obtain rfl : name = name' := hnames
  obtain rfl : sites = sites' := hsites
  rfl

theorem not_lacks_tab (h : e.IsListed) : ¬ (Report.entryText e).Lacks '\t' := by
  obtain ⟨t, sites, -, -, -, -, -, hpoints⟩ := h.exists_entryText
  rw [Text.Lacks, hpoints, not_not]
  exact List.mem_append_right _ List.mem_cons_self

theorem lacks_line_end (h : e.IsListed) : (Report.entryText e).Lacks '\n' := by
  obtain ⟨t, sites, -, -, ht, -, hsites, hpoints⟩ := h.exists_entryText
  rw [Text.Lacks, hpoints, List.mem_append, List.mem_cons, not_or, not_or]
  exact ⟨ht, by decide, hsites⟩

end Entry.IsListed

/-! ### Reports -/

namespace Report

theorem lines_of_none {r : Report} (h : r.parsingError = none) : r.lines = r.entries.map entryText := by
  rw [lines, h, List.append_nil]

theorem lines_of_some {r : Report} {message : Text} (h : r.parsingError = some message)
    (hmessage : message.isEmpty = false) :
    r.lines = { r with parsingError := none }.lines ++ [warningText r.source message] := by
  have hown : { r with parsingError := none }.lines = r.entries.map entryText := lines_of_none rfl
  rw [hown, lines, h]
  simp [hmessage]

theorem lacks_warningText {source message : Text} {c : Char} (hsource : source.Lacks c) (hmessage : message.Lacks c)
    (h : Text.Lacks "WARNING " c ∧ Text.Lacks ": parsed loosely after: " c) : (warningText source message).Lacks c :=
  ((h.1.append hsource).append h.2).append hmessage

theorem exists_ofFindings_of_isListed {f : Findings} (source : Text) (h : ∀ g ∈ f.groups, g.IsListed) :
    ∃ r, ofFindings f source = .ok r ∧ (∀ e ∈ r.entries, e.IsListed) ∧
      f.groups.map (fun g => (g.name, g.positions)) = r.entries.map fun e => (e.name, .ok e.sites) := by
  obtain ⟨r, hr⟩ := exists_ofFindings source fun g hg s hs => ((h g hg).places s hs).imp fun _ hp => hp.1
  obtain ⟨-, -, hall⟩ := ofFindings_eq_ok_iff.mp hr
  refine ⟨r, hr, fun e he => ?_, ?_⟩
  · obtain ⟨g, hg, hof⟩ := exists_of_mem_right hall he
    exact (h g hg).entry hof
  · rw [← List.forall₂_eq_eq_eq, List.forall₂_map_left_iff, List.forall₂_map_right_iff]
    exact hall.imp fun g e hof => by rw [hof.1, hof.2]

end Report

/-- **A text report loses nothing.** Take findings in which every group has references, the names are texts without
tabs and line ends, and the positions are by whole numbers as far as they are known, with no column where the line is
not known. Two such findings without a message of the strict reading have the same lines, or come to the same text,
only if they have the same names in the same order and the same positions for each name. If there is a message, which
is not empty, and neither it nor the label has a tab, then the lines are those without the message, all of which have
a tab, and behind them the warning, which has none. -/
theorem text_report_tells {f f' : Findings} (label label' : Text) (h : ∀ g ∈ f.groups, g.IsListed)
    (h' : ∀ g ∈ f'.groups, g.IsListed) :
    ∃ r r' : Report, Report.ofFindings f label = .ok r ∧ Report.ofFindings f' label' = .ok r' ∧
      (f.parsingError = none → f'.parsingError = none →
        r.lines = r'.lines ∨ CommandLine.unlines r.lines = CommandLine.unlines r'.lines →
        (f.groups.map fun g => (g.name, g.positions)) = f'.groups.map fun g => (g.name, g.positions)) ∧
      ∀ message, f.parsingError = some message → message.isEmpty = false → label.Lacks '\t' →
        message.Lacks '\t' →
        r.lines = { r with parsingError := none }.lines ++ [Report.warningText label message] ∧
        { r with parsingError := none }.lines.length = f.groups.length ∧
        (∀ line ∈ { r with parsingError := none }.lines, ¬ line.Lacks '\t') ∧
        (Report.warningText label message).Lacks '\t' := by
  obtain ⟨r, hr, hlisted, hgroups⟩ := Report.exists_ofFindings_of_isListed label h
  obtain ⟨r', hr', hlisted', hgroups'⟩ := Report.exists_ofFindings_of_isListed label' h'
  obtain ⟨hsource, herror, hall⟩ := Report.ofFindings_eq_ok_iff.mp hr
  obtain ⟨-, herror', -⟩ := Report.ofFindings_eq_ok_iff.mp hr'
  refine ⟨r, r', hr, hr', fun hnone hnone' hsame => ?_, fun message hmessage hne hlabel htab => ?_⟩
  · rw [Report.lines_of_none (herror.trans hnone), Report.lines_of_none (herror'.trans hnone')] at hsame
    have hlines : r.entries.map Report.entryText = r'.entries.map Report.entryText := by
      refine hsame.elim id (CommandLine.unlines_inj ?_ ?_) <;> refine List.forall_mem_map.mpr fun e he => ?_
      · exact (hlisted e he).lacks_line_end
      · exact (hlisted' e he).lacks_line_end
    have hentries := eq_of_map_eq_map
      (fun e he e' he' => (hlisted e he).eq_of_entryText (hlisted' e' he')) hlines
    rw [hgroups, hgroups', hentries]
  · rw [Report.lines_of_some (herror.trans hmessage) hne, hsource, Report.lines_of_none rfl]
    refine ⟨rfl, ?_, List.forall_mem_map.mpr fun e he => (hlisted e he).not_lacks_tab, ?_⟩
    · rw [List.length_map, hall.length_eq]
    · exact Report.lacks_warningText hlabel htab (by decide)

/-- Findings of two names: one at a line and a column and at a place that is not known, one at a line. -/
def placedFindings (label : Nat) (parsingError : Option Text) : Findings where
  tree := .ofValue .null
  groups :=
    [⟨.text "a", [located label "a" [("line", .int 1), ("column", .int 2)], located (label + 3) "a" []]⟩,
     ⟨.text "b", [located (label + 6) "b" [("line", .int 3)]]⟩]
  parsingError := parsingError
  diagnostics := []

theorem isListed_placedFindings (label : Nat) (parsingError : Option Text) :
    ∀ g ∈ (placedFindings label parsingError).groups, g.IsListed := by
  have hknown : Position.IsListed ⟨.int 1, .int 2⟩ := ⟨⟨.inr ⟨1, rfl⟩, .inr ⟨2, rfl⟩⟩, by simp⟩
  have hunknown : Position.IsListed ⟨.null, .null⟩ := ⟨⟨.inl rfl, .inl rfl⟩, fun _ => rfl⟩
  have hline : Position.IsListed ⟨.int 3, .null⟩ := ⟨⟨.inr ⟨3, rfl⟩, .inl rfl⟩, by simp⟩
  simp only [placedFindings, List.forall_mem_cons]
  refine ⟨⟨⟨"a", rfl, by decide, by decide⟩, by simp, ?_⟩, ⟨⟨"b", rfl, by decide, by decide⟩, by simp, ?_⟩,
    fun g hg => absurd hg List.not_mem_nil⟩
  · simp only [List.forall_mem_cons]
    exact ⟨⟨_, rfl, hknown⟩, ⟨_, rfl, hunknown⟩, fun r hr => absurd hr List.not_mem_nil⟩
  · simp only [List.forall_mem_cons]
    exact ⟨⟨_, rfl, hline⟩, fun r hr => absurd hr List.not_mem_nil⟩

theorem text_report_tells_placedFindings :
    ∃ r r' : Report, Report.ofFindings (placedFindings 0 none) "x" = .ok r ∧
      Report.ofFindings (placedFindings 9 (some "odd")) "y" = .ok r' ∧
      r.lines = [Text.ofString "a\t1:2, ", Text.ofString "b\t3"] ∧
      r'.lines = r.lines ++ [Text.ofString "WARNING y: parsed loosely after: odd"] ∧
      (∀ line ∈ r.lines, ¬ line.Lacks '\t') ∧
      ((placedFindings 0 none).groups.map fun g => (g.name, g.positions)) =
        (placedFindings 9 none).groups.map fun g => (g.name, g.positions) := by
  have hlisted := isListed_placedFindings
  obtain ⟨r, s, hr, hs, htells, -⟩ := text_report_tells "x" "z" (hlisted 0 none) (hlisted 9 none)
  obtain ⟨r', -, hr', -, -, hwarns⟩ := text_report_tells "y" "z" (hlisted 9 (some "odd")) (hlisted 0 none)
  obtain ⟨hlast, -, htab, -⟩ := hwarns "odd" rfl (by decide) (by decide) (by decide)
  have hshown : ∀ {f : Findings} {label : Text} {q : Report} {shown : List Text}, Report.ofFindings f label = .ok q →
      (Report.ofFindings f label).toOption.map Report.lines = some shown → q.lines = shown := by
    intro f label q shown hq hlines
    rw [hq] at hlines
    exact Option.some.inj hlines
  have hlines : r.lines = [Text.ofString "a\t1:2, ", Text.ofString "b\t3"] := hshown hr (by decide +kernel)
  have hsame : s.lines = [Text.ofString "a\t1:2, ", Text.ofString "b\t3"] := hshown hs (by decide +kernel)
  have hlines' : r'.lines = r.lines ++ [Report.warningText "y" "odd"] := by
    rw [hlines]
    exact hshown hr' (by decide +kernel)
  rw [List.append_cancel_right (hlast.symm.trans hlines')] at htab
  exact ⟨r, r', hr, hr', hlines, hlines', htab, htells rfl rfl (.inl (hlines.trans hsame.symm))⟩

end FreeNames
