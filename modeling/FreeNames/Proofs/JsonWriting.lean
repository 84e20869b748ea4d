import FreeNames.Proofs.JsonText
import FreeNames.Proofs.ReportedSites

/-!
# What is written as JSON

Values are written over several lines, with white space behind the marks and behind the last of several items. Nulls,
whole numbers and texts, and the arrays and objects that are made of them, come out as JSON texts, and stand for the
data that they were (`spells_write`).

A code point in a string is escaped or stands for itself; a control character without an escape of its own is spelled
by its code. No such code is half a character, so nothing is joined that was apart.
-/

namespace FreeNames.Json

open Format

variable {α : Type} {first more : CodePoint → Prop} {s b : List CodePoint} {n : Nat}

/-! ### White space -/

/-- There is only white space. -/
def IsBlank (s : List CodePoint) : Prop := ∀ p ∈ s, Among blanks p

instance (s : List CodePoint) : Decidable (IsBlank s) := List.decidableBAll _ s

theorem isBlank_nil : IsBlank [] := fun _ hp => absurd hp List.not_mem_nil

theorem isBlank_newline (depth : Nat) : IsBlank (newline depth).points := by
  intro p hp
  obtain ⟨c, hc, rfl⟩ := List.mem_map.mp hp
  refine List.mem_map_of_mem ?_
  rcases List.mem_cons.mp hc with rfl | hc
  · decide
  · rw [List.eq_of_mem_replicate hc]
    decide

theorem spells_mark (c : Char) : (mark c).Spells [CodePoint.ofChar c] () :=
  spells_map _ ⟨rfl, List.mem_singleton_self _⟩

theorem spells_lexeme {F : Format false first more α} {h : Apart (Among blanks) more} {a : α} (hF : F.Spells s a)
    (hb : IsBlank b) : (lexeme F h).Spells (s ++ b) a :=
  spells_map _ (spells_andThen hF (many_one hb))

/-! ### Strings -/

/-- How a code point is written in a string. -/
def Piece.ofPoint (p : CodePoint) : Piece :=
  if p.val < 0x20 ∧ ¬ Among ['\n', '\r', '\t', '\x08', '\x0c'] p then .unit p else .point p

theorem Piece.join_unit {p : CodePoint} (h : p.isHighHalf = false) (rest : List Piece) :
    join (.unit p :: rest) = p :: join rest := by
  cases rest with
  | nil => rfl
  | cons q rest =>
    cases q with
    | point q => rfl
    | unit q => simp [join, h]

theorem Piece.join_map_ofPoint (points : List CodePoint) : join (points.map ofPoint) = points := by
  induction points with
  | nil => rfl
  | cons p points ih =>
    rw [List.map_cons, ofPoint]
    split
    · rename_i h
      have hhalf : p.isHighHalf = false := by
        rw [CodePoint.isHighHalf, Bool.and_eq_false_iff, decide_eq_false_iff_not]
        omega
      rw [join_unit hhalf, ih]
    · rw [join, ih]

/-- What is written for a control character, a quote or a backslash is read as that. -/
theorem take_escape : (∀ v < 0x20, piece.take (escape (.ofNat v)).points = some (.ofPoint (.ofNat v), [])) ∧
    piece.take (escape (CodePoint.ofChar '"')).points = some (.point (CodePoint.ofChar '"'), []) ∧
    piece.take (escape (CodePoint.ofChar '\\')).points = some (.point (CodePoint.ofChar '\\'), []) := by
  decide +kernel

theorem spells_escape (p : CodePoint) : piece.Spells (escape p).points (.ofPoint p) := by
  obtain ⟨hcontrols, hquote, hbackslash⟩ := take_escape
  by_cases hcontrol : p.val < 0x20
  · have hp : p = .ofNat p.val := Fin.ext (show p.val = min p.val 0x10ffff by omega)
    rw [hp]
    exact spells_of_take (hcontrols p.val hcontrol)
  · have hpoint : Piece.ofPoint p = .point p := if_neg fun h => hcontrol h.1
    rw [hpoint]
    by_cases hmark : Among ['"', '\\'] p
    · rcases List.mem_cons.mp hmark with rfl | hmark
      · exact spells_of_take hquote
      · obtain rfl := List.mem_singleton.mp hmark
        exact spells_of_take hbackslash
    · have hne : ∀ c : Char, c.toNat < 0x20 ∨ c ∈ ['"', '\\'] → p ≠ CodePoint.ofChar c := by
        rintro c (hc | hc) rfl
        · exact hcontrol hc
        · exact hmark (List.mem_map_of_mem hc)
      have hescape : escape p = ⟨[p]⟩ := by
        simp [escape, hcontrol, hne '"' (by decide), hne '\\' (by decide), hne '\n' (by decide), hne '\r' (by decide),
          hne '\t' (by decide), hne '\x08' (by decide), hne '\x0c' (by decide)]
      rw [hescape]
      exact .inr ⟨p, ⟨rfl, by omega, hmark⟩, rfl⟩

theorem spells_quote (t : Text) : quoted.Spells (quote t).points t := by
  have hpieces : ∀ points : List CodePoint,
      Many piece.Spells (points.flatMap fun p => (escape p).points) (points.map Piece.ofPoint) := by
    intro points
    induction points with
    | nil => exact .nil
    | cons p points ih => exact .cons (spells_escape p) ih
  have hquote : (quote t).points =
      [CodePoint.ofChar '"'] ++ ((t.points.flatMap fun p => (escape p).points) ++ [CodePoint.ofChar '"']) := by
    simp [quote, Text.concat, Text.ofString, List.flatMap_map]
  rw [hquote]
  exact ⟨((), t.points.map Piece.ofPoint, ()),
    ⟨_, _, spells_mark '"', ⟨_, _, hpieces t.points, spells_mark '"', rfl⟩, rfl⟩,
    congrArg Text.mk (Piece.join_map_ofPoint t.points)⟩

/-! ### Numbers -/

/-- The digits of a number have no needless zeros in front. -/
theorem toDigits_cases (m : Nat) : m = 0 ∧ Nat.toDigits 10 m = ['0'] ∨
    ∃ c cs, Nat.toDigits 10 m = c :: cs ∧ c ∈ digits.tail ∧ ∀ d ∈ cs, d ∈ digits := by
  have hdigit : ∀ k < 10, k.digitChar ∈ digits ∧ (k ≠ 0 → k.digitChar ∈ digits.tail) := by decide
  induction m using Nat.strongRecOn with
  | _ m ih =>
    by_cases hm : m < 10
    · rw [Nat.toDigits_of_lt_base hm]
      by_cases hzero : m = 0
      · exact .inl ⟨hzero, by rw [hzero]; rfl⟩
      · exact .inr ⟨_, [], rfl, (hdigit m hm).2 hzero, fun d hd => absurd hd List.not_mem_nil⟩
    · rw [Nat.toDigits_of_base_le (by omega) (by omega)]
      rcases ih (m / 10) (by omega) with ⟨hzero, -⟩ | ⟨c, cs, hdigits, hc, hcs⟩
      · omega
      · refine .inr ⟨c, cs ++ [(m % 10).digitChar], by rw [hdigits]; rfl, hc, fun d hd => ?_⟩
        rcases List.mem_append.mp hd with hd | hd
        · exact hcs d hd
        · rw [List.mem_singleton.mp hd]
          exact (hdigit (m % 10) (by omega)).1

theorem spells_whole (m : Nat) :
    whole.Spells ((Nat.toDigits 10 m).map CodePoint.ofChar) ((Nat.toDigits 10 m).map CodePoint.ofChar) := by
  rcases toDigits_cases m with ⟨-, hdigits⟩ | ⟨c, cs, hdigits, hc, hcs⟩
  · rw [hdigits]
    exact .inl (spells_map _ ⟨rfl, by decide⟩)
  · rw [hdigits]
    have hrest : ∀ p ∈ cs.map CodePoint.ofChar, Among digits p :=
      List.forall_mem_map.mpr fun d hd => List.mem_map_of_mem (hcs d hd)
    exact .inr ⟨(_, _), ⟨[_], _, ⟨rfl, List.mem_map_of_mem hc⟩, many_one hrest, rfl⟩, rfl⟩

theorem natural_toDigits (m : Nat) : natural ((Nat.toDigits 10 m).map CodePoint.ofChar) = m := by
  have hshown : ∀ cs : List Char, (cs.map CodePoint.ofChar).map CodePoint.shown = cs := by
    intro cs
    rw [List.map_map]
    exact List.map_id'' (fun c => by simp [CodePoint.shown]) cs
  have hvalue : ∀ (k : Nat), ∀ c ∈ Nat.toDigits 10 m, 10 * k + Text.digitValue c = 10 * k + (c.toNat - '0'.toNat) := by
    intro k c hc
    rw [Text.digitValue, if_pos (Nat.isDigit_of_mem_toDigits (by omega) (by omega) hc)]
  calc natural ((Nat.toDigits 10 m).map CodePoint.ofChar)
      = Text.digitsValue 10 (Nat.toDigits 10 m) := by rw [natural, hshown]
    _ = Nat.ofDigitChars 10 (Nat.toDigits 10 m) 0 := List.foldl_ext _ _ 0 hvalue
    _ = m := Nat.ofDigitChars_ten_toDigits

theorem spells_decimal (n : Int) : numeric.Spells (Text.decimal n).points (.int n) := by
  have hsigned : ∀ {s : List CodePoint} {sign : Option Unit}, (mark '-').option.Spells s sign →
      signed sign.isSome n.natAbs = n →
      numeric.Spells (s ++ (Nat.toDigits 10 n.natAbs).map CodePoint.ofChar) (.int n) := by
    intro s sign hs hn
    refine ⟨(sign, (Nat.toDigits 10 n.natAbs).map CodePoint.ofChar, none, none), ⟨_, _, hs, ⟨_, _, spells_whole _,
      ⟨[], [], spells_none, spells_none, rfl⟩, (List.append_nil _).symm⟩, rfl⟩, ?_⟩
    show Data.int (signed sign.isSome (natural _)) = .int n
    rw [natural_toDigits, hn]
  rw [Text.points_decimal, toList_toString_int, List.map_append]
  split
  · exact hsigned (spells_some (spells_mark '-')) (show -(n.natAbs : Int) = n by omega)
  · exact hsigned spells_none (show (n.natAbs : Int) = n by omega)

/-! ### Arrays and objects -/

/-- An item is spelled, whatever white space comes behind. -/
def Ends (F : Item α) (s : List CodePoint) (a : α) : Prop := ∀ b, IsBlank b → F.Spells (s ++ b) a

theorem ends_element {d : Data} {F : Format false (Among openings) (Among numeral) Data} (h : F.Spells s d) :
    Ends (element F) s d :=
  fun _ hb => spells_lexeme h hb

theorem Ends.field {F : Item Data} {name : Text} {d : Data} (h : Ends F s d) :
    Ends (field F) ((quote name ++ ": ").points ++ s) (name, d) := by
  intro b hb
  have hname : (lexeme quoted (by decide)).Spells ((quote name).points ++ []) name :=
    spells_lexeme (spells_quote name) isBlank_nil
  have hcolon : (lexeme (mark ':') (by decide)).Spells ([CodePoint.ofChar ':'] ++ [CodePoint.ofChar ' ']) () :=
    spells_lexeme (spells_mark ':') (by decide)
  refine ⟨(name, (), d), ⟨_, _, hname, ⟨_, _, hcolon, h b hb, rfl⟩, ?_⟩, rfl⟩
  simp [Text.ofString]

/-- Further parts, each behind a comma and white space, with white space at the end. -/
theorem many_further {F : Item α} {gap b : List CodePoint} (hgap : IsBlank gap) (hb : IsBlank b) {parts : List Text}
    {l : List α} (h : List.Forall₂ (fun part a => Ends F part.points a) parts l) (hne : parts ≠ []) :
    Many (further F).Spells
      ((parts.flatMap fun part => CodePoint.ofChar ',' :: gap ++ part.points) ++ b) l := by
  have hfurther : ∀ {s : List CodePoint} {a : α}, F.Spells s a →
      (further F).Spells (CodePoint.ofChar ',' :: gap ++ s) a :=
    fun hs => ⟨((), _), ⟨_, _, spells_lexeme (spells_mark ',') hgap, hs, rfl⟩, rfl⟩
  induction h with
  | nil => exact absurd rfl hne
  | @cons part a parts l hpart hparts ih =>
    rw [List.flatMap_cons]
    cases hparts with
    | nil =>
      have hlast := Many.cons (hfurther (hpart b hb)) .nil
      simpa using hlast
    | cons hnext hrest =>
      have hfirst := hfurther (hpart [] isBlank_nil)
      rw [List.append_nil] at hfirst
      rw [List.append_assoc]
      exact .cons hfirst (ih (List.cons_ne_nil _ _))

theorem spells_separated {F : Item α} {gap b : List CodePoint} (hgap : IsBlank gap) (hb : IsBlank b) {part : Text}
    {parts : List Text} {a : α} {l : List α}
    (hpart : Ends F part.points a) (h : List.Forall₂ (fun part a => Ends F part.points a) parts l) :
    (separated F).Spells
      (part.points ++ ((parts.flatMap fun part => CodePoint.ofChar ',' :: gap ++ part.points) ++ b)) (a :: l) := by
  cases h with
  | nil => exact ⟨(a, []), ⟨_, _, hpart b hb, .nil, (List.append_nil _).symm⟩, rfl⟩
  | @cons _ _ parts l hnext hrest =>
    have hfirst := hpart [] isBlank_nil
    rw [List.append_nil] at hfirst
    exact ⟨(a, _), ⟨_, _, hfirst, many_further hgap hb (.cons hnext hrest) (List.cons_ne_nil _ _), rfl⟩, rfl⟩

/-- Parts that are written one to a line are items between marks. -/
theorem spells_block (depth : Nat) {opening closing : Char} {left right : String} (hleft : left.toList = [opening])
    (hright : right.toList = [closing]) (h : Closes closing) {F : Item α} {parts : List Text} {l : List α}
    (hparts : List.Forall₂ (fun part a => Ends F part.points a) parts l) :
    (enclosed opening closing h F).Spells (block depth left right parts).points l := by
  have hopening : ∀ {b : List CodePoint}, IsBlank b →
      (lexeme (mark opening) (by decide)).Spells ([CodePoint.ofChar opening] ++ b) () :=
    spells_lexeme (spells_mark opening)
  cases hparts with
  | nil =>
    refine ⟨((), none, ()), ⟨_, _, hopening isBlank_nil, ⟨_, _, spells_none, spells_mark closing, rfl⟩, ?_⟩, rfl⟩
    simp [block, hleft, hright, Text.ofString]
  | @cons part a parts l hpart hparts =>
    refine ⟨((), some (a :: l), ()), ⟨_, _, hopening (isBlank_newline (depth + 1)), ⟨_, _, spells_some
      (spells_separated (isBlank_newline (depth + 1)) (isBlank_newline depth) hpart hparts), spells_mark closing,
      rfl⟩, ?_⟩, rfl⟩
    simp [block, hleft, hright, Text.concat, Text.ofString, List.flatMap_map]

/-! ### Values -/

/-- A value is written as a text of the data, at every depth. Values stand at most so deep inside one another. -/
def Writes (n : Nat) (v : Value) (d : Data) : Prop := ∀ depth, (value n).Spells (writeAt depth v).points d

theorem writes_null : Writes (n + 1) .null .null := fun _ => .inl (.inl ⟨(), rfl, rfl⟩)

theorem writes_int (i : Int) : Writes (n + 1) (.int i) (.int i) :=
  fun _ => .inl (.inr (.inr (.inr (.inl (spells_decimal i)))))

theorem writes_text (t : Text) : Writes (n + 1) (.text t) (.text t) :=
  fun _ => .inl (.inr (.inr (.inr (.inr (spells_map _ (spells_quote t))))))

theorem writeItems_eq (depth : Nat) (items : List Value) : writeItems depth items = items.map (writeAt depth) := by
  induction items with
  | nil => rfl
  | cons v items ih => rw [writeItems, ih, List.map_cons]

theorem writeFields_eq (depth : Nat) (fields : List (String × Value)) :
    writeFields depth fields = fields.map fun x => quote x.1 ++ ": " ++ writeAt depth x.2 := by
  induction fields with
  | nil => rfl
  | cons x fields ih => rw [writeFields, ih, List.map_cons]

theorem writes_array {items : List Value} {ds : List Data} (h : List.Forall₂ (Writes n) items ds) :
    Writes (n + 1) (.array items) (.array ds) := by
  intro depth
  rw [writeAt, writeItems_eq]
  refine .inr (.inl (spells_map _ (spells_block depth rfl rfl (by decide) ?_)))
  rw [List.forall₂_map_left_iff]
  exact h.imp fun v d hv => ends_element (hv (depth + 1))

theorem writes_object {label : Nat} {fields : List (String × Value)} {ds : List (Text × Data)}
    (h : List.Forall₂ (fun x y => y.1 = .ofString x.1 ∧ Writes n x.2 y.2) fields ds) :
    Writes (n + 1) (.object label fields) (.object ds) := by
  intro depth
  rw [writeAt, writeFields_eq]
  refine .inr (.inr (spells_map _ (spells_block depth rfl rfl (by decide) ?_)))
  rw [List.forall₂_map_left_iff]
  refine h.imp fun x y hxy => ?_
  obtain ⟨name, d⟩ := y
  obtain ⟨rfl, hv⟩ := hxy
  exact (ends_element (hv (depth + 1))).field

theorem spells_write {v : Value} {d : Data} (h : Writes n v d) : Spells (write v) d := by
  have helement := ends_element (h 0) [] isBlank_nil
  rw [List.append_nil] at helement
  exact ⟨n, ([], d), ⟨[], _, .nil, helement, rfl⟩, rfl⟩

end FreeNames.Json
