import FreeNames.Text
import Mathlib.Data.List.Basic

/-!
# Formats of text

A format says which code points spell which data, and has a reader that takes data from the front of a text. The two
agree: what spells data is read as that data, and only that is read. So what is spelled can be told from the text.

A reader decides by the next code point alone, and takes as much as it can. For this a format knows with which code
points its texts can start, and which code points must not come next because the reader would go on with them. Formats
are put together only where these sets of code points lie apart. For sets of characters this is decided, by looking at
their members.
-/

namespace FreeNames

/-! ### Sets of code points -/

/-- One of some characters. -/
def Among (cs : List Char) (p : CodePoint) : Prop := p ∈ cs.map CodePoint.ofChar

/-- In one set or the other. -/
def Either (A B : CodePoint → Prop) (p : CodePoint) : Prop := A p ∨ B p

/-- In a set, provided that something is the case. -/
def When (b : Bool) (A : CodePoint → Prop) (p : CodePoint) : Prop := b = true ∧ A p

/-- Not in a set. -/
def Outside (A : CodePoint → Prop) (p : CodePoint) : Prop := ¬ A p

/-- One set lies within another. -/
def Within (A B : CodePoint → Prop) : Prop := ∀ p, A p → B p

/-- Two sets lie apart. -/
abbrev Apart (A B : CodePoint → Prop) : Prop := Within A (Outside B)

section Sets

variable {A B C : CodePoint → Prop} {b : Bool} {cs : List Char}

instance : DecidablePred (Among cs) := fun p => inferInstanceAs (Decidable (p ∈ cs.map CodePoint.ofChar))

instance [DecidablePred A] [DecidablePred B] : DecidablePred (Either A B) :=
  fun p => inferInstanceAs (Decidable (A p ∨ B p))

instance [DecidablePred A] : DecidablePred (When b A) := fun p => inferInstanceAs (Decidable (b = true ∧ A p))

instance [DecidablePred A] : DecidablePred (Outside A) := fun p => inferInstanceAs (Decidable (¬ A p))

instance [DecidablePred B] : Decidable (Within (Among cs) B) :=
  decidable_of_iff (cs.all fun c => B (CodePoint.ofChar c)) (by simp [Within, Among])

instance [Decidable (Within A C)] [Decidable (Within B C)] : Decidable (Within (Either A B) C) :=
  decidable_of_iff (Within A C ∧ Within B C)
    ⟨fun h p => Or.rec (h.1 p) (h.2 p), fun h => ⟨fun p hp => h p (.inl hp), fun p hp => h p (.inr hp)⟩⟩

instance [Decidable (Within A B)] : Decidable (Within (When b A) B) :=
  decidable_of_iff (b = true → Within A B) ⟨fun h p hp => h hp.1 p hp.2, fun h hb p hp => h p ⟨hb, hp⟩⟩

theorem Within.refl : Within A A := fun _ hp => hp

theorem Within.either (h : Within A C) (h' : Within B C) : Within (Either A B) C := fun p => Or.rec (h p) (h' p)

theorem within_left : Within A (Either A B) := fun _ => .inl

theorem within_right : Within B (Either A B) := fun _ => .inr

theorem Apart.symm (h : Apart A B) : Apart B A := fun p hB hA => h p hA hB

/-- There is a first code point, and it is in a set. -/
def Starts (A : CodePoint → Prop) : List CodePoint → Prop
  | [] => False
  | p :: _ => A p

variable {s t : List CodePoint}

theorem Starts.append (h : Starts A s) : Starts A (s ++ t) := by
  cases s with
  | nil => exact h.elim
  | cons p s => exact h

theorem Starts.mono (hAB : Within A B) (h : Starts A s) : Starts B s := by
  cases s with
  | nil => exact h
  | cons p s => exact hAB p h

theorem Starts.apart (hAB : Apart A B) (h : Starts A s) : ¬ Starts B s := by
  cases s with
  | nil => exact h.elim
  | cons p s => exact hAB p h

theorem Starts.length_pos (h : Starts A s) : 0 < s.length := by
  cases s with
  | nil => exact h.elim
  | cons p s => exact Nat.succ_pos _

end Sets

/-! ### Formats -/

/-- A way to spell data, with a reader. Its texts start with a code point of `first`, or are empty if `empty` allows
it; the reader would go on with a code point of `more`. -/
structure Format (empty : Bool) (first more : CodePoint → Prop) (α : Type) where
  /-- The code points spell the data. -/
  Spells : List CodePoint → α → Prop
  /-- The data at the front of the code points, and the rest of them. -/
  take : List CodePoint → Option (α × List CodePoint)
  opens {s : List CodePoint} {a : α} : Spells s a → empty = true ∧ s = [] ∨ Starts first s
  complete {s rest : List CodePoint} {a : α} : Spells s a → ¬ Starts more rest → take (s ++ rest) = some (a, rest)
  sound {cs rest : List CodePoint} {a : α} : take cs = some (a, rest) → ∃ s, Spells s a ∧ cs = s ++ rest

namespace Format

variable {α β : Type} {empty empty' : Bool} {first first' more more' : CodePoint → Prop} {s cs rest : List CodePoint}

theorem starts (F : Format false first more α) {a : α} (h : F.Spells s a) : Starts first s :=
  (F.opens h).resolve_left fun hempty => Bool.noConfusion hempty.1

theorem take_eq_none (F : Format false first more α) (h : ¬ Starts first cs) : F.take cs = none := by
  cases htake : F.take cs with
  | none => rfl
  | some taken =>
    obtain ⟨s, hs, rfl⟩ := F.sound htake
    exact absurd (F.starts hs).append h

/-- What a reader would not go on with may be preceded by a text that it would not go on with either. -/
theorem not_starts_append (F : Format empty first more α) {follow : CodePoint → Prop} {a : α} (h : F.Spells s a)
    (hfirst : Apart first follow) (hempty : empty = true → Within follow more) (hrest : ¬ Starts more rest) :
    ¬ Starts follow (s ++ rest) := by
  rcases F.opens h with ⟨hb, rfl⟩ | hs
  · exact mt (Starts.mono (hempty hb)) hrest
  · exact Starts.apart hfirst hs.append

/-- No data. -/
def nothing : Format empty first more α where
  Spells _ _ := False
  take _ := none
  opens := False.elim
  complete := False.elim
  sound h := nomatch h

/-- A code point of a set. -/
def one (allowed : CodePoint → Prop) [DecidablePred allowed] : Format false allowed (Among []) CodePoint where
  Spells s p := s = [p] ∧ allowed p
  take
    | [] => none
    | p :: cs => if allowed p then some (p, cs) else none
  opens := by
    rintro s p ⟨rfl, hp⟩
    exact .inr hp
  complete := by
    rintro s rest p ⟨rfl, hp⟩ -
    exact if_pos hp
  sound := by
    intro cs rest p h
    cases cs with
    | nil => simp at h
    | cons q cs =>
      obtain ⟨hq, heq⟩ := Option.ite_none_right_eq_some.mp h
      obtain ⟨rfl, rfl⟩ := Prod.mk.inj (Option.some.inj heq)
      exact ⟨[q], ⟨rfl, hq⟩, rfl⟩

/-- A word. -/
def word (w : String) (hw : w.toList ≠ []) : Format false (Among (w.toList.take 1)) (Among []) Unit where
  Spells s _ := s = (Text.ofString w).points
  take cs := (cs.dropPrefix? (Text.ofString w).points).map fun rest => ((), rest)
  opens := by
    rintro s _ rfl
    rw [Text.ofString, Text.points_ofChars]
    cases hcs : w.toList with
    | nil => exact absurd hcs hw
    | cons c cs => exact .inr List.mem_cons_self
  complete := by
    rintro s rest _ rfl -
    rw [List.dropPrefix?_append_of_beq _ (beq_self_eq_true _)]
    rfl
  sound := by
    intro cs rest _ h
    obtain ⟨rest, hdrop, heq⟩ := Option.map_eq_some_iff.mp h
    obtain ⟨s, rfl, hs⟩ := List.dropPrefix?_eq_some_iff.mp hdrop
    obtain ⟨rfl, rfl⟩ := Prod.mk.inj heq
    exact ⟨s, beq_iff_eq.mp hs, rfl⟩

/-- The same texts for other data. -/
def map (f : α → β) (F : Format empty first more α) : Format empty first more β where
  Spells s b := ∃ a, F.Spells s a ∧ f a = b
  take cs := (F.take cs).map fun taken => (f taken.1, taken.2)
  opens := by
    rintro s _ ⟨a, hs, rfl⟩
    exact F.opens hs
  complete := by
    rintro s rest _ ⟨a, hs, rfl⟩ hrest
    rw [F.complete hs hrest]
    rfl
  sound := by
    intro cs rest b h
    obtain ⟨⟨a, rest⟩, htake, heq⟩ := Option.map_eq_some_iff.mp h
    obtain ⟨rfl, rfl⟩ := Prod.mk.inj heq
    obtain ⟨s, hs, hcs⟩ := F.sound htake
    exact ⟨s, ⟨a, hs, rfl⟩, hcs⟩

/-- The same format, with less known about it. -/
def widen (F : Format empty first more α) (hfirst : Within first first') (hmore : Within more more') :
    Format empty first' more' α where
  Spells := F.Spells
  take := F.take
  opens h := (F.opens h).imp_right (Starts.mono hfirst)
  complete h hrest := F.complete h (mt (Starts.mono hmore) hrest)
  sound := F.sound

/-- One after the other. -/
def seq (F : Format empty first more α) (G : Format empty' first' more' β) (hfirst : Apart first' more)
    (hempty : empty' = true → Within more more') :
    Format (empty && empty') (Either first (When empty first')) more' (α × β) where
  Spells s ab := ∃ s₁ s₂, F.Spells s₁ ab.1 ∧ G.Spells s₂ ab.2 ∧ s = s₁ ++ s₂
  take cs := (F.take cs).bind fun taken => (G.take taken.2).map fun taken' => ((taken.1, taken'.1), taken'.2)
  opens := by
    rintro _ _ ⟨s₁, s₂, h₁, h₂, rfl⟩
    rcases F.opens h₁ with ⟨hb, rfl⟩ | hs₁
    · rcases G.opens h₂ with ⟨hb', rfl⟩ | hs₂
      · exact .inl ⟨by rw [hb, hb']; rfl, rfl⟩
      · exact .inr (hs₂.mono fun p hp => .inr ⟨hb, hp⟩)
    · exact .inr (hs₁.append.mono within_left)
  complete := by
    rintro _ rest ⟨a, b⟩ ⟨s₁, s₂, h₁, h₂, rfl⟩ hrest
    rw [List.append_assoc, F.complete h₁ (G.not_starts_append h₂ hfirst hempty hrest), Option.bind_some,
      G.complete h₂ hrest]
    rfl
  sound := by
    intro cs rest ab h
    obtain ⟨⟨a, middle⟩, htake, h⟩ := Option.bind_eq_some_iff.mp h
    obtain ⟨⟨b, rest⟩, htake', heq⟩ := Option.map_eq_some_iff.mp h
    obtain ⟨rfl, rfl⟩ := Prod.mk.inj heq
    obtain ⟨s₁, h₁, rfl⟩ := F.sound htake
    obtain ⟨s₂, h₂, hmiddle⟩ := G.sound htake'
    exact ⟨s₁ ++ s₂, ⟨s₁, s₂, h₁, h₂, rfl⟩, by rw [List.append_assoc, ← hmiddle]⟩

/-- One after the other, the first of them not empty. -/
def andThen (F : Format false first more α) (G : Format empty first' more' β) (hfirst : Apart first' more)
    (hempty : empty = true → Within more more') : Format false first more' (α × β) :=
  (F.seq G hfirst hempty).widen (fun _ hp => hp.resolve_right fun hwhen => Bool.noConfusion hwhen.1) .refl

/-- One or the other. -/
def orElse (F : Format false first more α) (G : Format false first' more α) (hfirst : Apart first first') :
    Format false (Either first first') more α where
  Spells s a := F.Spells s a ∨ G.Spells s a
  take cs := (F.take cs).or (G.take cs)
  opens h := .inr (h.elim (fun hs => (F.starts hs).mono within_left) fun hs => (G.starts hs).mono within_right)
  complete := by
    rintro s rest a (hs | hs) hrest
    · rw [F.complete hs hrest, Option.some_or]
    · rw [F.take_eq_none ((G.starts hs).append.apart hfirst.symm), G.complete hs hrest, Option.none_or]
  sound := by
    intro cs rest a h
    rcases Option.or_eq_some_iff.mp h with htake | ⟨-, htake⟩
    · exact (F.sound htake).imp fun s hs => ⟨.inl hs.1, hs.2⟩
    · exact (G.sound htake).imp fun s hs => ⟨.inr hs.1, hs.2⟩

/-- Once or not at all. -/
def option (F : Format false first more α) : Format true first (Either first more) (Option α) where
  Spells s o := o = none ∧ s = [] ∨ ∃ a, o = some a ∧ F.Spells s a
  take cs := some ((F.take cs).elim (none, cs) fun taken => (some taken.1, taken.2))
  opens := by
    rintro s _ (⟨rfl, rfl⟩ | ⟨a, rfl, hs⟩)
    · exact .inl ⟨rfl, rfl⟩
    · exact .inr (F.starts hs)
  complete := by
    rintro s rest _ (⟨rfl, rfl⟩ | ⟨a, rfl, hs⟩) hrest
    · rw [List.nil_append, F.take_eq_none (mt (Starts.mono within_left) hrest)]
      rfl
    · rw [F.complete hs (mt (Starts.mono within_right) hrest)]
      rfl
  sound := by
    intro cs rest o h
    have h := Option.some.inj h
    cases htake : F.take cs with
    | none =>
      rw [htake] at h
      obtain ⟨rfl, rfl⟩ := Prod.mk.inj h
      exact ⟨[], .inl ⟨rfl, rfl⟩, rfl⟩
    | some taken =>
      rw [htake] at h
      obtain ⟨rfl, rfl⟩ := Prod.mk.inj h
      obtain ⟨s, hs, hcs⟩ := F.sound htake
      exact ⟨s, .inr ⟨_, rfl, hs⟩, hcs⟩

/-- Texts one after another, each of which spells its item. -/
inductive Many (R : List CodePoint → α → Prop) : List CodePoint → List α → Prop where
  | nil : Many R [] []
  | cons {s t : List CodePoint} {a : α} {l : List α} : R s a → Many R t l → Many R (s ++ t) (a :: l)

/-- What a reader takes again and again, at most so often. -/
def takeMany (take : List CodePoint → Option (α × List CodePoint)) : Nat → List CodePoint → List α × List CodePoint
  | 0, cs => ([], cs)
  | n + 1, cs =>
    match take cs with
    | none => ([], cs)
    | some (a, rest) => (takeMany take n rest).map (a :: ·) id

theorem starts_of_many (F : Format false first more α) {l : List α} (h : Many F.Spells s l) :
    s = [] ∨ Starts first s := by
  cases h with
  | nil => exact .inl rfl
  | cons hs _ => exact .inr (F.starts hs).append

theorem takeMany_append (F : Format false first more α) (hfirst : Apart first more)
    (hrest : ¬ Starts (Either first more) rest) {l : List α} (h : Many F.Spells s l) :
    ∀ {n : Nat}, s.length ≤ n → takeMany F.take n (s ++ rest) = (l, rest) := by
  -- No item is spelled by the empty text, so there are at most as many items as code points.
  induction h with
  | nil =>
    intro n _
    cases n with
    | zero => rfl
    | succ n => rw [List.nil_append, takeMany, F.take_eq_none (mt (Starts.mono within_left) hrest)]
  | @cons s t a l hs ht ih =>
    intro n hn
    have hpos := (F.starts hs).length_pos
    rw [List.length_append] at hn
    cases n with
    | zero => omega
    | succ n =>
      have hmore : ¬ Starts more (t ++ rest) := by
        rcases F.starts_of_many ht with rfl | hstarts
        · exact mt (Starts.mono within_right) hrest
        · exact hstarts.append.apart hfirst
      rw [List.append_assoc, takeMany, F.complete hs hmore]
      simp only [ih (show t.length ≤ n by omega)]
      rfl

theorem takeMany_sound (F : Format false first more α) : ∀ (n : Nat) (cs : List CodePoint),
    ∃ s, Many F.Spells s (takeMany F.take n cs).1 ∧ cs = s ++ (takeMany F.take n cs).2
  | 0, cs => ⟨[], .nil, rfl⟩
  | n + 1, cs => by
    rw [takeMany]
    cases htake : F.take cs with
    | none => exact ⟨[], .nil, rfl⟩
    | some taken =>
      obtain ⟨s, hs, rfl⟩ := F.sound htake
      obtain ⟨t, ht, hrest⟩ := F.takeMany_sound n taken.2
      exact ⟨s ++ t, .cons hs ht, by rw [List.append_assoc]; exact congrArg (s ++ ·) hrest⟩

/-- Any number of times. -/
def many (F : Format false first more α) (hfirst : Apart first more) :
    Format true first (Either first more) (List α) where
  Spells := Many F.Spells
  take cs := some (takeMany F.take cs.length cs)
  opens h := (F.starts_of_many h).imp_left fun hs => ⟨rfl, hs⟩
  complete h hrest := by
    rw [F.takeMany_append hfirst hrest h (by simp)]
  sound h := by
    obtain ⟨s, hs, hcs⟩ := F.takeMany_sound _ _
    rw [Option.some.inj h] at hs hcs
    exact ⟨s, hs, hcs⟩

/-! ### Spelling -/

section Spelling

variable {F : Format empty first more α} {G : Format empty' first' more' β} {H : Format false first more α}
  {t : List CodePoint} {a : α} {b : β}

theorem spells_of_take (h : F.take s = some (a, [])) : F.Spells s a := by
  obtain ⟨t, ht, hs⟩ := F.sound h
  rw [List.append_nil] at hs
  rwa [hs]

theorem spells_map (f : α → β) (hF : F.Spells s a) : (F.map f).Spells s (f a) := ⟨a, hF, rfl⟩

theorem spells_andThen {hfirst : Apart first' more} {hempty : empty' = true → Within more more'} (hH : H.Spells s a)
    (hG : G.Spells t b) : (H.andThen G hfirst hempty).Spells (s ++ t) (a, b) :=
  ⟨s, t, hH, hG, rfl⟩

theorem spells_none : H.option.Spells [] none := .inl ⟨rfl, rfl⟩

theorem spells_some (hH : H.Spells s a) : H.option.Spells s (some a) := .inr ⟨a, rfl, hH⟩

/-- Code points of a set, one after another, are spelled by themselves. -/
theorem many_one {allowed : CodePoint → Prop} [DecidablePred allowed] :
    ∀ {s : List CodePoint}, (∀ p ∈ s, allowed p) → Many (one allowed).Spells s s
  | [], _ => .nil
  | p :: s, h => by
    obtain ⟨hp, hs⟩ := List.forall_mem_cons.mp h
    exact .cons (s := [p]) ⟨rfl, hp⟩ (many_one hs)

end Spelling

/-! ### Short texts -/

/-- What a format spells with at most so many code points, another spells as well. -/
def Below (k : Nat) (F F' : Format empty first more α) : Prop :=
  ∀ s a, s.length ≤ k → F.Spells s a → F'.Spells s a

namespace Below

variable {k : Nat} {F F' : Format empty first more α} {G G' : Format empty' first' more' β}

theorem refl : Below k F F := fun _ _ _ h => h

theorem map (hF : Below k F F') (f : α → β) : Below k (F.map f) (F'.map f) := by
  rintro s _ hk ⟨a, hs, rfl⟩
  exact ⟨a, hF s a hk hs, rfl⟩

theorem widen (hF : Below k F F') (hfirst : Within first first') (hmore : Within more more') :
    Below k (F.widen hfirst hmore) (F'.widen hfirst hmore) := hF

theorem seq (hF : Below k F F') (hG : Below k G G') (hfirst : Apart first' more)
    (hempty : empty' = true → Within more more') : Below k (F.seq G hfirst hempty) (F'.seq G' hfirst hempty) := by
  rintro _ _ hk ⟨s₁, s₂, h₁, h₂, rfl⟩
  rw [List.length_append] at hk
  exact ⟨s₁, s₂, hF _ _ (by omega) h₁, hG _ _ (by omega) h₂, rfl⟩

variable {H H' : Format false first more α}

theorem andThen (hH : Below k H H') (hG : Below k G G') (hfirst : Apart first' more)
    (hempty : empty' = true → Within more more') : Below k (H.andThen G hfirst hempty) (H'.andThen G' hfirst hempty) :=
  (hH.seq hG hfirst hempty).widen _ _

/-- Behind something that is not empty, there is less left. -/
theorem behind (hG : Below k G G') (hfirst : Apart first' more) (hempty : empty' = true → Within more more') :
    Below (k + 1) (H.andThen G hfirst hempty) (H.andThen G' hfirst hempty) := by
  rintro _ _ hk ⟨s₁, s₂, h₁, h₂, rfl⟩
  have hpos := (H.starts h₁).length_pos
  rw [List.length_append] at hk
  exact ⟨s₁, s₂, h₁, hG _ _ (by omega) h₂, rfl⟩

theorem option (hH : Below k H H') : Below k H.option H'.option := by
  rintro s _ hk (hs | ⟨a, rfl, hs⟩)
  · exact .inl hs
  · exact .inr ⟨a, rfl, hH s a hk hs⟩

theorem many (hH : Below k H H') (hfirst : Apart first more) : Below k (H.many hfirst) (H'.many hfirst) := by
  intro s l hk h
  induction h with
  | nil => exact .nil
  | cons hs _ ih =>
    rw [List.length_append] at hk
    exact .cons (hH _ _ (by omega) hs) (ih (by omega))

end Below

end Format

end FreeNames
