/-
  File:      CodeAtlas/Proofs/Markup/Markers.lean
  Subject:   Which comment marker of a text is taken.

  The search goes from left to right and takes the two characters of a marker that
  it passes over as one. Here the marker is told by its offset alone:

  * `IsFirst`: the least number with a property, or none.
  * `OddAround`: the double quotes are odd in number on both sides of an offset. The
    search passes over such a marker.
  * `InClosedLiteral`: an offset inside a literal, where the quotes are paired from
    left to right.
  * `marker_isFirst`: the marker that is taken is the first one that is not
    `OddAround`. If the quotes of the text are even in number, it is the first one
    outside closed literals; otherwise it need not be (`marker_in_closed_literal`).
-/
import CodeAtlas.Proofs.Markup.Comments

namespace CodeAtlas.Markup

/-! ## 1. Offsets of a text -/

/-- A comment marker begins at the offset. -/
def MarkerAt (text : Text) (offset : Nat) : Prop := startsComment (text.drop offset) = true

/-- An odd number of double quotes stands before the offset, and an odd number behind it. -/
def OddAround (text : Text) (offset : Nat) : Prop :=
  (text.take offset).count '"' % 2 = 1 ∧ (text.drop offset).count '"' % 2 = 1

/-- The double quotes being paired from left to right, the offset is between those of a pair. -/
def InClosedLiteral (text : Text) (offset : Nat) : Prop :=
  (text.take offset).count '"' % 2 = 1 ∧ '"' ∈ text.drop offset

/-- The least number with a property; there is none if no number has it. -/
def IsFirst (p : Nat → Prop) : Option Nat → Prop
  | none => ∀ offset, ¬ p offset
  | some found => p found ∧ ∀ offset < found, ¬ p offset

theorem IsFirst.congr {p q : Nat → Prop} (h : ∀ offset, p offset ↔ q offset) {found : Option Nat}
    (hfound : IsFirst p found) : IsFirst q found := by
  have e : p = q := funext fun offset => propext (h offset)
  exact e ▸ hfound

/-- A comment marker that is not passed over begins at the offset. -/
def TakenAt (text : Text) (offset : Nat) : Prop := MarkerAt text offset ∧ ¬ OddAround text offset

/-- Between two texts, the quotes before and behind are those of the texts. -/
theorem takenAt_length {before rest : Text} :
    TakenAt (before ++ rest) before.length ↔
      startsComment rest = true ∧ ¬ (before.count '"' % 2 = 1 ∧ rest.count '"' % 2 = 1) := by
  unfold TakenAt MarkerAt OddAround
  rw [List.drop_left, List.take_left]

/-- No marker begins behind the end of a text. -/
theorem not_takenAt_of_le {text : Text} {offset : Nat} (h : text.length ≤ offset) :
    ¬ TakenAt text offset := by
  rintro ⟨hmarker, -⟩
  rw [MarkerAt, List.drop_eq_nil_of_le h] at hmarker
  exact nomatch hmarker

/-! ## 2. The search -/

/-- What the search knows between `before` and `rest`: no marker is taken in `before`, and if the
next character ends a marker that was passed over, the quotes are odd in number on both sides. -/
structure Searching (before rest : Text) (second : Bool) : Prop where
  passed : ∀ offset < before.length, ¬ TakenAt (before ++ rest) offset
  odd : second = true → before.count '"' % 2 = 1 ∧ rest.count '"' % 2 = 1

/-- One character that is not taken is passed over. -/
theorem Searching.next {before rest : Text} {second second' : Bool} {c : Char}
    (h : Searching before (c :: rest) second)
    (hnot : ¬ TakenAt (before ++ c :: rest) before.length)
    (hodd : second' = true → (before ++ [c]).count '"' % 2 = 1 ∧ rest.count '"' % 2 = 1) :
    Searching (before ++ [c]) rest second' := by
  refine ⟨fun offset hoffset => ?_, hodd⟩
  rw [List.append_assoc, List.singleton_append]
  rw [List.length_append, List.length_singleton] at hoffset
  rcases Nat.lt_succ_iff_lt_or_eq.mp hoffset with hlt | rfl
  · exact h.passed offset hlt
  · exact hnot

/-- One more character counts for one if it is a double quote. -/
theorem count_quote_append (before : Text) (c : Char) :
    (before ++ [c]).count '"' = if c == '"' then before.count '"' + 1 else before.count '"' := by
  rw [List.count_append, List.count_singleton]
  split <;> rfl

/-- **The search finds the first marker that is to be taken**, if no marker before is. -/
theorem commentMarkerFrom_isFirst {before rest : Text} {second : Bool}
    (h : Searching before rest second) :
    IsFirst (TakenAt (before ++ rest))
      (commentMarkerFrom (before.count '"') second before.length rest) := by
  induction rest generalizing before second with
  | nil =>
    intro offset
    by_cases hoffset : offset < before.length
    · exact h.passed offset hoffset
    · exact not_takenAt_of_le (by simpa using Nat.le_of_not_lt hoffset)
  | cons c rest ih =>
    have hlength : (before ++ [c]).length = before.length + 1 := List.length_append
    have hsplit : before ++ [c] ++ rest = before ++ c :: rest := List.append_assoc _ _ _
    unfold commentMarkerFrom
    split <;> rename_i hstarts
    · rw [Bool.and_eq_true] at hstarts
      split <;> rename_i hodd
      · -- a marker between odd numbers of quotes; its second character is next
        rw [Bool.and_eq_true, beq_iff_eq, beq_iff_eq] at hodd
        have hc : c ≠ '"' := startsComment_ne_quote hstarts.2
        have hsame : (before ++ [c]).count '"' = before.count '"' := by
          rw [count_quote_append, if_neg (mt beq_iff_eq.mp hc)]
        have hrest : (c :: rest).count '"' = rest.count '"' := List.count_cons_of_ne hc
        have hnext : Searching (before ++ [c]) rest true :=
          h.next (fun htaken => (takenAt_length.mp htaken).2 hodd) fun _ => by
            rw [hsame, ← hrest]
            exact hodd
        rw [← hsplit, ← hsame, ← hlength]
        exact ih hnext
      · rw [Bool.and_eq_true, beq_iff_eq, beq_iff_eq] at hodd
        exact ⟨takenAt_length.mpr ⟨hstarts.2, hodd⟩, h.passed⟩
    · -- no marker, or the second character of the one before
      have hnot : ¬ TakenAt (before ++ c :: rest) before.length := fun htaken => by
        obtain ⟨hmarker, heven⟩ := takenAt_length.mp htaken
        cases second with
        | true => exact heven (h.odd rfl)
        | false => exact hstarts hmarker
      rw [← hsplit, ← count_quote_append, ← hlength]
      exact ih (h.next hnot fun hfalse => absurd hfalse Bool.false_ne_true)

theorem isFirst_takenAt (text : Text) : IsFirst (TakenAt text) (commentMarker? text) := by
  have hstart : Searching [] text false :=
    ⟨fun _ h => absurd h (Nat.not_lt_zero _), fun h => absurd h Bool.false_ne_true⟩
  exact commentMarkerFrom_isFirst hstart

/-- The marker that is taken is one. -/
theorem markerAt_of_commentMarker? {text : Text} {position : Nat}
    (h : commentMarker? text = some position) : MarkerAt text position := by
  have hfirst := isFirst_takenAt text
  rw [h] at hfirst
  exact hfirst.1.1

/-! ## 3. Closed literals -/

/-- If the quotes of a text are even in number, they are odd in number on both sides of exactly
the offsets in closed literals. -/
theorem oddAround_iff {text : Text} (heven : text.count '"' % 2 = 0) (offset : Nat) :
    OddAround text offset ↔ InClosedLiteral text offset := by
  have hsum : (text.take offset).count '"' + (text.drop offset).count '"' = text.count '"' := by
    rw [← List.count_append, List.take_append_drop]
  constructor
  · rintro ⟨hbefore, hbehind⟩
    exact ⟨hbefore, List.count_pos_iff.mp (by omega)⟩
  · rintro ⟨hbefore, -⟩
    exact ⟨hbefore, by omega⟩

/-- **The marker that is taken is the first one that does not have an odd number of double quotes
on both sides.** If the quotes of the text are even in number, this is the first one outside
closed literals. -/
theorem marker_isFirst (text : Text) :
    IsFirst (fun offset => MarkerAt text offset ∧ ¬ OddAround text offset) (commentMarker? text) ∧
      (text.count '"' % 2 = 0 →
        IsFirst (fun offset => MarkerAt text offset ∧ ¬ InClosedLiteral text offset)
          (commentMarker? text)) := by
  refine ⟨isFirst_takenAt text, fun heven => ?_⟩
  refine (isFirst_takenAt text).congr fun offset => ?_
  rw [TakenAt, oddAround_iff heven]

/-- A marker in a literal is passed over, and so is the one that overlaps it. -/
theorem marker_isFirst_after_literal :
    "\"//*\" /*".toList.count '"' % 2 = 0 ∧
      IsFirst (fun offset => MarkerAt "\"//*\" /*".toList offset ∧
        ¬ InClosedLiteral "\"//*\" /*".toList offset) (some 6) :=
  ⟨by decide, (marker_isFirst "\"//*\" /*".toList).2 (by decide)⟩

/-- A literal that is left open later lets a marker in a closed literal be taken. -/
theorem marker_in_closed_literal :
    ¬ IsFirst (fun offset => MarkerAt "\"//\" \"".toList offset ∧
      ¬ InClosedLiteral "\"//\" \"".toList offset) (commentMarker? "\"//\" \"".toList) := by
  have htaken : commentMarker? "\"//\" \"".toList = some 1 := by decide
  rw [htaken]
  rintro ⟨⟨-, hliteral⟩, -⟩
  exact hliteral ⟨by decide, by decide⟩

end CodeAtlas.Markup
