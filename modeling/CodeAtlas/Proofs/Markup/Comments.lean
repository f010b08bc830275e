/-
  File:      CodeAtlas/Proofs/Markup/Comments.lean
  Subject:   The pieces of a line, and the comment markers in its code.

  * `segments_flatMap_text`: the pieces of a line put together are the line.
  * `MarkersQuoted literal text`: every comment marker of the text has an odd
    number of double quotes before it, where `literal` counts for one.
  * `markersQuoted_of_mem_segments`: this holds of every piece of code. The
    invariant of the search (`commentMarkerFrom_quotes`) is that a marker may be
    passed over only after an odd number of quotes; its second character, which
    may begin another marker, is passed over in the same state.
-/
import CodeAtlas.Markup.Comment
import CodeAtlas.Proofs.Text
import Mathlib.Data.List.Infix

namespace CodeAtlas.Markup

/-! ## 1. The pieces of a line -/

/-- What a piece of a line holds of the line. -/
def Segment.text : Segment → Text
  | .code text => text
  | .comment _ text => text

theorem closeComment?_eq_append {skip : Nat} {text comment rest : Text}
    (h : closeComment? skip text = some (comment, rest)) : text = comment ++ rest := by
  unfold closeComment? at h
  obtain ⟨⟨before, after⟩, hc, he⟩ := Option.map_eq_some_iff.mp h
  obtain ⟨rfl, rfl⟩ := Prod.mk.inj he
  have hd := Text.cut?_eq_append hc
  calc text = text.take skip ++ text.drop skip := (List.take_append_drop skip text).symm
    _ = text.take skip ++ (before ++ ['*', '/'] ++ after) := by rw [← hd]
    _ = text.take skip ++ before ++ ['*', '/'] ++ after := by simp

theorem codeSegments_flatMap_text (text : Text) :
    (codeSegments text).1.flatMap Segment.text = text := by
  fun_induction codeSegments text with
  | case1 => simp [Segment.text]
  | case2 text position _ opener => simp [Segment.text, opener]
  | case3 text position _ opener => simp [Segment.text, opener]
  | case4 text position hm opener hs comment rest hc more state he ih =>
    rw [he] at ih
    have ho : text.drop position = comment ++ rest := closeComment?_eq_append hc
    simp only [List.flatMap_cons, Segment.text, ih]
    rw [← ho, List.take_append_drop]

/-- What a line is cut into: code if it starts in code; otherwise a comment that stays open, or
one that is closed and the pieces of what follows. -/
theorem segments_cases (state : CommentState) (text : Text) :
    segments state text = codeSegments text ∨
    segments state text = ([.comment state text], state) ∨
    ∃ comment rest, text = comment ++ rest ∧ segments state text =
      (.comment state comment :: (codeSegments rest).1, (codeSegments rest).2) := by
  unfold segments
  split
  · exact Or.inl rfl
  · split
    · exact Or.inr (Or.inl rfl)
    · rename_i hc
      exact Or.inr (Or.inr ⟨_, _, closeComment?_eq_append hc, rfl⟩)

/-- **The pieces of a line, put together, are the line**, in whatever state it starts. -/
theorem segments_flatMap_text (state : CommentState) (text : Text) :
    (segments state text).1.flatMap Segment.text = text := by
  rcases segments_cases state text with h | h | ⟨comment, rest, e, h⟩
  · rw [h, codeSegments_flatMap_text]
  · simp [h, Segment.text]
  · rw [h, List.flatMap_cons, codeSegments_flatMap_text, e]
    rfl

theorem segment_isInfix {state : CommentState} {text : Text} {segment : Segment}
    (h : segment ∈ (segments state text).1) : segment.text <:+: text := by
  have := List.infix_of_mem_flatten (List.mem_map_of_mem (f := Segment.text) h)
  rwa [← List.flatMap_def, segments_flatMap_text] at this

/-! ## 2. Comment markers in code -/

/-- Every comment marker of a text stands in a literal: an odd number of double quotes come
before it. `literal` tells whether the text starts in a literal itself. -/
def MarkersQuoted (literal : Bool) (text : Text) : Prop :=
  ∀ before rest, text = before ++ rest → startsComment rest = true →
    (before.count '"' + literal.toNat) % 2 = 1

theorem startsComment_append {rest : Text} (h : startsComment rest = true) (more : Text) :
    startsComment (rest ++ more) = true := by
  unfold startsComment at h
  split at h
  · rfl
  · rfl
  · exact nomatch h

theorem startsComment_ne_quote {c : Char} {rest : Text} (h : startsComment (c :: rest) = true) :
    c ≠ '"' := by
  rintro rfl
  exact nomatch h

/-- The search for a marker passes over a marker only after an odd number of quotes. -/
theorem commentMarkerFrom_quotes {quotes position : Nat} {second : Bool} {text before rest : Text}
    (hs : second = true → quotes % 2 = 1) (e : text = before ++ rest)
    (hr : startsComment rest = true)
    (hf : ∀ found, commentMarkerFrom quotes second position text = some found →
      position + before.length < found) :
    (quotes + before.count '"') % 2 = 1 := by
  induction text generalizing quotes position second before with
  | nil =>
    obtain ⟨rfl, rfl⟩ := List.append_eq_nil_iff.mp e.symm
    exact nomatch hr
  | cons c text ih =>
    unfold commentMarkerFrom at hf
    cases before with
    | nil =>
      rw [List.nil_append] at e
      rw [← e] at hr
      cases second with
      | true => exact hs rfl
      | false =>
        simp only [hr, Bool.not_false, Bool.and_true, if_true] at hf
        split at hf
        · rename_i hodd
          rw [Bool.and_eq_true, beq_iff_eq] at hodd
          exact hodd.1
        · exact absurd (hf position rfl) (Nat.lt_irrefl _)
    | cons d before =>
      obtain ⟨rfl, htail⟩ := List.cons.inj e
      -- the same place, counted from the next character on
      have hplace : position + (c :: before).length = position + 1 + before.length := by
        rw [List.length_cons, Nat.add_assoc, Nat.add_comm 1]
      rw [hplace] at hf
      split at hf
      · rename_i hm
        rw [Bool.and_eq_true] at hm
        split at hf
        · rename_i hodd
          rw [Bool.and_eq_true, beq_iff_eq] at hodd
          rw [List.count_cons_of_ne (startsComment_ne_quote hm.2)]
          exact ih (fun _ => hodd.1) htail hf
        · have := hf position rfl
          omega
      · have hcount : (if c == '"' then quotes + 1 else quotes) + before.count '"' =
            quotes + (c :: before).count '"' := by
          rw [List.count_cons]
          split <;> omega
        rw [← hcount]
        exact ih (fun h => absurd h Bool.false_ne_true) htail hf

theorem markersQuoted_of_commentMarker?_eq_none {text : Text} (h : commentMarker? text = none) :
    MarkersQuoted false text := by
  intro before rest e hr
  have hnone : ∀ found, commentMarkerFrom 0 false 0 text = some found →
      0 + before.length < found := by
    intro found hf
    cases hf.symm.trans h
  have := commentMarkerFrom_quotes (fun h => absurd h Bool.false_ne_true) e hr hnone
  simpa using this

theorem markersQuoted_take_commentMarker? {text : Text} {position : Nat}
    (h : commentMarker? text = some position) : MarkersQuoted false (text.take position) := by
  intro before rest e hr
  have hne : rest ≠ [] := fun hnil => nomatch hnil ▸ hr
  have hlen : before.length < position := by
    have h1 := congrArg List.length e
    have h2 := List.length_pos_of_ne_nil hne
    rw [List.length_take, List.length_append] at h1
    omega
  have hsplit : text = before ++ (rest ++ text.drop position) := by
    rw [← List.append_assoc, ← e, List.take_append_drop]
  have hbefore : ∀ found, commentMarkerFrom 0 false 0 text = some found →
      0 + before.length < found := by
    intro found hf
    cases hf.symm.trans h
    rwa [Nat.zero_add]
  have := commentMarkerFrom_quotes (fun h => absurd h Bool.false_ne_true) hsplit
    (startsComment_append hr _) hbefore
  simpa using this

theorem markersQuoted_of_mem_codeSegments {text piece : Text}
    (h : .code piece ∈ (codeSegments text).1) : MarkersQuoted false piece := by
  fun_induction codeSegments text with
  | case1 text hm =>
    simp only [List.mem_singleton, Segment.code.injEq] at h
    subst h
    exact markersQuoted_of_commentMarker?_eq_none hm
  | case2 text position hm =>
    simp only [List.mem_cons, Segment.code.injEq, reduceCtorEq, List.not_mem_nil, or_false] at h
    subst h
    exact markersQuoted_take_commentMarker? hm
  | case3 text position hm =>
    simp only [List.mem_cons, Segment.code.injEq, reduceCtorEq, List.not_mem_nil, or_false] at h
    subst h
    exact markersQuoted_take_commentMarker? hm
  | case4 text position hm opener hs comment rest hc more state he ih =>
    simp only [List.mem_cons, Segment.code.injEq, reduceCtorEq, false_or] at h
    rcases h with rfl | h
    · exact markersQuoted_take_commentMarker? hm
    · rw [he] at ih
      exact ih h

/-- **No piece of code holds a comment marker outside of literals.** -/
theorem markersQuoted_of_mem_segments {state : CommentState} {text piece : Text}
    (h : .code piece ∈ (segments state text).1) : MarkersQuoted false piece := by
  rcases segments_cases state text with hs | hs | ⟨comment, rest, _, hs⟩
  · rw [hs] at h
    exact markersQuoted_of_mem_codeSegments h
  · simp [hs] at h
  · simp only [hs, List.mem_cons, reduceCtorEq, false_or] at h
    exact markersQuoted_of_mem_codeSegments h

end CodeAtlas.Markup
