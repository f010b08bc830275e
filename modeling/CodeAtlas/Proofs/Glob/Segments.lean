/-
  File:      CodeAtlas/Proofs/Glob/Segments.lean
  Subject:   Patterns read segment by segment.

  A pattern is kept as one flat list of pieces, in which the slash behind a `**` belongs
  to the piece before it. Here the same patterns are matched segment by segment, with no
  slash on either side.

  * `Glob.segmentMatches`: one segment of a pattern and one of a path.
  * `Glob.segmentsMatch`: all segments of both. `**` takes any number of segments but
    leaves one to what follows it; every other segment takes one.
  * `Glob.StandsFor`: pieces and segments of a pattern that mean the same. One lemma for
    each kind of segment, and from them `Glob.standsFor_ofSegments`.
  * `Glob.accepted_eq_segmentsMatch`: what a pattern accepts, for all patterns as they
    are written and all paths without line feeds.
-/
import CodeAtlas.Proofs.Glob.Pieces

namespace CodeAtlas.Glob

/-! ## 1. Matching segments -/

/-- Whether a segment of a pattern matches all of a segment of a path. `*` stands for any part,
`?` for one character, and every other character for itself. -/
def segmentMatches : Text → Text → Bool
  | [], segment => segment.isEmpty
  | c :: pattern, segment =>
    if c == '*' then segment.tails.any (segmentMatches pattern)
    else
      match segment with
      | [] => false
      | d :: segment => (c == '?' || c == d) && segmentMatches pattern segment

/-- Whether the segments of a pattern match all the segments of a path. A `**` at the end takes
any segments but needs one; before others it takes any number and leaves one at least. Every
other segment takes one. -/
def segmentsMatch : List Text → List Text → Bool
  | [], segments => segments.isEmpty
  | first :: patterns, segments =>
    if first == ['*', '*'] then
      if patterns.isEmpty then !segments.isEmpty
      else segments.tails.any fun after => !after.isEmpty && segmentsMatch patterns after
    else
      match segments with
      | [] => false
      | segment :: after => segmentMatches first segment && segmentsMatch patterns after

theorem segmentMatches_star (pattern segment : Text) :
    segmentMatches ('*' :: pattern) segment = segment.tails.any (segmentMatches pattern) := by
  rw [segmentMatches.eq_def]
  rfl

theorem segmentMatches_cons_nil {c : Char} (h : c ≠ '*') (pattern : Text) :
    segmentMatches (c :: pattern) [] = false := by
  simp [segmentMatches, h]

theorem segmentMatches_cons_cons {c : Char} (h : c ≠ '*') (pattern : Text) (d : Char)
    (segment : Text) : segmentMatches (c :: pattern) (d :: segment) =
      ((c == '?' || c == d) && segmentMatches pattern segment) := by
  simp [segmentMatches, h]

theorem segmentsMatch_folders (segments : List Text) {patterns : List Text} (h : patterns ≠ []) :
    segmentsMatch (['*', '*'] :: patterns) segments =
      segments.tails.any fun after => !after.isEmpty && segmentsMatch patterns after := by
  rw [segmentsMatch.eq_def]
  simp [h]

theorem segmentsMatch_cons_cons {first : Text} (h : first ≠ ['*', '*']) (patterns : List Text)
    (segment : Text) (after : List Text) :
    segmentsMatch (first :: patterns) (segment :: after) =
      (segmentMatches first segment && segmentsMatch patterns after) := by
  simp [segmentsMatch, h]

/-! ## 2. One segment -/

/-- A character other than `*` takes one character. -/
theorem covers_pieceOf {c : Char} (h : c ≠ '*') {part : Text} :
    (pieceOf c).Covers part ↔ ∃ d, part = [d] ∧ if c = '?' then d ≠ '/' else c = d := by
  have hpiece : pieceOf c = if c = '?' then .one else .char c := by simp [pieceOf, h]
  rw [hpiece]
  split_ifs
  · constructor
    · rintro ⟨d, hd, rfl⟩
      exact ⟨d, rfl, hd⟩
    · rintro ⟨d, rfl, hd⟩
      exact ⟨d, hd, rfl⟩
  · constructor
    · rintro rfl
      exact ⟨c, rfl, rfl⟩
    · rintro ⟨d, rfl, rfl⟩
      rfl

/-- A character of a pattern takes a part that its piece stands for. -/
theorem segmentMatches_cons {c : Char} {pattern segment : Text} (h : '/' ∉ segment) :
    segmentMatches (c :: pattern) segment = true ↔
      ∃ part rest, segment = part ++ rest ∧ (pieceOf c).Covers part ∧
        segmentMatches pattern rest = true := by
  by_cases hstar : c = '*'
  · subst hstar
    rw [segmentMatches_star, List.any_eq_true]
    constructor
    · rintro ⟨rest, hrest, hmatch⟩
      obtain ⟨part, rfl⟩ := (List.mem_tails ..).mp hrest
      exact ⟨part, rest, rfl, fun hp => h (List.mem_append_left rest hp), hmatch⟩
    · rintro ⟨part, rest, rfl, -, hmatch⟩
      exact ⟨rest, (List.mem_tails ..).mpr (List.suffix_append part rest), hmatch⟩
  · simp only [covers_pieceOf hstar]
    cases segment with
    | nil =>
      rw [segmentMatches_cons_nil hstar]
      constructor
      · nofun
      · rintro ⟨part, rest, e, ⟨d, rfl, -⟩, -⟩
        exact nomatch e
    | cons d segment =>
      rw [List.mem_cons, not_or] at h
      rw [segmentMatches_cons_cons hstar, Bool.and_eq_true, Bool.or_eq_true, beq_iff_eq,
        beq_iff_eq]
      constructor
      · rintro ⟨hc, hmatch⟩
        refine ⟨[d], segment, rfl, ⟨d, rfl, ?_⟩, hmatch⟩
        split_ifs with hone
        · exact Ne.symm h.1
        · exact hc.resolve_left hone
      · rintro ⟨part, rest, e, ⟨b, rfl, hc⟩, hmatch⟩
        obtain ⟨rfl, rfl⟩ := List.cons.inj e
        refine ⟨?_, hmatch⟩
        split_ifs at hc with hone
        · exact Or.inl hone
        · exact Or.inr hc

/-- No piece but those of `**` and of a slash itself stands for a slash. -/
theorem slash_not_mem_of_covers {c : Char} (h : c ≠ '/') {part : Text}
    (hpart : (pieceOf c).Covers part) : '/' ∉ part := by
  unfold pieceOf at hpart
  split_ifs at hpart
  · exact hpart
  · obtain ⟨d, hd, rfl⟩ := hpart
    simpa using Ne.symm hd
  · obtain rfl : part = [c] := hpart
    simpa using Ne.symm h

/-- The pieces of a segment stand for the segments that match it. -/
theorem covers_map_pieceOf {pattern : Text} (h : '/' ∉ pattern) {text : Text} :
    Covers (pattern.map pieceOf) text ↔ '/' ∉ text ∧ segmentMatches pattern text = true := by
  induction pattern generalizing text with
  | nil =>
    constructor
    · rintro rfl
      exact ⟨List.not_mem_nil, rfl⟩
    · rintro ⟨-, hmatch⟩
      exact List.isEmpty_iff.mp hmatch
  | cons c pattern ih =>
    rw [List.mem_cons, not_or] at h
    constructor
    · rintro ⟨part, rest, rfl, hpart, hrest⟩
      obtain ⟨hslash, hmatch⟩ := (ih h.2).mp hrest
      have hno : '/' ∉ part ++ rest := by
        rw [List.mem_append, not_or]
        exact ⟨slash_not_mem_of_covers (Ne.symm h.1) hpart, hslash⟩
      exact ⟨hno, (segmentMatches_cons hno).mpr ⟨part, rest, rfl, hpart, hmatch⟩⟩
    · rintro ⟨hslash, hmatch⟩
      obtain ⟨part, rest, rfl, hpart, hmatch⟩ := (segmentMatches_cons hslash).mp hmatch
      rw [List.mem_append, not_or] at hslash
      exact ⟨part, rest, rfl, hpart, (ih h.2).mpr ⟨hslash.2, hmatch⟩⟩

/-! ## 3. All segments -/

theorem splitOn_slashed_append {segments : List Text} (h : ∀ segment ∈ segments, '/' ∉ segment)
    (rest : Text) : (slashed segments ++ rest).splitOn '/' = segments ++ rest.splitOn '/' := by
  induction segments with
  | nil => rfl
  | cons segment segments ih =>
    obtain ⟨hsegment, hmore⟩ := List.forall_mem_cons.mp h
    rw [slashed_cons, List.append_assoc, List.cons_append,
      List.splitOn_append_cons_self_of_not_mem hsegment, ih hmore, List.cons_append]

/-- A path that is split into two lists of segments begins with those of the first. -/
theorem splitOn_eq_append {path : Text} {before after : List Text} (hne : after ≠ [])
    (h : path.splitOn '/' = before ++ after) :
    ∃ rest, path = slashed before ++ rest ∧ rest.splitOn '/' = after := by
  induction before generalizing path with
  | nil => exact ⟨path, rfl, h⟩
  | cons segment before ih =>
    by_cases hslash : '/' ∈ path
    · obtain ⟨first, rest, rfl, hfirst⟩ := List.eq_append_cons_of_mem hslash
      rw [List.splitOn_append_cons_self_of_not_mem hfirst, List.cons_append] at h
      obtain ⟨rfl, hrest⟩ := List.cons.inj h
      obtain ⟨last, rfl, hlast⟩ := ih hrest
      refine ⟨last, ?_, hlast⟩
      rw [slashed_cons, List.append_assoc]
      rfl
    · rw [List.splitOn_eq_singleton hslash] at h
      exact absurd (List.append_eq_nil_iff.mp (List.cons.inj h).2.symm).2 hne

/-- Every list of pattern segments needs a segment. -/
theorem segmentsMatch_nil {patterns : List Text} (h : patterns ≠ []) :
    segmentsMatch patterns [] = false := by
  cases patterns with
  | nil => exact absurd rfl h
  | cons first patterns => simp [segmentsMatch]

/-- A segment takes the path up to its first slash. -/
theorem covers_segment_slash {pattern : Text} (h : '/' ∉ pattern) {pieces : Glob} {path : Text} :
    Covers (pattern.map pieceOf ++ .char '/' :: pieces) path ↔
      ∃ segment rest, path = segment ++ '/' :: rest ∧ '/' ∉ segment ∧
        segmentMatches pattern segment = true ∧ Covers pieces rest := by
  rw [covers_append]
  simp only [covers_map_pieceOf h, covers_char]
  constructor
  · rintro ⟨segment, last, rfl, ⟨hslash, hmatch⟩, rest, rfl, hrest⟩
    exact ⟨segment, rest, rfl, hslash, hmatch, hrest⟩
  · rintro ⟨segment, rest, rfl, hslash, hmatch, hrest⟩
    exact ⟨segment, '/' :: rest, rfl, ⟨hslash, hmatch⟩, rest, rfl, hrest⟩

/-- A path with a slash splits into its first segment and the segments behind it. -/
theorem exists_splitOn_eq_cons {path : Text} (h : '/' ∈ path) :
    ∃ segment rest, path = segment ++ '/' :: rest ∧ '/' ∉ segment ∧
      path.splitOn '/' = segment :: rest.splitOn '/' := by
  obtain ⟨segment, rest, rfl, hsegment⟩ := List.eq_append_cons_of_mem h
  exact ⟨segment, rest, rfl, hsegment, List.splitOn_append_cons_self_of_not_mem hsegment rest⟩

/-- The last segment of a pattern, unless it is `**`, takes the only segment of a path. -/
theorem covers_last {last : Text} (h : '/' ∉ last) (hall : last ≠ ['*', '*']) {path : Text} :
    Covers (last.map pieceOf) path ↔ segmentsMatch [last] (path.splitOn '/') = true := by
  rw [covers_map_pieceOf h]
  by_cases hslash : '/' ∈ path
  · obtain ⟨segment, rest, -, -, hsplit⟩ := exists_splitOn_eq_cons hslash
    have hmore : segmentsMatch [] (rest.splitOn '/') = false := by
      simp [segmentsMatch, List.splitOn_ne_nil]
    rw [hsplit, segmentsMatch_cons_cons hall, hmore, Bool.and_false]
    exact iff_of_false (fun hcovers => hcovers.1 hslash) Bool.false_ne_true
  · rw [List.splitOn_eq_singleton hslash, segmentsMatch_cons_cons hall, Bool.and_eq_true]
    exact ⟨fun hcovers => ⟨hcovers.2, rfl⟩, fun hmatch => ⟨hslash, hmatch.1⟩⟩

/-- The pieces stand for the paths whose segments match. A line feed is a matter of its own: `**`
at the end takes none. -/
def StandsFor (pieces : Glob) (patterns : List Text) : Prop :=
  ∀ path : Text, '\n' ∉ path →
    (Covers pieces path ↔ segmentsMatch patterns (path.splitOn '/') = true)

/-- `**` before other segments takes any number of segments. -/
theorem StandsFor.folders {pieces : Glob} {patterns : List Text} (h : StandsFor pieces patterns)
    (hne : patterns ≠ []) : StandsFor (.folders :: pieces) (['*', '*'] :: patterns) := by
  intro path hpath
  rw [covers_folders, segmentsMatch_folders _ hne, List.any_eq_true]
  constructor
  · rintro ⟨before, rest, rfl, hbefore, hcovers⟩
    rw [List.mem_append, not_or] at hpath
    have hmatch := (h rest hpath.2).mp hcovers
    refine ⟨rest.splitOn '/', ?_, ?_⟩
    · rw [splitOn_slashed_append hbefore]
      exact (List.mem_tails ..).mpr (List.suffix_append ..)
    · simp [hmatch, List.splitOn_ne_nil]
  · rintro ⟨after, hafter, hmatch⟩
    obtain ⟨before, hsplit⟩ := (List.mem_tails ..).mp hafter
    have hbefore : ∀ segment ∈ before, '/' ∉ segment := fun segment hs =>
      not_mem_of_mem_splitOn (hsplit ▸ List.mem_append_left after hs)
    rw [Bool.and_eq_true] at hmatch
    have hsome : after ≠ [] := by simpa using hmatch.1
    obtain ⟨rest, rfl, rfl⟩ := splitOn_eq_append hsome hsplit.symm
    rw [List.mem_append, not_or] at hpath
    exact ⟨before, rest, rfl, hbefore, (h rest hpath.2).mpr hmatch.2⟩

/-- Any other segment before others takes the first segment. -/
theorem StandsFor.segment {pieces : Glob} {patterns : List Text} (h : StandsFor pieces patterns)
    (hne : patterns ≠ []) {first : Text} (hfirst : '/' ∉ first) (hall : first ≠ ['*', '*']) :
    StandsFor (first.map pieceOf ++ .char '/' :: pieces) (first :: patterns) := by
  intro path hpath
  rw [covers_segment_slash hfirst]
  constructor
  · rintro ⟨segment, rest, rfl, hsegment, hmatch, hcovers⟩
    rw [List.mem_append, List.mem_cons, not_or, not_or] at hpath
    rw [List.splitOn_append_cons_self_of_not_mem hsegment, segmentsMatch_cons_cons hall,
      hmatch, (h rest hpath.2.2).mp hcovers]
    rfl
  · intro hmatch
    by_cases hslash : '/' ∈ path
    · obtain ⟨segment, rest, rfl, hsegment, hsplit⟩ := exists_splitOn_eq_cons hslash
      rw [List.mem_append, List.mem_cons, not_or, not_or] at hpath
      rw [hsplit, segmentsMatch_cons_cons hall, Bool.and_eq_true] at hmatch
      exact ⟨segment, rest, rfl, hsegment, hmatch.1, (h rest hpath.2.2).mpr hmatch.2⟩
    · rw [List.splitOn_eq_singleton hslash, segmentsMatch_cons_cons hall,
        segmentsMatch_nil hne, Bool.and_false] at hmatch
      cases hmatch

/-- `**` at the end takes all that is left. -/
theorem standsFor_all : StandsFor (ofSegments [['*', '*']]) [['*', '*']] := by
  intro path hpath
  have hcovers : Covers (ofSegments [['*', '*']]) path :=
    ⟨path, [], (List.append_nil path).symm, hpath, rfl⟩
  have hmatch : segmentsMatch [['*', '*']] (path.splitOn '/') = true := by
    simp [segmentsMatch, List.splitOn_ne_nil]
  exact iff_of_true hcovers hmatch

/-- **A pattern stands for the paths whose segments match its own.** -/
theorem standsFor_ofSegments {patterns : List Text} (hne : patterns ≠ [])
    (hpatterns : ∀ pattern ∈ patterns, '/' ∉ pattern) :
    StandsFor (ofSegments patterns) patterns := by
  induction patterns with
  | nil => exact absurd rfl hne
  | cons first patterns ih =>
    obtain ⟨hfirst, hmore⟩ := List.forall_mem_cons.mp hpatterns
    cases patterns with
    | nil =>
      by_cases hall : first = ['*', '*']
      · subst hall
        exact standsFor_all
      · have hpieces : ofSegments [first] = first.map pieceOf := by simp [ofSegments, hall]
        rw [hpieces]
        exact fun path _ => covers_last hfirst hall
    | cons next patterns =>
      have hnext : next :: patterns ≠ [] := List.cons_ne_nil _ _
      by_cases hall : first = ['*', '*']
      · subst hall
        exact (ih hnext hmore).folders hnext
      · have hpieces : ofSegments (first :: next :: patterns) =
            first.map pieceOf ++ .char '/' :: ofSegments (next :: patterns) := by
          simp [ofSegments, hall]
        rw [hpieces]
        exact (ih hnext hmore).segment hnext hfirst hall

/-- **Patterns match segment by segment**: the pattern as it is written, normalized and split at
its slashes, against the path, split at its slashes and backslashes. -/
theorem accepted_eq_segmentsMatch (pattern : Text) {path : Text} (h : '\n' ∉ path) :
    (ofText pattern).accepted path =
      segmentsMatch ((normalize pattern).splitOn '/') ((Text.swap '\\' '/' path).splitOn '/') := by
  have hswap : '\n' ∉ Text.swap '\\' '/' path := by
    intro hmem
    obtain ⟨c, hc, e⟩ := List.mem_map.mp hmem
    split_ifs at e
    · exact absurd e (by decide)
    · exact h (e ▸ hc)
  rw [Bool.eq_iff_iff, accepted, accepts_iff_covers]
  exact standsFor_ofSegments (List.splitOn_ne_nil _ _) (fun _ h => not_mem_of_mem_splitOn h) _
    hswap

/-- Empty segments are segments: `**` takes the one between two slashes, and at the end of the
pattern the one behind the last slash. -/
theorem accepted_empty_segments :
    '\n' ∉ "src\\a//Text.c/".toList ∧
      (ofText " /src/**/Te?t*/".toList).accepted "src\\a//Text.c/".toList = true := by
  have hfeed : '\n' ∉ "src\\a//Text.c/".toList := by decide
  refine ⟨hfeed, ?_⟩
  rw [accepted_eq_segmentsMatch _ hfeed]
  decide

end CodeAtlas.Glob
