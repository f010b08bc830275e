/-
  File:      CodeAtlas/Proofs/Markup/Zones.lean
  Subject:   The comments of a text, read one character at a time.

  * `Zone`: code, a slash in it, a line comment or a block comment. `Zone.after`
    reads a text on its own, without cutting it into lines or pieces.
  * `zone_segments`: the state after a line is the zone after it. A marker is found
    in code (`Zone.after_of_commentMarker?_eq_some`), and the first close ends a
    block comment (`Zone.block_after_of_cut?_eq_some`).
  * `Encodes.zone_after`: entities change no zone, so that the state after a line that
    is shown is the zone after the line (`zone_highlight`).
-/
import CodeAtlas.Markup.Line
import CodeAtlas.Proofs.Markup.Comments
import CodeAtlas.Proofs.Markup.Entities

namespace CodeAtlas.Markup

/-! ## 1. Zones -/

/-- What a character stands behind, as far as comments go. -/
inductive Zone where
  | code
  /-- A slash in code; another slash or a star after it opens a comment. -/
  | slash
  | line
  /-- A block comment; `star` tells whether its last character can begin the end. -/
  | block (star : Bool)
  deriving DecidableEq, Repr

namespace Zone

/-- The zone after a character. -/
def read (zone : Zone) (c : Char) : Zone :=
  match zone with
  | .code => if c == '/' then .slash else .code
  | .slash => if c == '/' then .line else if c == '*' then .block false else .code
  | .line => if c == '\n' then .code else .line
  | .block star => if star && c == '/' then .code else .block (c == '*')

/-- The zone after a text. -/
def after (zone : Zone) (text : Text) : Zone := text.foldl read zone

theorem after_cons (zone : Zone) (c : Char) (text : Text) :
    zone.after (c :: text) = (zone.read c).after text := rfl

theorem after_append (zone : Zone) (a b : Text) : zone.after (a ++ b) = (zone.after a).after b :=
  List.foldl_append

/-- A line comment reaches to the end of its line. -/
theorem line_after {text : Text} (h : '\n' ∉ text) : line.after text = .line := by
  induction text with
  | nil => rfl
  | cons c text ih =>
    rw [List.mem_cons, not_or] at h
    have hc : line.read c = .line := by simp [read, Ne.symm h.1]
    rw [after_cons, hc, ih h.2]

/-! ## 2. Markers and closes -/

/-- A character that opens no comment leaves code behind it, unless it is a last slash. -/
theorem code_after_cons {c : Char} {text : Text} (h : startsComment (c :: text) = false)
    (hne : text ≠ []) : code.after (c :: text) = code.after text := by
  by_cases hc : c = '/'
  · subst hc
    cases text with
    | nil => exact absurd rfl hne
    | cons d text =>
      have h1 : d ≠ '/' := by
        rintro rfl
        exact nomatch h
      have h2 : d ≠ '*' := by
        rintro rfl
        exact nomatch h
      simp [after, read, h1, h2]
  · simp [after, read, hc]

theorem commentMarkerFrom_cons {c : Char} {text : Text} (hc : c ≠ '"')
    (h : startsComment (c :: text) = false) (position : Nat) :
    commentMarkerFrom 0 false position (c :: text) =
      commentMarkerFrom 0 false (position + 1) text := by
  simp [commentMarkerFrom, h, hc]

/-- Without a marker there is only code. -/
theorem after_of_commentMarkerFrom_eq_none {position : Nat} {text : Text} (hquote : '"' ∉ text)
    (h : commentMarkerFrom 0 false position text = none) :
    code.after text = .code ∨ code.after text = .slash := by
  induction text generalizing position with
  | nil => exact Or.inl rfl
  | cons c text ih =>
    rw [List.mem_cons, not_or] at hquote
    cases hs : startsComment (c :: text) with
    | true => simp [commentMarkerFrom, hs] at h
    | false =>
      rw [commentMarkerFrom_cons (Ne.symm hquote.1) hs] at h
      by_cases hne : text = []
      · subst hne
        by_cases hc : c = '/'
        · exact Or.inr (by simp [after, read, hc])
        · exact Or.inl (by simp [after, read, hc])
      · rw [code_after_cons hs hne]
        exact ih hquote.2 h

/-- Before the first marker there is only code. -/
theorem after_of_commentMarkerFrom_eq_some {position found : Nat} {text : Text}
    (hquote : '"' ∉ text) (h : commentMarkerFrom 0 false position text = some found) :
    ∃ before rest, text = before ++ rest ∧ found = position + before.length ∧
      startsComment rest = true ∧ code.after before = .code := by
  induction text generalizing position with
  | nil => exact nomatch h
  | cons c text ih =>
    rw [List.mem_cons, not_or] at hquote
    cases hs : startsComment (c :: text) with
    | true =>
      have hfound : position = found := by simpa [commentMarkerFrom, hs] using h
      exact ⟨[], c :: text, rfl, hfound.symm, hs, rfl⟩
    | false =>
      rw [commentMarkerFrom_cons (Ne.symm hquote.1) hs] at h
      obtain ⟨before, rest, rfl, rfl, hrest, hcode⟩ := ih hquote.2 h
      refine ⟨c :: before, rest, rfl, by rw [List.length_cons]; omega, hrest, ?_⟩
      by_cases hne : before = []
      · -- a slash right before a marker would be part of one
        subst hne
        have hc : c ≠ '/' := by
          rintro rfl
          unfold startsComment at hrest
          split at hrest
          · exact nomatch hs
          · exact nomatch hs
          · exact nomatch hrest
        simp [after, read, hc]
      · have hbefore : startsComment (c :: before) = false := by
          by_contra hstarts
          rw [Bool.not_eq_false] at hstarts
          have := startsComment_append hstarts rest
          rw [List.cons_append, hs] at this
          exact nomatch this
        rw [code_after_cons hbefore hne, hcode]

/-- A character of a block comment that does not end it, and begins no end, leaves it open. -/
theorem block_read {star : Bool} {c : Char} {text : Text}
    (hstar : star = true → (c :: text).head? ≠ some '/')
    (hclose : ¬ ['*', '/'].isPrefixOf (c :: text) = true) :
    (block star).read c = .block (c == '*') ∧ ((c == '*') = true → text.head? ≠ some '/') := by
  constructor
  · cases star with
    | false => rfl
    | true =>
      have hc : c ≠ '/' := fun e => hstar rfl (congrArg some e)
      simp [read, hc]
  · intro hc hhead
    obtain ⟨more, rfl⟩ := List.head?_eq_some_iff.mp hhead
    rw [beq_iff_eq.mp hc] at hclose
    exact hclose rfl

/-- Without a close a block comment stays open. -/
theorem block_after_of_cut?_eq_none {star : Bool} {text : Text}
    (hstar : star = true → text.head? ≠ some '/') (h : Text.cut? ['*', '/'] text = none) :
    ∃ last, (block star).after text = .block last := by
  induction text generalizing star with
  | nil => exact ⟨star, rfl⟩
  | cons c text ih =>
    unfold Text.cut? at h
    split at h
    · cases h
    · rename_i hclose
      obtain ⟨hread, hnext⟩ := block_read hstar hclose
      rw [after_cons, hread]
      exact ih hnext (Option.map_eq_none_iff.mp h)

/-- The first close ends a block comment. -/
theorem block_after_of_cut?_eq_some {star : Bool} {text before after : Text}
    (hstar : star = true → text.head? ≠ some '/')
    (h : Text.cut? ['*', '/'] text = some (before, after)) :
    (block star).after (before ++ ['*', '/']) = .code := by
  induction text generalizing star before with
  | nil => exact nomatch h
  | cons c text ih =>
    unfold Text.cut? at h
    split at h
    · cases h
      simp [Zone.after, read]
    · rename_i hclose
      obtain ⟨hread, hnext⟩ := block_read hstar hclose
      obtain ⟨⟨before, after⟩, hcut, hpair⟩ := Option.map_eq_some_iff.mp h
      cases hpair
      rw [List.cons_append, after_cons, hread]
      exact ih hnext hcut

end Zone

/-! ## 3. One line -/

/-- The zone that a line starts in. -/
def CommentState.zone : CommentState → Zone
  | .code => .code
  | .block | .doc => .block false

theorem zone_openedBy (opener : Text) : (openedBy opener).zone = .block false := by
  unfold openedBy
  split_ifs <;> rfl

/-- An open block comment is open on the next line. -/
theorem Zone.block_newline (star : Bool) : (Zone.block star).read '\n' = .block false := by
  cases star <;> rfl

namespace Zone

theorem after_of_closeComment?_eq_none {zone : Zone} {skip : Nat} {text : Text}
    (hopen : zone.after (text.take skip) = .block false) (h : closeComment? skip text = none) :
    ∃ last, zone.after text = .block last := by
  have hcut : Text.cut? ['*', '/'] (text.drop skip) = none := Option.map_eq_none_iff.mp h
  rw [← List.take_append_drop skip text, after_append, hopen]
  exact block_after_of_cut?_eq_none (fun hstar => absurd hstar Bool.false_ne_true) hcut

theorem after_of_closeComment?_eq_some {zone : Zone} {skip : Nat} {text comment rest : Text}
    (hopen : zone.after (text.take skip) = .block false)
    (h : closeComment? skip text = some (comment, rest)) : zone.after text = code.after rest := by
  obtain ⟨⟨before, after⟩, hcut, hpair⟩ := Option.map_eq_some_iff.mp h
  cases hpair
  have hclosed : (block false).after (before ++ ['*', '/']) = .code :=
    block_after_of_cut?_eq_some (fun hstar => absurd hstar Bool.false_ne_true) hcut
  rw [← List.take_append_drop skip text, after_append, hopen, Text.cut?_eq_append hcut,
    after_append, hclosed]

/-- What is read from the first marker on is read in code. -/
theorem after_of_commentMarker?_eq_some {text : Text} {position : Nat} (hquote : '"' ∉ text)
    (h : commentMarker? text = some position) :
    startsComment (text.drop position) = true ∧
      code.after text = code.after (text.drop position) := by
  obtain ⟨before, rest, rfl, rfl, hrest, hcode⟩ := after_of_commentMarkerFrom_eq_some hquote h
  rw [Nat.zero_add, List.drop_left, after_append, hcode]
  exact ⟨hrest, rfl⟩

/-- A marker that is not that of a line comment opens a block comment. -/
theorem after_take_opener {opener : Text} (h : startsComment opener = true)
    (hline : ¬ ['/', '/'].isPrefixOf opener = true) :
    code.after (opener.take 2) = .block false := by
  unfold startsComment at h
  split at h
  · exact absurd rfl hline
  · rfl
  · exact nomatch h

end Zone

/-- The state after a line that starts in code. A marker decides what the line goes on with, and
the pieces behind a comment that is closed are those of a line of their own. -/
theorem zone_codeSegments {text : Text} (hquote : '"' ∉ text) (hfeed : '\n' ∉ text) :
    (codeSegments text).2.zone = Zone.code.after (text ++ ['\n']) := by
  fun_induction codeSegments text with
  | case1 text hm =>
    rw [Zone.after_append]
    rcases Zone.after_of_commentMarkerFrom_eq_none hquote hm with h | h <;> rw [h] <;> rfl
  | case2 text position hm opener hline =>
    obtain ⟨-, hcode⟩ := Zone.after_of_commentMarker?_eq_some hquote hm
    obtain ⟨rest, hrest⟩ := List.isPrefixOf_iff_prefix.mp hline
    have hopener : Zone.code.after opener = .line := by
      have hopened : Zone.code.after ['/', '/'] = .line := rfl
      have hfeed' : '\n' ∉ opener := fun h => hfeed (List.mem_of_mem_drop h)
      rw [← hrest] at hfeed' ⊢
      rw [Zone.after_append, hopened]
      exact Zone.line_after fun h => hfeed' (List.mem_append_right _ h)
    rw [Zone.after_append, hcode, hopener]
    rfl
  | case3 text position hm opener hline hopen =>
    obtain ⟨hstarts, hcode⟩ := Zone.after_of_commentMarker?_eq_some hquote hm
    obtain ⟨last, hlast⟩ :=
      Zone.after_of_closeComment?_eq_none (Zone.after_take_opener hstarts hline) hopen
    rw [Zone.after_append, hcode, hlast, zone_openedBy]
    exact (Zone.block_newline last).symm
  | case4 text position hm opener hline comment rest hclose more state hmore ih =>
    obtain ⟨hstarts, hcode⟩ := Zone.after_of_commentMarker?_eq_some hquote hm
    have hrest := Zone.after_of_closeComment?_eq_some (Zone.after_take_opener hstarts hline) hclose
    have hmem : ∀ c ∈ rest, c ∈ text := by
      intro c hc
      have hopener : opener = comment ++ rest := closeComment?_eq_append hclose
      exact List.mem_of_mem_drop (hopener ▸ List.mem_append_right comment hc)
    rw [hmore] at ih
    rw [ih (fun h => hquote (hmem _ h)) fun h => hfeed (hmem _ h), Zone.after_append,
      Zone.after_append, hcode, hrest]

/-- **The state after a line is the zone after it.** -/
theorem zone_segments (state : CommentState) {text : Text} (hquote : '"' ∉ text)
    (hfeed : '\n' ∉ text) : (segments state text).2.zone = state.zone.after (text ++ ['\n']) := by
  unfold segments
  split
  · exact zone_codeSegments hquote hfeed
  · rename_i hstate
    have hzone : state.zone = .block false := by
      cases state with
      | code => exact absurd rfl hstate
      | block | doc => rfl
    have hopen : state.zone.after (text.take 0) = .block false := hzone
    split
    · rename_i hclose
      obtain ⟨last, hlast⟩ := Zone.after_of_closeComment?_eq_none hopen hclose
      rw [Zone.after_append, hlast, hzone]
      exact (Zone.block_newline last).symm
    · rename_i comment rest hclose
      have hmem : ∀ c ∈ rest, c ∈ text := by
        intro c hc
        rw [closeComment?_eq_append hclose]
        exact List.mem_append_right comment hc
      have hrest := zone_codeSegments (fun h => hquote (hmem _ h)) fun h => hfeed (hmem _ h)
      rw [Zone.after_append, Zone.after_of_closeComment?_eq_some hopen hclose,
        ← Zone.after_append]
      exact hrest

/-! ## 4. Entities -/

/-- A character that belongs to no comment marker, and ends no line. -/
def isQuiet (c : Char) : Bool := c != '/' && c != '*' && c != '\n'

/-- The zone after quiet characters. -/
def Zone.quiet : Zone → Zone
  | .code | .slash => .code
  | .line => .line
  | .block _ => .block false

theorem Zone.read_quiet {c : Char} (h : isQuiet c = true) (zone : Zone) :
    zone.read c = zone.quiet := by
  simp only [isQuiet, Bool.and_eq_true, bne_iff_ne] at h
  obtain ⟨⟨h1, h2⟩, h3⟩ := h
  cases zone <;> simp [read, quiet, h1, h2, h3]

theorem Zone.quiet_quiet (zone : Zone) : zone.quiet.quiet = zone.quiet := by
  cases zone <;> rfl

theorem Zone.after_quiet {text : Text} (h : ∀ c ∈ text, isQuiet c = true) (hne : text ≠ [])
    (zone : Zone) : zone.after text = zone.quiet := by
  induction text generalizing zone with
  | nil => exact absurd rfl hne
  | cons c text ih =>
    rw [after_cons, read_quiet (h c List.mem_cons_self)]
    by_cases hnil : text = []
    · rw [hnil]
      rfl
    · rw [ih (fun d hd => h d (List.mem_cons_of_mem c hd)) hnil, quiet_quiet]

/-- **Entities change no zone.** -/
theorem Encodes.zone_after {html text : Text} (h : Encodes html text) (zone : Zone) :
    zone.after html = zone.after text := by
  induction h generalizing zone with
  | nil => rfl
  | char _ _ _ _ ih => exact ih _
  | @entity e html text he _ ih =>
    have hentities : ∀ e ∈ entities, e.1.all isQuiet = true ∧ e.1 ≠ [] ∧ isQuiet e.2 = true := by
      decide
    obtain ⟨hname, hne, hchar⟩ := hentities e he
    rw [Zone.after_append, Zone.after_quiet (List.all_eq_true.mp hname) hne, Zone.after_cons,
      Zone.read_quiet hchar, ih]

theorem Encodes.not_mem {html text : Text} (h : Encodes html text) {c : Char}
    (hentities : ∀ e ∈ entities, c ∉ e.1) (hc : c ∉ text) : c ∉ html := by
  induction h with
  | nil => exact hc
  | char _ _ _ _ ih =>
    rw [List.mem_cons, not_or] at hc ⊢
    exact ⟨hc.1, ih hc.2⟩
  | entity he _ ih =>
    rw [List.mem_append, not_or]
    exact ⟨hentities _ he, ih fun hm => hc (List.mem_cons_of_mem _ hm)⟩

/-- **The state after a line that is shown is the zone after the line**, whatever it is shown
with. -/
theorem zone_highlight (linker : Linker) (number : Nat) (placed : Placed) (state : CommentState)
    {line : Text} (hquote : '"' ∉ line) (hfeed : '\n' ∉ line) :
    (linker.highlight number placed state line).2.2.zone = state.zone.after (line ++ ['\n']) := by
  have hencodes := encodes_escapeLine line
  have hsegments := zone_segments state (hencodes.not_mem (by decide) hquote)
    (hencodes.not_mem (by decide) hfeed)
  rw [Zone.after_append, ← hencodes.zone_after, ← Zone.after_append]
  exact hsegments

end CodeAtlas.Markup
