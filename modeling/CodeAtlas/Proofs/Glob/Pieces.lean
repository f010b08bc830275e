/-
  File:      CodeAtlas/Proofs/Glob/Pieces.lean
  Subject:   The texts that a pattern stands for, and that the matcher decides them.

  Every piece of a pattern stands for a set of texts, and the pieces together for the
  texts that can be cut into one part for each of them. `Glob.accepts` searches for such
  a cut from the left, with going back.

  * `Glob.Piece.Covers`, `Glob.Covers`: the texts of a piece and of a pattern.
  * `Glob.accepts_iff_covers`: the search finds a cut where there is one, and only there.
  * `Glob.covers_append`: patterns one after the other.
-/
import CodeAtlas.Glob
import CodeAtlas.Proofs.Text

namespace CodeAtlas.Glob

/-! ## 1. What patterns stand for -/

/-- Segments one after the other, each with its slash. -/
def slashed (segments : List Text) : Text := segments.flatMap (· ++ ['/'])

theorem slashed_cons (segment : Text) (segments : List Text) :
    slashed (segment :: segments) = segment ++ '/' :: slashed segments := by
  unfold slashed
  rw [List.flatMap_cons, List.append_assoc]
  rfl

/-- The texts that a piece stands for. -/
def Piece.Covers : Piece → Text → Prop
  | .char c, part => part = [c]
  | .one, part => ∃ c, c ≠ '/' ∧ part = [c]
  | .run, part => '/' ∉ part
  | .folders, part =>
    ∃ segments : List Text, (∀ segment ∈ segments, '/' ∉ segment) ∧ part = slashed segments
  | .all, part => '\n' ∉ part

/-- The texts that a pattern stands for: each piece covers a part, and nothing is left. -/
def Covers : Glob → Text → Prop
  | [], text => text = []
  | piece :: pieces, text =>
    ∃ part rest, text = part ++ rest ∧ piece.Covers part ∧ Covers pieces rest

theorem covers_char {c : Char} {pieces : Glob} {text : Text} :
    Covers (.char c :: pieces) text ↔ ∃ rest, text = c :: rest ∧ Covers pieces rest := by
  constructor
  · rintro ⟨part, rest, rfl, rfl, h⟩
    exact ⟨rest, rfl, h⟩
  · rintro ⟨rest, rfl, h⟩
    exact ⟨[c], rest, rfl, rfl, h⟩

theorem covers_one {pieces : Glob} {text : Text} :
    Covers (.one :: pieces) text ↔ ∃ c rest, text = c :: rest ∧ c ≠ '/' ∧ Covers pieces rest := by
  constructor
  · rintro ⟨part, rest, rfl, ⟨c, hc, rfl⟩, h⟩
    exact ⟨c, rest, rfl, hc, h⟩
  · rintro ⟨c, rest, rfl, hc, h⟩
    exact ⟨[c], rest, rfl, ⟨c, hc, rfl⟩, h⟩

theorem covers_folders {pieces : Glob} {text : Text} :
    Covers (.folders :: pieces) text ↔
      ∃ segments rest, text = slashed segments ++ rest ∧ (∀ segment ∈ segments, '/' ∉ segment) ∧
        Covers pieces rest := by
  constructor
  · rintro ⟨part, rest, rfl, ⟨segments, hslash, rfl⟩, h⟩
    exact ⟨segments, rest, rfl, hslash, h⟩
  · rintro ⟨segments, rest, rfl, hslash, h⟩
    exact ⟨slashed segments, rest, rfl, ⟨segments, hslash, rfl⟩, h⟩

/-- Patterns one after the other cover two parts of a text. -/
theorem covers_append {before after : Glob} {text : Text} :
    Covers (before ++ after) text ↔
      ∃ first rest, text = first ++ rest ∧ Covers before first ∧ Covers after rest := by
  induction before generalizing text with
  | nil =>
    constructor
    · intro h
      exact ⟨[], text, rfl, rfl, h⟩
    · rintro ⟨first, rest, rfl, rfl, h⟩
      exact h
  | cons piece before ih =>
    constructor
    · rintro ⟨part, rest, rfl, hpart, hrest⟩
      obtain ⟨first, last, rfl, hfirst, hlast⟩ := ih.mp hrest
      exact ⟨part ++ first, last, (List.append_assoc ..).symm, ⟨part, first, rfl, hpart, hfirst⟩,
        hlast⟩
    · rintro ⟨first, last, rfl, ⟨part, rest, rfl, hpart, hrest⟩, hlast⟩
      exact ⟨part, rest ++ last, List.append_assoc .., hpart,
        ih.mpr ⟨rest, last, rfl, hrest, hlast⟩⟩

/-! ## 2. The search for a cut -/

theorem afterSlash?_eq_some {path rest : Text} :
    afterSlash? path = some rest ↔ ∃ segment, '/' ∉ segment ∧ path = segment ++ '/' :: rest := by
  induction path with
  | nil => simp [afterSlash?]
  | cons c path ih =>
    unfold afterSlash?
    by_cases hc : c = '/'
    · subst hc
      constructor
      · intro h
        cases h
        exact ⟨[], List.not_mem_nil, rfl⟩
      · rintro ⟨segment, hslash, e⟩
        cases segment with
        | nil => exact congrArg some (List.cons.inj e).2
        | cons d segment => exact absurd ((List.cons.inj e).1 ▸ List.mem_cons_self) hslash
    · rw [if_neg (by simpa using hc), ih]
      constructor
      · rintro ⟨segment, hslash, rfl⟩
        exact ⟨c :: segment, by simpa [Ne.symm hc] using hslash, rfl⟩
      · rintro ⟨segment, hslash, e⟩
        cases segment with
        | nil => exact absurd (List.cons.inj e).1 hc
        | cons d segment =>
          rw [List.mem_cons, not_or] at hslash
          exact ⟨segment, hslash.2, (List.cons.inj e).2⟩

/-- A search that takes any number of characters but `stop` before it goes on. -/
theorem exists_run {stop : Char} {search next : Text → Bool} (hnil : search [] = next [])
    (hcons : ∀ c text, search (c :: text) = (next (c :: text) || (c != stop && search text)))
    {text : Text} :
    search text = true ↔ ∃ part rest, text = part ++ rest ∧ stop ∉ part ∧ next rest = true := by
  induction text with
  | nil =>
    rw [hnil]
    constructor
    · intro h
      exact ⟨[], [], rfl, List.not_mem_nil, h⟩
    · rintro ⟨part, rest, e, -, h⟩
      rwa [(List.append_eq_nil_iff.mp e.symm).2] at h
  | cons c text ih =>
    rw [hcons, Bool.or_eq_true, Bool.and_eq_true, ih, bne_iff_ne]
    constructor
    · rintro (h | ⟨hc, part, rest, rfl, hstop, h⟩)
      · exact ⟨[], c :: text, rfl, List.not_mem_nil, h⟩
      · exact ⟨c :: part, rest, rfl, by simpa [Ne.symm hc] using hstop, h⟩
    · rintro ⟨part, rest, e, hstop, h⟩
      cases part with
      | nil =>
        rw [List.nil_append] at e
        exact Or.inl (e ▸ h)
      | cons d part =>
        obtain ⟨rfl, rfl⟩ := List.cons.inj e
        rw [List.mem_cons, not_or] at hstop
        exact Or.inr ⟨Ne.symm hstop.1, part, rest, rfl, hstop.2, h⟩

theorem accepts_run {pieces : Glob} {path : Text} :
    accepts (.run :: pieces) path = true ↔
      ∃ part rest, path = part ++ rest ∧ '/' ∉ part ∧ accepts pieces rest = true :=
  exists_run (by rw [accepts]) (fun c text => by rw [accepts])

theorem accepts_all {pieces : Glob} {path : Text} :
    accepts (.all :: pieces) path = true ↔
      ∃ part rest, path = part ++ rest ∧ '\n' ∉ part ∧ accepts pieces rest = true :=
  exists_run (by rw [accepts]) (fun c text => by rw [accepts])

theorem accepts_folders {pieces : Glob} {path : Text} :
    accepts (.folders :: pieces) path = true ↔
      ∃ segments rest, path = slashed segments ++ rest ∧ (∀ segment ∈ segments, '/' ∉ segment) ∧
        accepts pieces rest = true := by
  induction hn : path.length using Nat.strong_induction_on generalizing path with
  | _ n ih =>
    subst hn
    rw [accepts, Bool.or_eq_true]
    constructor
    · rintro (h | h)
      · exact ⟨[], path, rfl, List.forall_mem_nil _, h⟩
      · split at h
        · rename_i rest hrest
          obtain ⟨segments, last, rfl, hslash, h⟩ :=
            (ih rest.length (afterSlash?_length hrest) rfl).mp h
          obtain ⟨segment, hsegment, rfl⟩ := afterSlash?_eq_some.mp hrest
          refine ⟨segment :: segments, last, ?_, List.forall_mem_cons.mpr ⟨hsegment, hslash⟩, h⟩
          rw [slashed_cons, List.append_assoc]
          rfl
        · cases h
    · rintro ⟨segments, rest, rfl, hslash, h⟩
      cases segments with
      | nil => exact Or.inl h
      | cons segment segments =>
        obtain ⟨hsegment, hslash⟩ := List.forall_mem_cons.mp hslash
        have hafter : afterSlash? (slashed (segment :: segments) ++ rest) =
            some (slashed segments ++ rest) := by
          rw [slashed_cons, List.append_assoc]
          exact afterSlash?_eq_some.mpr ⟨segment, hsegment, rfl⟩
        right
        split
        · rename_i found hfound
          obtain rfl : slashed segments ++ rest = found :=
            Option.some.inj (hafter.symm.trans hfound)
          exact (ih _ (afterSlash?_length hafter) rfl).mpr ⟨segments, rest, rfl, hslash, h⟩
        · rename_i hfound
          cases hafter.symm.trans hfound

/-- **The matcher decides the texts of a pattern.** -/
theorem accepts_iff_covers {glob : Glob} {path : Text} :
    glob.accepts path = true ↔ Covers glob path := by
  induction glob generalizing path with
  | nil => rw [accepts, Covers, List.isEmpty_iff]
  | cons piece pieces ih =>
    cases piece with
    | char c =>
      rw [covers_char]
      cases path with
      | nil => simp [accepts]
      | cons d path =>
        rw [accepts, Bool.and_eq_true, beq_iff_eq, ih]
        constructor
        · rintro ⟨rfl, h⟩
          exact ⟨path, rfl, h⟩
        · rintro ⟨rest, e, h⟩
          obtain ⟨rfl, rfl⟩ := List.cons.inj e
          exact ⟨rfl, h⟩
    | one =>
      rw [covers_one]
      cases path with
      | nil => simp [accepts]
      | cons d path =>
        rw [accepts, Bool.and_eq_true, bne_iff_ne, ih]
        constructor
        · rintro ⟨hd, h⟩
          exact ⟨d, path, rfl, hd, h⟩
        · rintro ⟨c, rest, e, hc, h⟩
          obtain ⟨rfl, rfl⟩ := List.cons.inj e
          exact ⟨hc, h⟩
    | run =>
      rw [accepts_run]
      simp only [Covers, Piece.Covers, ih]
    | all =>
      rw [accepts_all]
      simp only [Covers, Piece.Covers, ih]
    | folders =>
      rw [accepts_folders, covers_folders]
      simp only [ih]

end CodeAtlas.Glob
