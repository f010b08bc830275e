/-
  File:      CodeAtlas/Proofs/Markup/Words.lean
  Subject:   The rewriting of a text word by word, as one pass from left to right.

  The words of a text are found first, and then replaced from the last to the
  first by their offsets. Here the same result is computed in one pass:

  * `applyEdits_shift`: edits after a start that they leave alone.
  * `Linker.linkWord_cases`: all that may become of one word: nothing, the anchor
    of a declaration on this line, or a link to a type.
  * `Linker.linkWords`: copies breakers, rewrites each word, goes on after it.
  * `Linker.linkTypes_eq_linkWords`: both ways give the same text, and the same
    anchors are placed.
-/
import CodeAtlas.Markup.TypeLink
import CodeAtlas.Proofs.Markup.Statements

namespace CodeAtlas.Markup

/-! ## 1. Words and edits further right -/

/-- A word of a text before which `n` more characters stand. -/
def Word.shift (n : Nat) (word : Word) : Word := ⟨word.text, word.start + n⟩

/-- An edit of a text before which `n` more characters stand. -/
def Edit.shift (n : Nat) (edit : Edit) : Edit := ⟨edit.start + n, edit.stop + n, edit.text⟩

theorem wordsFrom_eq_map_shift (start : Nat) (text : Text) :
    wordsFrom start text = (wordsFrom 0 text).map (Word.shift start) := by
  induction hn : text.length using Nat.strong_induction_on generalizing start text with
  | h n ih =>
    subst hn
    cases text with
    | nil => simp [wordsFrom]
    | cons c rest =>
      rw [wordsFrom, wordsFrom]
      split
      · rw [ih rest.length (Nat.lt_succ_self _) (start + 1) rest rfl,
          ih rest.length (Nat.lt_succ_self _) (0 + 1) rest rfl, List.map_map]
        congr 1
        funext word
        simp only [Function.comp_apply, Word.shift, Word.mk.injEq, true_and]
        omega
      · have hlen : (rest.dropWhile (!isBreaker ·)).length < (c :: rest).length :=
          Nat.lt_succ_of_le (List.dropWhile_suffix _).length_le
        simp only [List.map_cons]
        rw [ih _ hlen (start + _) _ rfl, ih _ hlen (0 + _) _ rfl, List.map_map]
        congr 1
        · simp [Word.shift]
        · congr 1
          funext word
          simp only [Function.comp_apply, Word.shift, Word.mk.injEq, true_and]
          omega

theorem Edit.apply_shift (edit : Edit) (lead text : Text) :
    (edit.shift lead.length).apply (lead ++ text) = lead ++ edit.apply text := by
  have hdrop : (lead ++ text).drop (edit.stop + lead.length) = text.drop edit.stop := by
    rw [Nat.add_comm, ← List.drop_drop, List.drop_left]
  have htake : (lead ++ text).take (edit.start + lead.length) = lead ++ text.take edit.start := by
    rw [Nat.add_comm, List.take_length_add_append]
  simp only [Edit.apply, Edit.shift, hdrop, htake, List.append_assoc]

/-- Edits that leave the start of a text alone are edits of the rest. -/
theorem applyEdits_shift (edits : List Edit) (lead text : Text) :
    applyEdits (edits.map (Edit.shift lead.length)) (lead ++ text) =
      lead ++ applyEdits edits text := by
  induction edits with
  | nil => rfl
  | cons edit edits ih =>
    have e : applyEdits ((edit :: edits).map (Edit.shift lead.length)) (lead ++ text) =
        (edit.shift lead.length).apply
          (applyEdits (edits.map (Edit.shift lead.length)) (lead ++ text)) := rfl
    rw [e, ih, Edit.apply_shift]
    rfl

theorem Linker.linkEdits_shift (linker : Linker) (line n : Nat) (placed : Placed)
    (previous : Text) (words : List Word) :
    linker.linkEdits line placed previous (words.map (Word.shift n)) =
      ((linker.linkEdits line placed previous words).1.map (Edit.shift n),
        (linker.linkEdits line placed previous words).2) := by
  induction words generalizing placed previous with
  | nil => rfl
  | cons word words ih =>
    simp only [List.map_cons, linkEdits, Word.shift, ih]
    split
    · simp only [List.map_cons, Edit.shift, Prod.mk.injEq, List.cons.injEq, Edit.mk.injEq,
        and_true, true_and]
      omega
    · rfl

/-! ## 2. What becomes of a word -/

theorem intercalate_take_isPrefix (mark : Text) (parts : List Text) (n : Nat) :
    mark.intercalate (parts.take n) <+: mark.intercalate parts := by
  induction parts generalizing n with
  | nil => simp
  | cons part parts ih =>
    cases n with
    | zero => exact List.nil_prefix
    | succ n =>
      cases parts with
      | nil => simp
      | cons next parts =>
        cases n with
        | zero =>
          have hone : (part :: next :: parts).take (0 + 1) = [part] := rfl
          rw [hone, List.intercalate_singleton, List.intercalate_cons_cons, List.append_assoc]
          exact List.prefix_append part _
        | succ n =>
          rw [List.take_succ_cons, List.take_succ_cons, List.intercalate_cons_cons,
            List.intercalate_cons_cons, List.append_assoc, List.append_assoc]
          have := ih (n + 1)
          rw [List.take_succ_cons] at this
          exact (List.prefix_append_right_inj part).mpr
            ((List.prefix_append_right_inj mark).mpr this)

theorem shortenings_isPrefix {name short : Text} (h : short ∈ shortenings name) : short <+: name := by
  unfold shortenings at h
  obtain ⟨n, _, rfl⟩ := List.mem_map.mp h
  have := intercalate_take_isPrefix ['.'] (name.splitOn '.') (n + 1)
  rwa [List.intercalate_splitOn] at this

/-- The names that a word may stand for are starts of the word. -/
theorem nameCandidates_spec {word name : Text} (h : name ∈ nameCandidates word) :
    name <+: word ∧ ∀ c ∈ name, isNamePart c = true ∨ c = '.' := by
  unfold nameCandidates at h
  split at h
  · exact absurd h List.not_mem_nil
  · rename_i full hq
    obtain ⟨hpre, hname⟩ := qualifiedName?_spec hq
    simp only at h
    split at h
    · have hshort := shortenings_isPrefix h
      exact ⟨hshort.trans hpre, fun c hc => hname.2 c (hshort.subset hc)⟩
    · exact absurd h List.not_mem_nil

namespace Linker

/-- **All that may become of a word**: it stays; or it is the name of a declaration of its line
that has no anchor yet, and gets it; or one of its names refers to a type, and is linked. -/
theorem linkWord_cases (linker : Linker) (line : Nat) (placed : Placed) (previous word : Text) :
    linker.linkWord line placed previous word = (none, placed) ∨
    (∃ name declaration, name ∈ nameCandidates word ∧
      linker.claim? line placed name = some declaration ∧
      linker.linkWord line placed previous word =
        (some (name, declarationAnchor declaration name), placed ++ [declaration.name])) ∨
    (∃ name target, name ∈ nameCandidates word ∧ linker.resolve? name = some target ∧
      linker.linkWord line placed previous word =
        (some (name, nameLink (linker.typeHref target) name), placed)) := by
  -- where nothing is claimed, the word is linked if one of its names refers to a type
  have hlink : linker.linkWord line placed previous word =
      (linker.typeLink? (nameCandidates word), placed) →
      linker.linkWord line placed previous word = (none, placed) ∨
      ∃ name target, name ∈ nameCandidates word ∧ linker.resolve? name = some target ∧
        linker.linkWord line placed previous word =
          (some (name, nameLink (linker.typeHref target) name), placed) := by
    intro e
    cases hl : linker.typeLink? (nameCandidates word) with
    | none => exact Or.inl (hl ▸ e)
    | some link =>
      obtain ⟨name, hmem, hname⟩ := List.exists_of_findSome?_eq_some hl
      obtain ⟨target, hr, rfl⟩ := Option.map_eq_some_iff.mp hname
      exact Or.inr ⟨name, target, hmem, hr, hl ▸ e⟩
  cases hn : nameCandidates word with
  | nil =>
    rw [hn] at hlink
    exact (hlink (by simp [linkWord, hn])).imp id Or.inr
  | cons name others =>
    rw [hn] at hlink
    by_cases hk : previous ∈ linker.typeKeywords
    · cases hc : linker.claim? line placed name with
      | none => exact (hlink (by simp [linkWord, hn, hc])).imp id Or.inr
      | some declaration =>
        refine Or.inr (Or.inl ⟨name, declaration, List.mem_cons_self, hc, ?_⟩)
        simp [linkWord, hn, hk, hc]
    · exact (hlink (by simp [linkWord, hn, hk])).imp id Or.inr

/-- What is replaced is a start of the word. -/
theorem linkWord_isPrefix {linker : Linker} {line : Nat} {placed after : Placed}
    {previous word name replacement : Text}
    (h : linker.linkWord line placed previous word = (some (name, replacement), after)) :
    name <+: word := by
  rcases linker.linkWord_cases line placed previous word with e | ⟨n, d, hm, _, e⟩ | ⟨n, t, hm, _, e⟩
  · cases e.symm.trans h
  · cases e.symm.trans h
    exact (nameCandidates_spec hm).1
  · cases e.symm.trans h
    exact (nameCandidates_spec hm).1

end Linker

/-! ## 3. One pass -/

/-- A word with its start replaced, or as it is. -/
def rewriteWord (link : Option (Text × Text)) (word : Text) : Text :=
  match link with
  | some (name, replacement) => replacement ++ word.drop name.length
  | none => word

/-- What was last shown after a word. -/
def shownAfter (previous word : Text) : Text :=
  if (visible word).isEmpty then previous else visible word

/-- Links the names of a text in one pass, and the anchors placed after it. -/
def Linker.linkWords (linker : Linker) (line : Nat) (placed : Placed) (previous : Text)
    (text : Text) : Text × Placed :=
  match text with
  | [] => ([], placed)
  | c :: rest =>
    if isBreaker c then
      let (shown, final) := linker.linkWords line placed previous rest
      (c :: shown, final)
    else
      let word := c :: rest.takeWhile (!isBreaker ·)
      let (link, after) := linker.linkWord line placed previous word
      let (shown, final) := linker.linkWords line after (shownAfter previous word)
        (rest.dropWhile (!isBreaker ·))
      (rewriteWord link word ++ shown, final)
termination_by text.length
decreasing_by
  all_goals simp only [List.length_cons]
  · exact Nat.lt_succ_self _
  · exact Nat.lt_succ_of_le (List.dropWhile_suffix _).length_le

namespace Linker

theorem linkEdits_cons (linker : Linker) (line : Nat) (placed : Placed) (previous : Text)
    (word : Word) (rest : List Word) :
    linker.linkEdits line placed previous (word :: rest) =
      let (link, after) := linker.linkWord line placed previous word.text
      let (edits, final) := linker.linkEdits line after (shownAfter previous word.text) rest
      match link with
      | some (name, replacement) =>
        (⟨word.start, word.start + name.length, replacement⟩ :: edits, final)
      | none => (edits, final) := rfl

/-- **Replacing words from the last to the first is rewriting the text in one pass.** -/
theorem linkTypes_eq_linkWords_from (linker : Linker) (line : Nat) (placed : Placed)
    (previous text : Text) :
    (applyEdits (linker.linkEdits line placed previous (wordsFrom 0 text)).1 text,
      (linker.linkEdits line placed previous (wordsFrom 0 text)).2) =
    linker.linkWords line placed previous text := by
  fun_induction linkWords linker line placed previous text with
  | case1 placed previous => simp [wordsFrom, linkEdits, applyEdits]
  | case2 placed previous c rest hc shown final he ih =>
    rw [he] at ih
    obtain ⟨h1, h2⟩ := Prod.mk.inj ih
    have hshift := applyEdits_shift (linker.linkEdits line placed previous (wordsFrom 0 rest)).1
      [c] rest
    rw [wordsFrom, if_pos hc, wordsFrom_eq_map_shift, linkEdits_shift]
    rw [List.length_singleton, List.singleton_append, h1] at hshift
    exact Prod.ext hshift h2
  | case3 placed previous c rest hc word link after hl shown final he ih =>
    rw [he] at ih
    obtain ⟨h1, h2⟩ := Prod.mk.inj ih
    have htext : c :: rest = word ++ rest.dropWhile (!isBreaker ·) := by
      simp [word]
    have hshift := applyEdits_shift
      (linker.linkEdits line after (shownAfter previous word)
        (wordsFrom 0 (rest.dropWhile (!isBreaker ·)))).1 word (rest.dropWhile (!isBreaker ·))
    rw [h1, ← htext] at hshift
    have hword : wordsFrom 0 (c :: rest) = ⟨word, 0⟩ ::
        (wordsFrom 0 (rest.dropWhile (!isBreaker ·))).map (Word.shift word.length) := by
      rw [wordsFrom, if_neg hc]
      simp only [Nat.zero_add]
      rw [wordsFrom_eq_map_shift]
    rw [hword]
    simp only [linkEdits_cons, hl, linkEdits_shift, Nat.zero_add]
    cases link with
    | none => exact Prod.ext hshift h2
    | some found =>
      obtain ⟨name, replacement⟩ := found
      refine Prod.ext ?_ h2
      have hle : name.length ≤ word.length := (linkWord_isPrefix hl).length_le
      have happ : applyEdits (⟨0, name.length, replacement⟩ ::
          ((linker.linkEdits line after (shownAfter previous word)
            (wordsFrom 0 (rest.dropWhile (!isBreaker ·)))).1.map (Edit.shift word.length)))
            (c :: rest) = replacement ++ (word ++ shown).drop name.length := by
        rw [← hshift]
        rfl
      rw [List.drop_append_of_le_length hle, ← List.append_assoc] at happ
      exact happ

theorem linkTypes_eq_linkWords (linker : Linker) (line : Nat) (placed : Placed) (text : Text) :
    linker.linkTypes line placed text = linker.linkWords line placed [] text :=
  linker.linkTypes_eq_linkWords_from line placed [] text

end Linker

end CodeAtlas.Markup
