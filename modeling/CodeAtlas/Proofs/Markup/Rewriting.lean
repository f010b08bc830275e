/-
  File:      CodeAtlas/Proofs/Markup/Rewriting.lean
  Subject:   Replacing words from the last to the first, and in one pass.

  The offsets of words are those of the line before any of it was replaced. They stay
  valid because what stands before the word that is replaced next is still as it was
  (`applyEdits_filterMap`: `lead` is that part).

  * `IsRun`: a longest run of characters that end no word. `mem_words_iff`: the words
    of a line are its runs; `pairwise_words`: they ascend, and do not touch.
  * `rewriteWords`: copies breakers and rewrites each word, from left to right.
  * `Linker.linkEdits_eq_filterMap`: the links on names are replacements of starts of
    words, at most one for each word.
  * `rewriting_is_one_pass`: replacing words and linking names are such rewritings.
-/
import CodeAtlas.Proofs.Markup.Links

namespace CodeAtlas.Markup

/-! ## 1. Breakers and words -/

/-- A text in front of which a word may end: it is empty or starts with a breaker. -/
def StartsBreak (text : Text) : Prop := ∀ c, text.head? = some c → isBreaker c = true

/-- Characters that end no word, at least one. -/
def IsUnbroken (part : Text) : Prop := part ≠ [] ∧ ∀ c ∈ part, isBreaker c = false

/-- **Every text is built from breakers and words**, a word being followed by a breaker or by
nothing. -/
theorem word_induction {P : Text → Prop} (nil : P [])
    (breaker : ∀ c rest, isBreaker c = true → P rest → P (c :: rest))
    (word : ∀ part rest, IsUnbroken part → StartsBreak rest → P rest → P (part ++ rest))
    (text : Text) : P text := by
  induction hn : text.length using Nat.strong_induction_on generalizing text with
  | h n ih =>
    subst hn
    cases text with
    | nil => exact nil
    | cons c rest =>
      by_cases hc : isBreaker c = true
      · exact breaker c rest hc (ih rest.length (Nat.lt_succ_self _) rest rfl)
      · have hpart : IsUnbroken (c :: rest.takeWhile (!isBreaker ·)) := by
          refine ⟨List.cons_ne_nil _ _, List.forall_mem_cons.mpr ⟨Bool.not_eq_true _ ▸ hc, ?_⟩⟩
          intro d hd
          simpa using List.mem_takeWhile_imp hd
        have hshort : (rest.dropWhile (!isBreaker ·)).length < (c :: rest).length :=
          Nat.lt_succ_of_le (List.dropWhile_suffix _).length_le
        have hrest := ih _ hshort (rest.dropWhile (!isBreaker ·)) rfl
        have := word _ _ hpart (isBreaker_of_head?_dropWhile rest) hrest
        rwa [List.cons_append, List.takeWhile_append_dropWhile] at this

section

variable {part rest : Text}

theorem takeWhile_word (hpart : IsUnbroken part) (hrest : StartsBreak rest) :
    (part ++ rest).takeWhile (!isBreaker ·) = part := by
  rw [List.takeWhile_append_of_pos fun c hc => by simp [hpart.2 c hc]]
  cases rest with
  | nil => simp
  | cons c rest => simp [hrest c rfl]

theorem dropWhile_word (hpart : IsUnbroken part) (hrest : StartsBreak rest) :
    (part ++ rest).dropWhile (!isBreaker ·) = rest := by
  have hwhole := List.takeWhile_append_dropWhile (p := (!isBreaker ·)) (l := part ++ rest)
  rw [takeWhile_word hpart hrest] at hwhole
  exact List.append_cancel_left hwhole

theorem wordsFrom_breaker {c : Char} (hc : isBreaker c = true) (start : Nat) (rest : Text) :
    wordsFrom start (c :: rest) = wordsFrom (start + 1) rest := by
  rw [wordsFrom, if_pos hc]

/-- A word as a recursion over characters meets it: its first character, and the others as a run. -/
theorem exists_cons_word (hpart : IsUnbroken part) (hrest : StartsBreak rest) :
    ∃ c more, part = c :: more ∧ ¬ isBreaker c = true ∧
      (more ++ rest).takeWhile (!isBreaker ·) = more ∧
      (more ++ rest).dropWhile (!isBreaker ·) = rest := by
  have htake := takeWhile_word hpart hrest
  have hdrop := dropWhile_word hpart hrest
  obtain ⟨c, more, rfl⟩ := List.exists_cons_of_ne_nil hpart.1
  have hc : isBreaker c = false := hpart.2 c List.mem_cons_self
  rw [List.cons_append, List.takeWhile_cons_of_pos (by simp [hc])] at htake
  rw [List.cons_append, List.dropWhile_cons_of_pos (by simp [hc])] at hdrop
  exact ⟨c, more, rfl, Bool.eq_false_iff.mp hc, (List.cons.inj htake).2, hdrop⟩

theorem wordsFrom_word (hpart : IsUnbroken part) (hrest : StartsBreak rest) (start : Nat) :
    wordsFrom start (part ++ rest) = ⟨part, start⟩ :: wordsFrom (start + part.length) rest := by
  obtain ⟨c, more, rfl, hc, htake, hdrop⟩ := exists_cons_word hpart hrest
  rw [List.cons_append, wordsFrom, if_neg hc]
  simp only [htake, hdrop]

end

/-! ## 2. The words are the longest runs -/

/-- The word is a longest run of characters that end no word, and stands at its offset. -/
def IsRun (line : Text) (word : Word) : Prop :=
  ∃ before after, line = before ++ word.text ++ after ∧ word.start = before.length ∧
    IsUnbroken word.text ∧ EndsWord before ∧ StartsBreak after

/-- Two runs at one offset are the same. -/
theorem IsRun.eq_of_start_eq {line : Text} {a b : Word} (ha : IsRun line a) (hb : IsRun line b)
    (h : a.start = b.start) : a = b := by
  obtain ⟨before, after, e, hstart, hword, -, hafter⟩ := ha
  obtain ⟨before', after', e', hstart', hword', -, hafter'⟩ := hb
  rw [e, List.append_assoc, List.append_assoc] at e'
  have hlength : before.length = before'.length := hstart.symm.trans (h.trans hstart')
  obtain ⟨-, hrest⟩ := List.append_inj e' hlength
  have htext : a.text = b.text := by
    rw [← takeWhile_word hword hafter, hrest, takeWhile_word hword' hafter']
  cases a
  cases b
  exact congrArg₂ Word.mk htext h

/-- No run starts with a breaker. -/
theorem IsRun.start_ne {lead rest : Text} {c : Char} {word : Word}
    (h : IsRun (lead ++ c :: rest) word) (hc : isBreaker c = true) :
    word.start ≠ lead.length := by
  obtain ⟨before, after, e, hstart, ⟨hne, hword⟩, -⟩ := h
  intro hsame
  rw [List.append_assoc] at e
  obtain ⟨-, htail⟩ := List.append_inj e (hsame.symm.trans hstart)
  obtain ⟨d, more, htext⟩ := List.exists_cons_of_ne_nil hne
  rw [htext] at htail hword
  obtain ⟨rfl, -⟩ := List.cons.inj htail
  exact Bool.false_ne_true ((hword c List.mem_cons_self).symm.trans hc)

/-- No run starts inside a word: it would be longer. -/
theorem IsRun.start_eq_of_lt {lead part rest : Text} {word : Word}
    (h : IsRun (lead ++ (part ++ rest)) word) (hpart : IsUnbroken part)
    (hle : lead.length ≤ word.start) (hlt : word.start < lead.length + part.length) :
    word.start = lead.length := by
  obtain ⟨before, after, e, hstart, -, hends, -⟩ := h
  rw [List.append_assoc] at e
  obtain ⟨more, rfl⟩ : lead <+: before :=
    List.prefix_of_prefix_length_le (List.prefix_append lead (part ++ rest))
      (e ▸ List.prefix_append before _) (hstart ▸ hle)
  rw [List.append_assoc] at e
  rw [List.length_append] at hstart
  have hmore : more <+: part :=
    List.prefix_of_prefix_length_le (List.append_cancel_left e ▸ List.prefix_append more _)
      (List.prefix_append part rest) (by omega)
  -- the last character between is a breaker, and belongs to the word
  have hnil : more = [] := by
    by_contra hne
    have hlast : (lead ++ more).getLast? = some (more.getLast hne) := by
      rw [List.getLast?_append_of_ne_nil _ hne, List.getLast?_eq_some_getLast hne]
    have hword := hpart.2 _ (hmore.subset (List.getLast_mem hne))
    exact Bool.false_ne_true (hword.symm.trans (hends _ hlast))
  rw [hstart, hnil]
  rfl

/-- The runs of a text behind `lead`. -/
theorem mem_wordsFrom_iff (text lead : Text) (h : EndsWord lead ∨ StartsBreak text) (word : Word) :
    word ∈ wordsFrom lead.length text ↔ IsRun (lead ++ text) word ∧ lead.length ≤ word.start := by
  induction text using word_induction generalizing lead with
  | nil =>
    simp only [wordsFrom, List.not_mem_nil, List.append_nil, false_iff, not_and]
    rintro ⟨before, after, rfl, hstart, ⟨hne, -⟩, -⟩ hle
    have hpos := List.length_pos_of_ne_nil hne
    simp only [List.length_append] at hle
    omega
  | breaker c rest hc ih =>
    have hlead : EndsWord (lead ++ [c]) := by
      intro d hd
      rw [List.getLast?_concat] at hd
      exact Option.some.inj hd ▸ hc
    have hrest := ih (lead ++ [c]) (Or.inl hlead)
    rw [List.length_append, List.length_singleton, List.append_assoc,
      List.singleton_append] at hrest
    rw [wordsFrom_breaker hc, hrest]
    refine and_congr_right fun hrun => ⟨Nat.le_of_succ_le, fun hle => ?_⟩
    exact Nat.lt_of_le_of_ne hle (hrun.start_ne hc).symm
  | word part rest hpart hrest ih =>
    have hlater := ih (lead ++ part) (Or.inr hrest)
    rw [List.length_append, List.append_assoc] at hlater
    rw [wordsFrom_word hpart hrest, List.mem_cons, hlater]
    have hends : EndsWord lead := h.resolve_right fun hbreak => by
      obtain ⟨c, more, rfl⟩ := List.exists_cons_of_ne_nil hpart.1
      exact Bool.false_ne_true ((hpart.2 c List.mem_cons_self).symm.trans (hbreak c rfl))
    have hfirst : IsRun (lead ++ (part ++ rest)) ⟨part, lead.length⟩ :=
      ⟨lead, rest, by rw [List.append_assoc], rfl, hpart, hends, hrest⟩
    constructor
    · rintro (rfl | ⟨hrun, hle⟩)
      · exact ⟨hfirst, Nat.le_refl _⟩
      · exact ⟨hrun, by omega⟩
    · rintro ⟨hrun, hle⟩
      by_cases hlt : word.start < lead.length + part.length
      · exact Or.inl (hrun.eq_of_start_eq hfirst (hrun.start_eq_of_lt hpart hle hlt))
      · exact Or.inr ⟨hrun, by omega⟩

/-- **The words of a line are its longest runs**, each at its offset. -/
theorem mem_words_iff {line : Text} {word : Word} : word ∈ words line ↔ IsRun line word := by
  have hstart : EndsWord [] := fun c hc => nomatch hc
  have := mem_wordsFrom_iff line [] (Or.inl hstart) word
  simpa [words] using this

theorem IsRun.slice {line : Text} {word : Word} (h : IsRun line word) :
    (line.take word.stop).drop word.start = word.text := by
  obtain ⟨before, after, rfl, hstart, -⟩ := h
  rw [Word.stop, hstart, ← List.length_append, List.take_left, List.drop_left]

/-- The words of a text ascend, and do not touch; none of them stands before the text. -/
theorem pairwise_wordsFrom (text : Text) (start : Nat) :
    (wordsFrom start text).Pairwise (fun a b => a.stop < b.start) ∧
      ∀ word ∈ wordsFrom start text,
        start ≤ word.start ∧ (StartsBreak text → start < word.start) := by
  induction text using word_induction generalizing start with
  | nil => simp [wordsFrom]
  | breaker c rest hc ih =>
    rw [wordsFrom_breaker hc]
    obtain ⟨hpair, hstart⟩ := ih (start + 1)
    refine ⟨hpair, fun word hw => ?_⟩
    have := (hstart word hw).1
    exact ⟨by omega, fun _ => by omega⟩
  | word part rest hpart hrest ih =>
    rw [wordsFrom_word hpart hrest]
    obtain ⟨hpair, hstart⟩ := ih (start + part.length)
    refine ⟨List.pairwise_cons.mpr ⟨fun word hw => (hstart word hw).2 hrest, hpair⟩, ?_⟩
    have hno : ¬ StartsBreak (part ++ rest) := fun hbreak => by
      obtain ⟨c, more, rfl⟩ := List.exists_cons_of_ne_nil hpart.1
      exact absurd (hbreak c rfl) (by simp [hpart.2 c List.mem_cons_self])
    intro word hw
    refine ⟨?_, fun hbreak => absurd hbreak hno⟩
    rcases List.mem_cons.mp hw with rfl | hw
    · exact Nat.le_refl _
    · have := (hstart word hw).1
      omega

theorem pairwise_words (line : Text) : (words line).Pairwise (fun a b => a.stop < b.start) :=
  (pairwise_wordsFrom line 0).1

/-! ## 3. One pass -/

/-- Copies breakers and rewrites each word of a text that starts at an offset. -/
def rewriteWordsFrom (rewrite : Word → Text) (start : Nat) (text : Text) : Text :=
  match text with
  | [] => []
  | c :: rest =>
    if isBreaker c then c :: rewriteWordsFrom rewrite (start + 1) rest
    else
      let word := c :: rest.takeWhile (!isBreaker ·)
      rewrite ⟨word, start⟩ ++
        rewriteWordsFrom rewrite (start + word.length) (rest.dropWhile (!isBreaker ·))
termination_by text.length
decreasing_by
  all_goals simp only [List.length_cons]
  · exact Nat.lt_succ_self _
  · exact Nat.lt_succ_of_le (List.dropWhile_suffix _).length_le

/-- A line with its words rewritten, in one pass from left to right. -/
def rewriteWords (rewrite : Word → Text) (line : Text) : Text := rewriteWordsFrom rewrite 0 line

/-- The replacement that starts where a word does. -/
def editAt? (edits : List Edit) (word : Word) : Option Edit :=
  edits.find? (·.start == word.start)

/-- A word as a replacement of its first characters leaves it. -/
def Word.edited (word : Word) : Option Edit → Text
  | some edit => edit.text ++ word.text.drop (edit.stop - edit.start)
  | none => word.text

section

variable {rewrite : Word → Text}

theorem rewriteWordsFrom_breaker {c : Char} (hc : isBreaker c = true) (start : Nat) (rest : Text) :
    rewriteWordsFrom rewrite start (c :: rest) =
      c :: rewriteWordsFrom rewrite (start + 1) rest := by
  rw [rewriteWordsFrom, if_pos hc]

theorem rewriteWordsFrom_word {part rest : Text} (hpart : IsUnbroken part)
    (hrest : StartsBreak rest) (start : Nat) :
    rewriteWordsFrom rewrite start (part ++ rest) =
      rewrite ⟨part, start⟩ ++ rewriteWordsFrom rewrite (start + part.length) rest := by
  obtain ⟨c, more, rfl, hc, htake, hdrop⟩ := exists_cons_word hpart hrest
  rw [List.cons_append, rewriteWordsFrom, if_neg hc]
  simp only [htake, hdrop]

end

/-- The replacement starts where the word does, and does not reach behind it. -/
structure Edit.Within (edit : Edit) (word : Word) : Prop where
  start_eq : edit.start = word.start
  start_le : edit.start ≤ edit.stop
  stop_le : edit.stop ≤ word.stop

/-- One replacement, where the word before `rest` is still as it was. -/
theorem Edit.Within.apply {edit : Edit} {part lead : Text} (h : edit.Within ⟨part, lead.length⟩)
    (rest : Text) :
    edit.apply (lead ++ (part ++ rest)) =
      lead ++ ((⟨part, lead.length⟩ : Word).edited (some edit) ++ rest) := by
  obtain ⟨hstart, hle, hstop⟩ := h
  simp only [Word.stop] at hstart hstop
  obtain ⟨n, hn⟩ := Nat.exists_eq_add_of_le hle
  have hshort : n ≤ part.length := by omega
  have hdrop : (lead ++ (part ++ rest)).drop edit.stop = part.drop n ++ rest := by
    rw [hn, hstart, ← List.drop_drop, List.drop_left, List.drop_append_of_le_length hshort]
  have hlength : edit.stop - edit.start = n := by omega
  rw [Edit.apply, hdrop, hstart, List.take_left, Word.edited, hlength]
  simp only [List.append_assoc]

/-- **Replacements of starts of words, made from the last to the first, rewrite the text in one
pass.** When one of them is made, all that stands before its word is still as it was. -/
theorem applyEdits_filterMap (edit? : Word → Option Edit) (text lead : Text)
    (h : ∀ word ∈ wordsFrom lead.length text, ∀ edit, edit? word = some edit → edit.Within word) :
    applyEdits ((wordsFrom lead.length text).filterMap edit?) (lead ++ text) =
      lead ++ rewriteWordsFrom (fun word => word.edited (edit? word)) lead.length text := by
  induction text using word_induction generalizing lead with
  | nil => simp [wordsFrom, rewriteWordsFrom, applyEdits]
  | breaker c rest hc ih =>
    have hlength : lead.length + 1 = (lead ++ [c]).length := by simp
    rw [wordsFrom_breaker hc, hlength] at h
    have hrest := ih (lead ++ [c]) h
    simp only [List.append_assoc, List.singleton_append] at hrest
    rw [wordsFrom_breaker hc, rewriteWordsFrom_breaker hc, hlength, hrest]
  | word part rest hpart hrest ih =>
    have hlength : lead.length + part.length = (lead ++ part).length := List.length_append.symm
    rw [wordsFrom_word hpart hrest, hlength] at h
    obtain ⟨hword, hmore⟩ := List.forall_mem_cons.mp h
    have hlater := ih (lead ++ part) hmore
    simp only [List.append_assoc] at hlater
    rw [wordsFrom_word hpart hrest, rewriteWordsFrom_word hpart hrest, hlength]
    cases he : edit? ⟨part, lead.length⟩ with
    | none =>
      rw [List.filterMap_cons_none he, hlater]
      rfl
    | some edit =>
      rw [List.filterMap_cons_some he]
      have hfold : ∀ edits line, applyEdits (edit :: edits) line =
          edit.apply (applyEdits edits line) := fun _ _ => rfl
      rw [hfold, hlater, (hword edit he).apply]

theorem applyEdits_words (edit? : Word → Option Edit) (line : Text)
    (h : ∀ word ∈ words line, ∀ edit, edit? word = some edit → edit.Within word) :
    applyEdits ((words line).filterMap edit?) line =
      rewriteWords (fun word => word.edited (edit? word)) line :=
  applyEdits_filterMap edit? line [] h

/-! ## 4. Words that are replaced, and names that are linked -/

theorem replaceWords_eq_rewriteWords (line wanted replacement : Text) :
    replaceWords line wanted replacement =
      rewriteWords (fun word => if word.text = wanted then replacement else word.text) line := by
  let edit? : Word → Option Edit := fun word =>
    if word.text == wanted then some ⟨word.start, word.stop, replacement⟩ else none
  have hedits : ((words line).filter (·.text == wanted)).map
      (fun word => (⟨word.start, word.stop, replacement⟩ : Edit)) =
      (words line).filterMap edit? := by
    rw [← List.filterMap_eq_map, List.filterMap_filter]
    rfl
  have hwithin : ∀ word ∈ words line, ∀ edit, edit? word = some edit → edit.Within word := by
    intro word _ edit he
    obtain ⟨-, e⟩ := Option.ite_none_right_eq_some.mp he
    cases e
    exact ⟨rfl, Nat.le_add_right _ _, Nat.le_refl _⟩
  rw [replaceWords, hedits, applyEdits_words edit? line hwithin]
  congr 1
  funext word
  by_cases hw : word.text = wanted
  · simp [edit?, hw, Word.edited, Word.stop]
  · simp [edit?, hw, Word.edited]

namespace Linker

/-- Every link on a name replaces the start of a word. -/
theorem within_of_mem_linkEdits {linker : Linker} {number : Nat} {placed : Placed}
    {previous : Text} {list : List Word} {edit : Edit}
    (h : edit ∈ (linker.linkEdits number placed previous list).1) :
    ∃ word ∈ list, edit.Within word := by
  induction list generalizing placed previous with
  | nil => exact absurd h List.not_mem_nil
  | cons word list ih =>
    rw [linkEdits_cons] at h
    cases hl : linker.linkWord number placed previous word.text with
    | mk link after =>
      rw [hl] at h
      cases link with
      | none =>
        obtain ⟨w, hm, hw⟩ := ih h
        exact ⟨w, List.mem_cons_of_mem word hm, hw⟩
      | some found =>
        obtain ⟨name, replacement⟩ := found
        rcases List.mem_cons.mp h with rfl | h
        · have hname := (linkWord_isPrefix hl).length_le
          exact ⟨word, List.mem_cons_self, rfl, Nat.le_add_right _ _, Nat.add_le_add_left hname _⟩
        · obtain ⟨w, hm, hw⟩ := ih h
          exact ⟨w, List.mem_cons_of_mem word hm, hw⟩

/-- **A word has at most one link**, which is found by its offset. -/
theorem linkEdits_eq_filterMap (linker : Linker) (number : Nat) (placed : Placed)
    (previous : Text) {list : List Word} (h : list.Pairwise (fun a b => a.stop < b.start)) :
    (linker.linkEdits number placed previous list).1 =
      list.filterMap (editAt? (linker.linkEdits number placed previous list).1) := by
  induction list generalizing placed previous with
  | nil => rfl
  | cons word list ih =>
    obtain ⟨hword, hlist⟩ := List.pairwise_cons.mp h
    have hbehind : ∀ other ∈ list, word.start < other.start := fun other ho =>
      Nat.lt_of_le_of_lt (Nat.le_add_right _ _) (hword other ho)
    rw [linkEdits_cons]
    cases linker.linkWord number placed previous word.text with
    | mk link after =>
      have hmore := ih after (shownAfter previous word.text) hlist
      -- the links on later words start behind this word
      have hnone : editAt? (linker.linkEdits number after (shownAfter previous word.text) list).1
          word = none := by
        refine List.find?_eq_none.mpr fun edit he => ?_
        obtain ⟨other, ho, hwithin⟩ := within_of_mem_linkEdits he
        have := hbehind other ho
        simp only [beq_iff_eq, hwithin.start_eq]
        omega
      cases link with
      | none => exact hmore.trans (List.filterMap_cons_none hnone).symm
      | some found =>
        obtain ⟨name, replacement⟩ := found
        have hfound : ∀ edits, editAt?
            (⟨word.start, word.start + name.length, replacement⟩ :: edits) word =
              some ⟨word.start, word.start + name.length, replacement⟩ := by simp [editAt?]
        refine Eq.trans ?_ (List.filterMap_cons_some (hfound _)).symm
        refine congrArg (List.cons _) (hmore.trans (List.filterMap_congr fun other ho => ?_))
        have := hbehind other ho
        refine (List.find?_cons_of_neg ?_).symm
        simp only [beq_iff_eq]
        omega

/-- **Linking the names of a text is one pass** in which the start of each word that has a link is
replaced by it. -/
theorem linkTypes_eq_rewriteWords (linker : Linker) (number : Nat) (placed : Placed)
    (text : Text) :
    (linker.linkTypes number placed text).1 =
      rewriteWords (fun word =>
        word.edited (editAt? (linker.linkEdits number placed [] (words text)).1 word)) text := by
  have hedits := linker.linkEdits_eq_filterMap number placed [] (pairwise_words text)
  have hwithin : ∀ word ∈ words text, ∀ edit,
      editAt? (linker.linkEdits number placed [] (words text)).1 word = some edit →
        edit.Within word := by
    intro word hw edit he
    obtain ⟨other, ho, hwithin⟩ := within_of_mem_linkEdits (List.mem_of_find?_eq_some he)
    have hstart : edit.start = word.start := by simpa using List.find?_some he
    have hsame : other = word :=
      (mem_words_iff.mp ho).eq_of_start_eq (mem_words_iff.mp hw)
        (hwithin.start_eq.symm.trans hstart)
    exact hsame ▸ hwithin
  calc (linker.linkTypes number placed text).1
      = applyEdits (linker.linkEdits number placed [] (words text)).1 text := rfl
    _ = applyEdits ((words text).filterMap
          (editAt? (linker.linkEdits number placed [] (words text)).1)) text := by rw [← hedits]
    _ = _ := applyEdits_words _ text hwithin

end Linker

/-! ## 5. Both at once -/

/-- **Words are replaced as if all at once.** The words of a line are its longest runs, they ascend
without touching, and each stands at its offset. To replace all words equal to a given one is to
copy the line from left to right and to put the replacement in the place of each of them, whatever
the replacement holds. Links on names are put in the same way in the place of the first characters
of the words that have one. -/
theorem rewriting_is_one_pass (line : Text) :
    (∀ word, word ∈ words line ↔ IsRun line word) ∧
      (words line).Pairwise (fun a b => a.stop < b.start) ∧
      (∀ word ∈ words line, (line.take word.stop).drop word.start = word.text) ∧
      (∀ wanted replacement, replaceWords line wanted replacement =
        rewriteWords (fun word => if word.text = wanted then replacement else word.text) line) ∧
      ∀ (linker : Linker) (number : Nat) (placed : Placed),
        let edits := (linker.linkEdits number placed [] (words line)).1
        (linker.linkTypes number placed line).1 =
            rewriteWords (fun word => word.edited (editAt? edits word)) line ∧
          ∀ edit ∈ edits, ∃ word ∈ words line, edit.Within word :=
  ⟨fun _ => mem_words_iff, pairwise_words line, fun _ hw => (mem_words_iff.mp hw).slice,
    replaceWords_eq_rewriteWords line, fun linker number placed =>
      ⟨linker.linkTypes_eq_rewriteWords number placed line, fun _ he =>
        Linker.within_of_mem_linkEdits he⟩⟩

/-- A replacement that holds a breaker and the word itself. -/
theorem rewriting_is_one_pass_longer :
    (⟨"b", 4⟩ : Word) ∈ words "b.c b(b" ∧
      (List.take 5 "b.c b(b".toList).drop 4 = "b".toList ∧
      replaceWords "b.c b(b" "b" "a b" = "b.c a b(a b".toList := by
  have hword : (⟨"b", 4⟩ : Word) ∈ words "b.c b(b" := by decide +kernel
  obtain ⟨-, -, hslice, hreplace, -⟩ := rewriting_is_one_pass "b.c b(b"
  refine ⟨hword, hslice _ hword, (hreplace "b" "a b").trans ?_⟩
  decide +kernel

end CodeAtlas.Markup
