/-
  File:      CodeAtlas/Proofs/Source/Lines.lean
  Subject:   The lines of a text, and the text before a line.

  * `unlines`: lines one after the other, each with its line feed.
  * `splitLines_split`: a text is its lines up to one of them, that line, and what
    follows its end. The text has no carriage returns, so that line feeds alone end
    lines.
  * `firstLines`: the text before a line, by counting line feeds; `firstLines_eq`: it is
    made of the lines before it. A place in a text lies behind the lines that are counted
    before it, and in the line after them (`exists_firstLines_append`,
    `prefix_of_firstLines_append`).
-/
import CodeAtlas.Page
import CodeAtlas.Proofs.Text

namespace CodeAtlas

/-! ## 1. Cutting into lines -/

/-- Lines one after the other, each with its line feed. -/
def unlines (lines : List Text) : Text := lines.flatMap (· ++ ['\n'])

theorem unlines_cons (line : Text) (lines : List Text) :
    unlines (line :: lines) = (line ++ ['\n']) ++ unlines lines := List.flatMap_cons

/-- A line among others, with its line feed and those before it. -/
theorem unlines_split {lines : List Text} {n : Nat} {line : Text} (h : lines[n]? = some line) :
    unlines lines = unlines (lines.take n) ++ (line ++ '\n' :: unlines (lines.drop (n + 1))) := by
  obtain ⟨hlt, rfl⟩ := List.getElem?_eq_some_iff.mp h
  have hsplit : lines = lines.take n ++ lines[n] :: lines.drop (n + 1) := by
    rw [← List.drop_eq_getElem_cons hlt, List.take_append_drop]
  calc unlines lines = unlines (lines.take n ++ lines[n] :: lines.drop (n + 1)) := by rw [← hsplit]
    _ = _ := by
      simp only [unlines, List.flatMap_append, List.flatMap_cons, List.append_assoc,
        List.singleton_append]

/-- A character that is no line break belongs to the first line. -/
theorem lineParts_cons {c : Char} (hreturn : c ≠ '\r') (hfeed : c ≠ '\n') {text line : Text}
    {lines : List Text} (h : lineParts text = line :: lines) :
    lineParts (c :: text) = (c :: line) :: lines := by
  have hbreak : (c == '\r' || c == '\n') = false := by simp [hreturn, hfeed]
  rw [lineParts, hbreak, h]
  · rfl
  · exact fun _ hc _ => hreturn hc

/-- The lines of a text, each with its line feed, and the part behind them are the text. -/
theorem exists_lineParts_eq_concat {text : Text} (h : '\r' ∉ text) :
    ∃ lines last, lineParts text = lines ++ [last] ∧ text = unlines lines ++ last ∧
      (∀ line ∈ lines, '\n' ∉ line) ∧ '\n' ∉ last := by
  induction text with
  | nil => exact ⟨[], [], rfl, rfl, nofun, List.not_mem_nil⟩
  | cons c text ih =>
    rw [List.mem_cons, not_or] at h
    obtain ⟨lines, last, hparts, htext, hlines, hlast⟩ := ih h.2
    by_cases hc : c = '\n'
    · subst hc
      have hnewline : lineParts ('\n' :: text) = [] :: lineParts text := rfl
      refine ⟨[] :: lines, last, by rw [hnewline, hparts]; rfl, ?_, ?_, hlast⟩
      · exact congrArg (List.cons '\n') htext
      · exact List.forall_mem_cons.mpr ⟨List.not_mem_nil, hlines⟩
    · have hkeep : ∀ line : Text, '\n' ∉ line → '\n' ∉ c :: line := by
        intro line hline
        rw [List.mem_cons, not_or]
        exact ⟨Ne.symm hc, hline⟩
      cases lines with
      | nil =>
        exact ⟨[], c :: last, lineParts_cons (Ne.symm h.1) hc hparts, congrArg (List.cons c) htext,
          nofun, hkeep last hlast⟩
      | cons line lines =>
        obtain ⟨hline, hmore⟩ := List.forall_mem_cons.mp hlines
        refine ⟨(c :: line) :: lines, last, lineParts_cons (Ne.symm h.1) hc hparts, ?_, ?_, hlast⟩
        · exact congrArg (List.cons c) htext
        · exact List.forall_mem_cons.mpr ⟨hkeep line hline, hmore⟩

theorem splitLines_isPrefix_lineParts (text : Text) : splitLines text <+: lineParts text := by
  unfold splitLines
  dsimp only
  split
  · exact List.dropLast_prefix _
  · exact List.prefix_rfl

/-- **A text is its lines up to one of them, that line, and what follows its end.** -/
theorem splitLines_split {text : Text} (h : '\r' ∉ text) {n : Nat} {line : Text}
    (hn : (splitLines text)[n]? = some line) :
    ∃ rest, text = unlines ((splitLines text).take n) ++ (line ++ rest) ∧ AtLineEnd rest := by
  obtain ⟨lines, last, hparts, htext, -, -⟩ := exists_lineParts_eq_concat h
  obtain ⟨more, hmore⟩ := splitLines_isPrefix_lineParts text
  obtain ⟨hlt, -⟩ := List.getElem?_eq_some_iff.mp hn
  have hconcat : lines ++ [last] = splitLines text ++ more := by rw [← hparts, hmore]
  have htake : (splitLines text).take n = (lines ++ [last]).take n := by
    rw [hconcat, List.take_append_of_le_length (Nat.le_of_lt hlt)]
  have hline : (lines ++ [last])[n]? = some line := by
    rw [hconcat, List.getElem?_append_left hlt, hn]
  rw [htake]
  by_cases hlast : n < lines.length
  · rw [List.getElem?_append_left hlast] at hline
    refine ⟨'\n' :: unlines (lines.drop (n + 1)) ++ last, ?_, Or.inr ⟨_, rfl⟩⟩
    rw [List.take_append_of_le_length (Nat.le_of_lt hlast)]
    calc text = unlines lines ++ last := htext
      _ = _ := by rw [unlines_split hline]; simp
  · have hlen := congrArg List.length hconcat
    have hn : n = lines.length := by
      simp only [List.length_append, List.length_singleton] at hlen
      omega
    subst hn
    have hlast : last = line := by simpa using hline
    subst hlast
    exact ⟨[], by simp [htext], Or.inl rfl⟩

theorem newline_not_mem_splitLines {text : Text} (h : '\r' ∉ text) :
    ∀ line ∈ splitLines text, '\n' ∉ line := by
  obtain ⟨lines, last, hparts, -, hlines, hlast⟩ := exists_lineParts_eq_concat h
  intro line hm
  have hmem : line ∈ lines ++ [last] := hparts ▸ (splitLines_isPrefix_lineParts text).subset hm
  rcases List.mem_append.mp hmem with hm | hm
  · exact hlines line hm
  · exact List.mem_singleton.mp hm ▸ hlast

/-! ## 2. The text before a line -/

/-- The first lines of a text, `count` of them, with their line feeds. -/
def firstLines : (count : Nat) → Text → Text
  | 0, _ => []
  | _ + 1, [] => []
  | count + 1, c :: text => c :: firstLines (if c == '\n' then count else count + 1) text

@[simp] theorem firstLines_zero (text : Text) : firstLines 0 text = [] := by
  cases text <;> rfl

theorem firstLines_append_of_not_mem {line : Text} (h : '\n' ∉ line) (count : Nat) (rest : Text) :
    firstLines (count + 1) (line ++ '\n' :: rest) = line ++ '\n' :: firstLines count rest := by
  induction line with
  | nil => rfl
  | cons c line ih =>
    rw [List.mem_cons, not_or] at h
    have hc : c ≠ '\n' := Ne.symm h.1
    simp [firstLines, hc, ih h.2]

theorem firstLines_unlines {lines : List Text} (h : ∀ line ∈ lines, '\n' ∉ line) (rest : Text) :
    firstLines lines.length (unlines lines ++ rest) = unlines lines := by
  induction lines with
  | nil => exact firstLines_zero rest
  | cons line lines ih =>
    have hmore := ih fun l hl => h l (List.mem_cons_of_mem line hl)
    have hsplit : unlines (line :: lines) ++ rest = line ++ '\n' :: (unlines lines ++ rest) := by
      simp [unlines_cons]
    rw [hsplit, List.length_cons, firstLines_append_of_not_mem (h line List.mem_cons_self), hmore]
    simp [unlines_cons]

/-- The text before a line is made of the lines before it. -/
theorem firstLines_eq {text : Text} (h : '\r' ∉ text) {n : Nat} {line : Text}
    (hn : (splitLines text)[n]? = some line) :
    firstLines n text = unlines ((splitLines text).take n) := by
  obtain ⟨rest, htext, -⟩ := splitLines_split h hn
  obtain ⟨hlt, -⟩ := List.getElem?_eq_some_iff.mp hn
  have hfeed : ∀ line ∈ (splitLines text).take n, '\n' ∉ line := fun line hm =>
    newline_not_mem_splitLines h line (List.mem_of_mem_take hm)
  have hfirst := firstLines_unlines hfeed (line ++ rest)
  rwa [← htext, List.length_take_of_le (Nat.le_of_lt hlt)] at hfirst

/-- What stands behind the lines before a line, and has no line feed, starts the line. -/
theorem prefix_of_firstLines_append {text : Text} (h : '\r' ∉ text) {n : Nat} {line : Text}
    (hn : (splitLines text)[n]? = some line) {part after : Text} (hpart : '\n' ∉ part)
    (e : text = firstLines n text ++ (part ++ after)) : part <+: line := by
  obtain ⟨rest, hsplit, hrest⟩ := splitLines_split h hn
  have hsame : firstLines n text ++ (part ++ after) = firstLines n text ++ (line ++ rest) := by
    rw [← e, firstLines_eq h hn]
    exact hsplit
  exact hrest.prefix_of_append_eq hpart (List.append_cancel_left hsame)

/-- A place in a text stands behind the lines before it, and in the line after them. -/
theorem exists_firstLines_append (before after : Text) :
    ∃ part, before = firstLines (before.count '\n') (before ++ after) ++ part ∧ '\n' ∉ part := by
  induction before with
  | nil => exact ⟨[], by simp, List.not_mem_nil⟩
  | cons c before ih =>
    obtain ⟨part, hpart, hfeed⟩ := ih
    by_cases hc : c = '\n'
    · subst hc
      refine ⟨part, ?_, hfeed⟩
      rw [List.count_cons_self, List.cons_append, firstLines]
      exact congrArg (List.cons '\n') hpart
    · rw [List.count_cons_of_ne hc]
      cases hcount : before.count '\n' with
      | zero =>
        refine ⟨c :: before, rfl, ?_⟩
        rw [List.mem_cons, not_or]
        exact ⟨Ne.symm hc, List.count_eq_zero.mp hcount⟩
      | succ count =>
        refine ⟨part, ?_, hfeed⟩
        rw [hcount] at hpart
        simp only [List.cons_append, firstLines, beq_eq_false_iff_ne.mpr hc, Bool.false_eq_true,
          if_false]
        exact congrArg (List.cons c) hpart

end CodeAtlas
