/-
  File:      CodeAtlas/Proofs/Source/Words.lean
  Subject:   Where the words of a source text stand.

  * `IsWord`: characters of a word, at least one.
  * `Mode.pending`: the part of a word that the scanner holds.
  * `Mode.reads_read`: a character goes on with a word, or completes it and
    starts at most one word of its own.
  * `Token.scan_word`: every word the scanner gives stands in the text, on the
    line that is one more than the line feeds before it.
  * `lt_length_splitLines`: no character of a line stands behind the last line.
-/
import CodeAtlas.Page
import CodeAtlas.Source.Token
import Mathlib.Data.List.Infix

namespace CodeAtlas

/-! ## 1. One character -/

/-- A word: at least one character, all of them parts of words. -/
def IsWord (name : Text) : Prop := name ≠ [] ∧ ∀ c ∈ name, isWordPart c = true

theorem isWordPart_of_isWordStart {c : Char} (h : isWordStart c = true) : isWordPart c = true := by
  simp [isWordPart, h]

theorem IsWord.singleton {c : Char} (h : isWordStart c = true) : IsWord [c] := by
  refine ⟨List.cons_ne_nil _ _, fun d hd => ?_⟩
  rw [List.mem_singleton.mp hd]
  exact isWordPart_of_isWordStart h

theorem IsWord.concat {name : Text} {c : Char} (h : IsWord name) (hc : isWordPart c = true) :
    IsWord (name ++ [c]) := by
  refine ⟨List.append_ne_nil_of_right_ne_nil _ (List.cons_ne_nil _ _), fun d hd => ?_⟩
  rcases List.mem_append.mp hd with hd | hd
  · exact h.2 d hd
  · rw [List.mem_singleton.mp hd]
    exact hc

theorem IsWord.count_newline {name : Text} (h : IsWord name) : name.count '\n' = 0 := by
  refine List.count_eq_zero.mpr fun hm => ?_
  exact absurd (h.2 _ hm) (by decide)

namespace Mode

/-- The part of a word that has been read. -/
def pending : Mode → Text
  | .word name => name
  | _ => []

/-- What has been read of a word is a word. -/
def Sound : Mode → Prop
  | .word name => IsWord name
  | _ => True

theorem count_pending {mode : Mode} (h : mode.Sound) : mode.pending.count '\n' = 0 := by
  cases mode with
  | word name => exact IsWord.count_newline h
  | _ => rfl

/-- A word that the end of a line completes is the one that was being read. -/
theorem pending_of_mem_rest {mode : Mode} {name : Text} (h : .word name ∈ mode.rest) :
    mode = .word name := by
  cases mode <;> simp only [rest, List.mem_singleton, List.not_mem_nil, reduceCtorEq] at h
  cases h
  rfl

/-- Something new starts with no lexeme, or with a sign; it holds no word, or the first character
of one. -/
theorem start_cases (c : Char) :
    (∀ name, .word name ∉ (start c).1) ∧ (start c).2.Sound ∧
      ((start c).2.pending = [] ∨ (start c).2.pending = [c] ∧ isWordPart c = true) := by
  unfold start
  split_ifs with h1 h2 h3 h4
  case pos => exact ⟨by simp, trivial, Or.inl rfl⟩
  case pos => exact ⟨by simp, trivial, Or.inl rfl⟩
  case pos => exact ⟨by simp, trivial, Or.inl rfl⟩
  case pos =>
    exact ⟨by simp, .singleton h4, Or.inr ⟨rfl, isWordPart_of_isWordStart h4⟩⟩
  all_goals exact ⟨by simp, trivial, Or.inl rfl⟩

/-- What a character does to the word that is being read. -/
inductive Reads (mode : Mode) (c : Char) (out : List Lexeme × Mode) : Prop where
  /-- The character belongs to a word, perhaps as its first. -/
  | part (hwords : ∀ name, .word name ∉ out.1) (hpending : out.2.pending = mode.pending ++ [c])
      (hc : isWordPart c = true)
  /-- The character completes what was being read. -/
  | done (hwords : ∀ name, .word name ∈ out.1 → mode = .word name) (hpending : out.2.pending = [])

theorem reads_restart (mode : Mode) (hm : mode.pending = []) (hw : ∀ name, mode ≠ .word name)
    (c : Char) : (mode.restart c).2.Sound ∧ Reads mode c (mode.restart c) := by
  obtain ⟨hword, hsound, hpending⟩ := start_cases c
  have hnone : ∀ name, .word name ∉ (mode.restart c).1 := by
    intro name hmem
    rcases List.mem_append.mp hmem with h | h
    · exact hw name (pending_of_mem_rest h)
    · exact hword name h
  refine ⟨hsound, ?_⟩
  rcases hpending with hp | ⟨hp, hc⟩
  · exact .done (fun name h => absurd h (hnone name)) hp
  · refine .part hnone ?_ hc
    rw [hm]
    exact hp

/-- **Reading one character.** -/
theorem reads_read {mode : Mode} (h : mode.Sound) (c : Char) :
    (mode.read c).2.Sound ∧ Reads mode c (mode.read c) := by
  have hnil : ∀ {next : Mode}, next.pending = [] → Reads mode c ([], next) :=
    fun hp => .done (fun _ hm => absurd hm List.not_mem_nil) hp
  have hrest : ∀ {next : Mode}, next.pending = [] → Reads mode c (mode.rest, next) :=
    fun hp => .done (fun _ hm => pending_of_mem_rest hm) hp
  cases mode with
  | between => exact reads_restart .between rfl nofun c
  | word name =>
    simp only [read]
    split_ifs with hc
    · exact ⟨h.concat hc, .part (fun _ hm => absurd hm List.not_mem_nil) rfl hc⟩
    · -- the word ends here: the character is no part of a word, so that it starts none
      obtain ⟨hword, hsound, hpending⟩ := start_cases c
      refine ⟨hsound, .done (fun other hm => ?_) ?_⟩
      · rcases List.mem_append.mp hm with hm | hm
        · exact pending_of_mem_rest hm
        · exact absurd hm (hword other)
      · rcases hpending with hp | ⟨_, hpart⟩
        · exact hp
        · exact absurd hpart hc
  | number =>
    simp only [read]
    split_ifs
    · exact ⟨trivial, hnil rfl⟩
    · exact reads_restart .number rfl nofun c
  | dot =>
    simp only [read]
    split_ifs
    · exact ⟨trivial, hnil rfl⟩
    · exact reads_restart .dot rfl nofun c
  | slash =>
    simp only [read]
    split_ifs
    · exact ⟨trivial, hnil rfl⟩
    · exact ⟨trivial, hnil rfl⟩
    · exact reads_restart .slash rfl nofun c
  | literal quote body =>
    simp only [read]
    split_ifs
    · exact ⟨trivial, hrest rfl⟩
    · exact ⟨trivial, hrest rfl⟩
    · exact ⟨trivial, hnil rfl⟩
    · exact ⟨trivial, hnil rfl⟩
  | escape quote body =>
    simp only [read]
    split_ifs
    · exact ⟨trivial, hrest rfl⟩
    · exact ⟨trivial, hnil rfl⟩
  | lineComment =>
    simp only [read]
    split_ifs
    · exact ⟨trivial, hnil rfl⟩
    · exact ⟨trivial, hnil rfl⟩
  | blockComment star =>
    simp only [read]
    split_ifs
    · exact ⟨trivial, hnil rfl⟩
    · exact ⟨trivial, hnil rfl⟩

end Mode

/-! ## 2. The words of a text -/

/-- A word stands in a text, on a line that is counted by the line feeds before it. -/
def Stands (text name : Text) (line : Nat) : Prop :=
  IsWord name ∧ ∃ before after, text = before ++ name ++ after ∧ line = 1 + before.count '\n'

namespace Token

/-- The words that are still to be read stand in the text that is left, after what is held of the
word that is being read. -/
theorem scanFrom_word {mode : Mode} (h : mode.Sound) {line n : Nat} {text name : Text}
    (hm : (⟨.word name, n⟩ : Token) ∈ scanFrom mode line text) :
    IsWord name ∧ ∃ before after, mode.pending ++ text = before ++ name ++ after ∧
      n = line + before.count '\n' := by
  induction text generalizing mode line with
  | nil =>
    obtain ⟨lexeme, hl, e⟩ := List.mem_map.mp hm
    cases e
    obtain rfl := Mode.pending_of_mem_rest hl
    exact ⟨h, [], [], by simp [Mode.pending], rfl⟩
  | cons c text ih =>
    obtain ⟨hsound, hreads⟩ := Mode.reads_read h c
    rcases List.mem_append.mp hm with hm | hm
    · -- the character completes the word
      obtain ⟨lexeme, hl, e⟩ := List.mem_map.mp hm
      cases e
      cases hreads with
      | part hwords _ _ => exact absurd hl (hwords name)
      | done hwords _ =>
        obtain rfl := hwords name hl
        exact ⟨h, [], c :: text, rfl, rfl⟩
    · obtain ⟨hname, before, after, e, hn⟩ := ih hsound hm
      refine ⟨hname, ?_⟩
      cases hreads with
      | part _ hpending hc =>
        have hline : lineAfter line c = line := by
          have hne : c ≠ '\n' := by
            rintro rfl
            exact absurd hc (by decide)
          simp [lineAfter, hne]
        rw [hpending, List.append_assoc, List.singleton_append] at e
        exact ⟨before, after, e, hline ▸ hn⟩
      | done _ hpending =>
        rw [hpending, List.nil_append] at e
        refine ⟨mode.pending ++ c :: before, after, by simp [e], ?_⟩
        rw [hn, List.count_append, Mode.count_pending h, List.count_cons]
        unfold lineAfter
        split_ifs <;> omega

/-- **Every word the scanner gives stands in the text on its line.** -/
theorem scan_word {text name : Text} {line : Nat} (h : (⟨.word name, line⟩ : Token) ∈ scan text) :
    Stands text name line := by
  have hmode : Mode.between.Sound := trivial
  exact scanFrom_word hmode h

end Token

/-! ## 3. Lines -/

/-- A character that is no line break stands in a line of its own number or a later one: line
feeds end lines, and so do other breaks. -/
theorem exists_lineParts {text before after : Text} {c : Char} (h1 : c ≠ '\n') (h2 : c ≠ '\r')
    (e : text = before ++ c :: after) :
    ∃ n line, before.count '\n' ≤ n ∧ (lineParts text)[n]? = some line ∧ line ≠ [] := by
  fun_induction lineParts text generalizing before with
  | case1 => exact absurd e.symm (List.append_ne_nil_of_right_ne_nil _ (List.cons_ne_nil _ _))
  | case2 rest ih =>
    cases before with
    | nil => exact absurd (List.cons.inj e).1.symm h2
    | cons d before =>
      obtain ⟨rfl, e'⟩ := List.cons.inj e
      cases before with
      | nil => exact absurd (List.cons.inj e').1.symm h1
      | cons d before =>
        obtain ⟨rfl, e''⟩ := List.cons.inj e'
        obtain ⟨n, line, hn, hline, hne⟩ := ih e''
        refine ⟨n + 1, line, ?_, hline, hne⟩
        rw [List.count_cons_of_ne (by decide), List.count_cons_self]
        exact Nat.succ_le_succ hn
  | case3 d rest _ hd ih =>
    cases before with
    | nil =>
      obtain ⟨rfl, -⟩ := List.cons.inj e
      simp [h1, h2] at hd
    | cons b before =>
      obtain ⟨rfl, e'⟩ := List.cons.inj e
      obtain ⟨n, line, hn, hline, hne⟩ := ih e'
      refine ⟨n + 1, line, ?_, hline, hne⟩
      rw [List.count_cons]
      split_ifs <;> omega
  | case4 d rest _ hd hparts ih =>
    cases before with
    | nil => exact ⟨0, [d], Nat.le_refl 0, rfl, List.cons_ne_nil _ _⟩
    | cons b before =>
      obtain ⟨n, line, _, hline, _⟩ := ih (List.cons.inj e).2
      rw [hparts] at hline
      exact nomatch hline
  | case5 d rest _ hd first more hparts ih =>
    cases before with
    | nil => exact ⟨0, d :: first, Nat.le_refl 0, rfl, List.cons_ne_nil _ _⟩
    | cons b before =>
      obtain ⟨rfl, e'⟩ := List.cons.inj e
      obtain ⟨n, line, hn, hline, hne⟩ := ih e'
      have hcount : (d :: before).count '\n' = before.count '\n' := by
        refine List.count_cons_of_ne ?_
        rintro rfl
        simp at hd
      rw [hparts] at hline
      cases n with
      | zero => exact ⟨0, d :: first, hcount ▸ hn, rfl, List.cons_ne_nil _ _⟩
      | succ n => exact ⟨n + 1, line, hcount ▸ hn, hline, hne⟩

/-- **No character of a line stands behind the last line.** -/
theorem lt_length_splitLines {text before after : Text} {c : Char} (h1 : c ≠ '\n')
    (h2 : c ≠ '\r') (e : text = before ++ c :: after) :
    before.count '\n' < (splitLines text).length := by
  obtain ⟨n, line, hn, hline, hne⟩ := exists_lineParts h1 h2 e
  have hlt : n < (lineParts text).length := (List.getElem?_eq_some_iff.mp hline).1
  unfold splitLines
  simp only
  split
  · rename_i hlast
    -- the last part is empty, so that it is not the one the character stands in
    rw [beq_iff_eq, List.getLast?_eq_getElem?] at hlast
    have hnot : n ≠ (lineParts text).length - 1 := by
      rintro rfl
      exact hne (Option.some.inj (hline.symm.trans hlast))
    rw [List.length_dropLast]
    omega
  · omega

/-- The line of a word is one of the lines of the text. -/
theorem Stands.line_le {text name : Text} {line : Nat} (h : Stands text name line) :
    1 ≤ line ∧ line ≤ (splitLines text).length := by
  obtain ⟨⟨hne, hpart⟩, before, after, e, rfl⟩ := h
  cases name with
  | nil => exact absurd rfl hne
  | cons c name =>
    have hc := hpart c List.mem_cons_self
    have h1 : c ≠ '\n' := by
      rintro rfl
      exact absurd hc (by decide)
    have h2 : c ≠ '\r' := by
      rintro rfl
      exact absurd hc (by decide)
    have := lt_length_splitLines h1 h2 (e.trans (by rw [List.append_assoc, List.cons_append]))
    omega

end CodeAtlas
