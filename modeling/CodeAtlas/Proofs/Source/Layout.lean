/-
  File:      CodeAtlas/Proofs/Source/Layout.lean
  Subject:   Where the tokens of a text stand, and what stands between them.

  A text is lexemes with gaps around them. The grammar of both is given without the
  scanner, and the scanner is proved to follow it: it reads a text that is laid out in
  this way as its lexemes (`scanFrom_of_laid`), and every text is laid out in this way
  (`exists_laid`).

  * `Skipped`, `Gap`: blanks and whole comments.
  * `Written`: how a lexeme is written, and what can follow it. A word or a number goes
    on as far as it can, and a literal ends on its line (`Quoted`).
  * `Laid`: gaps and lexemes by turns, with the offset and the line of each lexeme.
  * `Layout`: what this says of a text and the places of its tokens
    (`Token.scan_layout`).
-/
import CodeAtlas.Proofs.Source.Comments

namespace CodeAtlas

/-! ## 1. Gaps -/

/-- A part that is skipped, and the text behind it: a blank, or a whole comment. -/
inductive Skipped : Text → Text → Prop where
  | blank {c : Char} (h : c ≤ ' ') (rest : Text) : Skipped [c] rest
  /-- A comment up to the end of its line. -/
  | lineComment {opening body rest : Text} (hopening : opening = ['/', '/'] ∨ opening = ['*'])
      (hfeed : '\n' ∉ body) (hrest : AtLineEnd rest) : Skipped (opening ++ body) rest
  /-- A comment up to its first close. -/
  | blockComment {body : Text} (h : ¬ ['*', '/'] <:+: body) (rest : Text) :
      Skipped ('/' :: '*' :: (body ++ ['*', '/'])) rest
  /-- A comment without a close. -/
  | openComment {body : Text} (h : ¬ ['*', '/'] <:+: body) : Skipped ('/' :: '*' :: body) []

/-- Skipped parts one after the other, and the text behind them. -/
inductive Gap : Text → Text → Prop where
  | nil (rest : Text) : Gap [] rest
  | cons {part gap rest : Text} (hpart : Skipped part (gap ++ rest)) (hgap : Gap gap rest) :
      Gap (part ++ gap) rest

theorem Skipped.ne_nil {part rest : Text} (h : Skipped part rest) : part ≠ [] := by
  cases h with
  | lineComment hopening _ _ => rcases hopening with rfl | rfl <;> exact List.cons_ne_nil _ _
  | blank | blockComment | openComment => exact List.cons_ne_nil _ _

/-! ## 2. Lexemes -/

/-- The first character of a text does not go on with what is before it. -/
def StopsBefore (part : Char → Bool) (rest : Text) : Prop := ∀ c ∈ rest.head?, part c = false

theorem stopsBefore_dropWhile (part : Char → Bool) (text : Text) :
    StopsBefore part (text.dropWhile part) := by
  intro c hc
  have hhead := List.head?_dropWhile_not part text
  rw [Option.mem_def.mp hc] at hhead
  simpa using hhead

/-- A literal behind its opening quote: what it holds, how it is written, and what follows. -/
inductive Quoted (quote : Char) : Text → Text → Text → Prop where
  | close (rest : Text) : Quoted quote [] [quote] rest
  /-- A literal that is not closed ends with its line. -/
  | lineEnd {rest : Text} (hrest : AtLineEnd rest) : Quoted quote [] [] rest
  /-- A backslash at the end of the line stands for itself. -/
  | backslash {rest : Text} (hrest : AtLineEnd rest) : Quoted quote ['\\'] ['\\'] rest
  | escape {c : Char} {body part rest : Text} (hfeed : c ≠ '\n')
      (h : Quoted quote body part rest) : Quoted quote (c :: body) ('\\' :: c :: part) rest
  | char {c : Char} {body part rest : Text} (hquote : c ≠ quote) (hfeed : c ≠ '\n')
      (hslash : c ≠ '\\') (h : Quoted quote body part rest) :
      Quoted quote (c :: body) (c :: part) rest

/-- A character that stands for itself in front of `rest`. -/
structure IsSign (c : Char) (rest : Text) : Prop where
  visible : ¬ c ≤ ' '
  start : isWordStart c = false
  digit : c.isDigit = false
  mark : c ≠ '*' ∧ c ≠ '"' ∧ c ≠ '\''
  /-- A slash that opens no comment. -/
  slash : c = '/' → StopsBefore (fun d => d == '/' || d == '*') rest
  /-- A dot that begins no number. -/
  dot : c = '.' → StopsBefore Text.isDigit rest

/-- How a lexeme is written, and what can follow it. -/
inductive Written : Lexeme → Text → Text → Prop where
  | word {c : Char} {more rest : Text} (hstart : isWordStart c = true)
      (hmore : ∀ d ∈ more, isWordPart d = true) (hrest : StopsBefore isWordPart rest) :
      Written (.word (c :: more)) (c :: more) rest
  | number {c : Char} {more rest : Text} (hstart : c.isDigit = true)
      (hmore : ∀ d ∈ more, isNumberPart d = true) (hrest : StopsBefore isNumberPart rest) :
      Written .number (c :: more) rest
  /-- A number that begins with a dot. -/
  | fraction {d : Char} {more rest : Text} (hstart : Text.isDigit d = true)
      (hmore : ∀ d ∈ more, isNumberPart d = true) (hrest : StopsBefore isNumberPart rest) :
      Written .number ('.' :: d :: more) rest
  | literal {quote : Char} {body part rest : Text} (hquote : quote = '"' ∨ quote = '\'')
      (h : Quoted quote body part rest) : Written (.literal quote body) (quote :: part) rest
  | sign {c : Char} {rest : Text} (h : IsSign c rest) : Written (.sign c) [c] rest

theorem Written.ne_nil {lexeme : Lexeme} {part rest : Text} (h : Written lexeme part rest) :
    part ≠ [] := by
  cases h <;> exact List.cons_ne_nil _ _

/-- A word is its own lexeme, and goes on as far as it can. -/
theorem Written.word_inv {name part rest : Text} (h : Written (.word name) part rest) :
    part = name ∧ StopsBefore isWordPart rest := by
  cases h with
  | word hstart hmore hrest => exact ⟨rfl, hrest⟩

theorem Written.sign_inv {c : Char} {part rest : Text} (h : Written (.sign c) part rest) :
    part = [c] := by
  cases h with
  | sign h => rfl

theorem Quoted.newline_not_mem {quote : Char} {body part rest : Text} (hquote : quote ≠ '\n')
    (h : Quoted quote body part rest) : '\n' ∉ part := by
  induction h with
  | close rest => simpa using hquote.symm
  | lineEnd hrest => exact List.not_mem_nil
  | backslash hrest => decide
  | escape hfeed h ih => simp [hfeed.symm, ih]
  | char hclose hfeed hslash h ih => simp [hfeed.symm, ih]

theorem newline_not_mem_of_all (part : Char → Bool) {text : Text} (hfeed : part '\n' = false)
    (h : ∀ c ∈ text, part c = true) : '\n' ∉ text := by
  intro hm
  rw [h _ hm] at hfeed
  cases hfeed

/-- No lexeme reaches over the end of a line. -/
theorem Written.newline_not_mem {lexeme : Lexeme} {part rest : Text}
    (h : Written lexeme part rest) : '\n' ∉ part := by
  cases h with
  | word hstart hmore hrest =>
    exact newline_not_mem_of_all isWordPart (by decide)
      (List.forall_mem_cons.mpr ⟨isWordPart_of_isWordStart hstart, hmore⟩)
  | number hstart hmore hrest =>
    rintro (_ | ⟨_, hm⟩)
    · exact absurd hstart (by decide)
    · exact newline_not_mem_of_all isNumberPart (by decide) hmore hm
  | fraction hstart hmore hrest =>
    rintro (_ | ⟨_, _ | ⟨_, hm⟩⟩)
    · exact absurd hstart (by decide)
    · exact newline_not_mem_of_all isNumberPart (by decide) hmore hm
  | @literal quote body part rest hquote h =>
    have hne : quote ≠ '\n' := by rcases hquote with rfl | rfl <;> decide
    rintro (_ | ⟨_, hm⟩)
    · exact hne rfl
    · exact h.newline_not_mem hne hm
  | sign h =>
    intro hm
    exact h.visible (List.mem_singleton.mp hm ▸ by decide)

/-! ## 3. Reading a part -/

theorem lineAfter_of_ne {c : Char} (h : c ≠ '\n') (line : Nat) : lineAfter line c = line := by
  simp [lineAfter, h]

theorem digit_range {c : Char} (h : c.isDigit = true) : 48 ≤ c.toNat ∧ c.toNat ≤ 57 := by
  simpa [Char.isDigit, UInt32.le_iff_toNat_le] using h

/-- Neither a digit nor a blank begins a word. -/
theorem isWordStart_eq_false {c : Char} (h : c.isDigit = true ∨ c ≤ ' ') :
    isWordStart c = false := by
  have hlt : c.toNat < 58 := by
    rcases h with h | h
    · have hrange := digit_range h
      omega
    · have hle : c.toNat ≤ 32 := h
      omega
  have hall : ∀ n : Fin 58, ((Char.ofNat n).isDigit = true ∨ Char.ofNat n ≤ ' ') →
      isWordStart (Char.ofNat n) = false := by decide
  have hn := hall ⟨c.toNat, hlt⟩
  rw [Char.ofNat_toNat] at hn
  exact hn h

namespace Mode

theorem start_word {c : Char} (h : isWordStart c = true) : start c = ([], .word [c]) := by
  have hblank : ¬ c ≤ ' ' := by
    intro hle
    rw [isWordStart_eq_false (Or.inr hle)] at h
    cases h
  have hslash : c ≠ '/' := by
    rintro rfl
    exact absurd h (by decide)
  have hstar : c ≠ '*' := by
    rintro rfl
    exact absurd h (by decide)
  simp [start, hblank, hslash, hstar, h]

theorem start_digit {c : Char} (h : c.isDigit = true) : start c = ([], .number) := by
  have hrange := digit_range h
  have hblank : ¬ c ≤ ' ' := by
    intro hle
    have hle' : c.toNat ≤ 32 := hle
    omega
  have hslash : c ≠ '/' := by
    rintro rfl
    exact absurd h (by decide)
  have hstar : c ≠ '*' := by
    rintro rfl
    exact absurd h (by decide)
  simp [start, hblank, hslash, hstar, isWordStart_eq_false (Or.inl h), h]

end Mode

namespace Token

/-- A character that completes no lexeme. -/
theorem scanFrom_cons {mode next : Mode} {c : Char} (h : mode.read c = ([], next)) (line : Nat)
    (text : Text) : scanFrom mode line (c :: text) = scanFrom next (lineAfter line c) text := by
  rw [scanFrom, h]
  rfl

/-- What is being read is complete if nothing that follows goes on with it. -/
theorem scanFrom_of_restart {mode : Mode} {rest : Text}
    (h : ∀ c ∈ rest.head?, mode.read c = mode.restart c) (line : Nat) :
    scanFrom mode line rest = mode.rest.map (⟨·, line⟩) ++ scanFrom .between line rest := by
  cases rest with
  | nil => exact (List.append_nil _).symm
  | cons c rest =>
    have hbetween : Mode.between.read c = Mode.start c := rfl
    rw [scanFrom, scanFrom, h c rfl, hbetween, Mode.restart, List.map_append, List.append_assoc]

/-- The end of a line completes what is being read, unless it is a block comment. -/
theorem scanFrom_of_atLineEnd {mode : Mode} {rest : Text} (h : mode.inBlock = false)
    (hrest : AtLineEnd rest) (line : Nat) :
    scanFrom mode line rest = mode.rest.map (⟨·, line⟩) ++ scanFrom .between line rest := by
  refine scanFrom_of_restart (fun c hc => ?_) line
  rcases hrest with rfl | ⟨more, rfl⟩
  · cases hc
  · cases hc
    have hstart : Mode.start '\n' = ([], .between) := by decide
    rw [Mode.read_newline h, Mode.restart, hstart, List.append_nil]

/-- **Characters that go on with what is being read**, without completing a lexeme. -/
theorem scanFrom_run (part : Char → Bool) (mode : Text → Mode) (hfeed : part '\n' = false)
    (hread : ∀ seen c, part c = true → (mode seen).read c = ([], mode (seen ++ [c]))) {more : Text}
    (hmore : ∀ c ∈ more, part c = true) (seen : Text) (line : Nat) (rest : Text) :
    scanFrom (mode seen) line (more ++ rest) = scanFrom (mode (seen ++ more)) line rest := by
  induction more generalizing seen with
  | nil => rw [List.nil_append, List.append_nil]
  | cons c more ih =>
    obtain ⟨hc, hmore⟩ := List.forall_mem_cons.mp hmore
    have hne : c ≠ '\n' := by
      rintro rfl
      rw [hc] at hfeed
      cases hfeed
    rw [List.cons_append, scanFrom_cons (hread seen c hc), lineAfter_of_ne hne, ih hmore,
      List.append_assoc, List.singleton_append]

theorem scanFrom_wordPart {name more rest : Text} (hmore : ∀ c ∈ more, isWordPart c = true)
    (hrest : StopsBefore isWordPart rest) (line : Nat) :
    scanFrom (.word name) line (more ++ rest) =
      ⟨.word (name ++ more), line⟩ :: scanFrom .between line rest := by
  have hread : ∀ seen c, isWordPart c = true →
      (Mode.word seen).read c = ([], .word (seen ++ [c])) :=
    fun seen c hc => by simp [Mode.read, hc]
  have hend : ∀ c ∈ rest.head?,
      (Mode.word (name ++ more)).read c = (Mode.word (name ++ more)).restart c :=
    fun c hc => by simp [Mode.read, hrest c hc]
  rw [scanFrom_run isWordPart .word (by decide) hread hmore, scanFrom_of_restart hend]
  rfl

theorem scanFrom_number {more rest : Text} (hmore : ∀ c ∈ more, isNumberPart c = true)
    (hrest : StopsBefore isNumberPart rest) (line : Nat) :
    scanFrom .number line (more ++ rest) = ⟨.number, line⟩ :: scanFrom .between line rest := by
  have hread : ∀ (_ : Text) c, isNumberPart c = true → Mode.number.read c = ([], .number) :=
    fun _ c hc => by simp [Mode.read, hc]
  have hend : ∀ c ∈ rest.head?, Mode.number.read c = Mode.number.restart c :=
    fun c hc => by simp [Mode.read, hrest c hc]
  rw [scanFrom_run isNumberPart (fun _ => .number) (by decide) hread hmore [],
    scanFrom_of_restart hend]
  rfl

theorem scanFrom_lineComment {body rest : Text} (hfeed : '\n' ∉ body) (hrest : AtLineEnd rest)
    (line : Nat) : scanFrom .lineComment line (body ++ rest) = scanFrom .between line rest := by
  have hread : ∀ (_ : Text) c, (c != '\n') = true →
      Mode.lineComment.read c = ([], .lineComment) :=
    fun _ c hc => by simp [Mode.read, bne_iff_ne.mp hc]
  have hbody : ∀ c ∈ body, (c != '\n') = true := by
    intro c hc
    exact bne_iff_ne.mpr fun e => hfeed (e ▸ hc)
  rw [scanFrom_run (· != '\n') (fun _ => .lineComment) (by decide) hread hbody []]
  exact scanFrom_of_atLineEnd rfl hrest line

/-- Before its first close a block comment goes on. -/
theorem scanFrom_blockComment {star : Bool} {body : Text} (hbody : ¬ ['*', '/'] <:+: body)
    (hstar : star = true → body.head? ≠ some '/') (line : Nat) (rest : Text) :
    ∃ last, scanFrom (.blockComment star) line (body ++ rest) =
      scanFrom (.blockComment last) (line + body.count '\n') rest := by
  induction body generalizing star line with
  | nil => exact ⟨star, rfl⟩
  | cons c body ih =>
    have hopen : (star && c == '/') = false := by
      cases star with
      | false => rfl
      | true =>
        have hc : c ≠ '/' := fun e => hstar rfl (congrArg some e)
        simp [hc]
    have hread : (Mode.blockComment star).read c = ([], .blockComment (c == '*')) := by
      simp [Mode.read, hopen]
    have hlater : ¬ ['*', '/'] <:+: body := fun h => hbody (List.infix_cons h)
    have hnext : (c == '*') = true → body.head? ≠ some '/' := by
      intro hc hhead
      obtain ⟨more, rfl⟩ := List.head?_eq_some_iff.mp hhead
      obtain rfl := beq_iff_eq.mp hc
      exact hbody ⟨[], more, rfl⟩
    obtain ⟨last, hlast⟩ := ih hlater hnext (lineAfter line c)
    refine ⟨last, ?_⟩
    rw [List.cons_append, scanFrom_cons hread, hlast, count_newline_cons]

theorem scanFrom_literal {quote : Char} {body part rest : Text} (hnewline : quote ≠ '\n')
    (hbackslash : quote ≠ '\\') (h : Quoted quote body part rest) (seen : Text) (line : Nat) :
    scanFrom (.literal quote seen) line (part ++ rest) =
      ⟨.literal quote (seen ++ body), line⟩ :: scanFrom .between line rest := by
  have hescape : ∀ seen : Text,
      (Mode.literal quote seen).read '\\' = ([], .escape quote seen) := fun seen => by
    simp [Mode.read, hbackslash.symm]
  induction h generalizing seen with
  | close rest =>
    have hread : (Mode.literal quote seen).read quote = ([.literal quote seen], .between) := by
      simp [Mode.read, Mode.rest]
    rw [List.singleton_append, scanFrom, hread, lineAfter_of_ne hnewline, List.append_nil]
    rfl
  | lineEnd hrest =>
    rw [List.nil_append, List.append_nil, scanFrom_of_atLineEnd rfl hrest]
    rfl
  | backslash hrest =>
    rw [List.singleton_append, scanFrom_cons (hescape seen), lineAfter_of_ne (by decide),
      scanFrom_of_atLineEnd rfl hrest]
    rfl
  | @escape c body part rest hfeed h ih =>
    have hread : (Mode.escape quote seen).read c = ([], .literal quote (seen ++ [c])) := by
      simp [Mode.read, hfeed]
    rw [List.cons_append, List.cons_append, scanFrom_cons (hescape seen),
      lineAfter_of_ne (by decide), scanFrom_cons hread, lineAfter_of_ne hfeed, ih,
      List.append_assoc, List.singleton_append]
  | @char c body part rest hquote hfeed hslash h ih =>
    have hread : (Mode.literal quote seen).read c = ([], .literal quote (seen ++ [c])) := by
      simp [Mode.read, hquote, hfeed, hslash]
    rw [List.cons_append, scanFrom_cons hread, lineAfter_of_ne hfeed, ih, List.append_assoc,
      List.singleton_append]

/-- **What is skipped gives no token.** -/
theorem scanFrom_skipped {part rest : Text} (h : Skipped part rest) (line : Nat) :
    scanFrom .between line (part ++ rest) = scanFrom .between (line + part.count '\n') rest := by
  have hopen : ∀ text, scanFrom .between line ('/' :: '*' :: text) =
      scanFrom (.blockComment false) line text := fun _ => rfl
  have hstar : ∀ {body : Text}, false = true → body.head? ≠ some '/' :=
    fun h => absurd h Bool.false_ne_true
  cases h with
  | @blank c h _ =>
    have hread : Mode.between.read c = ([], .between) := by simp [Mode.read, Mode.start, h]
    rw [List.singleton_append, scanFrom_cons hread, count_newline_cons, List.count_nil,
      Nat.add_zero]
  | @lineComment opening body _ hopening hfeed hrest =>
    have hcount : (opening ++ body).count '\n' = 0 := by
      rw [List.count_append, List.count_eq_zero.mpr hfeed]
      rcases hopening with rfl | rfl <;> rfl
    rw [hcount, List.append_assoc]
    rcases hopening with rfl | rfl <;> exact scanFrom_lineComment hfeed hrest line
  | @blockComment body h _ =>
    obtain ⟨last, hlast⟩ := scanFrom_blockComment h hstar line ('*' :: '/' :: rest)
    have htext : '/' :: '*' :: (body ++ ['*', '/']) ++ rest =
        '/' :: '*' :: (body ++ '*' :: '/' :: rest) := by simp
    have hcount : ('/' :: '*' :: (body ++ ['*', '/'])).count '\n' = body.count '\n' := by simp
    rw [htext, hopen, hlast, hcount]
    -- the close ends the comment, whatever its last character was
    cases last <;> rfl
  | @openComment body h =>
    obtain ⟨last, hlast⟩ := scanFrom_blockComment h hstar line []
    rw [List.append_nil] at hlast
    rw [List.append_nil, hopen, hlast]
    rfl

theorem scanFrom_sign {c : Char} {rest : Text} (h : IsSign c rest) (line : Nat) :
    scanFrom .between line (c :: rest) = ⟨.sign c, line⟩ :: scanFrom .between line rest := by
  have hne : c ≠ '\n' := by
    rintro rfl
    exact h.visible (by decide)
  by_cases hslash : c = '/'
  · subst hslash
    have hread : Mode.between.read '/' = ([], .slash) := by decide
    have hend : ∀ d ∈ rest.head?, Mode.slash.read d = Mode.slash.restart d := by
      intro d hd
      have hstop := h.slash rfl d hd
      simp_all [Mode.read]
    rw [scanFrom_cons hread, lineAfter_of_ne hne, scanFrom_of_restart hend]
    rfl
  · by_cases hdot : c = '.'
    · subst hdot
      have hread : Mode.between.read '.' = ([], .dot) := by decide
      have hend : ∀ d ∈ rest.head?, Mode.dot.read d = Mode.dot.restart d := by
        intro d hd
        simp [Mode.read, h.dot rfl d hd]
      rw [scanFrom_cons hread, lineAfter_of_ne hne, scanFrom_of_restart hend]
      rfl
    · have hread : Mode.between.read c = ([.sign c], .between) := by
        simp [Mode.read, Mode.start, h.visible, h.start, h.digit, h.mark, hslash, hdot]
      rw [scanFrom, hread, lineAfter_of_ne hne]
      rfl

/-- **What is written as a lexeme gives its token.** -/
theorem scanFrom_written {lexeme : Lexeme} {part rest : Text} (h : Written lexeme part rest)
    (line : Nat) :
    scanFrom .between line (part ++ rest) = ⟨lexeme, line⟩ :: scanFrom .between line rest := by
  have hfeed := h.newline_not_mem
  cases h with
  | @word c more _ hstart hmore hrest =>
    have hread : Mode.between.read c = ([], .word [c]) := Mode.start_word hstart
    rw [List.cons_append, scanFrom_cons hread, lineAfter_of_ne (List.ne_of_not_mem_cons hfeed).symm,
      scanFrom_wordPart hmore hrest]
    rfl
  | @number c more _ hstart hmore hrest =>
    have hread : Mode.between.read c = ([], .number) := Mode.start_digit hstart
    rw [List.cons_append, scanFrom_cons hread, lineAfter_of_ne (List.ne_of_not_mem_cons hfeed).symm,
      scanFrom_number hmore hrest]
  | @fraction d more _ hstart hmore hrest =>
    have hdot : Mode.between.read '.' = ([], .dot) := by decide
    have hread : Mode.dot.read d = ([], .number) := by simp [Mode.read, hstart]
    have hd : d ≠ '\n' := (List.ne_of_not_mem_cons (List.not_mem_of_not_mem_cons hfeed)).symm
    rw [List.cons_append, List.cons_append, scanFrom_cons hdot, lineAfter_of_ne (by decide),
      scanFrom_cons hread, lineAfter_of_ne hd, scanFrom_number hmore hrest]
  | @literal quote body part _ hquote h =>
    have hread : Mode.between.read quote = ([], .literal quote []) := by
      rcases hquote with rfl | rfl <;> decide
    have hne : quote ≠ '\n' := (List.ne_of_not_mem_cons hfeed).symm
    have hslash : quote ≠ '\\' := by rcases hquote with rfl | rfl <;> decide
    rw [List.cons_append, scanFrom_cons hread, lineAfter_of_ne hne, scanFrom_literal hne hslash h]
    rfl
  | sign h => exact scanFrom_sign h line

end Token

/-! ## 4. Layouts -/

/-- A token, the offset at which it is written, and what is written there. -/
structure Occurrence where
  token : Token
  start : Nat
  text : Text

/-- The offset behind the lexeme. -/
def Occurrence.stop (occurrence : Occurrence) : Nat := occurrence.start + occurrence.text.length

/-- Gaps and lexemes by turns, in a text at the offset `start` on the line `line`. -/
inductive Laid : Nat → Nat → Text → List Occurrence → Prop where
  | last {start line : Nat} {gap : Text} (hgap : Gap gap []) : Laid start line gap []
  | next {start line : Nat} {gap part rest : Text} {lexeme : Lexeme} {more : List Occurrence}
      (hgap : Gap gap (part ++ rest)) (hpart : Written lexeme part rest)
      (hrest : Laid (start + gap.length + part.length) (line + gap.count '\n') rest more) :
      Laid start line (gap ++ (part ++ rest))
        (⟨⟨lexeme, line + gap.count '\n'⟩, start + gap.length, part⟩ :: more)

theorem Token.scanFrom_gap {gap rest : Text} (h : Gap gap rest) (line : Nat) :
    scanFrom .between line (gap ++ rest) = scanFrom .between (line + gap.count '\n') rest := by
  induction h generalizing line with
  | nil rest => rfl
  | cons hpart hgap ih =>
    rw [List.append_assoc, scanFrom_skipped hpart, ih, List.count_append, Nat.add_assoc]

/-- **The scanner reads a text as it is laid out.** -/
theorem Token.scanFrom_of_laid {start line : Nat} {text : Text} {occurrences : List Occurrence}
    (h : Laid start line text occurrences) :
    occurrences.map Occurrence.token = scanFrom .between line text := by
  induction h with
  | @last start line gap hgap =>
    have hread := scanFrom_gap hgap line
    rw [List.append_nil] at hread
    rw [hread]
    rfl
  | next hgap hpart hrest ih =>
    rw [List.map_cons, ih, scanFrom_gap hgap, scanFrom_written hpart]

/-! ## 5. Every text has a layout -/

/-- A literal is written behind every quote. -/
theorem exists_quoted (quote : Char) (text : Text) :
    ∃ body part rest, text = part ++ rest ∧ Quoted quote body part rest := by
  induction hlen : text.length using Nat.strong_induction_on generalizing text with
  | _ n ih =>
    subst hlen
    cases text with
    | nil => exact ⟨[], [], [], rfl, .lineEnd (Or.inl rfl)⟩
    | cons c text =>
      have hlonger : text.length < (c :: text).length := Nat.lt_succ_self _
      by_cases hquote : c = quote
      · subst hquote
        exact ⟨[], [c], text, rfl, .close text⟩
      by_cases hfeed : c = '\n'
      · subst hfeed
        exact ⟨[], [], '\n' :: text, rfl, .lineEnd (Or.inr ⟨text, rfl⟩)⟩
      by_cases hslash : c = '\\'
      · subst hslash
        by_cases hend : AtLineEnd text
        · exact ⟨['\\'], ['\\'], text, rfl, .backslash hend⟩
        cases text with
        | nil => exact absurd (Or.inl rfl) hend
        | cons d text =>
          have hd : d ≠ '\n' := by
            rintro rfl
            exact hend (Or.inr ⟨text, rfl⟩)
          obtain ⟨body, part, rest, rfl, h⟩ :=
            ih text.length ((Nat.lt_succ_self _).trans hlonger) text rfl
          exact ⟨d :: body, '\\' :: d :: part, rest, rfl, .escape hd h⟩
      obtain ⟨body, part, rest, rfl, h⟩ := ih text.length hlonger text rfl
      exact ⟨c :: body, c :: part, rest, rfl, .char hquote hfeed hslash h⟩

/-- A text has no close of a comment, or a first one. -/
theorem exists_close (text : Text) :
    ¬ ['*', '/'] <:+: text ∨
      ∃ body rest, text = body ++ '*' :: '/' :: rest ∧ ¬ ['*', '/'] <:+: body := by
  induction text with
  | nil => exact Or.inl (by decide)
  | cons c text ih =>
    by_cases hhere : ['*', '/'] <+: c :: text
    · obtain ⟨rest, hrest⟩ := hhere
      exact Or.inr ⟨[], rest, hrest.symm, by decide⟩
    · rcases ih with hnone | ⟨body, rest, rfl, hbody⟩
      · refine Or.inl fun h => ?_
        exact (List.infix_cons_iff.mp h).elim hhere hnone
      · refine Or.inr ⟨c :: body, rest, rfl, fun h => ?_⟩
        refine (List.infix_cons_iff.mp h).elim (fun hp => hhere (hp.trans ?_)) hbody
        exact (List.prefix_append (c :: body) _)

/-- The text begins with a part that is skipped or with a lexeme. -/
def Begins (text : Text) : Prop :=
  ∃ part rest, text = part ++ rest ∧ (Skipped part rest ∨ ∃ lexeme, Written lexeme part rest)

theorem Skipped.begins {part rest : Text} (h : Skipped part rest) : Begins (part ++ rest) :=
  ⟨part, rest, rfl, Or.inl h⟩

theorem Written.begins {lexeme : Lexeme} {part rest : Text} (h : Written lexeme part rest) :
    Begins (part ++ rest) :=
  ⟨part, rest, rfl, Or.inr ⟨lexeme, h⟩⟩

theorem begins_lineComment {opening : Text} (h : opening = ['/', '/'] ∨ opening = ['*'])
    (text : Text) : Begins (opening ++ text) := by
  have hfeed : '\n' ∉ text.takeWhile (· != '\n') := fun hm => by
    simpa using List.mem_takeWhile_imp hm
  have hbegins := (Skipped.lineComment h hfeed (atLineEnd_dropWhile text)).begins
  rwa [List.append_assoc, List.takeWhile_append_dropWhile] at hbegins

theorem begins_blockComment (text : Text) : Begins ('/' :: '*' :: text) := by
  rcases exists_close text with hnone | ⟨body, rest, rfl, hbody⟩
  · have hbegins := (Skipped.openComment hnone).begins
    rwa [List.append_nil] at hbegins
  · have hbegins := (Skipped.blockComment hbody rest).begins
    simpa using hbegins

theorem begins_word {c : Char} (h : isWordStart c = true) (text : Text) : Begins (c :: text) := by
  have hmore : ∀ d ∈ text.takeWhile isWordPart, isWordPart d = true :=
    fun d hd => List.mem_takeWhile_imp hd
  have hbegins := (Written.word h hmore (stopsBefore_dropWhile isWordPart text)).begins
  rwa [List.cons_append, List.takeWhile_append_dropWhile] at hbegins

theorem begins_number {c : Char} (h : c.isDigit = true) (text : Text) : Begins (c :: text) := by
  have hmore : ∀ d ∈ text.takeWhile isNumberPart, isNumberPart d = true :=
    fun d hd => List.mem_takeWhile_imp hd
  have hbegins := (Written.number h hmore (stopsBefore_dropWhile isNumberPart text)).begins
  rwa [List.cons_append, List.takeWhile_append_dropWhile] at hbegins

theorem begins_fraction {d : Char} (h : Text.isDigit d = true) (text : Text) :
    Begins ('.' :: d :: text) := by
  have hmore : ∀ d ∈ text.takeWhile isNumberPart, isNumberPart d = true :=
    fun d hd => List.mem_takeWhile_imp hd
  have hbegins := (Written.fraction h hmore (stopsBefore_dropWhile isNumberPart text)).begins
  rwa [List.cons_append, List.cons_append, List.takeWhile_append_dropWhile] at hbegins

theorem begins_literal {quote : Char} (h : quote = '"' ∨ quote = '\'') (text : Text) :
    Begins (quote :: text) := by
  obtain ⟨body, part, rest, rfl, hquoted⟩ := exists_quoted quote text
  exact (Written.literal h hquoted).begins

/-- A slash opens a comment, or it stands for itself. -/
theorem begins_slash (text : Text) : Begins ('/' :: text) := by
  by_cases hline : text.head? = some '/'
  · obtain ⟨more, rfl⟩ := List.head?_eq_some_iff.mp hline
    exact begins_lineComment (Or.inl rfl) more
  by_cases hblock : text.head? = some '*'
  · obtain ⟨more, rfl⟩ := List.head?_eq_some_iff.mp hblock
    exact begins_blockComment more
  have hstop : StopsBefore (fun d => d == '/' || d == '*') text := by
    intro d hd
    have hslash : d ≠ '/' := fun e => hline (e ▸ hd)
    have hstar : d ≠ '*' := fun e => hblock (e ▸ hd)
    simp [hslash, hstar]
  have hsign : IsSign '/' text :=
    ⟨by decide, by decide, by decide, by decide, fun _ => hstop, fun e => absurd e (by decide)⟩
  exact (Written.sign hsign).begins

/-- A dot begins a number, or it stands for itself. -/
theorem begins_dot (text : Text) : Begins ('.' :: text) := by
  by_cases hstop : StopsBefore Text.isDigit text
  · have hsign : IsSign '.' text :=
      ⟨by decide, by decide, by decide, by decide, fun e => absurd e (by decide), fun _ => hstop⟩
    exact (Written.sign hsign).begins
  · cases text with
    | nil => exact absurd nofun hstop
    | cons d more =>
      have hd : Text.isDigit d = true := by
        by_contra hno
        refine hstop fun c hc => ?_
        obtain rfl := Option.some.inj hc
        exact Bool.not_eq_true _ ▸ hno
      exact begins_fraction hd more

/-- **Every character begins a part that is skipped, or a lexeme.** -/
theorem begins_cons (c : Char) (text : Text) : Begins (c :: text) := by
  by_cases hblank : c ≤ ' '
  · exact (Skipped.blank hblank text).begins
  by_cases hslash : c = '/'
  · exact hslash ▸ begins_slash text
  by_cases hstar : c = '*'
  · exact hstar ▸ begins_lineComment (Or.inr rfl) text
  by_cases hword : isWordStart c = true
  · exact begins_word hword text
  by_cases hdigit : c.isDigit = true
  · exact begins_number hdigit text
  by_cases hdot : c = '.'
  · exact hdot ▸ begins_dot text
  by_cases hquote : c = '"' ∨ c = '\''
  · exact begins_literal hquote text
  have hsign : IsSign c text :=
    ⟨hblank, Bool.not_eq_true _ ▸ hword, Bool.not_eq_true _ ▸ hdigit,
      ⟨hstar, not_or.mp hquote⟩, fun e => absurd e hslash, fun e => absurd e hdot⟩
  exact (Written.sign hsign).begins

/-- A text begins with a gap, and then it ends or a lexeme follows. -/
theorem exists_gap (text : Text) :
    ∃ gap behind, text = gap ++ behind ∧ Gap gap behind ∧
      (behind = [] ∨ ∃ lexeme part rest, behind = part ++ rest ∧ Written lexeme part rest) := by
  induction hlen : text.length using Nat.strong_induction_on generalizing text with
  | _ n ih =>
    subst hlen
    cases text with
    | nil => exact ⟨[], [], rfl, .nil [], Or.inl rfl⟩
    | cons c text =>
      obtain ⟨part, rest, htext, hskipped | ⟨lexeme, hwritten⟩⟩ := begins_cons c text
      · have hshort : rest.length < (c :: text).length := by
          have hpos := List.length_pos_of_ne_nil hskipped.ne_nil
          rw [htext, List.length_append]
          omega
        obtain ⟨gap, behind, rfl, hgap, hbehind⟩ := ih rest.length hshort rest rfl
        exact ⟨part ++ gap, behind, by rw [htext, List.append_assoc], .cons hskipped hgap, hbehind⟩
      · exact ⟨[], part ++ rest, htext, .nil _, Or.inr ⟨lexeme, part, rest, rfl, hwritten⟩⟩

/-- **Every text is laid out in gaps and lexemes.** -/
theorem exists_laid (start line : Nat) (text : Text) :
    ∃ occurrences, Laid start line text occurrences := by
  induction hlen : text.length using Nat.strong_induction_on generalizing start line text with
  | _ n ih =>
    subst hlen
    obtain ⟨gap, behind, rfl, hgap, rfl | ⟨lexeme, part, rest, rfl, hpart⟩⟩ := exists_gap text
    · rw [List.append_nil]
      exact ⟨[], .last hgap⟩
    · have hshort : rest.length < (gap ++ (part ++ rest)).length := by
        have hpos := List.length_pos_of_ne_nil hpart.ne_nil
        rw [List.length_append, List.length_append]
        omega
      obtain ⟨more, hmore⟩ := ih rest.length hshort (start + gap.length + part.length)
        (line + gap.count '\n') rest rfl
      exact ⟨_, .next hgap hpart hmore⟩

/-! ## 6. What a layout says -/

namespace Laid

variable {start line : Nat} {text : Text} {occurrences : List Occurrence}

/-- Every lexeme stands in the text, at its offset and on its line. -/
theorem stands (h : Laid start line text occurrences) :
    ∀ occurrence ∈ occurrences, ∃ before after,
      text = before ++ (occurrence.text ++ after) ∧ occurrence.start = start + before.length ∧
        occurrence.token.line = line + before.count '\n' ∧
        Written occurrence.token.lexeme occurrence.text after := by
  induction h with
  | last => exact nofun
  | @next start line gap part rest lexeme more hgap hpart hrest ih =>
    intro occurrence hm
    rcases List.mem_cons.mp hm with rfl | hm
    · exact ⟨gap, rest, rfl, rfl, rfl, hpart⟩
    · obtain ⟨before, after, rfl, hstart, hline, hwritten⟩ := ih occurrence hm
      refine ⟨gap ++ (part ++ before), after, by simp, ?_, ?_, hwritten⟩
      · rw [hstart, List.length_append, List.length_append]
        omega
      · rw [hline, List.count_append, List.count_append,
          List.count_eq_zero.mpr hpart.newline_not_mem]
        omega

/-- The lexemes stand one behind the other. -/
theorem ordered (h : Laid start line text occurrences) :
    occurrences.Pairwise fun a b => a.start < b.start ∧ a.stop ≤ b.start := by
  induction h with
  | last => exact List.Pairwise.nil
  | @next start line gap part rest lexeme more hgap hpart hrest ih =>
    refine List.pairwise_cons.mpr ⟨fun later hm => ?_, ih⟩
    obtain ⟨before, -, -, hstart, -, -⟩ := hrest.stands later hm
    have hpos := List.length_pos_of_ne_nil hpart.ne_nil
    simp only [Occurrence.stop, hstart]
    omega

/-- Between two lexemes, before the first and behind the last there is a gap. -/
theorem gaps (h : Laid start line text occurrences) {before after : List Occurrence}
    (hsplit : occurrences = before ++ after) : ∃ front gap behind,
      text = front ++ (gap ++ behind) ∧ Gap gap behind ∧
        start + front.length = (before.getLast?.map Occurrence.stop).getD start ∧
        start + (front ++ gap).length =
          (after.head?.map Occurrence.start).getD (start + text.length) := by
  induction h generalizing before with
  | @last start line gap hgap =>
    obtain ⟨rfl, rfl⟩ := List.append_eq_nil_iff.mp hsplit.symm
    exact ⟨[], gap, [], by simp, hgap, rfl, rfl⟩
  | @next start line gap part rest lexeme more hgap hpart hrest ih =>
    cases before with
    | nil =>
      subst hsplit
      exact ⟨[], gap, part ++ rest, rfl, hgap, rfl, rfl⟩
    | cons first before =>
      obtain ⟨rfl, hmore⟩ := List.cons.inj hsplit
      obtain ⟨front, later, behind, rfl, hlater, hstop, hstart⟩ := ih hmore
      have hfront : start + (gap ++ (part ++ front)).length =
          start + gap.length + part.length + front.length := by
        simp only [List.length_append, Nat.add_assoc]
      refine ⟨gap ++ (part ++ front), later, behind, by simp, hlater, ?_, ?_⟩
      · rw [hfront, hstop, List.getLast?_cons]
        cases before.getLast? <;> rfl
      · rw [List.length_append, ← Nat.add_assoc, hfront]
        simpa only [List.length_append, Nat.add_assoc] using hstart

end Laid

/-! ## 7. The tokens of a text -/

/-- A part of a line stands in the line that the line feeds before it count. -/
theorem exists_line_of_part {text before part after : Text} (hreturn : '\r' ∉ text)
    (htext : text = before ++ (part ++ after)) (hne : part ≠ []) (hfeed : '\n' ∉ part) :
    ∃ line, (splitLines text)[before.count '\n']? = some line ∧ part <:+: line := by
  obtain ⟨c, more, rfl⟩ := List.exists_cons_of_ne_nil hne
  have hmem : c ∈ text := by
    rw [htext]
    exact List.mem_append_right before List.mem_cons_self
  have hlt : before.count '\n' < (splitLines text).length :=
    lt_length_splitLines (List.ne_of_not_mem_cons hfeed).symm (fun e => hreturn (e ▸ hmem)) htext
  obtain ⟨front, hbefore, hfront⟩ := exists_firstLines_append before (c :: more ++ after)
  rw [← htext] at hbefore
  have hsplit : text =
      firstLines (before.count '\n') text ++ ((front ++ (c :: more)) ++ after) := by
    rw [List.append_assoc, ← List.append_assoc, ← hbefore]
    exact htext
  have hjoined : '\n' ∉ front ++ (c :: more) := fun hm =>
    (List.mem_append.mp hm).elim hfront hfeed
  have hline := prefix_of_firstLines_append hreturn (List.getElem?_eq_getElem hlt) hjoined hsplit
  exact ⟨_, List.getElem?_eq_getElem hlt,
    (List.suffix_append front (c :: more)).isInfix.trans hline.isInfix⟩

/-- What a token says, and what is written at its place in the text, agree. -/
structure Occurrence.Faithful (occurrence : Occurrence) (text : Text) : Prop where
  slice : (text.drop occurrence.start).take occurrence.text.length = occurrence.text
  written : Written occurrence.token.lexeme occurrence.text (text.drop occurrence.stop)
  line_eq : occurrence.token.line = 1 + (text.take occurrence.start).count '\n'
  one_line : '\n' ∉ occurrence.text
  /-- A word is what is written, up to a character that is no part of words. -/
  word : ∀ name, occurrence.token.lexeme = .word name →
    occurrence.text = name ∧ ∀ c ∈ text[occurrence.stop]?, isWordPart c = false
  sign : ∀ c, occurrence.token.lexeme = .sign c →
    occurrence.text = [c] ∧ text[occurrence.start]? = some c
  in_line : '\r' ∉ text → ∃ line, (splitLines text)[occurrence.token.line - 1]? = some line ∧
    occurrence.text <:+: line

/-- How lexemes are laid out in a text: one behind the other, each where it says that it is, and
with gaps around them. -/
structure Layout (text : Text) (occurrences : List Occurrence) : Prop where
  ordered : occurrences.Pairwise fun a b => a.start < b.start ∧ a.stop ≤ b.start
  faithful : ∀ occurrence ∈ occurrences, occurrence.Faithful text
  /-- A gap reaches from the end of the lexeme before it, or the start of the text, to the next
  lexeme, or the end of the text. -/
  gaps : ∀ before after, occurrences = before ++ after → ∃ front gap behind,
    text = front ++ (gap ++ behind) ∧ Gap gap behind ∧
      front.length = (before.getLast?.map Occurrence.stop).getD 0 ∧
      (front ++ gap).length = (after.head?.map Occurrence.start).getD text.length

theorem Occurrence.faithful_of_stands {occurrence : Occurrence} {text before after : Text}
    (htext : text = before ++ (occurrence.text ++ after))
    (hstart : occurrence.start = before.length)
    (hline : occurrence.token.line = 1 + before.count '\n')
    (hwritten : Written occurrence.token.lexeme occurrence.text after) :
    occurrence.Faithful text := by
  have hfeed := hwritten.newline_not_mem
  have hbefore : text.take occurrence.start = before := by rw [htext, hstart, List.take_left]
  have hdrop : text.drop occurrence.start = occurrence.text ++ after := by
    rw [htext, hstart, List.drop_left]
  have hafter : text.drop occurrence.stop = after := by
    rw [stop, ← List.drop_drop, hdrop, List.drop_left]
  refine ⟨?_, hafter ▸ hwritten, hbefore ▸ hline, hfeed, ?_, ?_, ?_⟩
  · rw [hdrop, List.take_left]
  · intro name hname
    rw [hname] at hwritten
    have hhead : text[occurrence.stop]? = after.head? := by
      rw [← hafter, List.head?_drop]
    rw [hhead]
    exact hwritten.word_inv
  · intro c hc
    rw [hc] at hwritten
    have hhead : text[occurrence.start]? = (occurrence.text ++ after).head? := by
      rw [← hdrop, List.head?_drop]
    rw [hhead, hwritten.sign_inv]
    exact ⟨rfl, rfl⟩
  · intro hreturn
    obtain ⟨line, hget, hin⟩ := exists_line_of_part hreturn htext hwritten.ne_nil hfeed
    refine ⟨line, ?_, hin⟩
    rw [hline, Nat.add_sub_cancel_left]
    exact hget

/-- **The tokens of a text are faithful to it**: they stand at offsets in the text, one behind the
other, on the lines that they name, and with nothing but blanks and whole comments around them. -/
theorem Token.scan_layout (text : Text) :
    ∃ occurrences, occurrences.map Occurrence.token = scan text ∧ Layout text occurrences := by
  obtain ⟨occurrences, hlaid⟩ := exists_laid 0 1 text
  refine ⟨occurrences, scanFrom_of_laid hlaid, hlaid.ordered, fun occurrence hm => ?_, ?_⟩
  · obtain ⟨before, after, htext, hstart, hline, hwritten⟩ := hlaid.stands occurrence hm
    rw [Nat.zero_add] at hstart
    exact Occurrence.faithful_of_stands htext hstart hline hwritten
  · intro before after hsplit
    have hgaps := hlaid.gaps hsplit
    simpa only [Nat.zero_add] using hgaps

/-- Comments of each kind, one of them with a start of a close before its close, and literals with
an escaped quote and with a backslash at the end of the line. -/
def commentsText : Text := "a.b-1 * \"x\n/* *\n/**/.5/ 'c\\'d\\\n//\n\"\\\"y\" /*"

theorem Token.scan_layout_comments :
    ∃ occurrences, occurrences.map Occurrence.token =
      [⟨.word "a.b-1", 1⟩, ⟨.number, 3⟩, ⟨.sign '/', 3⟩, ⟨.literal '\'' "c'd\\", 3⟩,
        ⟨.literal '"' "\"y", 5⟩] ∧ Layout commentsText occurrences := by
  obtain ⟨occurrences, htokens, hlayout⟩ := scan_layout commentsText
  exact ⟨occurrences, htokens.trans (by decide), hlayout⟩

end CodeAtlas
