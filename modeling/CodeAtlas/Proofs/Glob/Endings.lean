/-
  File:      CodeAtlas/Proofs/Glob/Endings.lean
  Subject:   Whether the endings that are asked for are those of the files that are included.

  Before a root is read, its files are looked through by the endings of the include
  patterns. An ending is taken from the pattern as it is written, like the suffix of a
  file name. What the pattern matches is decided by its normal form: without blanks
  around it, with slashes for backslashes, and with `**` behind a final slash.

  * `patternEnding_cases`: an ending is empty, or a dot and characters that a pattern
    takes literally.
  * `suffix_of_covers`: what ends a pattern literally ends every text that it covers.
  * `covers_sample`: the pattern with letters in the place of its wildcards.
  * `EndingsAgree`: every pattern ends, in its normal form, with one of the endings.
  * `covered_iff_endingsAgree`: that is exactly when every file that is included has
    one of the endings.
-/
import CodeAtlas.Settings
import CodeAtlas.Proofs.Glob.Pieces
import CodeAtlas.Proofs.Page.Addresses

namespace CodeAtlas

/-! ## 1. Endings of patterns -/

theorem Path.suffixOf_cases (name : Text) :
    Path.suffixOf name = [] ∨
      ∃ before after, name = before ++ '.' :: after ∧ '.' ∉ after ∧
        Path.suffixOf name = '.' :: after := by
  unfold Path.suffixOf
  split
  · rename_i c before d after hcut
    obtain ⟨e, hdot⟩ := Text.cutLast?_eq_some.mp hcut
    exact Or.inr ⟨c :: before, d :: after, e, hdot, rfl⟩
  · exact Or.inl rfl

/-- What follows the last dot of a name is its suffix, unless the name starts or ends with the
dot. -/
theorem Path.suffixOf_append (before : Text) {after : Text} (h : '.' ∉ after) :
    Path.suffixOf (before ++ '.' :: after) = [] ∨
      Path.suffixOf (before ++ '.' :: after) = '.' :: after := by
  have hcut : Text.cutLast? '.' (before ++ '.' :: after) = some (before, after) :=
    Text.cutLast?_eq_some.mpr ⟨rfl, h⟩
  unfold Path.suffixOf
  rw [hcut]
  split
  · rename_i hsome
    cases hsome
    exact Or.inr rfl
  · exact Or.inl rfl

/-- A name that holds more than a dot is the name of every path that ends with it. -/
theorem Path.name_ofText_append {before name : Text} (hslash : '/' ∉ name)
    (hlength : 1 < name.length) :
    ∃ start, (Path.ofText (before ++ name)).name = start ++ name := by
  have hlast (start : Text) (h : '/' ∉ start) :
      segmentsOf (start ++ name) = [start ++ name] := by
    have hlong : 1 < (start ++ name).length := by
      rw [List.length_append]
      omega
    refine segmentsOf_singleton (by simp [h, hslash]) ?_ ?_
    · intro e
      rw [e] at hlong
      exact absurd hlong (by decide)
    · intro e
      rw [e] at hlong
      exact absurd hlong (by decide)
  unfold Path.name Path.ofText
  cases hcut : Text.cutLast? '/' before with
  | none =>
    have hnot : '/' ∉ before := Text.cutLast?_eq_none.mp hcut
    exact ⟨before, by rw [hlast before hnot]; rfl⟩
  | some cut =>
    obtain ⟨folder, start⟩ := cut
    obtain ⟨rfl, hstart⟩ := Text.cutLast?_eq_some.mp hcut
    refine ⟨start, ?_⟩
    rw [List.append_assoc, List.cons_append, segmentsOf_append, hlast start hstart]
    simp

/-- A character that stands for others in a pattern. -/
def isWildcard (c : Char) : Bool := c == '*' || c == '?'

theorem patternEnding_eq (pattern : Text) :
    patternEnding pattern = if (Path.ofText pattern).suffix.any isWildcard then []
      else (Path.ofText pattern).suffix := by
  unfold patternEnding
  simp only [isWildcard, List.contains_eq_any_beq, List.any_eq_true, Bool.or_eq_true, beq_iff_eq]
  congr 1
  ext
  constructor
  · rintro (⟨c, hc, rfl⟩ | ⟨c, hc, rfl⟩)
    · exact ⟨_, hc, Or.inl rfl⟩
    · exact ⟨_, hc, Or.inr rfl⟩
  · rintro ⟨c, hc, rfl | rfl⟩
    · exact Or.inl ⟨_, hc, rfl⟩
    · exact Or.inr ⟨_, hc, rfl⟩

/-- An ending is empty, or a dot and what a pattern takes literally. -/
theorem patternEnding_cases (pattern : Text) :
    patternEnding pattern = [] ∨
      ∃ rest, patternEnding pattern = '.' :: rest ∧ '.' ∉ rest ∧ '/' ∉ rest ∧
        ∀ c ∈ rest, isWildcard c = false := by
  rw [patternEnding_eq]
  split
  · exact Or.inl rfl
  · rename_i hwild
    rcases Path.suffixOf_cases (Path.ofText pattern).name with hnil | ⟨before, after, e, hdot, hs⟩
    · exact Or.inl hnil
    · have hslash := Path.slash_not_mem_name pattern
      rw [e, List.mem_append, List.mem_cons, not_or, not_or] at hslash
      refine Or.inr ⟨after, hs, hdot, hslash.2.2, fun c hc => ?_⟩
      rw [Path.suffix, hs] at hwild
      by_contra hne
      exact hwild (List.any_eq_true.mpr ⟨c, List.mem_cons_of_mem _ hc, by simpa using hne⟩)

namespace Glob

/-! ## 2. Ends of patterns -/

/-- An end of a text after a change of its characters, none of whose characters comes from
another one, is an end of the text. -/
theorem suffix_of_suffix_map {f : Char → Char} {part text : Text} (h : part <:+ text.map f)
    (hf : ∀ c, f c ∈ part → f c = c) : part <:+ text := by
  obtain ⟨source, hsource, rfl⟩ := List.suffix_map_iff.mp h
  have hsame : source.map f = source := by
    conv_rhs => rw [← List.map_id source]
    exact List.map_congr_left fun c hc => hf c (List.mem_map_of_mem hc)
  rwa [hsame]

theorem suffix_of_suffix_swap {part text : Text} (h : part <:+ Text.swap '\\' '/' text)
    (hslash : '/' ∉ part) : part <:+ text := by
  refine suffix_of_suffix_map h fun c hc => ?_
  split_ifs at hc ⊢
  · exact absurd hc hslash
  · rfl

theorem covers_literal {part path : Text} (hpart : ∀ c ∈ part, isWildcard c = false)
    (h : Covers (part.map pieceOf) path) : path = part := by
  induction part generalizing path with
  | nil => exact h
  | cons c part ih =>
    obtain ⟨hc, hrest⟩ := List.forall_mem_cons.mp hpart
    have hpiece : pieceOf c = .char c := by
      rw [isWildcard, Bool.or_eq_false_iff] at hc
      rw [pieceOf, hc.1, hc.2]
      rfl
    rw [List.map_cons, hpiece] at h
    obtain ⟨rest, rfl, hcovers⟩ := covers_char.mp h
    rw [ih hrest hcovers]

/-- **What ends a pattern literally ends every text that the pattern covers.** -/
theorem suffix_of_covers {segments : List Text} {part path : Text} (hne : segments ≠ [])
    (hcovers : Covers (ofSegments segments) path) (h : part <:+ Text.join ['/'] segments)
    (hslash : '/' ∉ part) (hpart : ∀ c ∈ part, isWildcard c = false) : part <:+ path := by
  induction segments generalizing path with
  | nil => exact absurd rfl hne
  | cons first rest ih =>
    cases rest with
    | nil =>
      rw [Text.join, List.intercalate_singleton] at h
      unfold ofSegments at hcovers
      split at hcovers
      · rename_i hall
        -- no character of `**` is taken literally
        have hnil : part = [] := List.eq_nil_iff_forall_not_mem.mpr fun c hc => by
          have hstar : ∀ c ∈ first, isWildcard c = true := by
            rw [beq_iff_eq.mp hall]
            exact forall_mem_of_all (by decide)
          exact absurd ((hpart c hc).symm.trans (hstar c (h.subset hc))) Bool.false_ne_true
        rw [hnil]
        exact List.nil_suffix
      · obtain ⟨before, rfl⟩ := h
        rw [List.map_append, covers_append] at hcovers
        obtain ⟨start, last, rfl, -, hlast⟩ := hcovers
        rw [covers_literal hpart hlast]
        exact List.suffix_append start part
    | cons next rest =>
      rw [Text.join, List.intercalate_cons_cons, List.append_assoc] at h
      have hmore {last : Text} (hlast : Covers (ofSegments (next :: rest)) last) : part <:+ last :=
        ih (List.cons_ne_nil next rest) hlast (suffix_of_suffix_append_cons hslash h)
      unfold ofSegments at hcovers
      split at hcovers
      · obtain ⟨before, last, rfl, -, hlast⟩ := covers_folders.mp hcovers
        exact List.suffix_append_of_suffix (hmore hlast)
      · obtain ⟨start, last, rfl, -, hslashed⟩ := covers_append.mp hcovers
        obtain ⟨last, rfl, hlast⟩ := covers_char.mp hslashed
        exact List.suffix_append_of_suffix ((hmore hlast).trans (List.suffix_cons '/' last))

/-! ## 3. A text for every pattern -/

/-- A letter in the place of a wildcard. -/
def sampleChar (c : Char) : Char := if isWildcard c then 'x' else c

theorem covers_map_sampleChar (pattern : Text) :
    Covers (pattern.map pieceOf) (pattern.map sampleChar) := by
  induction pattern with
  | nil => rfl
  | cons c pattern ih =>
    refine ⟨[sampleChar c], pattern.map sampleChar, rfl, ?_, ih⟩
    by_cases hstar : c = '*'
    · subst hstar
      exact show '/' ∉ ['x'] by decide
    · by_cases hone : c = '?'
      · subst hone
        exact ⟨'x', by decide, rfl⟩
      · have hpiece : pieceOf c = .char c := by simp [pieceOf, hstar, hone]
        have hchar : sampleChar c = c := by simp [sampleChar, isWildcard, hstar, hone]
        rw [hpiece, hchar]
        rfl

/-- A pattern covers itself with letters in the place of its wildcards. -/
theorem covers_sample {segments : List Text} (hne : segments ≠ []) :
    Covers (ofSegments segments) ((Text.join ['/'] segments).map sampleChar) := by
  induction segments with
  | nil => exact absurd rfl hne
  | cons first rest ih =>
    cases rest with
    | nil =>
      rw [Text.join, List.intercalate_singleton]
      unfold ofSegments
      split
      · rename_i hall
        rw [beq_iff_eq.mp hall]
        exact ⟨['x', 'x'], [], rfl, show '\n' ∉ ['x', 'x'] by decide, rfl⟩
      · exact covers_map_sampleChar first
    | cons next rest =>
      have hmore := ih (List.cons_ne_nil next rest)
      rw [Text.join, List.intercalate_cons_cons, List.append_assoc, List.map_append]
      unfold ofSegments
      split
      · rename_i hall
        rw [beq_iff_eq.mp hall]
        refine covers_folders.mpr ⟨[['x', 'x']], _, rfl, ?_, hmore⟩
        exact List.forall_mem_singleton.mpr (by decide)
      · exact covers_append.mpr ⟨_, _, rfl, covers_map_sampleChar first,
          covers_char.mpr ⟨_, rfl, hmore⟩⟩

theorem join_splitOn_normalize (pattern : Text) :
    Text.join ['/'] ((normalize pattern).splitOn '/') = normalize pattern :=
  List.intercalate_splitOn '/'

theorem backslash_not_mem_normalize (pattern : Text) : '\\' ∉ normalize pattern := by
  have hswap : '\\' ∉ (Text.swap '\\' '/' (Text.trim pattern)).dropWhile (· == '/') := by
    intro hm
    obtain ⟨c, -, e⟩ := List.mem_map.mp ((List.dropWhile_suffix _).subset hm)
    split_ifs at e with hc
    · exact absurd e (by decide)
    · exact hc (beq_iff_eq.mpr e)
  unfold normalize
  simp only
  split
  · simpa using hswap
  · exact hswap

/-- A pattern accepts its normal form with letters in the place of wildcards. -/
theorem accepted_sample (pattern : Text) :
    (ofText pattern).accepted ((normalize pattern).map sampleChar) = true := by
  have hswap : Text.swap '\\' '/' ((normalize pattern).map sampleChar) =
      (normalize pattern).map sampleChar := by
    unfold Text.swap
    rw [List.map_map]
    refine List.map_congr_left fun c hc => ?_
    have hne : sampleChar c ≠ '\\' := by
      unfold sampleChar
      split_ifs
      · decide
      · rintro rfl
        exact backslash_not_mem_normalize pattern hc
    rw [Function.comp_apply, if_neg (mt beq_iff_eq.mp hne)]
  unfold accepted
  rw [hswap, accepts_iff_covers, ofText]
  have := covers_sample (List.splitOn_ne_nil '/' (normalize pattern))
  rwa [join_splitOn_normalize] at this

/-! ## 4. Normal forms -/

theorem trim_spec (text : Text) :
    ∃ lead blanks, text = lead ++ Text.trim text ++ blanks ∧
      ∀ c ∈ blanks, Text.isBlank c = true := by
  have hrev (text : Text) : text =
      Text.trimRight text ++ (text.reverse.takeWhile Text.isBlank).reverse := by
    unfold Text.trimRight Text.dropWhileRight
    rw [← List.reverse_append, List.takeWhile_append_dropWhile, List.reverse_reverse]
  refine ⟨text.takeWhile Text.isBlank,
    ((text.dropWhile Text.isBlank).reverse.takeWhile Text.isBlank).reverse, ?_, fun c hc => ?_⟩
  · rw [List.append_assoc, Text.trim, ← hrev, List.takeWhile_append_dropWhile]
  · exact List.mem_takeWhile_imp (List.mem_reverse.mp hc)

/-- If a pattern ends, in its normal form, with a dot and what holds wildcards but neither a dot
nor a slash, then its own suffix holds these wildcards, or it has none. -/
theorem patternEnding_of_wildcard {pattern rest : Text}
    (h : '.' :: rest <:+ normalize pattern) (hdot : '.' ∉ rest) (hslash : '/' ∉ rest)
    (hwild : rest.any isWildcard = true) : patternEnding pattern = [] := by
  have hslash' : '/' ∉ '.' :: rest := by simpa using hslash
  have htrim : '.' :: rest <:+ Text.trim pattern := by
    refine suffix_of_suffix_swap ?_ hslash'
    unfold normalize at h
    simp only at h
    split at h
    · -- behind a final slash there are only the asterisks
      rename_i hlast
      obtain ⟨start, e⟩ := List.getLast?_eq_some_iff.mp (beq_iff_eq.mp hlast)
      rw [e, List.append_assoc, List.singleton_append] at h
      have := suffix_of_suffix_append_cons hslash' h
      exact absurd (this.subset List.mem_cons_self) (by decide)
    · exact h.trans (List.dropWhile_suffix _)
  obtain ⟨lead, blanks, e, hblanks⟩ := trim_spec pattern
  obtain ⟨start, htrim⟩ := htrim
  have hpattern : pattern = lead ++ start ++ ('.' :: (rest ++ blanks)) := by
    rw [e, ← htrim]
    simp
  have hdot' : '.' ∉ rest ++ blanks := by
    rw [List.mem_append, not_or]
    exact ⟨hdot, fun hm => absurd (hblanks _ hm) (by decide)⟩
  have hname : ∃ before, (Path.ofText pattern).name = before ++ '.' :: (rest ++ blanks) := by
    rw [hpattern]
    refine Path.name_ofText_append ?_ ?_
    · rw [List.mem_cons, List.mem_append, not_or, not_or]
      exact ⟨by decide, hslash, fun hm => absurd (hblanks _ hm) (by decide)⟩
    · obtain ⟨c, hc, -⟩ := List.any_eq_true.mp hwild
      have := List.length_pos_of_mem hc
      simp only [List.length_cons, List.length_append]
      omega
  obtain ⟨before, hname⟩ := hname
  rw [patternEnding_eq, Path.suffix, hname]
  rcases Path.suffixOf_append before hdot' with hnil | hsuffix
  · rw [hnil]
    rfl
  · rw [hsuffix, if_pos]
    simp [List.any_append, hwild]

/-! ## 5. Agreement -/

end Glob

/-- Every include pattern ends, in its normal form, with one of the endings that are asked for. -/
def EndingsAgree (includes : List Text) (catalog : Catalog) : Prop :=
  ∀ pattern ∈ includes, ∃ ending ∈ sourceEndings includes catalog,
    ending <:+ Glob.normalize pattern

instance (includes : List Text) (catalog : Catalog) : Decidable (EndingsAgree includes catalog) :=
  inferInstanceAs (Decidable (∀ pattern ∈ includes, ∃ ending ∈ sourceEndings includes catalog,
    ending <:+ Glob.normalize pattern))

/-- Every path that an include pattern accepts has one of the endings that are asked for. -/
def EndingsCover (includes : List Text) (catalog : Catalog) : Prop :=
  ∀ path, (∃ pattern ∈ includes, (Glob.ofText pattern).accepted path = true) →
    ∃ ending ∈ sourceEndings includes catalog, ending <:+ Text.afterLast '/' path

section

variable {includes : List Text} {catalog : Catalog}

theorem mem_sourceEndings (h : includes ≠ []) {ending : Text} :
    ending ∈ sourceEndings includes catalog ↔
      ∃ pattern ∈ includes, patternEnding pattern = ending := by
  unfold sourceEndings
  rw [if_neg (mt List.isEmpty_iff.mp h), List.mem_map]

theorem slash_not_mem_sourceEndings (h : includes ≠ []) {ending : Text}
    (hending : ending ∈ sourceEndings includes catalog) : '/' ∉ ending := by
  obtain ⟨source, -, rfl⟩ := (mem_sourceEndings h).mp hending
  rcases patternEnding_cases source with hnil | ⟨rest, hrest, -, hslash, -⟩
  · rw [hnil]
    exact List.not_mem_nil
  · rw [hrest]
    simpa using hslash

/-- **If every pattern ends with one of the endings, so does every path that one accepts.** -/
theorem EndingsAgree.cover (hagree : EndingsAgree includes catalog) (h : includes ≠ []) :
    EndingsCover includes catalog := by
  rintro path ⟨pattern, hpattern, haccepted⟩
  obtain ⟨ending, hending, hsuffix⟩ := hagree pattern hpattern
  refine ⟨ending, hending, ?_⟩
  obtain ⟨source, -, rfl⟩ := (mem_sourceEndings h).mp hending
  rcases patternEnding_cases source with hnil | ⟨rest, hrest, -, -, hliteral⟩
  · rw [hnil]
    exact List.nil_suffix
  · have hslash' := slash_not_mem_sourceEndings h hending
    have hliteral' : ∀ c ∈ patternEnding source, isWildcard c = false := by
      rw [hrest]
      exact List.forall_mem_cons.mpr ⟨by decide, hliteral⟩
    rw [← Glob.join_splitOn_normalize] at hsuffix
    have hpath := Glob.suffix_of_covers (List.splitOn_ne_nil '/' _)
      (Glob.accepts_iff_covers.mp haccepted) hsuffix hslash' hliteral'
    exact Text.isSuffix_afterLast (Glob.suffix_of_suffix_swap hpath hslash') hslash'

/-- **If every path that a pattern accepts has an ending, every pattern ends with one.** The paths
to try are the patterns themselves, with letters in the place of wildcards. -/
theorem EndingsCover.agree (hcover : EndingsCover includes catalog) (h : includes ≠ []) :
    EndingsAgree includes catalog := by
  intro pattern hpattern
  obtain ⟨ending, hending, hafter⟩ := hcover _ ⟨pattern, hpattern, Glob.accepted_sample pattern⟩
  have hsuffix := hafter.trans (Text.afterLast_isSuffix '/' _)
  obtain ⟨source, -, rfl⟩ := (mem_sourceEndings h).mp hending
  rcases patternEnding_cases source with hnil | ⟨rest, hrest, hdot, hslash, -⟩
  · exact ⟨_, hending, hnil ▸ List.nil_suffix⟩
  · obtain ⟨part, hpart, e⟩ := List.suffix_map_iff.mp hsuffix
    by_cases hwild : part.any isWildcard = true
    · -- the pattern itself asks for no certain ending
      cases part with
      | nil => exact nomatch hwild
      | cons d tail =>
        rw [hrest, List.map_cons] at e
        obtain ⟨hd, rfl⟩ := List.cons.inj e
        obtain rfl : d = '.' := by
          unfold Glob.sampleChar at hd
          split_ifs at hd
          · exact absurd hd (by decide)
          · exact hd.symm
        have hdot' : '.' ∉ tail := fun hm => hdot (List.mem_map_of_mem (f := Glob.sampleChar) hm)
        have hslash' : '/' ∉ tail := fun hm =>
          hslash (List.mem_map_of_mem (f := Glob.sampleChar) hm)
        have hnil := Glob.patternEnding_of_wildcard hpart hdot' hslash' hwild
        exact ⟨[], (mem_sourceEndings h).mpr ⟨pattern, hpattern, hnil⟩, List.nil_suffix⟩
    · have hsame : part.map Glob.sampleChar = part := by
        conv_rhs => rw [← List.map_id part]
        refine List.map_congr_left fun c hc => ?_
        have : isWildcard c = false := by
          by_contra hne
          exact hwild (List.any_eq_true.mpr ⟨c, hc, by simpa using hne⟩)
        rw [Glob.sampleChar, this]
        rfl
      rw [hsame] at e
      exact ⟨_, hending, e ▸ hpart⟩

/-- **The endings are those of the files that are included, exactly if they agree with the
patterns.** -/
theorem covered_iff_endingsAgree (h : includes ≠ []) :
    EndingsCover includes catalog ↔ EndingsAgree includes catalog :=
  ⟨fun hcover => hcover.agree h, fun hagree => hagree.cover h⟩

end

end CodeAtlas
