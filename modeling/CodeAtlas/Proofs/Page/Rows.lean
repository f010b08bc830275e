/-
  File:      CodeAtlas/Proofs/Page/Rows.lean
  Subject:   The rows of a page: their tags and what they show.

  * `numberTag`: the tag of a row's number; `idTag` is that of an empty anchor.
  * `Linker.shows_row`: a row shows its number, blanks, and the escaped line.
  * `Linker.rows_getElem?`: every row is made from the line of its number, with
    some anchors placed and some comment open before it.
  * `Linker.page_shows_source`: without its tags and entities a page is the
    source it was made from, row by row.
-/
import CodeAtlas.Page
import CodeAtlas.Proofs.Markup.Lines

namespace CodeAtlas.Markup

/-! ## 1. Numbers and empty anchors -/

/-- The tag of the number of a row. -/
def numberTag (number : Nat) : Text :=
  "a class=\"jxr_linenumber\" id=\"L" ++ Text.ofNat number ++ "\" href=\"#L" ++
    Text.ofNat number ++ "\""

theorem isDigit_of_mem_ofNat {n : Nat} {c : Char} (h : c ∈ Text.ofNat n) : c.isDigit = true :=
  Nat.isDigit_of_mem_toDigits (by decide) (by decide) h

theorem not_mem_ofNat {c : Char} (h : c.isDigit = false) (n : Nat) : c ∉ Text.ofNat n := by
  intro hm
  rw [isDigit_of_mem_ofNat hm] at h
  exact Bool.noConfusion h

theorem tagFree_ofNat (n : Nat) : TagFree (Text.ofNat n) :=
  ⟨not_mem_ofNat (by decide) n, not_mem_ofNat (by decide) n⟩

theorem tagFree_numberTag (number : Nat) : TagFree (numberTag number) := by
  unfold numberTag
  simp only [tagFree_append]
  exact ⟨⟨⟨⟨by decide, tagFree_ofNat number⟩, by decide⟩, tagFree_ofNat number⟩, by decide⟩

theorem tagFree_idTag (name : Text) : TagFree (idTag name) :=
  tagFree_quoted (by decide) (by decide) name

theorem lineNumber_eq_wrap (number : Nat) :
    lineNumber number = '<' :: numberTag number ++ ['>'] ++ Text.ofNat number ++
      ('<' :: "/a".toList ++ ['>']) ++ numberPadding number := by
  have hend : "\">".toList = "\"".toList ++ ['>'] := rfl
  have hstart : "<a class=\"jxr_linenumber\" id=\"L".toList =
      '<' :: "a class=\"jxr_linenumber\" id=\"L".toList := rfl
  have hclose : "</a>".toList = '<' :: "/a".toList ++ ['>'] := rfl
  unfold lineNumber numberTag
  rw [hstart, hend, hclose]
  simp only [List.append_assoc, List.cons_append]

theorem emptyAnchor_eq_wrap (declaration : Declaration) :
    emptyAnchor declaration = '<' :: idTag declaration.name ++ ['>'] ++ [] ++
      ('<' :: "/a".toList ++ ['>']) := by
  have hend : "\"></a>".toList = "\"".toList ++ ['>'] ++ ('<' :: "/a".toList ++ ['>']) := rfl
  have hstart : "<a id=\"".toList = '<' :: "a id=\"".toList := rfl
  unfold emptyAnchor idTag
  rw [hstart, hend]
  simp only [List.append_assoc, List.cons_append, List.nil_append]

theorem tagFree_numberPadding (number : Nat) : TagFree (numberPadding number) := by
  unfold numberPadding
  split_ifs <;> decide

theorem shows_lineNumber (number : Nat) :
    Shows (lineNumber number) (Text.ofNat number ++ numberPadding number) := by
  rw [lineNumber_eq_wrap]
  exact (Shows.wrap (tagFree_numberTag number) (tagFree_ofNat number) tagFree_slashA).append
    (.tagFree (tagFree_numberPadding number))

theorem shows_emptyAnchor (declaration : Declaration) : Shows (emptyAnchor declaration) [] := by
  rw [emptyAnchor_eq_wrap]
  exact Shows.wrap (tagFree_idTag _) .nil tagFree_slashA

theorem shows_emptyAnchors (placed : Placed) (declarations : List Declaration) :
    Shows (emptyAnchors placed declarations).1 [] := by
  unfold emptyAnchors
  induction declarations.filter (!placed.contains ·.name) with
  | nil => exact .nil
  | cons declaration pending ih => exact (shows_emptyAnchor declaration).append ih

/-! ## 2. One row after the other -/

namespace Linker

/-- A row shows its number, blanks, and the escaped line. -/
theorem shows_row (linker : Linker) (number : Nat) (placed : Placed) (state : CommentState)
    {line : Text} (hmail : ¬ "mailto:".toList <:+: line) :
    Shows (linker.row number placed state line).1
      (Text.ofNat number ++ numberPadding number ++ escapeLine line ++ ['\n']) := by
  have hbreak : TagFree ['\n'] := by decide
  have hlead := (shows_lineNumber number).append
    (shows_emptyAnchors (linker.highlight number placed state line).2.1
      (linker.declarationsOn number))
  rw [List.append_nil] at hlead
  exact (hlead.append (linker.shows_highlight number placed state hmail)).append
    (.tagFree hbreak)

theorem length_rows (linker : Linker) (number : Nat) (placed : Placed) (state : CommentState)
    (lines : List Text) : (linker.rows number placed state lines).1.length = lines.length := by
  induction lines generalizing number placed state with
  | nil => rfl
  | cons line lines ih => exact congrArg Nat.succ (ih _ _ _)

/-- The row of a line, with what was placed and open before it. -/
theorem rows_getElem? (linker : Linker) (number : Nat) (placed : Placed) (state : CommentState)
    {lines : List Text} {n : Nat} {line row : Text} (hl : lines[n]? = some line)
    (hr : (linker.rows number placed state lines).1[n]? = some row) :
    ∃ before open', row = (linker.row (number + n) before open' line).1 := by
  induction lines generalizing number placed state n with
  | nil => exact nomatch hl
  | cons first lines ih =>
    cases n with
    | zero =>
      cases hl
      cases hr
      exact ⟨placed, state, rfl⟩
    | succ n =>
      obtain ⟨before, open', h⟩ := ih (number + 1) _ _ hl hr
      exact ⟨before, open', by rw [h, Nat.add_right_comm, Nat.add_assoc]⟩

theorem page_eq (linker : Linker) (lines : List Text) (options : PageOptions) (current : Path)
    (pageFolder : Option Path) :
    linker.page lines options current pageFolder =
      pageHeader linker.source options current pageFolder ++
        (linker.rows 1 [] .code lines).1.flatten ++
        linker.leftoverRow (linker.rows 1 [] .code lines).2 ++ pageFooter options := by
  unfold page
  rfl

end Linker

/-! ## 3. The page shows the source -/

/-- Without its tags the row is its number, blanks, and a text that stands for the line once its
entities are decoded. -/
def RowShows (number : Nat) (line row : Text) : Prop :=
  ∃ shown, withoutTags row = Text.ofNat number ++ numberPadding number ++ shown ++ ['\n'] ∧
    decode shown = line

/-- A row that is made of empty anchors only. -/
def IsAnchorRow (row : Text) : Prop :=
  ∃ declarations : List Declaration, declarations ≠ [] ∧
    row = declarations.flatMap emptyAnchor ++ ['\n']

namespace Linker

theorem leftoverRow_cases (linker : Linker) (placed : Placed) :
    linker.leftoverRow placed = [] ∨ IsAnchorRow (linker.leftoverRow placed) := by
  unfold leftoverRow
  split
  · exact Or.inl rfl
  · rename_i hne
    refine Or.inr ⟨linker.source.types.filter (!placed.contains ·.name), ?_, rfl⟩
    intro hnil
    refine hne ?_
    simp only [emptyAnchors, hnil]
    rfl

/-- **The page shows exactly the source**: header, one row for each line, at most one row of
empty anchors, and footer. Deleting the tags of a row and decoding its entities gives the line,
for every table, language and options, and whatever comments reach over lines. -/
theorem page_shows_source (linker : Linker) (lines : List Text) (options : PageOptions)
    (current : Path) (pageFolder : Option Path)
    (hmail : ∀ line ∈ lines, ¬ "mailto:".toList <:+: line) :
    ∃ (rows : List Text) (leftover : Text), linker.page lines options current pageFolder =
        pageHeader linker.source options current pageFolder ++ rows.flatten ++ leftover ++
          pageFooter options ∧
      rows.length = lines.length ∧
      (∀ n line row, lines[n]? = some line → rows[n]? = some row → RowShows (n + 1) line row) ∧
      (leftover = [] ∨ IsAnchorRow leftover) := by
  refine ⟨_, _, linker.page_eq lines options current pageFolder,
    linker.length_rows 1 [] .code lines, ?_, linker.leftoverRow_cases _⟩
  intro n line row hl hr
  obtain ⟨before, open', rfl⟩ := linker.rows_getElem? 1 [] .code hl hr
  have hline := hmail line (List.mem_of_getElem? hl)
  refine ⟨escapeLine line, ?_, decode_escapeLine line⟩
  rw [Nat.add_comm n 1]
  exact (linker.shows_row (1 + n) before open' hline).withoutTags_eq

/-- A line with a comment, a literal, an address and a declaration, and one inside a comment. -/
def sampleLines : List Text :=
  ["class A \x7b String s = \"http://x/?a&b\"; /* <i>", "'\"' \\\\ */ A a;"]

/-- The linker of a file that declares `A`, with no other file known. -/
def sampleLinker : Linker :=
  .ofLanguage ⟨⟨.relative, ["A.java"]⟩, [], [], [⟨"A", "A", 1⟩], none, "A"⟩ ⟨[]⟩ .java

theorem page_shows_source_sample :
    ∃ (rows : List Text) (leftover : Text), sampleLinker.page sampleLines {} ⟨.root, []⟩ none =
        pageHeader sampleLinker.source {} ⟨.root, []⟩ none ++ rows.flatten ++ leftover ++
          pageFooter {} ∧
      rows.length = sampleLines.length ∧
      (∀ n line row, sampleLines[n]? = some line → rows[n]? = some row →
        RowShows (n + 1) line row) ∧
      (leftover = [] ∨ IsAnchorRow leftover) :=
  sampleLinker.page_shows_source sampleLines {} ⟨.root, []⟩ none (by decide)

end Linker

end CodeAtlas.Markup
