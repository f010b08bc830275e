/-
  File:      CodeAtlas/Proofs/Page/FileOrder.lean
  Subject:   The order in which files are registered does not show.

  A page is made with a symbol table, but it only asks the table two questions:
  which type stands under a package and a name, and whether a package is known.
  `Linker.over` puts another table under a linker. One lemma for each function says
  that over tables that agree the function gives the same; the functions that go
  over a list need an induction, the others only what they call.

  * `Linker.page_over`: the page is the same over tables that agree.
  * `file_order_irrelevant`: files that declare apart can be registered in any order.
-/
import CodeAtlas.Page
import CodeAtlas.Proofs.Symbols.Agreement
import Mathlib

namespace CodeAtlas

namespace Markup

/-- The linker with another table. -/
def Linker.over (linker : Linker) (table : SymbolTable) : Linker := { linker with table }

namespace Linker

variable {a b : SymbolTable} (h : a.Agree b) (linker : Linker)
include h

/-! ## 1. Names -/

theorem target?_over (package name : Text) :
    (linker.over a).target? package name = (linker.over b).target? package name :=
  congrArg (Option.map _) (h.type package name)

theorem resolve?_over (name : Text) :
    (linker.over a).resolve? name = (linker.over b).resolve? name := by
  have hqualified : (linker.over a).qualified? name = (linker.over b).qualified? name := by
    unfold qualified?
    simp only [target?_over h]
  have hsimple : (linker.over a).simple? name = (linker.over b).simple? name := by
    unfold simple?
    simp only [target?_over h]
    rfl
  unfold resolve?
  rw [hqualified, hsimple]

theorem linkWord_over (line : Nat) (placed : Placed) (previous word : Text) :
    (linker.over a).linkWord line placed previous word =
      (linker.over b).linkWord line placed previous word := by
  have hlink : (linker.over a).typeLink? (nameCandidates word) =
      (linker.over b).typeLink? (nameCandidates word) := by
    unfold typeLink?
    simp only [resolve?_over h]
    rfl
  unfold linkWord
  simp only [hlink]
  rfl

theorem linkEdits_over (line : Nat) (placed : Placed) (previous : Text) (words : List Word) :
    (linker.over a).linkEdits line placed previous words =
      (linker.over b).linkEdits line placed previous words := by
  induction words generalizing placed previous with
  | nil => rfl
  | cons word words ih =>
    simp only [linkEdits, linkWord_over h, ih]

theorem linkTypes_over (line : Nat) (placed : Placed) (text : Text) :
    (linker.over a).linkTypes line placed text = (linker.over b).linkTypes line placed text := by
  unfold linkTypes
  rw [linkEdits_over h]

/-! ## 2. Lines -/

theorem showPlain_over (line : Nat) (placed : Placed) (text : Text) :
    (linker.over a).showPlain line placed text = (linker.over b).showPlain line placed text := by
  unfold showPlain
  rw [linkTypes_over h]
  rfl

theorem showPieces_over (line : Nat) (literal : Bool) (placed : Placed) (pieces : List Text) :
    (linker.over a).showPieces line literal placed pieces =
      (linker.over b).showPieces line literal placed pieces := by
  induction pieces generalizing literal placed with
  | nil => cases literal <;> rfl
  | cons piece pieces ih =>
    cases literal with
    | true => simp only [showPieces, ih]
    | false => simp only [showPieces, showPlain_over h, ih]

theorem showPackage_over (package : Text) :
    (linker.over a).showPackage package = (linker.over b).showPackage package := by
  have hknown : ((linker.over a).table.package? package).isSome =
      ((linker.over b).table.package? package).isSome := h.package package
  unfold showPackage
  rw [hknown]
  rfl

theorem showStatementName_over (statement : Statement) :
    (linker.over a).showStatementName statement = (linker.over b).showStatementName statement := by
  have himport : (linker.over a).showImport statement.name =
      (linker.over b).showImport statement.name := by
    unfold showImport
    simp only [target?_over h, showPackage_over h]
    rfl
  unfold showStatementName
  rw [showPackage_over h, himport]
  rfl

theorem showCode_over (line : Nat) (placed : Placed) (text : Text) :
    (linker.over a).showCode line placed text = (linker.over b).showCode line placed text := by
  unfold showCode showStatement showLiterals
  simp only [showPieces_over h, showStatementName_over h]
  rfl

theorem showSegments_over (line : Nat) (placed : Placed) (pieces : List Segment) :
    (linker.over a).showSegments line placed pieces =
      (linker.over b).showSegments line placed pieces := by
  induction pieces generalizing placed with
  | nil => rfl
  | cons piece pieces ih =>
    cases piece with
    | comment kind text => simp only [showSegments, ih]
    | code text => simp only [showSegments, showCode_over h, ih]

/-! ## 3. Pages -/

theorem row_over (number : Nat) (placed : Placed) (state : CommentState) (line : Text) :
    (linker.over a).row number placed state line = (linker.over b).row number placed state line := by
  unfold row highlight
  simp only [showSegments_over h]
  rfl

theorem rows_over (number : Nat) (placed : Placed) (state : CommentState) (lines : List Text) :
    (linker.over a).rows number placed state lines =
      (linker.over b).rows number placed state lines := by
  induction lines generalizing number placed state with
  | nil => rfl
  | cons line lines ih => simp only [rows, row_over h, ih]

/-- **A page is the same over tables that agree.** -/
theorem page_over (lines : List Text) (options : PageOptions) (current : Path)
    (pageFolder : Option Path) :
    (linker.over a).page lines options current pageFolder =
      (linker.over b).page lines options current pageFolder := by
  unfold page
  rw [rows_over h]
  rfl

end Linker

end Markup

/-! ## 4. Files in any order -/

open Markup (Linker)

/-- **The order of the files does not show.** If no two different files declare the same type, then
registered in any order they give the same answers, the same package names, the same index and
the same pages. -/
theorem file_order_irrelevant {a b : List SourceFile} (hperm : a.Perm b) (hapart : DeclareApart a) :
    (∀ package name, (SymbolTable.ofSources a).find? package name =
        (SymbolTable.ofSources b).find? package name) ∧
      (SymbolTable.ofSources a).sorted.map (·.name) =
        (SymbolTable.ofSources b).sorted.map (·.name) ∧
      ProjectIndex.ofTable (SymbolTable.ofSources a) =
        ProjectIndex.ofTable (SymbolTable.ofSources b) ∧
      ∀ (source : SourceFile) (language : Language) (lines : List Text) (options : PageOptions)
        (current : Path) (pageFolder : Option Path),
        (Linker.ofLanguage source (SymbolTable.ofSources a) language).page lines options current
            pageFolder =
          (Linker.ofLanguage source (SymbolTable.ofSources b) language).page lines options current
            pageFolder := by
  have hagree := agree_of_perm hperm hapart
  have ha := SymbolTable.EachOnce.ofSources a
  have hb := SymbolTable.EachOnce.ofSources b
  refine ⟨hagree.type, hagree.map_name_sorted ha hb, hagree.ofTable_eq ha hb, ?_⟩
  intro source language lines options current pageFolder
  exact Linker.page_over hagree (Linker.ofLanguage source .empty language) lines options current
    pageFolder

/-- A file of one package that declares a type twice, and two more of the same package and of
another: the tables differ, the index does not. -/
theorem file_order_irrelevant_three :
    let first : SourceFile := ⟨⟨.root, ["A.java"]⟩, "p", [], [⟨"B", "A", 1⟩, ⟨"B", "A", 2⟩], none, "A"⟩
    let second : SourceFile := ⟨⟨.root, ["C.java"]⟩, "p", [], [⟨"A", "C", 1⟩], none, "C"⟩
    let third : SourceFile := ⟨⟨.root, ["D.java"]⟩, "", [], [⟨"B", "D", 1⟩], none, "D"⟩
    DeclareApart [first, second, third] ∧
      SymbolTable.ofSources [first, second, third] ≠ SymbolTable.ofSources [third, second, first] ∧
      (ProjectIndex.ofTable (SymbolTable.ofSources [third, second, first])).classes.map (·.1) =
        ["A#p".toList, "B#(default package)", "B#p"] ∧
      ProjectIndex.ofTable (SymbolTable.ofSources [first, second, third]) =
        ProjectIndex.ofTable (SymbolTable.ofSources [third, second, first]) := by
  intro first second third
  have hapart : DeclareApart [first, second, third] := by decide
  have hperm : [first, second, third].Perm [third, second, first] :=
    List.reverse_perm [third, second, first]
  exact ⟨hapart, by decide, by cbv, (file_order_irrelevant hperm hapart).2.2.1⟩

end CodeAtlas
