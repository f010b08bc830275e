/-
  File:      CodeAtlas/Proofs/Markup/Statements.lean
  Subject:   Dotted names, and the parts of package and import statements.

  * `IsDottedName`: what `qualifiedName?` finds: name characters and dots, a
    letter first. `qualifiedName?_spec` adds that it stands at the start.
  * `Statement.ofText?_spec`: the parts of a statement put together are the text
    it was read from, and blanks, names, dots and asterisks stand before its tail.
    So a literal of the text is a literal of the tail (`MarkersQuoted.of_append`).
  * `Import.parts`: an imported name is its package, a dot and its simple name,
    or the simple name alone.
-/
import CodeAtlas.Markup.Statement
import CodeAtlas.Source.File
import CodeAtlas.Proofs.Markup.Comments
import Mathlib.Data.List.TakeDrop
import Mathlib.Data.List.TakeWhile

namespace CodeAtlas

namespace Markup

/-! ## 1. Dotted names -/

/-- Names joined by dots. -/
def IsDottedName (name : Text) : Prop :=
  (∃ c rest, name = c :: rest ∧ isNameStart c = true) ∧
    ∀ c ∈ name, isNamePart c = true ∨ c = '.'

theorem isNamePart_of_isNameStart {c : Char} (h : isNameStart c = true) : isNamePart c = true := by
  unfold isNameStart at h
  unfold isNamePart Text.isNameChar Text.isLetter
  simp only [Bool.or_eq_true, beq_iff_eq] at h ⊢
  rcases h with (h | h) | h
  · have hlt : c.toNat < 128 := by
      have hv : c.toNat = c.val.toNat := rfl
      rcases (Bool.or_eq_true _ _).mp h with h | h
      · have hle : c.val ≤ 90 := (of_decide_eq_true h).2
        have : c.val.toNat ≤ 90 := UInt32.le_iff_toNat_le.mp hle
        omega
      · have hle : c.val ≤ 122 := of_decide_eq_true ((Bool.and_eq_true _ _).mp h).2
        have : c.val.toNat ≤ 122 := UInt32.le_iff_toNat_le.mp hle
        omega
    left; left; left
    rw [if_pos hlt]
    exact h
  · exact Or.inl (Or.inr h)
  · exact Or.inr h

theorem qualifiedRest_isPrefix (text : Text) : qualifiedRest text <+: text := by
  fun_induction qualifiedRest text with
  | case1 => exact List.nil_prefix
  | case2 d rest hd ih => exact (List.prefix_cons_inj _).mpr ((List.prefix_cons_inj _).mpr ih)
  | case3 d rest hd => exact List.nil_prefix
  | case4 c rest _ hc ih => exact (List.prefix_cons_inj _).mpr ih
  | case5 c rest _ hc => exact List.nil_prefix

theorem qualifiedRest_chars (text : Text) :
    ∀ c ∈ qualifiedRest text, isNamePart c = true ∨ c = '.' := by
  fun_induction qualifiedRest text with
  | case1 => exact fun _ h => absurd h List.not_mem_nil
  | case2 d rest hd ih =>
    intro c hc
    rcases List.mem_cons.mp hc with rfl | hc
    · exact Or.inr rfl
    · rcases List.mem_cons.mp hc with rfl | hc
      · exact Or.inl (isNamePart_of_isNameStart hd)
      · exact ih c hc
  | case3 d rest hd => exact fun _ h => absurd h List.not_mem_nil
  | case4 d rest _ hd ih =>
    intro c hc
    rcases List.mem_cons.mp hc with rfl | hc
    · exact Or.inl hd
    · exact ih c hc
  | case5 d rest _ hd => exact fun _ h => absurd h List.not_mem_nil

theorem qualifiedName?_spec {text name : Text} (h : qualifiedName? text = some name) :
    name <+: text ∧ IsDottedName name := by
  unfold qualifiedName? at h
  split at h
  · cases h
  · rename_i c rest
    split at h
    · rename_i hc
      cases h
      refine ⟨(List.prefix_cons_inj c).mpr (qualifiedRest_isPrefix rest), ⟨c, _, rfl, hc⟩, ?_⟩
      intro d hd
      rcases List.mem_cons.mp hd with rfl | hd
      · exact Or.inl (isNamePart_of_isNameStart hc)
      · exact qualifiedRest_chars rest d hd
    · cases h

/-- A character that is neither a dot nor part of a name does not occur in a dotted name. -/
theorem IsDottedName.not_mem {name : Text} (h : IsDottedName name) {c : Char}
    (h1 : isNamePart c = false) (h2 : c ≠ '.') : c ∉ name := by
  intro hm
  rcases h.2 c hm with hc | hc
  · rw [h1] at hc
    exact Bool.false_ne_true hc
  · exact h2 hc

/-! ## 2. The parts of a statement -/

/-- What stands between the name of a statement and its tail. -/
def Statement.mark (statement : Statement) : Text :=
  if statement.wildcard then ['.', '*'] else []

/-- What stands before the tail of a statement. -/
def Statement.lead (statement : Statement) : Text :=
  statement.indent ++ statement.kind.keyword ++ statement.gap ++ statement.static ++
    statement.name ++ statement.mark

/-- What stands before the tail of a statement is made of blanks, names, dots and asterisks. -/
def isLeadChar (c : Char) : Bool := Text.isBlank c || isNamePart c || c == '.' || c == '*'

theorem isLeadChar_of_mem_takeWhile {c : Char} {text : Text}
    (h : c ∈ text.takeWhile Text.isBlank) : isLeadChar c = true := by
  unfold isLeadChar
  rw [List.mem_takeWhile_imp h, Bool.true_or, Bool.true_or, Bool.true_or]

theorem isLeadChar_of_mem_name {c : Char} {name : Text} (hname : IsDottedName name)
    (h : c ∈ name) : isLeadChar c = true := by
  unfold isLeadChar
  rcases hname.2 c h with hc | rfl
  · rw [hc, Bool.or_true, Bool.true_or, Bool.true_or]
  · rfl

namespace Statement

theorem ending?_spec {text name tail : Text} {wildcard : Bool}
    (h : ending? text = some (name, wildcard, tail)) :
    text = name ++ (if wildcard then ['.', '*'] else []) ++ tail ∧ IsDottedName name := by
  unfold ending? at h
  split at h
  · exact nomatch h
  · rename_i found hq
    obtain ⟨hpre, hname⟩ := qualifiedName?_spec hq
    simp only [Option.ite_none_right_eq_some, Option.some.injEq, Prod.mk.injEq] at h
    obtain ⟨_, rfl, rfl, rfl⟩ := h
    obtain ⟨rest, rfl⟩ := hpre
    refine ⟨?_, hname⟩
    rw [List.drop_left, List.append_assoc]
    congr 1
    split
    · rename_i hw
      obtain ⟨more, rfl⟩ := List.isPrefixOf_iff_prefix.mp hw
      rfl
    · rfl

theorem static?_spec {text static rest : Text} (h : static? text = some (static, rest)) :
    text = static ++ rest ∧ ∀ c ∈ static, isLeadChar c = true := by
  unfold static? at h
  split at h
  · rename_i hp
    obtain ⟨more, rfl⟩ := List.isPrefixOf_iff_prefix.mp hp
    have hdrop : ("static".toList ++ more).drop 6 = more := rfl
    rw [hdrop, List.span_eq_takeWhile_dropWhile] at h
    split at h
    · exact nomatch h
    · rename_i heq
      cases h
      obtain ⟨rfl, rfl⟩ := Prod.mk.inj heq
      refine ⟨by rw [List.append_assoc, List.takeWhile_append_dropWhile], ?_⟩
      have hword : ∀ c ∈ "static".toList, isLeadChar c = true := forall_mem_of_all (by decide)
      intro c hc
      rcases List.mem_append.mp hc with hc | hc
      · exact hword c hc
      · exact isLeadChar_of_mem_takeWhile hc
  · exact nomatch h

theorem remainder?_spec {text static name tail : Text} {wildcard : Bool}
    (h : remainder? text = some (static, name, wildcard, tail)) :
    text = static ++ name ++ (if wildcard then ['.', '*'] else []) ++ tail ∧
      (∀ c ∈ static, isLeadChar c = true) ∧ IsDottedName name := by
  unfold remainder? at h
  simp only [Option.orElse_eq_orElse, Option.orElse_eq_or, Option.or_eq_some_iff] at h
  rcases h with h | ⟨_, h⟩
  · obtain ⟨⟨found, rest⟩, hs, he⟩ := Option.bind_eq_some_iff.mp h
    obtain ⟨⟨n, w, t⟩, hend, e⟩ := Option.map_eq_some_iff.mp he
    cases e
    obtain ⟨rfl, hstatic⟩ := static?_spec hs
    obtain ⟨rfl, hname⟩ := ending?_spec hend
    exact ⟨by simp, hstatic, hname⟩
  · obtain ⟨⟨n, w, t⟩, hend, e⟩ := Option.map_eq_some_iff.mp h
    cases e
    obtain ⟨rfl, hname⟩ := ending?_spec hend
    exact ⟨by simp, fun _ hc => absurd hc List.not_mem_nil, hname⟩

theorem keyword?_spec {text rest : Text} {kind : StatementKind}
    (h : keyword? text = some (kind, rest)) : text = kind.keyword ++ rest := by
  unfold keyword? at h
  obtain ⟨found, _, hf⟩ := List.exists_of_findSome?_eq_some h
  split at hf
  · rename_i hp
    cases hf
    exact (List.prefix_iff_eq_append.mp (List.isPrefixOf_iff_prefix.mp hp)).symm
  · exact nomatch hf

/-- **The parts of a statement are its text**, and only blanks, names, dots and asterisks stand
before its tail. -/
theorem ofText?_spec {text : Text} {statement : Statement} (h : ofText? text = some statement) :
    text = statement.lead ++ statement.tail ∧ (∀ c ∈ statement.lead, isLeadChar c = true) ∧
      IsDottedName statement.name := by
  unfold ofText? at h
  rw [List.span_eq_takeWhile_dropWhile] at h
  obtain ⟨⟨kind, later⟩, hk, h⟩ := Option.bind_eq_some_iff.mp h
  simp only [List.span_eq_takeWhile_dropWhile] at h
  split at h
  · exact nomatch h
  · rename_i gap afterGap hspan
    obtain ⟨rfl, rfl⟩ := Prod.mk.inj hspan
    obtain ⟨⟨static, name, wildcard, tail⟩, hr, e⟩ := Option.map_eq_some_iff.mp h
    obtain ⟨hrest, hstatic, hname⟩ := remainder?_spec hr
    subst e
    have hwhole : text = text.takeWhile Text.isBlank ++ (kind.keyword ++
        (later.takeWhile Text.isBlank ++ later.dropWhile Text.isBlank)) := by
      rw [List.takeWhile_append_dropWhile, ← keyword?_spec hk, List.takeWhile_append_dropWhile]
    refine ⟨?_, ?_, hname⟩
    · calc text = text.takeWhile Text.isBlank ++ (kind.keyword ++
            (later.takeWhile Text.isBlank ++ later.dropWhile Text.isBlank)) := hwhole
        _ = _ := by rw [hrest]; simp [lead, mark]
    · have hkey : ∀ c ∈ kind.keyword, isLeadChar c = true := by
        cases kind <;> exact forall_mem_of_all (by decide)
      have hmark : ∀ c ∈ (if wildcard then ['.', '*'] else ([] : Text)), isLeadChar c = true := by
        cases wildcard <;> exact forall_mem_of_all (by decide)
      intro c hc
      simp only [lead, mark, List.mem_append] at hc
      rcases hc with ((((hc | hc) | hc) | hc) | hc) | hc
      · exact isLeadChar_of_mem_takeWhile hc
      · exact hkey c hc
      · exact isLeadChar_of_mem_takeWhile hc
      · exact hstatic c hc
      · exact isLeadChar_of_mem_name hname hc
      · exact hmark c hc

end Statement

/-- Without the quotes of its start, the markers of a text are those of its end. -/
theorem MarkersQuoted.of_append {literal : Bool} {lead tail : Text}
    (h : MarkersQuoted literal (lead ++ tail)) (hq : '"' ∉ lead) : MarkersQuoted literal tail := by
  intro before rest e hr
  have := h (lead ++ before) rest (by rw [e, List.append_assoc]) hr
  rwa [List.count_append, List.count_eq_zero.mpr hq, Nat.zero_add] at this

end Markup

/-! ## 3. The parts of an imported name -/

/-- An imported name is the simple name alone, or its package, a dot and the simple name. -/
theorem Import.parts {name : Text} (h : Markup.IsDottedName name) :
    ∃ simple, (⟨name⟩ : Import).className? = some simple ∧
      (((⟨name⟩ : Import).package = [] ∧ simple = name) ∨
        ((⟨name⟩ : Import).package ≠ [] ∧ name = (⟨name⟩ : Import).package ++ '.' :: simple)) := by
  have hw : (⟨name⟩ : Import).isWildcard = false := by
    rw [Bool.eq_false_iff]
    intro hs
    have hsuf : ['.', '*'] <:+ name := List.isSuffixOf_iff_suffix.mp hs
    exact h.not_mem (c := '*') (by decide) (by decide) (hsuf.subset (by decide))
  simp only [className?, package, hw, Bool.false_eq_true, if_false, Text.afterLast]
  cases hc : Text.cutLast? '.' name with
  | none => exact ⟨name, rfl, Or.inl ⟨rfl, rfl⟩⟩
  | some cut =>
    obtain ⟨before, after⟩ := cut
    have e := Text.cutLast?_eq_append hc
    refine ⟨after, rfl, Or.inr ⟨?_, e⟩⟩
    rintro rfl
    obtain ⟨⟨c, rest, rfl, hstart⟩, _⟩ := h
    obtain ⟨rfl, -⟩ := List.cons.inj e
    exact absurd hstart (by decide)

end CodeAtlas
