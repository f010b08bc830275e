/-
  File:      CodeAtlas/Proofs/Text.lean
  Subject:   Cutting and splitting texts, and parts that lie on one side of a mark.

  * `Text.cut?_eq_append`, `Text.cutLast?_eq_some`: the parts that a cut gives,
    with what was cut out between them, are the text.
  * `not_mem_of_mem_splitOn`, `infix_of_mem_splitOn`: the pieces of a split hold no
    mark and are parts of the text.
  * `infix_of_infix_append`, `infix_of_infix_append_cons`, `prefix_of_prefix_append`:
    where in two texts put together a part can stand that starts with a mark, or
    lacks one; `suffix_of_suffix_append_cons` for a part at the end.
  * `AtLineEnd`: the end of a text or of a line. A part without line feeds that
    starts where a line starts lies in the line (`AtLineEnd.prefix_of_append_eq`).
-/
import CodeAtlas.Text.Basic
import Mathlib.Data.List.Infix
import Mathlib.Data.List.TakeWhile

namespace CodeAtlas

/-- A property of all characters of a given text, by computation. The characters of the text are
tried, and not all there are. -/
theorem forall_mem_of_all {p : Char → Prop} [DecidablePred p] {text : Text}
    (h : (text.all fun c => decide (p c)) = true) : ∀ c ∈ text, p c := fun c hc =>
  of_decide_eq_true (List.all_eq_true.mp h c hc)

/-! ## 1. Cutting -/

namespace Text

theorem cut?_eq_append {pattern text before after : Text}
    (h : Text.cut? pattern text = some (before, after)) : text = before ++ pattern ++ after := by
  induction text generalizing before with
  | nil =>
    unfold Text.cut? at h
    split at h
    · rename_i hp
      cases h
      simpa using hp
    · exact nomatch h
  | cons c rest ih =>
    unfold Text.cut? at h
    split at h
    · rename_i hp
      cases h
      obtain ⟨tail, ht⟩ := List.isPrefixOf_iff_prefix.mp hp
      rw [← ht, List.drop_left, List.nil_append]
    · obtain ⟨⟨b, a⟩, hc, he⟩ := Option.map_eq_some_iff.mp h
      cases he
      rw [ih hc]
      rfl

theorem cutLast?_eq_append {mark : Char} {text before after : Text}
    (h : Text.cutLast? mark text = some (before, after)) : text = before ++ mark :: after := by
  unfold Text.cutLast? at h
  rw [List.span_eq_takeWhile_dropWhile] at h
  split at h
  · exact nomatch h
  · rename_i last c first hspan
    cases h
    obtain ⟨hl, hd⟩ := Prod.mk.inj hspan
    have hc : c = mark := by
      have := List.head?_dropWhile_not (fun c => c != mark) text.reverse
      rw [hd] at this
      simpa using this
    have hrev : text.reverse = last ++ c :: first := by
      rw [← hl, ← hd, List.takeWhile_append_dropWhile]
    have := congrArg List.reverse hrev
    simpa [hc] using this

/-- A text is cut at the last mark. -/
theorem cutLast?_eq_some {mark : Char} {text before after : Text} :
    Text.cutLast? mark text = some (before, after) ↔
      text = before ++ mark :: after ∧ mark ∉ after := by
  constructor
  · intro h
    refine ⟨cutLast?_eq_append h, fun hm => ?_⟩
    unfold Text.cutLast? at h
    rw [List.span_eq_takeWhile_dropWhile] at h
    split at h
    · exact nomatch h
    · rename_i last c first hspan
      cases h
      obtain ⟨rfl, -⟩ := Prod.mk.inj hspan
      have := List.mem_takeWhile_imp (List.mem_reverse.mp hm)
      exact absurd rfl (bne_iff_ne.mp this)
  · rintro ⟨rfl, hm⟩
    have hrev : (before ++ mark :: after).reverse = after.reverse ++ mark :: before.reverse := by
      simp
    have hpass : ∀ c ∈ after.reverse, (c != mark) = true := by
      intro c hc
      exact bne_iff_ne.mpr fun e => hm (e ▸ List.mem_reverse.mp hc)
    have hstop : (mark != mark) = false := by simp
    unfold Text.cutLast?
    rw [hrev, List.span_eq_takeWhile_dropWhile, List.takeWhile_append_of_pos hpass,
      List.dropWhile_append_of_pos hpass, List.takeWhile_cons, List.dropWhile_cons, hstop]
    simp

theorem cutLast?_eq_none {mark : Char} {text : Text} :
    Text.cutLast? mark text = none ↔ mark ∉ text := by
  constructor
  · intro h hm
    obtain ⟨before, after, e, hbefore⟩ := List.eq_append_cons_of_mem (List.mem_reverse.mpr hm)
    have hcut : Text.cutLast? mark text = some (after.reverse, before.reverse) := by
      refine cutLast?_eq_some.mpr ⟨?_, mt List.mem_reverse.mp hbefore⟩
      rw [← List.reverse_reverse text, e]
      simp
    cases h.symm.trans hcut
  · intro hm
    cases hcut : Text.cutLast? mark text with
    | none => rfl
    | some cut =>
      have e := cutLast?_eq_append hcut
      exact absurd (e ▸ List.mem_append_right cut.1 List.mem_cons_self) hm

theorem afterLast_isSuffix (mark : Char) (text : Text) : Text.afterLast mark text <:+ text := by
  unfold Text.afterLast
  split
  · rename_i before after hcut
    exact ⟨before ++ [mark], by rw [cutLast?_eq_append hcut]; simp⟩
  · exact List.suffix_rfl

end Text

/-! ## 2. Splitting -/

/-- The pieces between the marks hold no mark. -/
theorem not_mem_of_mem_splitOn {x : Char} {text piece : Text} (h : piece ∈ text.splitOn x) :
    x ∉ piece := by
  induction text generalizing piece with
  | nil =>
    rw [List.splitOn_nil, List.mem_singleton] at h
    subst h
    exact List.not_mem_nil
  | cons c text ih =>
    rw [List.splitOn_cons_eq_if_modifyHead] at h
    split at h
    · rcases List.mem_cons.mp h with rfl | h
      · exact List.not_mem_nil
      · exact ih h
    · rename_i hc
      cases hs : text.splitOn x with
      | nil => exact absurd hs (List.splitOn_ne_nil x text)
      | cons first others =>
        rw [hs] at h ih
        rcases List.mem_cons.mp h with rfl | h
        · rw [List.mem_cons, not_or]
          exact ⟨fun e => hc (beq_iff_eq.mpr e.symm), ih List.mem_cons_self⟩
        · exact ih (List.mem_cons_of_mem first h)

theorem infix_intercalate {mark part : Text} {parts : List Text} (h : part ∈ parts) :
    part <:+: mark.intercalate parts := by
  induction parts with
  | nil => exact absurd h List.not_mem_nil
  | cons first parts ih =>
    cases parts with
    | nil =>
      rw [List.mem_singleton.mp h, List.intercalate_singleton]
    | cons next parts =>
      rw [List.intercalate_cons_cons]
      rcases List.mem_cons.mp h with rfl | h
      · rw [List.append_assoc]
        exact (List.prefix_append part _).isInfix
      · exact (ih h).trans (List.suffix_append (first ++ mark) _).isInfix

/-- The pieces between the marks are parts of the text. -/
theorem infix_of_mem_splitOn {x : Char} {text piece : Text} (h : piece ∈ text.splitOn x) :
    piece <:+: text := by
  have : piece <:+: [x].intercalate (text.splitOn x) := infix_intercalate h
  rwa [List.intercalate_splitOn] at this

/-! ## 3. Parts on one side of a mark -/

/-- A list that lacks `x` lies on one side of it. -/
theorem infix_of_infix_append_cons {α : Type} {p a b : List α} {x : α} (hx : x ∉ p)
    (h : p <:+: a ++ x :: b) : p <:+: a ∨ p <:+: b := by
  obtain ⟨s, t, e⟩ := h
  rw [List.append_assoc] at e
  rcases List.append_eq_append_iff.mp e with ⟨u, rfl, hu⟩ | ⟨u, rfl, hu⟩
  · rcases List.append_eq_append_iff.mp hu with ⟨v, rfl, hv⟩ | ⟨v, rfl, hv⟩
    · exact Or.inl ⟨s, v, by simp⟩
    · cases v with
      | nil => exact Or.inl ⟨s, [], by simp⟩
      | cons y v =>
        obtain ⟨rfl, -⟩ := List.cons.inj hv
        exact absurd (List.mem_append_right _ List.mem_cons_self) hx
  · cases u with
    | nil =>
      cases p with
      | nil => exact Or.inl (List.nil_infix)
      | cons y p =>
        obtain ⟨rfl, -⟩ := List.cons.inj hu
        exact absurd List.mem_cons_self hx
    | cons y u =>
      obtain ⟨rfl, hb⟩ := List.cons.inj hu
      have hb' : b = u ++ (p ++ t) := hb
      exact Or.inr ⟨u, t, by rw [hb', List.append_assoc]⟩

/-- A list that starts with `x` stands behind a list that lacks `x`. -/
theorem infix_of_infix_append {α : Type} {x : α} {p a b : List α} (ha : x ∉ a)
    (h : x :: p <:+: a ++ b) : x :: p <:+: b := by
  induction a with
  | nil => exact h
  | cons d a ih =>
    simp only [List.mem_cons, not_or] at ha
    rcases List.infix_cons_iff.mp h with hp | hi
    · obtain ⟨_, e⟩ := hp
      exact absurd (List.cons.inj e).1 ha.1
    · exact ih ha.2 hi

/-- A start of two lists put together that lacks the head of the second is a start of the
first. -/
theorem prefix_of_prefix_append {α : Type} {part a b : List α} (h : part <+: a ++ b)
    (hb : ∀ x, b.head? = some x → x ∉ part) : part <+: a := by
  obtain ⟨after, e⟩ := h
  rcases List.append_eq_append_iff.mp e with ⟨more, rfl, -⟩ | ⟨more, rfl, hrest⟩
  · exact List.prefix_append part more
  · cases more with
    | nil => exact ⟨[], by simp⟩
    | cons x more =>
      -- the part would go on behind the first list
      have hx : b.head? = some x := by rw [hrest]; rfl
      exact absurd (List.mem_append_right a List.mem_cons_self) (hb x hx)

/-- An end of two lists with `x` between them that lacks `x` is an end of the second. -/
theorem suffix_of_suffix_append_cons {α : Type} {part a b : List α} {x : α} (hx : x ∉ part)
    (h : part <:+ a ++ x :: b) : part <:+ b := by
  rcases List.suffix_or_suffix_of_suffix h (List.suffix_append a (x :: b)) with hin | hout
  · rcases List.suffix_cons_iff.mp hin with rfl | hin
    · exact absurd List.mem_cons_self hx
    · exact hin
  · exact absurd (hout.subset List.mem_cons_self) hx

/-- An end of a text that lacks the mark stands after its last mark. -/
theorem Text.isSuffix_afterLast {mark : Char} {part text : Text} (h : part <:+ text)
    (hm : mark ∉ part) : part <:+ Text.afterLast mark text := by
  unfold Text.afterLast
  split
  · rename_i before after hcut
    rw [cutLast?_eq_append hcut] at h
    exact suffix_of_suffix_append_cons hm h
  · exact h

/-! ## 4. Ends of lines -/

/-- The end of a text, or of a line in it. -/
def AtLineEnd (text : Text) : Prop := text = [] ∨ ∃ more, text = '\n' :: more

theorem atLineEnd_dropWhile (text : Text) : AtLineEnd (text.dropWhile (· != '\n')) := by
  cases hdrop : text.dropWhile (· != '\n') with
  | nil => exact Or.inl rfl
  | cons c more =>
    have hhead := List.head?_dropWhile_not (· != '\n') text
    rw [hdrop] at hhead
    have hc : c = '\n' := by simpa using hhead
    exact Or.inr ⟨more, by rw [hc]⟩

/-- A part of a text without line feeds, where a line starts, is a part of the line. -/
theorem AtLineEnd.prefix_of_append_eq {rest : Text} (h : AtLineEnd rest) {part after line : Text}
    (hpart : '\n' ∉ part) (e : part ++ after = line ++ rest) : part <+: line := by
  refine prefix_of_prefix_append ⟨after, e⟩ fun c hc => ?_
  rcases h with rfl | ⟨tail, rfl⟩
  · exact nomatch hc
  · exact Option.some.inj hc ▸ hpart

end CodeAtlas
