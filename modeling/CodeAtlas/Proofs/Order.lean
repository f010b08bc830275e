/-
  File:      CodeAtlas/Proofs/Order.lean
  Subject:   The order of texts by code points, and lists sorted by a text.

  * `Text.le` is a linear order (`le_total`, `le_trans`, `le_antisymm`).
  * `Text.sorted_eq_of_perm`, `Text.pairwise_sorted`: sorted texts do not depend on the
    order in which they were given, and ascend strictly where none stands twice.
  * `mergeSort_eq_of_perm`: where no two entries have the same key, the sorted list
    does not depend on the order in which the entries were given.
  * `map_eq_of_map_key_eq`: two lists with the same keys in the same order, whose
    entries agree wherever their keys do.
-/
import CodeAtlas.Text.Basic
import Mathlib.Data.List.Nodup
import Mathlib.Data.List.Perm.Basic
import Mathlib.Data.List.Sort

namespace CodeAtlas

/-! ## 1. The order of texts -/

namespace Text

theorem le_cons_cons_iff {c d : Char} {a b : Text} :
    le (c :: a) (d :: b) = true ↔ c.toNat < d.toNat ∨ c.toNat = d.toNat ∧ le a b = true := by
  have hinj : c = d ↔ c.toNat = d.toNat := Char.toNat_inj.symm
  simp only [le, beq_iff_eq, hinj]
  split_ifs with h
  · simp [h]
  · simp [h]

theorem le_total (a b : Text) : le a b = true ∨ le b a = true := by
  induction a generalizing b with
  | nil => exact Or.inl rfl
  | cons c a ih =>
    cases b with
    | nil => exact Or.inr rfl
    | cons d b =>
      rw [le_cons_cons_iff, le_cons_cons_iff]
      rcases Nat.lt_trichotomy c.toNat d.toNat with h | h | h
      · exact Or.inl (Or.inl h)
      · exact (ih b).imp (fun hle => Or.inr ⟨h, hle⟩) fun hle => Or.inr ⟨h.symm, hle⟩
      · exact Or.inr (Or.inl h)

theorem le_trans {a b c : Text} (hab : le a b = true) (hbc : le b c = true) : le a c = true := by
  induction a generalizing b c with
  | nil => rfl
  | cons x a ih =>
    cases b with
    | nil => exact nomatch hab
    | cons y b =>
      cases c with
      | nil => exact nomatch hbc
      | cons z c =>
        rw [le_cons_cons_iff] at hab hbc ⊢
        rcases hab with hab | ⟨hxy, hab⟩
        · left
          omega
        · rcases hbc with hbc | ⟨hyz, hbc⟩
          · left
            omega
          · exact Or.inr ⟨hxy.trans hyz, ih hab hbc⟩

theorem le_antisymm {a b : Text} (hab : le a b = true) (hba : le b a = true) : a = b := by
  induction a generalizing b with
  | nil =>
    cases b with
    | nil => rfl
    | cons d b => exact nomatch hba
  | cons c a ih =>
    cases b with
    | nil => exact nomatch hab
    | cons d b =>
      rw [le_cons_cons_iff] at hab hba
      have hcd : c.toNat = d.toNat := by omega
      obtain ⟨-, hab⟩ := hab.resolve_left (by omega)
      obtain ⟨-, hba⟩ := hba.resolve_left (by omega)
      rw [Char.toNat_inj.mp hcd, ih hab hba]

end Text

/-! ## 2. Lists sorted by a key -/

section Keys

variable {α β : Type} {key : α → Text}

theorem pairwise_mergeSort_key (key : α → Text) (entries : List α) :
    (entries.mergeSort fun a b => Text.le (key a) (key b)).Pairwise
      fun a b => Text.le (key a) (key b) = true := by
  have htrans : ∀ a b c : α, Text.le (key a) (key b) = true → Text.le (key b) (key c) = true →
      Text.le (key a) (key c) = true := fun _ _ _ => Text.le_trans
  have htotal : ∀ a b : α, (Text.le (key a) (key b) || Text.le (key b) (key a)) = true :=
    fun a b => (Bool.or_eq_true _ _).mpr (Text.le_total (key a) (key b))
  exact List.pairwise_mergeSort htrans htotal entries

/-- **A sorted list of entries with distinct keys is determined by its entries.** -/
theorem mergeSort_eq_of_perm {a b : List α} (h : a.Perm b) (hnodup : (a.map key).Nodup) :
    (a.mergeSort fun x y => Text.le (key x) (key y)) =
      b.mergeSort fun x y => Text.le (key x) (key y) := by
  have ha : (a.mergeSort fun x y => Text.le (key x) (key y)).Perm a := List.mergeSort_perm a _
  have hb : (b.mergeSort fun x y => Text.le (key x) (key y)).Perm b := List.mergeSort_perm b _
  refine List.Perm.eq_of_pairwise ?_ (pairwise_mergeSort_key key a) (pairwise_mergeSort_key key b)
    (ha.trans (h.trans hb.symm))
  intro x y hx hy hxy hyx
  exact List.inj_on_of_nodup_map hnodup (ha.mem_iff.mp hx)
    (h.mem_iff.mpr (hb.mem_iff.mp hy)) (Text.le_antisymm hxy hyx)

/-- A sorted list of texts is determined by its texts. -/
theorem Text.sorted_eq_of_perm {a b : List Text} (h : a.Perm b) :
    Text.sorted a = Text.sorted b := by
  have ha : (Text.sorted a).Perm a := List.mergeSort_perm a _
  have hb : (Text.sorted b).Perm b := List.mergeSort_perm b _
  refine List.Perm.eq_of_pairwise ?_ (pairwise_mergeSort_key id a) (pairwise_mergeSort_key id b)
    (ha.trans (h.trans hb.symm))
  exact fun x y _ _ => Text.le_antisymm

/-- Texts that stand once are strictly ascending when they are sorted. -/
theorem Text.pairwise_sorted {texts : List Text} (h : texts.Nodup) :
    (Text.sorted texts).Pairwise fun a b => Text.le a b = true ∧ a ≠ b := by
  have hnodup : (Text.sorted texts).Nodup := (List.mergeSort_perm texts _).nodup_iff.mpr h
  exact List.Pairwise.and (pairwise_mergeSort_key id texts) hnodup

/-- Keys in the same order, and the same value wherever the key is the same. -/
theorem map_eq_of_map_key_eq {a b : List α} {f : α → β} (h : a.map key = b.map key)
    (hf : ∀ x ∈ a, ∀ y ∈ b, key x = key y → f x = f y) : a.map f = b.map f := by
  induction a generalizing b with
  | nil => rw [List.map_eq_nil_iff.mp h.symm]
  | cons x a ih =>
    cases b with
    | nil => exact nomatch h
    | cons y b =>
      obtain ⟨hkey, hrest⟩ := List.cons.inj h
      rw [List.map_cons, List.map_cons, hf x List.mem_cons_self y List.mem_cons_self hkey,
        ih hrest fun x hx y hy => hf x (List.mem_cons_of_mem _ hx) y (List.mem_cons_of_mem _ hy)]

end Keys

end CodeAtlas
