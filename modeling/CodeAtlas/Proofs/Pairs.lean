/-
  File:      CodeAtlas/Proofs/Pairs.lean
  Subject:   Lists of pairs that are looked up by their first parts.

  * `lookup_eq_none_iff`, `lookup_concat`: a part that is missing; a pair at the end.
  * `lookup_replaced`: a pair in the place of those with the same first part.
  * `lookup_eq_some_of_mem`: where first parts stand once, every pair is found, and
    what is found makes the list (`ext_of_lookup`).
  * `lookup_filter`: looking up among pairs that are chosen by their first parts.
  * `nodup_eraseDups`: without repetitions nothing stands twice.
-/
import Mathlib.Data.List.Induction
import Mathlib.Data.List.Nodup

namespace CodeAtlas.Pairs

variable {α β : Type} [BEq α]

theorem lookup_concat (pairs : List (α × β)) (key other : α) (value : β) :
    (pairs ++ [(other, value)]).lookup key =
      (pairs.lookup key).or (if key == other then some value else none) := by
  rw [List.lookup_append]
  cases hkey : key == other with
  | false => simp [List.lookup_cons, hkey]
  | true => simp [List.lookup_cons, hkey]

variable [LawfulBEq α]

theorem lookup_eq_none_iff {pairs : List (α × β)} {key : α} :
    pairs.lookup key = none ↔ key ∉ pairs.map (·.1) := by
  rw [List.lookup_eq_none_iff]
  simp only [List.mem_map, Prod.exists, exists_and_right, exists_eq_right, not_exists]
  constructor
  · intro h value hmem
    simpa using h (key, value) hmem
  · rintro h ⟨other, value⟩ hmem
    rw [bne_iff_ne]
    rintro rfl
    exact h value hmem

theorem mem_of_lookup {pairs : List (α × β)} {key : α} {value : β}
    (h : pairs.lookup key = some value) : (key, value) ∈ pairs := by
  obtain ⟨before, after, rfl, -⟩ := List.lookup_eq_some_iff.mp h
  exact List.mem_append_right before List.mem_cons_self

theorem lookup_eq_some_of_mem {pairs : List (α × β)} (h : (pairs.map (·.1)).Nodup)
    {pair : α × β} (hmem : pair ∈ pairs) : pairs.lookup pair.1 = some pair.2 := by
  cases hfound : pairs.lookup pair.1 with
  | none => exact absurd (List.mem_map_of_mem hmem) (lookup_eq_none_iff.mp hfound)
  | some value =>
    have hsame : (pair.1, value) = pair :=
      List.inj_on_of_nodup_map h (mem_of_lookup hfound) hmem rfl
    rw [← hsame]

/-- Where first parts stand once, what is looked up makes the list. -/
theorem ext_of_lookup {pairs others : List (α × β)} (hkeys : others.map (·.1) = pairs.map (·.1))
    (hnodup : (pairs.map (·.1)).Nodup)
    (h : ∀ key ∈ pairs.map (·.1), others.lookup key = pairs.lookup key) : others = pairs := by
  have hlength : others.length = pairs.length := by simpa using congrArg List.length hkeys
  refine List.ext_getElem hlength fun i hi hj => ?_
  have hkey : (others[i]).1 = (pairs[i]).1 := by
    have hget := congrArg (fun keys => keys[i]?) hkeys
    simpa [List.getElem?_eq_getElem hi, List.getElem?_eq_getElem hj] using hget
  have hother := lookup_eq_some_of_mem (hkeys ▸ hnodup) (List.getElem_mem hi)
  rw [hkey, h _ (List.mem_map_of_mem (List.getElem_mem hj)),
    lookup_eq_some_of_mem hnodup (List.getElem_mem hj)] at hother
  exact Prod.ext hkey (Option.some.inj hother).symm

theorem lookup_replaced [DecidableEq α] (pairs : List (α × β)) (key other : α) (value : β) :
    (pairs.map fun old => if old.1 == key then (key, value) else old).lookup other =
      if other = key then (pairs.lookup key).map fun _ => value else pairs.lookup other := by
  induction pairs with
  | nil => simp
  | cons old pairs ih =>
    obtain ⟨first, second⟩ := old
    rw [List.map_cons]
    by_cases hfirst : first = key
    · subst hfirst
      by_cases hother : other = first
      · simp [hother]
      · have hne : (other == first) = false := beq_eq_false_iff_ne.mpr hother
        simpa only [beq_self_eq_true, if_true, List.lookup_cons, hne, if_neg hother] using ih
    · have hne : (first == key) = false := beq_eq_false_iff_ne.mpr hfirst
      by_cases hother : other = key
      · subst hother
        have hne' : (other == first) = false := beq_eq_false_iff_ne.mpr (Ne.symm hfirst)
        simpa only [hne, Bool.false_eq_true, if_false, List.lookup_cons, hne', if_true] using ih
      · simp only [hne, Bool.false_eq_true, if_false, List.lookup_cons, if_neg hother]
        rw [ih, if_neg hother]

theorem lookup_filter (pairs : List (α × β)) (p : α → Bool) (key : α) :
    (pairs.filter fun pair => p pair.1).lookup key = if p key then pairs.lookup key else none := by
  induction pairs with
  | nil => simp
  | cons pair pairs ih =>
    obtain ⟨first, second⟩ := pair
    by_cases hkey : key = first
    · subst hkey
      cases hp : p key with
      | true => simp [hp]
      | false => simp [hp, ih]
    · have hne : (key == first) = false := beq_eq_false_iff_ne.mpr hkey
      cases hp : p first with
      | true => simp [hp, List.lookup_cons, hne, ih]
      | false => simp [hp, List.lookup_cons, hne, ih]

theorem nodup_eraseDups (values : List α) : values.eraseDups.Nodup := by
  induction values using List.reverseRecOn with
  | nil => exact List.nodup_nil
  | append_singleton values value ih =>
    rw [List.eraseDups_append]
    by_cases hmem : value ∈ values
    · simpa [List.removeAll, hmem] using ih
    · have hlast : ([value].removeAll values).eraseDups = [value] := by
        simp [List.removeAll, hmem, List.eraseDups_cons]
      rw [hlast, List.nodup_append]
      refine ⟨ih, List.nodup_singleton value, ?_⟩
      rintro x hx y hy rfl
      rw [List.mem_singleton.mp hy] at hx
      exact hmem (List.mem_eraseDups.mp hx)

end CodeAtlas.Pairs
