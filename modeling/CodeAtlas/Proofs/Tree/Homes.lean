/-
  File:      CodeAtlas/Proofs/Tree/Homes.lean
  Subject:   Paths in which a leading `~` has been replaced, and their resolved forms.

  * `Path.expand_of_account`, `Path.account?_of_expand`: a path without a leading `~` is
    left as it is, and a path that was expanded has none.
  * `Path.expand_cases`: all that expanding can give.
  * `Path.resolve_eq_ok_iff`: what the resolved form of a path is, if it has one.
  * `Path.resolve_of_expand`: expanding first does not change it.
-/
import CodeAtlas.Tree

namespace CodeAtlas

namespace Path

variable {path whole key : Path}

theorem account?_of_isAbsolute (h : path.isAbsolute) : path.account? = none := by
  obtain ⟨anchor, segments⟩ := path
  cases anchor with
  | relative => cases h
  | root | doubleRoot | builtIn => rfl

theorem account?_resolved (path : Path) : path.resolved.account? = none := rfl

/-- A home folder that is known is given from the root on. -/
theorem isAbsolute_of_homes {homes : Homes} {account : Text} {home : Path}
    (h : homes.of? account = some home) : home.isAbsolute :=
  (Option.filter_eq_some_iff.mp h).2

variable [Platform]

theorem expand_of_account (h : path.account? = none) : path.expand = .ok path := by
  unfold expand
  rw [h]

theorem expand_resolved (path : Path) : path.resolved.expand = .ok path.resolved :=
  expand_of_account path.account?_resolved

/-- **All that expanding can give**: the path itself if it has no leading `~`, and else a path below
a home folder, or a fault. -/
theorem expand_cases (h : path.expand = .ok whole) :
    path.account? = none ∧ whole = path ∨
      ∃ account rest home, path.account? = some (account, rest) ∧
        Platform.homes.of? account = some home ∧
        whole = { home with segments := home.segments ++ rest } := by
  unfold expand at h
  cases haccount : path.account? with
  | none =>
    rw [haccount] at h
    cases h
    exact Or.inl ⟨rfl, rfl⟩
  | some found =>
    obtain ⟨account, rest⟩ := found
    rw [haccount] at h
    dsimp only at h
    split at h
    · cases h
    · split at h
      · cases h
      · cases hexpand : Platform.homes.expand? path with
        | none =>
          rw [hexpand] at h
          cases h
        | some found =>
          rw [hexpand] at h
          cases h
          unfold Homes.expand? at hexpand
          rw [haccount] at hexpand
          obtain ⟨home, hhome, rfl⟩ := Option.map_eq_some_iff.mp hexpand
          exact Or.inr ⟨account, rest, home, rfl, hhome, rfl⟩

/-- What was expanded has no leading `~`. -/
theorem account?_of_expand (h : path.expand = .ok whole) : whole.account? = none := by
  rcases expand_cases h with ⟨hnone, rfl⟩ | ⟨account, rest, home, -, hhome, rfl⟩
  · exact hnone
  · exact account?_of_isAbsolute (isAbsolute_of_homes hhome : home.isAbsolute)

theorem expand_of_expand (h : path.expand = .ok whole) : whole.expand = .ok whole :=
  expand_of_account (account?_of_expand h)

/-- **The resolved form of a path**, if it has one. -/
theorem resolve_eq_ok_iff :
    path.resolve = .ok key ↔
      ∃ whole, path.expand = .ok whole ∧ whole.checkText = .ok () ∧ key = whole.resolved := by
  unfold resolve
  cases path.expand with
  | error fault => exact ⟨nofun, nofun⟩
  | ok whole =>
    simp only [bind, Except.bind, Except.ok.injEq, exists_eq_left']
    cases whole.checkText with
    | error fault => exact ⟨nofun, nofun⟩
    | ok checked => exact ⟨fun h => ⟨rfl, (Except.ok.inj h).symm⟩, fun h => congrArg _ h.2.symm⟩

theorem resolve_of_expand (h : path.expand = .ok whole) : path.resolve = whole.resolve := by
  unfold resolve
  rw [h, expand_of_expand h]

/-- The resolved form of an expanded path, if it has one. -/
theorem resolve_eq_resolved (hexpand : path.expand = .ok whole) (h : path.resolve = .ok key) :
    key = whole.resolved := by
  obtain ⟨other, hother, -, rfl⟩ := resolve_eq_ok_iff.mp h
  cases hexpand.symm.trans hother
  rfl

end Path

end CodeAtlas
