/-
  File:      CodeAtlas/Proofs/Tree/Pruning.lean
  Subject:   Which roots are kept to be read.

  * `Tree.mem_prune_iff`: the roots that are kept are those that hold a file with one of
    the endings. A step either leaves the roots as they are or keeps one more
    (`Tree.pruneStep_cases`).
  * `Tree.prune_error`, `Tree.hasSources_error`: why roots cannot be looked for.
  * `Tree.included_root_kept`: when the files that are included have one of the endings,
    and that then no root is dropped that holds one of them.
-/
import CodeAtlas.Scan
import CodeAtlas.Proofs.Glob.Endings

namespace CodeAtlas

namespace Tree

/-! ## 1. Roots that hold sources -/

section Kept

variable [Platform]

/-- Keeps an expanded root that holds sources, unless it is kept already. -/
def pruneStep (tree : Tree) (endings : List Text) (kept : List Path) (root : Path) :
    Except FileFault (List Path) := do
  if kept.contains root then return kept
  else if ← tree.hasSources endings root then return kept ++ [root]
  else return kept

theorem prune_eq (tree : Tree) (endings : List Text) (roots : List Path) :
    tree.prune endings roots =
      roots.foldlM (fun kept raw => raw.expand >>= tree.pruneStep endings kept) [] := rfl

variable {tree : Tree} {endings : List Text} {root : Path}

/-- **All that a step may do**: it leaves a root out that is kept already or holds no sources, or
keeps one that holds some. -/
theorem pruneStep_cases {kept kept' : List Path}
    (h : tree.pruneStep endings kept root = .ok kept') :
    (kept' = kept ∧ (root ∈ kept ∨ tree.hasSources endings root = .ok false)) ∨
      (kept' = kept ++ [root] ∧ tree.hasSources endings root = .ok true) := by
  unfold pruneStep at h
  split at h
  · rename_i hkept
    cases h
    exact Or.inl ⟨rfl, Or.inl (List.contains_iff_mem.mp hkept)⟩
  · cases hsources : tree.hasSources endings root with
    | error fault =>
      rw [hsources] at h
      cases h
    | ok found =>
      rw [hsources] at h
      cases found with
      | false =>
        cases h
        exact Or.inl ⟨rfl, Or.inr rfl⟩
      | true =>
        cases h
        exact Or.inr ⟨rfl, rfl⟩

/-- A step keeps what holds sources, and nothing else. -/
theorem mem_pruneStep_iff {kept kept' : List Path} {first : Path}
    (h : tree.pruneStep endings kept first = .ok kept')
    (hkept : ∀ root ∈ kept, tree.hasSources endings root = .ok true) :
    root ∈ kept' ↔ root ∈ kept ∨ root = first ∧ tree.hasSources endings root = .ok true := by
  rcases pruneStep_cases h with ⟨rfl, hleft⟩ | ⟨rfl, hsources⟩
  · refine ⟨Or.inl, ?_⟩
    rintro (hm | ⟨rfl, hsources⟩)
    · exact hm
    · rcases hleft with hm | hnone
      · exact hm
      · cases hnone.symm.trans hsources
  · rw [List.mem_append, List.mem_singleton]
    constructor
    · rintro (hm | rfl)
      · exact Or.inl hm
      · exact Or.inr ⟨rfl, hsources⟩
    · rintro (hm | ⟨rfl, -⟩)
      · exact Or.inl hm
      · exact Or.inr rfl

/-- After a step it is known whether its root holds sources. -/
theorem hasSources_of_pruneStep {kept kept' : List Path}
    (h : tree.pruneStep endings kept root = .ok kept')
    (hkept : ∀ root ∈ kept, tree.hasSources endings root = .ok true) :
    ∃ found, tree.hasSources endings root = .ok found := by
  rcases pruneStep_cases h with ⟨-, hm | hnone⟩ | ⟨-, hsome⟩
  · exact ⟨true, hkept root hm⟩
  · exact ⟨false, hnone⟩
  · exact ⟨true, hsome⟩

/-- **What all steps keep**: the roots kept before, and those that hold sources, of which it is
known whether they do. -/
theorem pruneSteps_spec {roots kept candidates : List Path}
    (h : roots.foldlM (fun kept raw => raw.expand >>= tree.pruneStep endings kept) kept =
      .ok candidates)
    (hkept : ∀ root ∈ kept, tree.hasSources endings root = .ok true) :
    (∀ root, root ∈ candidates ↔ root ∈ kept ∨
      (∃ raw ∈ roots, raw.expand = .ok root) ∧ tree.hasSources endings root = .ok true) ∧
    ∀ raw ∈ roots, ∃ root found,
      raw.expand = .ok root ∧ tree.hasSources endings root = .ok found := by
  induction roots generalizing kept with
  | nil =>
    cases h
    simp
  | cons raw roots ih =>
    rw [List.foldlM_cons] at h
    cases hexpand : raw.expand with
    | error fault =>
      rw [hexpand] at h
      cases h
    | ok first =>
      rw [hexpand] at h
      cases hstep : tree.pruneStep endings kept first with
      | error fault =>
        simp only [bind, Except.bind, hstep] at h
        cases h
      | ok more =>
        simp only [bind, Except.bind, hstep] at h
        have hmem {other : Path} : other ∈ more ↔
            other ∈ kept ∨ other = first ∧ tree.hasSources endings other = .ok true :=
          mem_pruneStep_iff hstep hkept
        have hmore : ∀ root ∈ more, tree.hasSources endings root = .ok true := fun root hm =>
          (hmem.mp hm).elim (hkept root) And.right
        obtain ⟨hcandidates, hknown⟩ := ih h hmore
        constructor
        · intro root
          rw [hcandidates root, hmem, or_assoc, ← or_and_right]
          simp [hexpand, eq_comm]
        · rintro other (_ | ⟨_, hother⟩)
          · obtain ⟨found, hfound⟩ := hasSources_of_pruneStep hstep hkept
            exact ⟨first, found, hexpand, hfound⟩
          · exact hknown other hother

/-- **The roots that are kept are those that hold sources.** -/
theorem mem_prune_iff {roots candidates : List Path}
    (h : tree.prune endings roots = .ok candidates) :
    root ∈ candidates ↔
      (∃ raw ∈ roots, raw.expand = .ok root) ∧ tree.hasSources endings root = .ok true := by
  rw [(pruneSteps_spec h fun _ hm => absurd hm List.not_mem_nil).1 root]
  simp

/-- Whether a root holds sources is not known because a name is too long, or because folders are
nested too deep. -/
theorem hasSources_error {fault : FileFault} (h : tree.hasSources endings root = .error fault) :
    fault.isOfSystem = true ∨ fault = .tooDeep ∧ ∃ location, tree.locate root = .ok location ∧
      Platform.stack.folders < tree.searchDepth endings location := by
  unfold hasSources at h
  split at h
  · cases h
    exact Or.inl rfl
  · cases h
  · rename_i location hlocate
    split at h
    · rename_i hdeep
      cases h
      exact Or.inr ⟨rfl, location, hlocate, hdeep⟩
    · cases h

/-- Roots cannot be looked for because one of them has no known home folder, or because it is not
known whether it holds sources. -/
theorem prune_error {roots : List Path} {fault : FileFault}
    (h : tree.prune endings roots = .error fault) :
    ∃ raw ∈ roots, raw.expand = .error fault ∨
      ∃ root, raw.expand = .ok root ∧ tree.hasSources endings root = .error fault := by
  rw [prune_eq] at h
  generalize ([] : List Path) = kept at h
  induction roots generalizing kept with
  | nil => cases h
  | cons raw roots ih =>
    rw [List.foldlM_cons] at h
    cases hexpand : raw.expand with
    | error other =>
      rw [hexpand] at h
      cases h
      exact ⟨raw, List.mem_cons_self, Or.inl hexpand⟩
    | ok root =>
      rw [hexpand] at h
      cases hstep : tree.pruneStep endings kept root with
      | ok kept' =>
        simp only [bind, Except.bind, hstep] at h
        obtain ⟨other, hm, hother⟩ := ih kept' h
        exact ⟨other, List.mem_cons_of_mem raw hm, hother⟩
      | error other =>
        simp only [bind, Except.bind, hstep] at h
        cases h
        refine ⟨raw, List.mem_cons_self, Or.inr ⟨root, hexpand, ?_⟩⟩
        unfold pruneStep at hstep
        split at hstep
        · cases hstep
        · cases hsources : tree.hasSources endings root with
          | error found =>
            rw [hsources] at hstep
            cases hstep
            rfl
          | ok found =>
            rw [hsources] at hstep
            cases found <;> cases hstep

/-- Where it is known whether a root holds sources, it does if a file below folders that are named
like packages has one of the endings. -/
theorem hasSources_of_mem {location : Location} {file : Location × Bytes} {ending : Text}
    {found : Bool} (h : tree.hasSources endings root = .ok found)
    (hlocate : tree.locate root = .ok location) (hfile : file ∈ tree.filesBelow location)
    (hfolders : file.1.dropLast.all isPackageFolder = true) (hending : ending ∈ endings)
    (hsuffix : ending <:+ file.1.getLast?.getD []) : found = true := by
  have hany : (tree.filesBelow location).any (isSource endings) = true := by
    refine List.any_eq_true.mpr ⟨file, hfile, ?_⟩
    unfold isSource
    rw [hfolders, Bool.true_and]
    exact List.any_eq_true.mpr ⟨ending, hending, List.isSuffixOf_iff_suffix.mpr hsuffix⟩
  unfold hasSources at h
  rw [hlocate] at h
  dsimp only at h
  split at h
  · cases h
  · cases h
    exact hany

end Kept

/-! ## 2. Roots that hold included files -/

/-- An end of a path that lacks slashes is an end of its last name. -/
theorem suffix_getLast_of_suffix_join {names : List Text} {part : Text} (hslash : '/' ∉ part)
    (h : part <:+ Text.join ['/'] names) : part <:+ names.getLast?.getD [] := by
  induction names with
  | nil => exact h
  | cons first rest ih =>
    cases rest with
    | nil =>
      rw [Text.join, List.intercalate_singleton] at h
      exact h
    | cons next rest =>
      rw [Text.join, List.intercalate_cons_cons, List.append_assoc] at h
      rw [List.getLast?_cons_cons]
      exact ih (suffix_of_suffix_append_cons hslash h)

/-- **The endings are those of all included files, exactly if every pattern, in its normal form,
ends with one of them.** Then no root is dropped that holds an included file below folders that
are named like packages. -/
theorem included_root_kept [Platform] {includes : List Text} (h : includes ≠ [])
    (catalog : Catalog) :
    (EndingsCover includes catalog ↔ EndingsAgree includes catalog) ∧
    (EndingsAgree includes catalog →
      ∀ (tree : Tree) (roots kept : List Path) (raw root : Path) (location : Location)
        (file : Location × Bytes),
        tree.prune (sourceEndings includes catalog) roots = .ok kept → raw ∈ roots →
        raw.expand = .ok root → tree.locate root = .ok location → file ∈ tree.filesBelow location →
        file.1.dropLast.all isPackageFolder = true →
        (∃ pattern ∈ includes,
          (Glob.ofText pattern).accepted (Text.join ['/'] file.1) = true) →
        root ∈ kept) := by
  refine ⟨covered_iff_endingsAgree h, fun hagree tree roots kept raw root location file hprune
    hraw hexpand hlocate hfile hfolders haccepted => ?_⟩
  obtain ⟨ending, hending, hafter⟩ := hagree.cover h _ haccepted
  have hslash := slash_not_mem_sourceEndings h hending
  have hsuffix := suffix_getLast_of_suffix_join hslash
    (hafter.trans (Text.afterLast_isSuffix '/' _))
  obtain ⟨other, found, hother, hfound⟩ :=
    (pruneSteps_spec hprune fun _ hm => absurd hm List.not_mem_nil).2 raw hraw
  cases hexpand.symm.trans hother
  have hsources := hasSources_of_mem hfound hlocate hfile hfolders hending hsuffix
  exact (mem_prune_iff hprune).mpr ⟨⟨raw, hraw, hexpand⟩, hsources ▸ hfound⟩

section Usual

attribute [local instance] Platform.usual

/-- Two patterns, one with a wildcard before its ending, and a root that holds a file that this one
accepts. -/
theorem included_root_kept_two :
    let tree : Tree := ⟨[(["src".toList], .folder), (["src".toList, "a".toList], .folder),
      (["src".toList, "a".toList, "Makefile.mk".toList], .file [])]⟩
    let includes := ["**/*.java".toList, "**/Make?ile.mk".toList]
    EndingsCover includes Catalog.standard ∧
      ∃ kept, tree.prune (sourceEndings includes Catalog.standard) [Path.ofText "/src"] = .ok kept ∧
        Path.ofText "/src" ∈ kept := by
  intro tree includes
  have hne : includes ≠ [] := List.cons_ne_nil _ _
  have hagree : EndingsAgree includes Catalog.standard := by decide
  have hprune : tree.prune (sourceEndings includes Catalog.standard) [Path.ofText "/src"] =
      .ok [Path.ofText "/src"] := by decide +kernel
  have haccepted : (Glob.ofText "**/Make?ile.mk").accepted "a/Makefile.mk" = true := by cbv
  obtain ⟨hcover, hkept⟩ := included_root_kept hne Catalog.standard
  refine ⟨hcover.mpr hagree, _, hprune, ?_⟩
  exact hkept hagree tree _ _ _ _ ["src".toList] (["a".toList, "Makefile.mk".toList], []) hprune
    List.mem_cons_self rfl (by decide +kernel) (by decide +kernel) (by decide)
    ⟨"**/Make?ile.mk".toList, by decide, haccepted⟩

/-- A final slash means everything below a folder, but it is the ending of the folder's name that
is asked for. The root is dropped, and the file that is included with it. -/
theorem included_root_dropped :
    let tree : Tree := ⟨[(["src".toList], .folder), (["src".toList, "v1.2".toList], .folder),
      (["src".toList, "v1.2".toList, "A.java".toList], .file [])]⟩
    let includes := ["v1.2/".toList]
    (Glob.ofText "v1.2/").accepted "v1.2/A.java" = true ∧
      tree.locate (Path.ofText "/src") = .ok ["src".toList] ∧
      (["v1.2".toList, "A.java".toList], []) ∈ tree.filesBelow ["src".toList] ∧
      isPackageFolder "v1.2" = true ∧
      tree.prune (sourceEndings includes Catalog.standard) [Path.ofText "/src"] = .ok [] ∧
      ¬ EndingsCover includes Catalog.standard := by
  intro tree includes
  have haccepted : (Glob.ofText "v1.2/").accepted "v1.2/A.java" = true := by cbv
  refine ⟨haccepted, by decide +kernel, by decide +kernel, by decide, by decide +kernel,
    fun hcover => ?_⟩
  obtain ⟨ending, hending, hsuffix⟩ :=
    hcover "v1.2/A.java" ⟨"v1.2/", List.mem_cons_self, haccepted⟩
  have hnone : ∀ ending ∈ sourceEndings includes Catalog.standard,
      ¬ ending <:+ Text.afterLast '/' "v1.2/A.java" := by decide
  exact hnone ending hending hsuffix

end Usual

end Tree

end CodeAtlas
