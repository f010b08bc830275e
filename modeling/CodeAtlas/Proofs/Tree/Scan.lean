/-
  File:      CodeAtlas/Proofs/Tree/Scan.lean
  Subject:   What a scan of a root gives.

  * `Tree.perm_walk`: going from folder to folder meets the files that the list of all
    entries has.
  * `Tree.mem_pathsBelow`, `Tree.nodup_pathsBelow`: the relative paths of files that lie
    in no version control folder, each of them once. Names hold no slashes, so that two
    files never have the same path.
  * `Tree.scan_eq_of_perm`: where entries are kept does not matter.
  * `Tree.scan_exact`: a scan gives exactly the files that it should, in ascending
    order, whatever the order in which the file system lists them.
-/
import CodeAtlas.Proofs.Glob.Segments
import CodeAtlas.Proofs.Tree.Walk

namespace CodeAtlas

namespace Tree

variable {tree : Tree}

/-! ## 1. Files below a folder -/

/-- The file of an entry that lies below a folder, with its location from there. -/
def fileBelow? (folder : Location) (item : Location × Entry) : Option (Location × Bytes) :=
  match item.2 with
  | .file bytes =>
    if folder.isPrefixOf item.1 && folder.length < item.1.length then
      some (item.1.drop folder.length, bytes)
    else none
  | .folder => none

theorem filesBelow_eq (tree : Tree) (folder : Location) :
    tree.filesBelow folder = tree.entries.filterMap (fileBelow? folder) := rfl

theorem fileBelow?_eq_some {folder : Location} {item : Location × Entry}
    {file : Location × Bytes} :
    fileBelow? folder item = some file ↔ file.1 ≠ [] ∧ item = (folder ++ file.1, .file file.2) := by
  obtain ⟨location, entry⟩ := item
  constructor
  · intro h
    cases entry with
    | folder => exact nomatch h
    | file bytes =>
      simp only [fileBelow?] at h
      split_ifs at h with hbelow
      cases h
      rw [Bool.and_eq_true, List.isPrefixOf_iff_prefix, decide_eq_true_eq] at hbelow
      obtain ⟨⟨names, rfl⟩, hlength⟩ := hbelow
      rw [List.length_append] at hlength
      have hpos : 0 < names.length := by omega
      rw [List.drop_left]
      exact ⟨List.ne_nil_of_length_pos hpos, rfl⟩
  · rintro ⟨hne, e⟩
    cases e
    simp [fileBelow?, hne]

theorem mem_filesBelow {folder names : Location} {bytes : Bytes} :
    (names, bytes) ∈ tree.filesBelow folder ↔
      names ≠ [] ∧ (folder ++ names, .file bytes) ∈ tree.entries := by
  rw [filesBelow_eq, List.mem_filterMap]
  constructor
  · rintro ⟨item, hmem, h⟩
    obtain ⟨hne, rfl⟩ := fileBelow?_eq_some.mp h
    exact ⟨hne, hmem⟩
  · rintro ⟨hne, hmem⟩
    exact ⟨_, hmem, fileBelow?_eq_some.mpr ⟨hne, rfl⟩⟩

theorem nodup_filesBelow (h : tree.Sound) (folder : Location) :
    ((tree.filesBelow folder).map (·.1)).Nodup := by
  rw [filesBelow_eq, List.Nodup, List.pairwise_map, List.pairwise_filterMap]
  refine (List.pairwise_map.mp h.once).imp fun hne file hfile other hother e => hne ?_
  rw [(fileBelow?_eq_some.mp hfile).2, (fileBelow?_eq_some.mp hother).2, e]

/-- **The walk meets what the list of all entries has.** -/
theorem perm_walk (h : tree.Sound) (listing : tree.Listing) (folder : Location) :
    ((tree.walk listing folder).map (Text.join ['/'])).Perm (tree.pathsBelow folder) := by
  have hperm : (tree.walk listing folder).Perm
      (((tree.filesBelow folder).filter (!inVersionFolder ·.1)).map (·.1)) := by
    refine (List.perm_ext_iff_of_nodup (nodup_walk h listing folder) ?_).mpr fun names => ?_
    · exact (nodup_filesBelow h folder).sublist (List.filter_sublist.map _)
    · rw [mem_walk h]
      constructor
      · rintro ⟨hne, hversion, bytes, hmem⟩
        have hfile : (names, bytes) ∈ tree.filesBelow folder := mem_filesBelow.mpr ⟨hne, hmem⟩
        exact List.mem_map_of_mem (List.mem_filter.mpr ⟨hfile, by simp [hversion]⟩)
      · intro hmem
        obtain ⟨⟨found, bytes⟩, hfile, rfl⟩ := List.mem_map.mp hmem
        obtain ⟨hbelow, hversion⟩ := List.mem_filter.mp hfile
        obtain ⟨hne, hentry⟩ := mem_filesBelow.mp hbelow
        exact ⟨hne, by simpa using hversion, bytes, hentry⟩
  have hmap := hperm.map (Text.join ['/'])
  rwa [List.map_map] at hmap

/-! ## 2. Their paths -/

theorem join_injective {names others : List Text} (hnames : ∀ name ∈ names, '/' ∉ name)
    (hothers : ∀ name ∈ others, '/' ∉ name) (hne : names ≠ []) (hne' : others ≠ [])
    (h : Text.join ['/'] names = Text.join ['/'] others) : names = others := by
  unfold Text.join at h
  rw [← List.splitOn_intercalate '/' hnames hne, h, List.splitOn_intercalate '/' hothers hne']

theorem mem_pathsBelow (h : tree.Sound) {folder : Location}
    (hfolder : tree.entryAt? folder = some .folder) {path : Text} :
    path ∈ tree.pathsBelow folder ↔
      ∃ names bytes, tree.entryAt? (folder ++ names) = some (.file bytes) ∧
        path = Text.join ['/'] names ∧ ∀ name ∈ names.dropLast, name ∉ versionFolders := by
  unfold pathsBelow
  constructor
  · intro hmem
    obtain ⟨⟨names, bytes⟩, hfile, rfl⟩ := List.mem_map.mp hmem
    obtain ⟨hbelow, hversion⟩ := List.mem_filter.mp hfile
    obtain ⟨hne, hentry⟩ := mem_filesBelow.mp hbelow
    rw [mem_entries h (List.append_ne_nil_of_right_ne_nil folder hne)] at hentry
    exact ⟨names, bytes, hentry, rfl, by simpa [inVersionFolder] using hversion⟩
  · rintro ⟨names, bytes, hentry, rfl, hversion⟩
    have hne : names ≠ [] := by
      rintro rfl
      rw [List.append_nil, hfolder] at hentry
      cases hentry
    rw [← mem_entries h (List.append_ne_nil_of_right_ne_nil folder hne)] at hentry
    have hbelow : (names, bytes) ∈ tree.filesBelow folder := mem_filesBelow.mpr ⟨hne, hentry⟩
    have hkept : inVersionFolder names = false := by simpa [inVersionFolder] using hversion
    exact List.mem_map_of_mem (List.mem_filter.mpr ⟨hbelow, by simp [hkept]⟩)

theorem nodup_pathsBelow (h : tree.Sound) (hnamed : tree.Named) (folder : Location) :
    (tree.pathsBelow folder).Nodup := by
  have hnames : ∀ file ∈ tree.filesBelow folder, file.1 ≠ [] ∧ ∀ name ∈ file.1, '/' ∉ name := by
    intro file hfile
    obtain ⟨hne, hentry⟩ := mem_filesBelow.mp hfile
    refine ⟨hne, fun name hname => ?_⟩
    exact (hnamed _ (List.mem_map_of_mem hentry) name (List.mem_append_right folder hname)).2.2.2
  have hnodup := nodup_filesBelow h folder
  rw [List.Nodup, List.pairwise_map] at hnodup
  unfold pathsBelow
  rw [List.Nodup, List.pairwise_map]
  refine (hnodup.filter _).imp_of_mem fun hfile hother hne e => hne ?_
  obtain ⟨hfirst, hslash⟩ := hnames _ (List.mem_of_mem_filter hfile)
  obtain ⟨hsecond, hslash'⟩ := hnames _ (List.mem_of_mem_filter hother)
  exact join_injective hslash hslash' hfirst hsecond e

/-! ## 3. Scanning -/

/-- Where entries are kept does not matter. -/
theorem entryAt?_eq_of_perm (h : tree.Sound) {other : Tree}
    (hperm : other.entries.Perm tree.entries) (location : Location) :
    other.entryAt? location = tree.entryAt? location := by
  by_cases hroot : location = []
  · rw [hroot, entryAt?_nil, entryAt?_nil]
  · have hother : (other.entries.map (·.1)).Nodup := (hperm.map _).nodup_iff.mpr h.once
    rw [entryAt?_of_ne hroot, entryAt?_of_ne hroot]
    refine Option.ext fun entry => ?_
    constructor
    · intro hentry
      exact Pairs.lookup_eq_some_of_mem h.once (hperm.mem_iff.mp (Pairs.mem_of_lookup hentry))
    · intro hentry
      exact Pairs.lookup_eq_some_of_mem hother (hperm.mem_iff.mpr (Pairs.mem_of_lookup hentry))

theorem follow_congr {other : Tree}
    (h : ∀ location, other.entryAt? location = tree.entryAt? location) (whole : Path)
    (location : Location) (segments : List Text) :
    other.follow whole location segments = tree.follow whole location segments := by
  induction segments generalizing location with
  | nil => rfl
  | cons segment rest ih =>
    unfold follow
    rw [h]
    simp only [ih]

section Scan

variable [Platform]

theorem scan_of_folder {raw root : Path} (hexpand : raw.expand = .ok root) {location : Location}
    (hroot : tree.locate root = .ok location) (hfolder : tree.entryAt? location = some .folder)
    (selection : Selection) :
    tree.scan selection raw =
      .ok (Text.sorted ((tree.pathsBelow location).filter selection.selects)) := by
  unfold scan
  simp [hexpand, hroot, hfolder, Except.mapError, bind, Except.bind]

/-- One file needs no sorting. -/
theorem scan_of_single {raw root : Path} (hexpand : raw.expand = .ok root) {location : Location}
    (hroot : tree.locate root = .ok location) (hfolder : tree.entryAt? location = some .folder)
    {selection : Selection} {path : Text}
    (hsingle : (tree.pathsBelow location).filter selection.selects = [path]) :
    tree.scan selection raw = .ok [path] := by
  rw [scan_of_folder hexpand hroot hfolder, hsingle]
  exact congrArg Except.ok (List.mergeSort_singleton path)

/-- **What a scan that succeeds has found.** -/
theorem scan_eq_ok_iff {selection : Selection} {raw : Path} {paths : List Text} :
    tree.scan selection raw = .ok paths ↔ ∃ root location, raw.expand = .ok root ∧
      tree.locate root = .ok location ∧ tree.entryAt? location = some .folder ∧
      paths = Text.sorted ((tree.pathsBelow location).filter selection.selects) := by
  constructor
  · intro h
    unfold scan at h
    cases hexpand : raw.expand with
    | error fault =>
      rw [hexpand] at h
      cases h
    | ok root =>
      simp only [hexpand, Except.mapError, bind, Except.bind] at h
      split at h
      · cases h
      · cases h
      · rename_i location hroot
        split at h
        · rename_i hfolder
          cases h
          exact ⟨root, location, rfl, hroot, beq_iff_eq.mp hfolder, rfl⟩
        · cases h
  · rintro ⟨root, location, hexpand, hroot, hfolder, rfl⟩
    exact scan_of_folder hexpand hroot hfolder selection

/-- A scan fails because a home folder is not known, or because there is no such folder. -/
theorem scan_error {selection : Selection} {raw : Path} {failure : Failure}
    (h : tree.scan selection raw = .error failure) :
    (∃ fault, raw.expand = .error fault ∧ failure = .file fault) ∨ failure.isContained = true := by
  unfold scan at h
  cases hexpand : raw.expand with
  | error fault =>
    rw [hexpand] at h
    cases h
    exact Or.inl ⟨fault, rfl, rfl⟩
  | ok root =>
    simp only [hexpand, Except.mapError, bind, Except.bind] at h
    refine Or.inr ?_
    split at h
    · cases h
      rfl
    · cases h
      rfl
    · split at h <;> cases h
      rfl

/-- **A scan does not depend on where entries are kept.** -/
theorem scan_eq_of_perm (h : tree.Sound) {other : Tree} (hperm : other.entries.Perm tree.entries)
    (selection : Selection) (raw : Path) :
    other.scan selection raw = tree.scan selection raw := by
  have hentry := entryAt?_eq_of_perm h hperm
  have hlocate (root : Path) : other.locate root = tree.locate root := by
    unfold locate
    rw [follow_congr hentry]
  have hpaths (location : Location) :
      (other.pathsBelow location).Perm (tree.pathsBelow location) :=
    ((hperm.filterMap _).filter _).map _
  unfold scan
  simp only [hlocate, hentry, Text.sorted_eq_of_perm ((hpaths _).filter _)]

omit [Platform] in
theorem selects_ofTexts {includes excludes : List Text} {path : Text} :
    (Selection.ofTexts includes excludes true).selects path = true ↔
      (∃ pattern ∈ if includes = [] then ["**".toList] else includes,
        (Glob.ofText pattern).accepted path = true) ∧
      ∀ pattern ∈ excludes ++ standardExcludes, (Glob.ofText pattern).accepted path = false := by
  unfold Selection.selects Selection.ofTexts
  simp only [Bool.and_eq_true, List.any_map, List.any_eq_true, Bool.not_eq_true',
    List.any_eq_false, List.isEmpty_iff, if_true, Function.comp_apply, Bool.not_eq_true]

/-- **A scan gives exactly the files that it should**, in strictly ascending order, whatever the
order in which folders are listed or entries are kept. -/
theorem scan_exact (h : tree.Sound) (hnamed : tree.Named) (includes excludes : List Text)
    {raw root : Path} (hexpand : raw.expand = .ok root) {location : Location}
    (hroot : tree.locate root = .ok location) (hfolder : tree.entryAt? location = some .folder) :
    ∃ paths, tree.scan (.ofTexts includes excludes true) raw = .ok paths ∧
      paths.Pairwise (fun a b => Text.le a b = true ∧ a ≠ b) ∧
      (∀ path, path ∈ paths ↔
        (∃ names bytes, tree.entryAt? (location ++ names) = some (.file bytes) ∧
          path = Text.join ['/'] names ∧ ∀ name ∈ names.dropLast, name ∉ versionFolders) ∧
        (∃ pattern ∈ if includes = [] then ["**".toList] else includes,
          (Glob.ofText pattern).accepted path = true) ∧
        ∀ pattern ∈ excludes ++ standardExcludes, (Glob.ofText pattern).accepted path = false) ∧
      (∀ listing : tree.Listing, paths = Text.sorted
        (((tree.walk listing location).map (Text.join ['/'])).filter
          (Selection.ofTexts includes excludes true).selects)) ∧
      ∀ other : Tree, other.entries.Perm tree.entries →
        other.scan (.ofTexts includes excludes true) raw = .ok paths := by
  refine ⟨_, scan_of_folder hexpand hroot hfolder _, ?_, fun path => ?_, fun listing => ?_, ?_⟩
  · exact Text.pairwise_sorted ((nodup_pathsBelow h hnamed location).filter _)
  · rw [Text.sorted, (List.mergeSort_perm _ _).mem_iff, List.mem_filter, selects_ofTexts,
      mem_pathsBelow h hfolder]
  · exact Text.sorted_eq_of_perm ((perm_walk h listing location).symm.filter _)
  · intro other hperm
    rw [scan_eq_of_perm h hperm, scan_of_folder hexpand hroot hfolder]

end Scan

/-- A source with a backup beside it and an older state under version control. -/
def backedUpTree : Tree where
  entries := [
    (["src".toList], .folder),
    (["src".toList, ".git".toList], .folder),
    (["src".toList, ".git".toList, "A.java".toList], .file []),
    (["src".toList, "A.java~".toList], .file []),
    (["src".toList, "A.java".toList], .file [])]

section Usual

attribute [local instance] Platform.usual

theorem scan_exact_backedUpTree :
    backedUpTree.Sound ∧ backedUpTree.Named ∧
      (Path.ofText "/src".toList).expand = .ok (Path.ofText "/src".toList) ∧
      backedUpTree.locate (Path.ofText "/src".toList) = .ok ["src".toList] ∧
      backedUpTree.entryAt? ["src".toList] = some .folder ∧
      ∃ paths, backedUpTree.scan (.ofTexts [] [] true) (Path.ofText "/src".toList) = .ok paths ∧
        "A.java".toList ∈ paths ∧ "A.java~".toList ∉ paths ∧ ".git/A.java".toList ∉ paths := by
  have hsound : backedUpTree.Sound := ⟨by decide, by decide⟩
  have hnamed : backedUpTree.Named := by
    unfold Named
    decide
  have hexpand : (Path.ofText "/src".toList).expand = .ok (Path.ofText "/src".toList) := by rfl
  have hroot : backedUpTree.locate (Path.ofText "/src".toList) = .ok ["src".toList] := by rfl
  have hfolder : backedUpTree.entryAt? ["src".toList] = some .folder := by decide
  refine ⟨hsound, hnamed, hexpand, hroot, hfolder, ?_⟩
  obtain ⟨paths, hscan, -, hmem, -⟩ := scan_exact hsound hnamed [] [] hexpand hroot hfolder
  refine ⟨paths, hscan, (hmem _).mpr ⟨?_, ?_, ?_⟩, fun h => ?_, fun h => ?_⟩
  · exact ⟨["A.java".toList], [], by decide, by decide, by decide⟩
  · refine ⟨"**".toList, by decide, ?_⟩
    rw [Glob.accepted_eq_segmentsMatch _ (by decide)]
    decide
  · intro pattern hpattern
    rw [Glob.accepted_eq_segmentsMatch _ (by decide)]
    revert pattern
    decide
  · have hexcluded := ((hmem _).mp h).2.2 "**/*~".toList (by decide)
    rw [Glob.accepted_eq_segmentsMatch _ (by decide)] at hexcluded
    revert hexcluded
    decide
  · obtain ⟨⟨names, bytes, hentry, hpath, hversion⟩, -⟩ := (hmem _).mp h
    have hplace : "src".toList :: names ∈ backedUpTree.locations :=
      List.mem_map_of_mem ((mem_entries hsound (List.cons_ne_nil _ _)).mpr hentry)
    have hgit : ∀ place ∈ backedUpTree.locations,
        ".git/A.java".toList = Text.join ['/'] place.tail →
          ".git".toList ∈ place.tail.dropLast := by decide
    exact hversion _ (hgit _ hplace hpath) (by decide)

end Usual

end Tree

end CodeAtlas
