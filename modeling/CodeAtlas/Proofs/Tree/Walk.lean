/-
  File:      CodeAtlas/Proofs/Tree/Walk.lean
  Subject:   Going through a root folder by folder.

  `Tree.scan` takes the files below a root from the list of all entries. A file system
  has no such list: it tells what stands in one folder, in an order of its own, and a
  scan goes from folder to folder. Version control folders are left out before they
  are entered.

  * `Tree.Listing`: what a file system tells of every folder, in any order.
  * `Tree.walk`: the files that are met on the way from folder to folder.
  * `Tree.mem_walk`, `Tree.nodup_walk`: they are the files below the root that lie in
    no version control folder, and each of them is met once.
-/
import CodeAtlas.Scan
import CodeAtlas.Proofs.Order
import CodeAtlas.Proofs.Tree.Beside

namespace CodeAtlas

namespace Tree

variable {tree : Tree}

/-! ## 1. What stands in a folder -/

/-- The name of what stands at a location, if it stands directly in the folder. -/
def nameIn? (folder location : Location) : Option Text :=
  if location.dropLast == folder then location.getLast? else none

theorem nameIn?_eq_some {folder location : Location} {name : Text} :
    nameIn? folder location = some name ↔ location = folder ++ [name] := by
  unfold nameIn?
  constructor
  · intro h
    split_ifs at h with hfolder
    obtain ⟨above, rfl⟩ := List.getLast?_eq_some_iff.mp h
    rw [beq_iff_eq, List.dropLast_concat] at hfolder
    rw [hfolder]
  · rintro rfl
    rw [List.dropLast_concat, if_pos (beq_self_eq_true folder), List.getLast?_concat]

/-- What stands in a folder, by name. -/
def children (tree : Tree) (folder : Location) : List (Text × Entry) :=
  tree.entries.filterMap fun (location, entry) => (nameIn? folder location).map (·, entry)

theorem mem_children {folder : Location} {name : Text} {entry : Entry} :
    (name, entry) ∈ tree.children folder ↔ (folder ++ [name], entry) ∈ tree.entries := by
  unfold children
  rw [List.mem_filterMap]
  constructor
  · rintro ⟨⟨location, other⟩, hmem, h⟩
    obtain ⟨found, hfound, e⟩ := Option.map_eq_some_iff.mp h
    cases e
    rwa [← nameIn?_eq_some.mp hfound]
  · intro h
    have hname : nameIn? folder (folder ++ [name]) = some name := nameIn?_eq_some.mpr rfl
    exact ⟨_, h, by simp [hname]⟩

theorem nodup_children (h : tree.Sound) (folder : Location) :
    ((tree.children folder).map (·.1)).Nodup := by
  have hnames : (tree.children folder).map (·.1) = tree.locations.filterMap (nameIn? folder) := by
    unfold children locations
    rw [List.map_filterMap, List.filterMap_map]
    refine List.filterMap_congr fun entry _ => ?_
    rw [Option.map_map]
    exact Option.map_id'
  rw [hnames]
  refine List.Nodup.filterMap ?_ h.once
  intro location other name hlocation hother
  rw [nameIn?_eq_some.mp hlocation, nameIn?_eq_some.mp hother]

/-- What the file system tells of every folder: all that stands in it, in an order of its own. -/
structure Listing (tree : Tree) where
  names : Location → List (Text × Entry)
  faithful : ∀ folder, (names folder).Perm (tree.children folder)

/-- The names of the files in a listing. -/
def fileNames (found : List (Text × Entry)) : List Text :=
  (found.filter (Entry.isFile ·.2)).map (·.1)

/-- The names of the folders in a listing that are entered, in the order in which they are. -/
def entered (found : List (Text × Entry)) : List Text :=
  Text.sorted ((found.filter fun child =>
    !Entry.isFile child.2 && !versionFolders.contains child.1).map (·.1))

theorem Listing.mem_names (listing : tree.Listing) {folder : Location} {name : Text}
    {entry : Entry} :
    (name, entry) ∈ listing.names folder ↔ (folder ++ [name], entry) ∈ tree.entries :=
  (listing.faithful folder).mem_iff.trans mem_children

theorem mem_fileNames {listing : tree.Listing} {folder : Location} {name : Text} :
    name ∈ fileNames (listing.names folder) ↔
      ∃ bytes, (folder ++ [name], .file bytes) ∈ tree.entries := by
  unfold fileNames
  simp only [List.mem_map, List.mem_filter]
  constructor
  · rintro ⟨⟨found, entry⟩, ⟨hmem, hfile⟩, rfl⟩
    cases entry with
    | folder => exact nomatch hfile
    | file bytes => exact ⟨bytes, listing.mem_names.mp hmem⟩
  · rintro ⟨bytes, hmem⟩
    exact ⟨_, ⟨listing.mem_names.mpr hmem, rfl⟩, rfl⟩

theorem mem_entered {listing : tree.Listing} {folder : Location} {name : Text} :
    name ∈ entered (listing.names folder) ↔
      (folder ++ [name], Entry.folder) ∈ tree.entries ∧ name ∉ versionFolders := by
  unfold entered Text.sorted
  rw [(List.mergeSort_perm _ _).mem_iff]
  simp only [List.mem_map, List.mem_filter, Bool.and_eq_true, Bool.not_eq_true',
    List.contains_eq_mem, decide_eq_false_iff_not]
  constructor
  · rintro ⟨⟨found, entry⟩, ⟨hmem, hfolder, hversion⟩, rfl⟩
    cases entry with
    | folder => exact ⟨listing.mem_names.mp hmem, hversion⟩
    | file bytes => exact nomatch hfolder
  · rintro ⟨hmem, hversion⟩
    exact ⟨_, ⟨listing.mem_names.mpr hmem, rfl, hversion⟩, rfl⟩

/-! ## 2. The walk -/

/-- How many names the locations of the tree are made of. None of them has more. -/
def reach (tree : Tree) : Nat := tree.locations.flatten.length

theorem length_lt_reach {listing : tree.Listing} {folder : Location} {name : Text}
    (h : name ∈ entered (listing.names folder)) : folder.length < tree.reach := by
  have hmem : folder ++ [name] ∈ tree.locations := List.mem_map_of_mem (mem_entered.mp h).1
  have hle : (folder ++ [name]).length ≤ tree.reach :=
    (List.sublist_flatten_of_mem hmem).length_le
  rw [List.length_append, List.length_singleton] at hle
  omega

/-- The files that are met below a folder, as locations from there: first those in the folder
itself, as they are listed, then those below each folder that is entered. -/
def walk (listing : tree.Listing) (folder : Location) : List Location :=
  (fileNames (listing.names folder)).map ([·]) ++
    (entered (listing.names folder)).attach.flatMap fun name =>
      (walk listing (folder ++ [name.1])).map (name.1 :: ·)
termination_by tree.reach - folder.length
decreasing_by
  have hlt := length_lt_reach name.2
  rw [List.length_append, List.length_singleton]
  omega

theorem walk_eq (listing : tree.Listing) (folder : Location) :
    tree.walk listing folder = (fileNames (listing.names folder)).map ([·]) ++
      (entered (listing.names folder)).flatMap fun name =>
        (tree.walk listing (folder ++ [name])).map (name :: ·) := by
  rw [walk]
  congr 1
  exact (List.flatMap_subtype fun _ _ => rfl).trans (by rw [List.unattach_attach])

theorem mem_entries (h : tree.Sound) {location : Location} (hne : location ≠ []) {entry : Entry} :
    (location, entry) ∈ tree.entries ↔ tree.entryAt? location = some entry := by
  rw [entryAt?_of_ne hne]
  exact ⟨fun hmem => Pairs.lookup_eq_some_of_mem h.once hmem, Pairs.mem_of_lookup⟩

/-- Above what is there, folders are. -/
theorem Sound.folder_of_below (h : tree.Sound) {folder names : Location} (hne : names ≠ [])
    {entry : Entry} (hentry : tree.entryAt? (folder ++ names) = some entry) :
    tree.entryAt? folder = some .folder := by
  induction names using List.reverseRecOn generalizing entry with
  | nil => exact absurd rfl hne
  | append_singleton names last ih =>
    have habove := h.above_entry hentry
    rw [← List.append_assoc, List.dropLast_concat] at habove
    by_cases hnil : names = []
    · rwa [hnil, List.append_nil] at habove
    · exact ih hnil habove

theorem inVersionFolder_cons {name : Text} {names : Location} (h : names ≠ []) :
    inVersionFolder (name :: names) = false ↔
      name ∉ versionFolders ∧ inVersionFolder names = false := by
  unfold inVersionFolder
  rw [List.dropLast_cons_of_ne_nil h, List.any_cons, Bool.or_eq_false_iff]
  simp

/-- **The walk meets the files that lie in no version control folder**, and nothing else. -/
theorem mem_walk (h : tree.Sound) (listing : tree.Listing) {folder names : Location} :
    names ∈ tree.walk listing folder ↔ names ≠ [] ∧ inVersionFolder names = false ∧
      ∃ bytes, (folder ++ names, .file bytes) ∈ tree.entries := by
  induction names generalizing folder with
  | nil =>
    rw [walk_eq]
    simp
  | cons name names ih =>
    rw [walk_eq, List.mem_append, List.mem_map, List.mem_flatMap]
    by_cases hnil : names = []
    · subst hnil
      constructor
      · rintro (⟨found, hfile, e⟩ | ⟨found, hfound, hmem⟩)
        · cases e
          exact ⟨List.cons_ne_nil _ _, rfl, mem_fileNames.mp hfile⟩
        · obtain ⟨more, hmore, e⟩ := List.mem_map.mp hmem
          cases e
          exact absurd rfl (ih.mp hmore).1
      · rintro ⟨-, -, hbytes⟩
        exact Or.inl ⟨name, mem_fileNames.mpr hbytes, rfl⟩
    · rw [inVersionFolder_cons hnil]
      constructor
      · rintro (⟨found, hfile, e⟩ | ⟨found, hfound, hmem⟩)
        · exact absurd (List.cons.inj e).2.symm hnil
        · obtain ⟨more, hmore, e⟩ := List.mem_map.mp hmem
          cases e
          obtain ⟨-, hversion, bytes, hbytes⟩ := ih.mp hmore
          rw [List.append_assoc] at hbytes
          exact ⟨List.cons_ne_nil _ _, ⟨(mem_entered.mp hfound).2, hversion⟩, bytes, hbytes⟩
      · rintro ⟨-, ⟨hname, hversion⟩, bytes, hbytes⟩
        have hsplit : folder ++ name :: names = (folder ++ [name]) ++ names := by simp
        rw [hsplit] at hbytes
        have hfolder : (folder ++ [name], Entry.folder) ∈ tree.entries := by
          rw [mem_entries h (by simp)] at hbytes ⊢
          exact h.folder_of_below hnil hbytes
        exact Or.inr ⟨name, mem_entered.mpr ⟨hfolder, hname⟩,
          List.mem_map_of_mem (ih.mpr ⟨hnil, hversion, bytes, hbytes⟩)⟩

theorem nodup_names (h : tree.Sound) (listing : tree.Listing) (folder : Location) :
    ((listing.names folder).map (·.1)).Nodup :=
  ((listing.faithful folder).map _).nodup_iff.mpr (nodup_children h folder)

theorem nodup_fileNames (h : tree.Sound) (listing : tree.Listing) (folder : Location) :
    (fileNames (listing.names folder)).Nodup :=
  (nodup_names h listing folder).sublist (List.filter_sublist.map _)

theorem nodup_entered (h : tree.Sound) (listing : tree.Listing) (folder : Location) :
    (entered (listing.names folder)).Nodup :=
  (List.mergeSort_perm _ _).nodup_iff.mpr
    ((nodup_names h listing folder).sublist (List.filter_sublist.map _))

/-- **No file is met twice.** -/
theorem nodup_walk (h : tree.Sound) (listing : tree.Listing) (folder : Location) :
    (tree.walk listing folder).Nodup := by
  induction hn : tree.reach - folder.length using Nat.strong_induction_on generalizing folder with
  | _ n ih =>
    subst hn
    rw [walk_eq, List.nodup_append]
    refine ⟨?_, ?_, ?_⟩
    · exact (nodup_fileNames h listing folder).map fun _ _ e => (List.cons.inj e).1
    · rw [List.nodup_flatMap]
      refine ⟨fun name hname => ?_, ?_⟩
      · have hlt := length_lt_reach hname
        refine (ih _ ?_ (folder ++ [name]) rfl).map fun _ _ e => (List.cons.inj e).2
        rw [List.length_append, List.length_singleton]
        omega
      · refine (nodup_entered h listing folder).imp fun hne => ?_
        intro names hnames hother
        obtain ⟨_, -, rfl⟩ := List.mem_map.mp hnames
        obtain ⟨_, -, e⟩ := List.mem_map.mp hother
        exact hne (List.cons.inj e).1.symm
    · rintro names hfile other hbelow rfl
      obtain ⟨name, -, rfl⟩ := List.mem_map.mp hfile
      obtain ⟨found, -, hmem⟩ := List.mem_flatMap.mp hbelow
      obtain ⟨more, hmore, e⟩ := List.mem_map.mp hmem
      cases e
      exact ((mem_walk h listing).mp hmore).1 rfl

end Tree

end CodeAtlas
