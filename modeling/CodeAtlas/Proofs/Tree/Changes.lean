/-
  File:      CodeAtlas/Proofs/Tree/Changes.lean
  Subject:   What making folders and writing files does to a tree.

  * `Tree.Sound`: the shape of a tree: every location once, and a folder above every
    entry. `Tree.Named`: the names in it are such as files can have.
  * `Tree.Grows`: what stood somewhere still stands there, and as what it was. Paths
    that could be followed can be followed as before (`follow_of_grows`).
  * `Tree.Writable`: something new can stand at a path, or a file there be written over
    (`writable_of_place`).
  * `Tree.Made`: the outcome of making a folder with those above it: folders on the
    way are added, and nothing else is changed.
  * `Tree.publish_spec`: a page that is written. Written once more, it is put into its
    place and makes no folders.
-/
import CodeAtlas.Failure
import CodeAtlas.Proofs.Page.Addresses
import CodeAtlas.Proofs.Pairs
import Mathlib.Data.List.Perm.Subperm

namespace CodeAtlas

theorem eq_ok_of_toOption {ε α : Type} {result : Except ε α} {value : α}
    (h : result.toOption = some value) : result = .ok value := by
  cases result with
  | error fault => cases h
  | ok found =>
    cases h
    rfl

/-! ## 1. Names -/

namespace Path

/-- A name that a file or folder can have. -/
def IsName (segment : Text) : Prop :=
  segment ≠ [] ∧ segment ≠ ['.'] ∧ segment ≠ ['.', '.'] ∧ '/' ∉ segment

instance (segment : Text) : Decidable (IsName segment) := inferInstanceAs (Decidable (_ ∧ _))

/-- A path as it is read from a text: names, and steps up. -/
def Proper (path : Path) : Prop :=
  ∀ segment ∈ path.segments, segment = ['.', '.'] ∨ IsName segment

instance (path : Path) : Decidable path.Proper := inferInstanceAs (Decidable (∀ _ ∈ _, _))

theorem descend_cons {segment : Text} (h : segment ≠ ['.', '.']) (location rest : List Text) :
    descend location (segment :: rest) = descend (location ++ [segment]) rest := by
  rw [descend, beq_eq_false_iff_ne.mpr h]
  rfl

theorem descend_concat {last : Text} (h : last ≠ ['.', '.']) (location above : List Text) :
    descend location (above ++ [last]) = descend location above ++ [last] := by
  rw [descend_append, descend_cons h]
  rfl

theorem mem_descend {location segments : List Text} {segment : Text}
    (h : segment ∈ descend location segments) :
    segment ∈ location ∨ segment ∈ segments ∧ segment ≠ ['.', '.'] := by
  induction segments generalizing location with
  | nil => exact Or.inl h
  | cons first rest ih =>
    by_cases hup : first = ['.', '.']
    · subst hup
      rcases ih h with hm | ⟨hm, hne⟩
      · exact Or.inl (List.mem_of_mem_dropLast hm)
      · exact Or.inr ⟨List.mem_cons_of_mem _ hm, hne⟩
    · rw [descend_cons hup] at h
      rcases ih h with hm | ⟨hm, hne⟩
      · rcases List.mem_append.mp hm with hm | hm
        · exact Or.inl hm
        · rw [List.mem_singleton.mp hm]
          exact Or.inr ⟨List.mem_cons_self, hup⟩
      · exact Or.inr ⟨List.mem_cons_of_mem _ hm, hne⟩

theorem up_not_mem_descend (segments : List Text) : ['.', '.'] ∉ descend [] segments := by
  intro hm
  rcases mem_descend hm with hm | ⟨-, hne⟩
  · exact absurd hm List.not_mem_nil
  · exact hne rfl

theorem parent_child (path : Path) (segment : Text) : (path.child segment).parent = path := by
  unfold child parent
  rw [List.dropLast_concat]

theorem resolved_resolved (path : Path) : path.resolved.resolved = path.resolved := by
  unfold resolved
  rw [descend_eq_append (up_not_mem_descend path.segments), List.nil_append]

theorem Proper.isName_of_mem_descend {path : Path} (h : path.Proper) {above : List Text}
    (habove : above <+: path.segments) {segment : Text} (hm : segment ∈ descend [] above) :
    IsName segment := by
  rcases mem_descend hm with hm | ⟨hm, hne⟩
  · exact absurd hm List.not_mem_nil
  · exact (h segment (habove.subset hm)).resolve_left hne

end Path

namespace Tree

/-! ## 2. What stands where -/

/-- The locations of a tree. -/
def locations (tree : Tree) : List Location := tree.entries.map (·.1)

/-- Whether what stands at a location is a file; nothing if nothing stands there. -/
def kindAt? (tree : Tree) (location : Location) : Option Bool :=
  (tree.entryAt? location).map Entry.isFile

theorem entryAt?_of_ne {tree : Tree} {location : Location} (h : location ≠ []) :
    tree.entryAt? location = tree.entries.lookup location := by
  unfold entryAt?
  rw [if_neg (by simpa using h)]

theorem entryAt?_nil (tree : Tree) : tree.entryAt? [] = some .folder := rfl

theorem kindAt?_eq_folder {tree : Tree} {location : Location} :
    tree.kindAt? location = some false ↔ tree.entryAt? location = some .folder := by
  unfold kindAt?
  rcases tree.entryAt? location with _ | _ | bytes <;> simp [Entry.isFile]

theorem kindAt?_eq_none {tree : Tree} {location : Location} :
    tree.kindAt? location = none ↔ tree.entryAt? location = none := Option.map_eq_none_iff

theorem any_eq_true_iff_mem {tree : Tree} {location : Location} :
    tree.entries.any (·.1 == location) = true ↔ location ∈ tree.locations := by
  simp [locations]

/-- **What stands where after an entry was put in.** -/
theorem entryAt?_put (tree : Tree) {location : Location} (hne : location ≠ []) (entry : Entry)
    (other : Location) :
    (tree.put location entry).entryAt? other =
      if other = location then some entry else tree.entryAt? other := by
  by_cases hroot : other = []
  · subst hroot
    rw [entryAt?_nil, entryAt?_nil, if_neg (Ne.symm hne)]
  rw [entryAt?_of_ne hroot, entryAt?_of_ne hroot]
  unfold put
  by_cases hin : location ∈ tree.locations
  · rw [if_pos (any_eq_true_iff_mem.mpr hin)]
    rw [Pairs.lookup_replaced]
    by_cases hother : other = location
    · have hsome : tree.entries.lookup location ≠ none := fun hnone =>
        Pairs.lookup_eq_none_iff.mp hnone hin
      obtain ⟨old, hold⟩ := Option.ne_none_iff_exists'.mp hsome
      rw [if_pos hother, if_pos hother, hold]
      rfl
    · rw [if_neg hother, if_neg hother]
  · rw [if_neg (mt any_eq_true_iff_mem.mp hin), Pairs.lookup_concat]
    by_cases hother : other = location
    · subst hother
      rw [Pairs.lookup_eq_none_iff.mpr hin]
      simp
    · have hfalse : (other == location) = false := beq_eq_false_iff_ne.mpr hother
      simp [hfalse, hother]

theorem locations_put (tree : Tree) (location : Location) (entry : Entry) :
    (tree.put location entry).locations =
      if location ∈ tree.locations then tree.locations else tree.locations ++ [location] := by
  unfold put
  by_cases hin : location ∈ tree.locations
  · rw [if_pos (any_eq_true_iff_mem.mpr hin), if_pos hin]
    unfold locations
    rw [List.map_map]
    refine List.map_congr_left fun old _ => ?_
    by_cases hkey : old.1 = location
    · simp [hkey]
    · simp [hkey]
  · rw [if_neg (mt any_eq_true_iff_mem.mp hin), if_neg hin]
    simp [locations]

theorem mem_locations_iff {tree : Tree} {location : Location} (hne : location ≠ []) :
    location ∈ tree.locations ↔ tree.entryAt? location ≠ none := by
  rw [entryAt?_of_ne hne]
  exact Iff.trans not_not.symm (not_congr Pairs.lookup_eq_none_iff.symm)

/-! ## 3. Trees that are sound, and trees that grow -/

/-- The shape of a tree: every location once, and a folder above every entry. -/
structure Sound (tree : Tree) : Prop where
  once : tree.locations.Nodup
  above : ∀ location ∈ tree.locations,
    location ≠ [] ∧ tree.entryAt? location.dropLast = some .folder

/-- All names in a tree are such as files can have. -/
def Named (tree : Tree) : Prop := ∀ location ∈ tree.locations, ∀ segment ∈ location, Path.IsName segment

/-- What stood somewhere still stands there, and as what it was: a file or a folder. -/
def Grows (tree later : Tree) : Prop :=
  ∀ location kind, tree.kindAt? location = some kind → later.kindAt? location = some kind

theorem Grows.refl (tree : Tree) : tree.Grows tree := fun _ _ h => h

theorem Grows.trans {tree between later : Tree} (h : tree.Grows between) (h' : between.Grows later) :
    tree.Grows later := fun location kind hkind => h' location kind (h location kind hkind)

theorem Grows.folder {tree later : Tree} (h : tree.Grows later) {location : Location}
    (hfolder : tree.entryAt? location = some .folder) : later.entryAt? location = some .folder :=
  kindAt?_eq_folder.mp (h location false (kindAt?_eq_folder.mpr hfolder))

theorem Sound.above_entry {tree : Tree} (h : tree.Sound) {location : Location} {entry : Entry}
    (hentry : tree.entryAt? location = some entry) :
    tree.entryAt? location.dropLast = some .folder := by
  by_cases hroot : location = []
  · subst hroot
    rfl
  · refine (h.above location ?_).2
    rw [mem_locations_iff hroot, hentry]
    exact Option.some_ne_none entry

/-- **An entry that is put where a file may be.** -/
theorem Sound.put {tree : Tree} (h : tree.Sound) {location : Location} {entry : Entry}
    (hne : location ≠ []) (habove : tree.entryAt? location.dropLast = some .folder)
    (hfolder : tree.entryAt? location ≠ some .folder) : (tree.put location entry).Sound := by
  have hkeep {other : Location} (hother : tree.entryAt? other = some .folder) :
      (tree.put location entry).entryAt? other = some .folder := by
    rw [entryAt?_put tree hne, if_neg]
    · exact hother
    · rintro rfl
      exact hfolder hother
  constructor
  · rw [locations_put]
    split
    · exact h.once
    · rename_i hfresh
      refine List.nodup_append.mpr ⟨h.once, List.nodup_singleton location, ?_⟩
      rintro x hx y hy rfl
      rw [List.mem_singleton.mp hy] at hx
      exact hfresh hx
  · intro other hother
    rw [locations_put] at hother
    have hcases : other ∈ tree.locations ∨ other = location := by
      split at hother
      · exact Or.inl hother
      · exact (List.mem_append.mp hother).imp id List.mem_singleton.mp
    rcases hcases with hother | rfl
    · exact ⟨(h.above other hother).1, hkeep (h.above other hother).2⟩
    · exact ⟨hne, hkeep habove⟩

theorem grows_put {tree : Tree} {location : Location} {entry : Entry} (hne : location ≠ [])
    (hkind : ∀ kind, tree.kindAt? location = some kind → Entry.isFile entry = kind) :
    tree.Grows (tree.put location entry) := by
  intro other kind hother
  unfold kindAt?
  rw [entryAt?_put tree hne]
  by_cases he : other = location
  · subst he
    rw [if_pos rfl, ← hkind kind hother]
    rfl
  · rw [if_neg he]
    exact hother

theorem Grows.mem_locations {tree later : Tree} (h : tree.Grows later) {location : Location}
    (hne : location ≠ []) (hm : location ∈ tree.locations) : location ∈ later.locations := by
  obtain ⟨entry, hentry⟩ := Option.ne_none_iff_exists'.mp ((mem_locations_iff hne).mp hm)
  rw [mem_locations_iff hne]
  intro hnone
  have hkind := h location _ (congrArg (Option.map Entry.isFile) hentry)
  rw [kindAt?_eq_none.mpr hnone] at hkind
  cases hkind

/-- A tree that has grown has no fewer entries. -/
theorem Grows.length_le {tree later : Tree} (h : tree.Grows later) (hsound : tree.Sound) :
    tree.entries.length ≤ later.entries.length := by
  have hsubset : tree.locations ⊆ later.locations := fun location hm =>
    h.mem_locations (hsound.above location hm).1 hm
  simpa [locations] using (List.subperm_of_subset hsound.once hsubset).length_le

/-- Trees with the same locations, in one order, and the same entries there are one tree. -/
theorem Sound.ext {tree other : Tree} (h : tree.Sound) (hlocations : other.locations = tree.locations)
    (hentries : ∀ location, other.entryAt? location = tree.entryAt? location) : other = tree := by
  have hsame : other.entries = tree.entries := by
    refine Pairs.ext_of_lookup hlocations h.once fun location hm => ?_
    rw [← entryAt?_of_ne (h.above location hm).1, ← entryAt?_of_ne (h.above location hm).1]
    exact hentries location
  obtain ⟨entries⟩ := tree
  obtain ⟨others⟩ := other
  exact congrArg Tree.mk hsame

/-! ## 4. Following paths -/

theorem follow_cons {segment : Text} (hup : segment ≠ ['.', '.']) (tree : Tree) (whole : Path)
    (location : Location) (rest : List Text) :
    tree.follow whole location (segment :: rest) =
      if nameLimit < byteSize segment then .error (.nameTooLong whole)
      else
        match tree.kindAt? (location ++ [segment]) with
        | none => .error (.missing whole)
        | some false => tree.follow whole (location ++ [segment]) rest
        | some true =>
          if rest.isEmpty then .ok (location ++ [segment]) else .error (.notFolder whole) := by
  rw [follow, beq_eq_false_iff_ne.mpr hup]
  unfold kindAt?
  rcases tree.entryAt? (location ++ [segment]) with _ | _ | bytes <;> rfl

/-- A step of following a path that succeeds. -/
theorem follow_cons_eq_ok {tree : Tree} {whole : Path} {location final : Location}
    {segment : Text} {rest : List Text} (hup : segment ≠ ['.', '.'])
    (h : tree.follow whole location (segment :: rest) = .ok final) :
    byteSize segment ≤ nameLimit ∧
      (tree.kindAt? (location ++ [segment]) = some false ∧
          tree.follow whole (location ++ [segment]) rest = .ok final ∨
        tree.kindAt? (location ++ [segment]) = some true ∧ rest = [] ∧
          final = location ++ [segment]) := by
  rw [follow_cons hup] at h
  split at h
  · cases h
  · rename_i hlimit
    refine ⟨Nat.le_of_not_lt hlimit, ?_⟩
    split at h
    · cases h
    · rename_i hkind
      exact Or.inl ⟨hkind, h⟩
    · rename_i hkind
      split at h
      · rename_i hrest
        cases h
        exact Or.inr ⟨hkind, List.isEmpty_iff.mp hrest, rfl⟩
      · cases h

theorem follow_eq_descend {tree : Tree} {whole : Path} {location final : Location}
    {segments : List Text} (h : tree.follow whole location segments = .ok final) :
    final = Path.descend location segments := by
  induction segments generalizing location with
  | nil =>
    cases h
    rfl
  | cons segment rest ih =>
    by_cases hup : segment = ['.', '.']
    · subst hup
      exact ih h
    · rw [Path.descend_cons hup]
      rcases (follow_cons_eq_ok hup h).2 with ⟨-, h⟩ | ⟨-, rfl, rfl⟩
      · exact ih h
      · rfl

/-- **A path that can be followed can be followed in every later tree.** -/
theorem follow_of_grows {tree later : Tree} (hgrows : tree.Grows later) {whole other : Path}
    {location final : Location} {segments : List Text}
    (h : tree.follow whole location segments = .ok final) :
    later.follow other location segments = .ok final := by
  induction segments generalizing location with
  | nil => exact h
  | cons segment rest ih =>
    by_cases hup : segment = ['.', '.']
    · subst hup
      exact ih h
    · obtain ⟨hlimit, hstep⟩ := follow_cons_eq_ok hup h
      rw [follow_cons hup, if_neg (Nat.not_lt.mpr hlimit)]
      rcases hstep with ⟨hkind, h⟩ | ⟨hkind, rfl, rfl⟩
      · rw [hgrows _ _ hkind]
        exact ih h
      · rw [hgrows _ _ hkind]
        rfl

/-- Going on from a folder. -/
theorem follow_append {tree : Tree} {whole : Path} {location between : Location}
    {segments rest : List Text} (h : tree.follow whole location segments = .ok between)
    (hfolder : tree.entryAt? between = some .folder) :
    tree.follow whole location (segments ++ rest) = tree.follow whole between rest := by
  induction segments generalizing location with
  | nil =>
    cases h
    rfl
  | cons segment segments ih =>
    by_cases hup : segment = ['.', '.']
    · subst hup
      exact ih h
    · obtain ⟨hlimit, hstep⟩ := follow_cons_eq_ok hup h
      rw [List.cons_append, follow_cons hup, if_neg (Nat.not_lt.mpr hlimit)]
      rcases hstep with ⟨hkind, h⟩ | ⟨hkind, rfl, rfl⟩
      · rw [hkind]
        exact ih h
      · rw [kindAt?_eq_folder.mpr hfolder] at hkind
        cases hkind

/-- What a path leads to is there. -/
theorem Sound.entryAt?_follow {tree : Tree} (hsound : tree.Sound) {whole : Path}
    {location final : Location} {segments : List Text}
    (hfolder : tree.entryAt? location = some .folder)
    (h : tree.follow whole location segments = .ok final) :
    tree.entryAt? final ≠ none := by
  induction segments generalizing location with
  | nil =>
    cases h
    rw [hfolder]
    exact Option.some_ne_none _
  | cons segment rest ih =>
    by_cases hup : segment = ['.', '.']
    · subst hup
      exact ih (hsound.above_entry hfolder) h
    · rcases (follow_cons_eq_ok hup h).2 with ⟨hkind, h⟩ | ⟨hkind, rfl, rfl⟩
      · exact ih (kindAt?_eq_folder.mp hkind) h
      · intro hnone
        rw [kindAt?_eq_none.mpr hnone] at hkind
        cases hkind

/-- Every folder on the way to a folder that is there is there. -/
theorem Sound.follow_isPrefix {tree : Tree} (hsound : tree.Sound) {whole : Path}
    {location : Location} {segments : List Text} (hstart : tree.entryAt? location = some .folder)
    (hend : tree.entryAt? (Path.descend location segments) = some .folder)
    (h : tree.follow whole location segments = .ok (Path.descend location segments))
    {above : List Text} (habove : above <+: segments) :
    tree.entryAt? (Path.descend location above) = some .folder := by
  induction segments generalizing location above with
  | nil =>
    rw [List.prefix_nil.mp habove]
    exact hstart
  | cons segment rest ih =>
    cases above with
    | nil => exact hstart
    | cons first above =>
      obtain ⟨rfl, hbelow⟩ := List.cons_prefix_cons.mp habove
      by_cases hup : first = ['.', '.']
      · subst hup
        exact ih (hsound.above_entry hstart) hend h hbelow
      · rw [Path.descend_cons hup] at hend h ⊢
        rcases (follow_cons_eq_ok hup h).2 with ⟨hkind, h⟩ | ⟨hkind, rfl, -⟩
        · exact ih (kindAt?_eq_folder.mp hkind) hend h hbelow
        · rw [List.prefix_nil.mp hbelow]
          exact hend

/-! ## 5. Places -/

/-- Where something new can stand. -/
theorem place_spec {tree : Tree} (hsound : tree.Sound) {path : Path} {location : Location}
    (h : tree.place path = .ok location) :
    location = Path.descend [] path.segments ∧
      (path.segments = [] ∨ ∃ above last, path.segments = above ++ [last] ∧
        path.check = .ok () ∧ tree.follow path [] above = .ok (Path.descend [] above) ∧
        tree.entryAt? (Path.descend [] above) = some .folder ∧ byteSize last ≤ nameLimit) := by
  unfold place at h
  split at h
  · rename_i hnone
    cases h
    have hnil : path.segments = [] := List.getLast?_eq_none_iff.mp hnone
    rw [hnil]
    exact ⟨rfl, Or.inl rfl⟩
  · rename_i last hlast
    have hsegments : path.segments = path.segments.dropLast ++ [last] :=
      (List.dropLast_append_getLast? last hlast).symm
    generalize path.segments.dropLast = above at h hsegments
    cases hcheck : path.check with
    | error fault =>
      rw [hcheck] at h
      cases h
    | ok checked =>
      cases hfollow : tree.follow path [] above with
      | error fault =>
        rw [hcheck, hfollow] at h
        cases h
      | ok folder =>
        obtain rfl := follow_eq_descend hfollow
        have hthere := hsound.entryAt?_follow rfl hfollow
        rw [hcheck, hfollow] at h
        dsimp only [bind, Except.bind] at h
        cases hentry : tree.entryAt? (Path.descend [] above) with
        | none => exact absurd hentry hthere
        | some entry =>
          rw [hentry] at h
          cases entry with
          | file bytes => cases h
          | folder =>
            change (if nameLimit < byteSize last then Except.error (FileFault.nameTooLong path)
              else .ok (Path.descend (Path.descend [] above) [last])) = _ at h
            split at h
            · cases h
            · rename_i hlimit
              cases h
              refine ⟨?_, Or.inr ⟨above, last, hsegments, rfl, hfollow, hentry,
                Nat.le_of_not_lt hlimit⟩⟩
              rw [hsegments, Path.descend_append]

/-- A file can be written at a path: its folder is there, and nothing but a file stands at its
place. -/
structure Writable (tree : Tree) (path : Path) : Prop where
  check : path.check = .ok ()
  spot : ∃ above last, path.segments = above ++ [last] ∧ last ≠ ['.', '.'] ∧
    byteSize last ≤ nameLimit ∧ tree.follow path [] above = .ok (Path.descend [] above) ∧
    tree.entryAt? (Path.descend [] above) = some .folder
  free : tree.entryAt? (Path.descend [] path.segments) ≠ some .folder

theorem Writable.descend_eq {tree : Tree} {path : Path} (h : tree.Writable path) :
    Path.descend [] path.segments ≠ [] ∧
      (Path.descend [] path.segments).dropLast = Path.descend [] path.parent.segments ∧
      tree.entryAt? (Path.descend [] path.parent.segments) = some .folder := by
  obtain ⟨above, last, hsegments, hup, -, -, hfolder⟩ := h.spot
  have hparent : path.parent.segments = above := by
    show path.segments.dropLast = above
    rw [hsegments, List.dropLast_concat]
  rw [hparent, hsegments, Path.descend_concat hup, List.dropLast_concat]
  exact ⟨List.append_ne_nil_of_right_ne_nil _ (List.cons_ne_nil last []), rfl, hfolder⟩

/-- Where no folder stands, the last segment is a name: a step up would lead to a folder. -/
theorem writable_of_place {tree : Tree} (hsound : tree.Sound) {path : Path} {location : Location}
    (h : tree.place path = .ok location) (hfree : tree.entryAt? location ≠ some .folder) :
    location = Path.descend [] path.segments ∧ tree.Writable path := by
  obtain ⟨rfl, hnil | ⟨above, last, hsegments, hcheck, hfollow, hfolder, hlimit⟩⟩ :=
    place_spec hsound h
  · rw [hnil] at hfree
    exact absurd rfl hfree
  · refine ⟨rfl, hcheck, ⟨above, last, hsegments, ?_, hlimit, hfollow, hfolder⟩, hfree⟩
    rintro rfl
    rw [hsegments, Path.descend_append] at hfree
    exact hfree (hsound.above_entry hfolder)

/-! ## 6. Making folders -/

/-- The outcome of making a folder with those above it: the folders on the way that were missing
are added at the end. -/
structure Made (tree : Tree) (path : Path) (made : Tree) : Prop where
  entries : ∃ added : List Location, made.entries = tree.entries ++ added.map (·, .folder) ∧
    ∀ location ∈ added, tree.entryAt? location = none ∧
      ∃ above, above <+: path.segments ∧ location = Path.descend [] above
  sound : made.Sound
  check : path.segments ≠ [] → path.check = .ok ()
  follow : made.follow path [] path.segments = .ok (Path.descend [] path.segments)
  folder : made.entryAt? (Path.descend [] path.segments) = some .folder

theorem locate_eq_ok_iff {tree : Tree} {path : Path} {location : Location} :
    tree.locate path = .ok location ↔
      path.check = .ok () ∧ tree.follow path [] path.segments = .ok location := by
  unfold locate
  cases path.check with
  | error fault => simp [bind, Except.bind]
  | ok checked => simp [bind, Except.bind]

/-- A folder that is there already. -/
theorem entry?_eq_folder_iff {tree : Tree} {path : Path} :
    tree.entry? path = some .folder ↔
      path.check = .ok () ∧
        tree.follow path [] path.segments = .ok (Path.descend [] path.segments) ∧
        tree.entryAt? (Path.descend [] path.segments) = some .folder := by
  unfold entry?
  cases hlocate : tree.locate path with
  | error fault =>
    simp only [reduceCtorEq, false_iff, not_and]
    intro hcheck hfollow
    rw [locate_eq_ok_iff.mpr ⟨hcheck, hfollow⟩] at hlocate
    cases hlocate
  | ok location =>
    obtain ⟨hcheck, hfollow⟩ := locate_eq_ok_iff.mp hlocate
    obtain rfl := follow_eq_descend hfollow
    exact ⟨fun h => ⟨hcheck, hfollow, h⟩, fun h => h.2.2⟩

theorem put_of_not_mem {tree : Tree} {location : Location} (h : location ∉ tree.locations)
    (entry : Entry) : (tree.put location entry).entries = tree.entries ++ [(location, entry)] := by
  unfold put
  rw [if_neg (mt any_eq_true_iff_mem.mp h)]

theorem makeFolder_of_place {tree : Tree} {path : Path} {location : Location}
    (h : tree.place path = .ok location) :
    tree.makeFolder path =
      match tree.entryAt? location with
      | some _ => .error (.present path)
      | none => .ok (tree.put location .folder) := by
  unfold makeFolder
  rw [h]
  rfl

theorem makeFolder_eq_ok {tree made : Tree} {path : Path} (h : tree.makeFolder path = .ok made) :
    ∃ location, tree.place path = .ok location ∧ tree.entryAt? location = none ∧
      made = tree.put location .folder := by
  cases hplace : tree.place path with
  | error fault =>
    unfold makeFolder at h
    rw [hplace] at h
    cases h
  | ok location =>
    rw [makeFolder_of_place hplace] at h
    cases hentry : tree.entryAt? location with
    | some entry =>
      rw [hentry] at h
      cases h
    | none =>
      rw [hentry] at h
      cases h
      exact ⟨location, rfl, hentry, rfl⟩

/-- A new folder in a folder that is there. -/
theorem made_of_makeFolder {tree made : Tree} (hsound : tree.Sound) {path : Path}
    (h : tree.makeFolder path = .ok made) : tree.Made path made := by
  obtain ⟨location, hplace, hentry, rfl⟩ := makeFolder_eq_ok h
  obtain ⟨rfl, hnew⟩ := writable_of_place hsound hplace (by rw [hentry]; nofun)
  obtain ⟨above, last, hsegments, hup, hlimit, hfollow, hfolder⟩ := hnew.spot
  obtain ⟨hne, hdrop, hparent⟩ := hnew.descend_eq
  generalize hlocation : Path.descend [] path.segments = location at *
  have hgrows : tree.Grows (tree.put location .folder) := by
    refine grows_put hne fun kind hkind => ?_
    rw [kindAt?_eq_none.mpr hentry] at hkind
    cases hkind
  have hput : (tree.put location .folder).entryAt? location = some .folder := by
    rw [entryAt?_put tree hne, if_pos rfl]
  have hfresh : location ∉ tree.locations := fun hm => (mem_locations_iff hne).mp hm hentry
  refine ⟨⟨[location], put_of_not_mem hfresh .folder, fun other hother => ?_⟩,
    hsound.put hne (hdrop ▸ hparent) ?_, fun _ => hnew.check, ?_, hlocation ▸ hput⟩
  · rw [List.mem_singleton.mp hother]
    exact ⟨hentry, path.segments, List.prefix_rfl, hlocation.symm⟩
  · rw [hentry]
    exact nofun
  · rw [hsegments, Path.descend_concat hup] at hlocation ⊢
    rw [follow_append (follow_of_grows hgrows hfollow) (hgrows.folder hfolder), follow_cons hup,
      if_neg (Nat.not_lt.mpr hlimit), hlocation, kindAt?_eq_folder.mpr hput]
    rfl

/-- What is there is not made. -/
theorem makeFolder_ne_ok {tree made : Tree} (hsound : tree.Sound) {path : Path} {entry : Entry}
    (hentry : tree.entryAt? (Path.descend [] path.segments) = some entry) :
    tree.makeFolder path ≠ .ok made := by
  intro h
  obtain ⟨location, hplace, hnone, -⟩ := makeFolder_eq_ok h
  obtain ⟨rfl, -⟩ := place_spec hsound hplace
  exact nomatch hnone.symm.trans hentry

theorem made_of_folder {tree : Tree} (hsound : tree.Sound) {path : Path}
    (h : tree.entry? path = some .folder) : tree.Made path tree := by
  obtain ⟨hcheck, hfollow, hfolder⟩ := entry?_eq_folder_iff.mp h
  exact ⟨⟨[], (List.append_nil _).symm, fun _ h => absurd h List.not_mem_nil⟩, hsound,
    fun _ => hcheck, hfollow, hfolder⟩

theorem made_of_ensureFolder {tree made : Tree} (hsound : tree.Sound) {path : Path}
    (h : tree.ensureFolder path = .ok made) : tree.Made path made := by
  unfold ensureFolder at h
  split at h
  · rename_i hmade
    cases h
    exact made_of_makeFolder hsound hmade
  · split at h
    · rename_i hfolder
      cases h
      exact made_of_folder hsound (beq_iff_eq.mp hfolder)
    · cases h

namespace Made

variable {tree made : Tree} {path : Path} (h : tree.Made path made)
include h

theorem entryAt?_of_some {location : Location} {entry : Entry}
    (hentry : tree.entryAt? location = some entry) : made.entryAt? location = some entry := by
  by_cases hroot : location = []
  · subst hroot
    exact hentry
  · obtain ⟨added, hadded, -⟩ := h.entries
    rw [entryAt?_of_ne hroot] at hentry ⊢
    rw [hadded, List.lookup_append, hentry]
    rfl

theorem grows : tree.Grows made := by
  intro location kind hkind
  obtain ⟨entry, hentry, rfl⟩ := Option.map_eq_some_iff.mp hkind
  exact Option.map_eq_some_iff.mpr ⟨entry, h.entryAt?_of_some hentry, rfl⟩

end Made

theorem made_concat {tree between made : Tree} {path whole : Path}
    (h : tree.Made path between) (h' : between.Made whole made)
    (hway : path.segments <+: whole.segments) : tree.Made whole made := by
  refine ⟨?_, h'.sound, h'.check, h'.follow, h'.folder⟩
  obtain ⟨first, hfirst, hfirstWay⟩ := h.entries
  obtain ⟨second, hsecond, hsecondWay⟩ := h'.entries
  refine ⟨first ++ second, ?_, fun location hm => ?_⟩
  · rw [hsecond, hfirst, List.map_append, List.append_assoc]
  · rcases List.mem_append.mp hm with hm | hm
    · obtain ⟨hnone, above, habove, hlocation⟩ := hfirstWay location hm
      exact ⟨hnone, above, habove.trans hway, hlocation⟩
    · obtain ⟨hnone, hwayTo⟩ := hsecondWay location hm
      refine ⟨?_, hwayTo⟩
      cases hentry : tree.entryAt? location with
      | none => rfl
      | some entry =>
        rw [h.entryAt?_of_some hentry] at hnone
        cases hnone

/-- **Making folders**, where it succeeds: from the last segment up as far as folders are missing,
and then down again. -/
theorem made_of_makeFoldersRev {anchor : Anchor} {reversed : List Text} {tree made : Tree}
    (hsound : tree.Sound) (h : makeFoldersRev anchor reversed tree = (made, .ok ())) :
    tree.Made ⟨anchor, reversed.reverse⟩ made := by
  induction reversed generalizing tree made with
  | nil =>
    cases h
    exact ⟨⟨[], (List.append_nil _).symm, fun _ h => absurd h List.not_mem_nil⟩, hsound,
      fun hne => absurd rfl hne, rfl, rfl⟩
  | cons segment above ih =>
    simp only [makeFoldersRev] at h
    split at h
    · rename_i hmade
      cases h
      exact made_of_ensureFolder hsound hmade
    · rcases habove : makeFoldersRev anchor above tree with ⟨between, fault | done⟩
      · rw [habove] at h
        cases h
      · have hbetween := ih hsound habove
        rw [habove] at h
        simp only at h
        split at h
        · rename_i hmade
          cases h
          refine made_concat hbetween (made_of_ensureFolder hbetween.sound hmade) ?_
          rw [List.reverse_cons]
          exact List.prefix_append _ _
        · cases h
    · cases h

theorem made_of_makeFolders [Platform] {tree made : Tree} (hsound : tree.Sound) {path : Path}
    (h : tree.makeFolders path = (made, .ok ())) : tree.Made path made := by
  unfold makeFolders at h
  split at h
  · cases h
  · have hmade := made_of_makeFoldersRev hsound h
    rw [List.reverse_reverse] at hmade
    exact hmade

/-- Folders that were made before a fault stay, and what was there stays too. -/
theorem grows_makeFoldersRev (anchor : Anchor) (reversed : List Text) {tree : Tree}
    (hsound : tree.Sound) :
    (makeFoldersRev anchor reversed tree).1.Sound ∧
      tree.Grows (makeFoldersRev anchor reversed tree).1 := by
  induction reversed with
  | nil => exact ⟨hsound, .refl tree⟩
  | cons segment above ih =>
    unfold makeFoldersRev
    dsimp only
    split
    · rename_i hmade
      have hmade := made_of_ensureFolder hsound hmade
      exact ⟨hmade.sound, hmade.grows⟩
    · rcases habove : makeFoldersRev anchor above tree with ⟨between, fault | done⟩
      · rw [habove] at ih
        exact ih
      · rw [habove] at ih
        dsimp only at ih ⊢
        split
        · rename_i hmade
          have hmade := made_of_ensureFolder ih.1 hmade
          exact ⟨hmade.sound, ih.2.trans hmade.grows⟩
        · exact ih
    · exact ⟨hsound, .refl tree⟩

theorem grows_makeFolders [Platform] {tree : Tree} (hsound : tree.Sound) (path : Path) :
    (tree.makeFolders path).1.Sound ∧ tree.Grows (tree.makeFolders path).1 := by
  unfold makeFolders
  split
  · exact ⟨hsound, .refl tree⟩
  · exact grows_makeFoldersRev path.anchor path.segments.reverse hsound

/-- A folder that was made is not made again. -/
theorem Made.again [Platform] {tree made later : Tree} {path : Path} (h : tree.Made path made)
    (hsound : later.Sound) (hgrows : made.Grows later) :
    later.makeFolders path = (later, .ok ()) := by
  have hfolder := hgrows.folder h.folder
  unfold makeFolders
  cases hreversed : path.segments.reverse with
  | nil => rw [if_neg (by simp [missingRev]), makeFoldersRev]
  | cons segment above =>
    have hpath : (⟨path.anchor, (segment :: above).reverse⟩ : Path) = path := by
      rw [← hreversed, List.reverse_reverse]
    have hne : path.segments ≠ [] := by
      intro hnil
      rw [hnil] at hreversed
      cases hreversed
    have hentry : later.entry? path = some .folder :=
      entry?_eq_folder_iff.mpr ⟨h.check hne, follow_of_grows hgrows h.follow, hfolder⟩
    have hensure : later.ensureFolder path = .ok later := by
      unfold ensureFolder
      split
      · rename_i other hother
        exact absurd hother (makeFolder_ne_ok hsound hfolder)
      · rw [if_pos (beq_iff_eq.mpr hentry)]
    unfold missingRev makeFoldersRev
    simp only [hpath, hensure]
    exact if_neg (Nat.not_lt_zero _)

/-- A folder that was made is there in every later tree. -/
theorem Made.of_grows {tree made later : Tree} {path : Path} (h : tree.Made path made)
    (hsound : later.Sound) (hgrows : made.Grows later) : later.Made path later :=
  ⟨⟨[], (List.append_nil _).symm, fun _ h => absurd h List.not_mem_nil⟩, hsound, h.check,
    follow_of_grows hgrows h.follow, hgrows.folder h.folder⟩

/-! ## 7. Writing files -/

theorem write_of_place {tree : Tree} {path : Path} {location : Location}
    (h : tree.place path = .ok location) (bytes : Bytes) :
    tree.write path bytes =
      match tree.entryAt? location with
      | some .folder => .error (.isFolder path)
      | _ => .ok (tree.put location (.file bytes)) := by
  unfold write
  rw [h]
  rfl

theorem write_eq_ok {tree written : Tree} {path : Path} {bytes : Bytes}
    (h : tree.write path bytes = .ok written) :
    ∃ location, tree.place path = .ok location ∧ tree.entryAt? location ≠ some .folder ∧
      written = tree.put location (.file bytes) := by
  cases hplace : tree.place path with
  | error fault =>
    unfold write at h
    rw [hplace] at h
    cases h
  | ok location =>
    rw [write_of_place hplace] at h
    split at h
    · cases h
    · rename_i hfree
      cases h
      exact ⟨location, rfl, hfree, rfl⟩

theorem write_eq_ok_iff {tree written : Tree} (hsound : tree.Sound) {path : Path} {bytes : Bytes} :
    tree.write path bytes = .ok written ↔
      tree.Writable path ∧ written = tree.put (Path.descend [] path.segments) (.file bytes) := by
  constructor
  · intro h
    obtain ⟨location, hplace, hfree, rfl⟩ := write_eq_ok h
    obtain ⟨rfl, hwritable⟩ := writable_of_place hsound hplace hfree
    exact ⟨hwritable, rfl⟩
  · rintro ⟨⟨hcheck, ⟨above, last, hsegments, hup, hlimit, hfollow, hfolder⟩, hfree⟩, rfl⟩
    have hplace : tree.place path = .ok (Path.descend [] path.segments) := by
      unfold place
      have hlast : path.segments.getLast? = some last := by rw [hsegments, List.getLast?_concat]
      have hdrop : path.segments.dropLast = above := by rw [hsegments, List.dropLast_concat]
      rw [hlast]
      simp only [hdrop, hcheck, hfollow, bind, Except.bind, hfolder,
        if_neg (Nat.not_lt.mpr hlimit)]
      rw [hsegments, Path.descend_append]
    rw [write_of_place hplace]
    rcases hentry : tree.entryAt? (Path.descend [] path.segments) with _ | _ | old
    · rfl
    · exact absurd hentry hfree
    · rfl

/-- In a later tree a file can be written again, unless a folder has taken its place. -/
theorem Writable.of_grows {tree later : Tree} {path : Path} (h : tree.Writable path)
    (hgrows : tree.Grows later)
    (hfree : later.entryAt? (Path.descend [] path.segments) ≠ some .folder) :
    later.Writable path := by
  obtain ⟨above, last, hsegments, hup, hlimit, hfollow, hfolder⟩ := h.spot
  exact ⟨h.check, ⟨above, last, hsegments, hup, hlimit, follow_of_grows hgrows hfollow,
    hgrows.folder hfolder⟩, hfree⟩

theorem Sound.put_file {tree : Tree} (hsound : tree.Sound) {path : Path}
    (h : tree.Writable path) (bytes : Bytes) :
    (tree.put (Path.descend [] path.segments) (.file bytes)).Sound := by
  obtain ⟨hne, hdrop, hfolder⟩ := h.descend_eq
  refine hsound.put hne ?_ h.free
  rw [hdrop]
  exact hfolder

theorem Writable.grows_put {tree : Tree} {path : Path} (h : tree.Writable path) (bytes : Bytes) :
    tree.Grows (tree.put (Path.descend [] path.segments) (.file bytes)) := by
  refine Tree.grows_put h.descend_eq.1 fun kind hkind => ?_
  cases kind with
  | true => rfl
  | false => exact absurd (kindAt?_eq_folder.mp hkind) h.free

/-- A file that was written is written again by the same bytes. -/
theorem write_again {tree later : Tree} {path : Path} (h : tree.Writable path) (bytes : Bytes)
    (hsound : later.Sound)
    (hgrows : (tree.put (Path.descend [] path.segments) (.file bytes)).Grows later) :
    later.write path bytes = .ok (later.put (Path.descend [] path.segments) (.file bytes)) := by
  refine (write_eq_ok_iff hsound).mpr ⟨?_, rfl⟩
  refine h.of_grows ((h.grows_put bytes).trans hgrows) fun hfolder => ?_
  have hfile : (tree.put (Path.descend [] path.segments) (.file bytes)).kindAt?
      (Path.descend [] path.segments) = some true := by
    unfold kindAt?
    rw [entryAt?_put tree h.descend_eq.1, if_pos rfl]
    rfl
  have hkind := hgrows _ _ hfile
  rw [kindAt?_eq_folder.mpr hfolder] at hkind
  cases hkind

/-- A text that is written is written as the same bytes in every tree. -/
theorem writeText_spec [Platform] {tree written : Tree} {path : Path} {encoding text : Text}
    (h : tree.writeText path encoding text = (written, .ok ())) :
    ∃ bytes, tree.write path bytes = .ok written ∧
      ∀ later result : Tree, later.write path bytes = .ok result →
        later.writeText path encoding text = (result, .ok ()) := by
  unfold writeText at h
  split at h
  · cases h
  · rename_i bytes hfit hbytes
    split at h
    · rename_i result hwrite
      cases h
      refine ⟨bytes, hwrite, fun later result hlater => ?_⟩
      unfold writeText
      rw [hfit, hbytes]
      simp only [hlater]
    · cases h
  · split at h
    · cases h
    · cases h

/-- **Publishing a page**, where it succeeds: the folders above it are made, and it is put into
its place. In any later tree the page is put into its place again, and no folders are made. -/
theorem publish_spec [Platform] {tree written : Tree} (hsound : tree.Sound) {path : Path}
    {encoding text : Text} (h : tree.publish path encoding text = (written, .ok ())) :
    ∃ made bytes, tree.Made path.parent made ∧ made.Writable path ∧
      written = made.put (Path.descend [] path.segments) (.file bytes) ∧
      ∀ later : Tree, later.Sound → written.Grows later →
        later.publish path encoding text =
          (later.put (Path.descend [] path.segments) (.file bytes), .ok ()) := by
  unfold publish at h
  rcases hfolders : tree.makeFolders path.parent with ⟨made, fault | done⟩
  · rw [hfolders] at h
    cases h
  · have hmade := made_of_makeFolders hsound hfolders
    rw [hfolders] at h
    simp only at h
    rcases htext : made.writeText path encoding text with ⟨result, fault | done⟩
    · rw [htext] at h
      cases h
    · rw [htext] at h
      cases h
      obtain ⟨bytes, hwrite, hlaterText⟩ := writeText_spec htext
      obtain ⟨hwritable, rfl⟩ := (write_eq_ok_iff hmade.sound).mp hwrite
      refine ⟨made, bytes, hmade, hwritable, rfl, fun later hlater hgrows => ?_⟩
      have hfoldersAgain := hmade.again hlater ((hwritable.grows_put bytes).trans hgrows)
      have htextAgain := hlaterText later _ (write_again hwritable bytes hlater hgrows)
      unfold publish
      simp only [hfoldersAgain, htextAgain]

/-- The pages of a run have names as files have them, as far as their paths do. -/
theorem Named.publish {tree made : Tree} (h : tree.Named) {path : Path} (hpath : path.Proper)
    (hmade : tree.Made path.parent made) (bytes : Bytes) :
    (made.put (Path.descend [] path.segments) (.file bytes)).Named := by
  have hnamed : made.Named := by
    intro location hm segment hsegment
    obtain ⟨added, hadded, hway⟩ := hmade.entries
    unfold locations at hm
    rw [hadded, List.map_append, List.map_map] at hm
    rcases List.mem_append.mp hm with hm | hm
    · exact h location hm segment hsegment
    · obtain ⟨other, hother, rfl⟩ := List.mem_map.mp hm
      obtain ⟨-, above, habove, rfl⟩ := hway other hother
      exact hpath.isName_of_mem_descend (habove.trans (List.dropLast_prefix _)) hsegment
  intro location hm segment hsegment
  rw [locations_put] at hm
  split at hm
  · exact hnamed location hm segment hsegment
  · rcases List.mem_append.mp hm with hm | hm
    · exact hnamed location hm segment hsegment
    · rw [List.mem_singleton.mp hm] at hsegment
      exact hpath.isName_of_mem_descend List.prefix_rfl hsegment

end Tree

end CodeAtlas
