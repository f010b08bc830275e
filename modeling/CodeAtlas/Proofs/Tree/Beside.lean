/-
  File:      CodeAtlas/Proofs/Tree/Beside.lean
  Subject:   Reading beside the place where files are written.

  A zone is a location at which a run writes: the changes are made at the zone, below
  it, and above it, where folders are made. What lies beside the zone is not changed.
  It can still be read in another way than before: a path may lead there through a
  folder that is new.

  * `Beside`: a location neither contains the zone nor lies in it.
  * `Tree.Around`: a tree that differs from another at the zone only.
  * `Tree.Plain`: where a path passes through something new, it goes on down.
  * `Path.Safe`: such a path leads beside the zone. What it shows is what it showed
    before (`whereabouts_of_safe`), and so for everything that is read there.
  * `Tree.Around.written`: files below the zone are written at the zone only.
-/
import CodeAtlas.Proofs.Tree.Changes
import CodeAtlas.Scan

namespace CodeAtlas

/-! ## 1. Locations -/

/-- A location neither contains the zone nor lies in it. -/
def Beside (zone location : Location) : Prop := ¬ zone <+: location ∧ ¬ location <+: zone

instance (zone location : Location) : Decidable (Beside zone location) :=
  inferInstanceAs (Decidable (_ ∧ _))

/-- What lies below a location beside the zone lies beside the zone. -/
theorem Beside.below {zone location further : Location} (h : Beside zone location)
    (hbelow : location <+: further) : Beside zone further := by
  refine ⟨fun hzone => ?_, fun hzone => h.2 (hbelow.trans hzone)⟩
  exact (List.prefix_or_prefix_of_prefix hzone hbelow).elim h.1 h.2

namespace Tree

variable {zone : Location} {base tree final : Tree}

/-! ## 2. Trees around a zone -/

/-- The entries of a tree beside a zone. -/
def besides (zone : Location) (tree : Tree) : List (Location × Entry) :=
  tree.entries.filter fun entry => decide (Beside zone entry.1)

/-- A tree that has grown from `base` at a zone only. -/
structure Around (base : Tree) (zone : Location) (tree : Tree) : Prop where
  sound : tree.Sound
  grows : base.Grows tree
  besides : tree.besides zone = base.besides zone

theorem Around.refl (zone : Location) (h : base.Sound) : base.Around zone base :=
  ⟨h, .refl base, rfl⟩

theorem entryAt?_of_beside {location : Location} (hne : location ≠ []) (h : Beside zone location)
    (tree : Tree) : tree.entryAt? location = (tree.besides zone).lookup location := by
  unfold besides
  rw [entryAt?_of_ne hne, Pairs.lookup_filter tree.entries (fun key => decide (Beside zone key)),
    if_pos (decide_eq_true h)]

theorem Around.entryAt? (h : base.Around zone tree) {location : Location}
    (hbeside : Beside zone location) : tree.entryAt? location = base.entryAt? location := by
  by_cases hroot : location = []
  · subst hroot
    rfl
  · rw [entryAt?_of_beside hroot hbeside, entryAt?_of_beside hroot hbeside, h.besides]

theorem filesBelow_of_beside {location : Location} (h : Beside zone location) (tree : Tree) :
    tree.filesBelow location = (tree.besides zone).filterMap fun (place, entry) =>
      match entry with
      | .file bytes =>
        if location.isPrefixOf place && location.length < place.length then
          some (place.drop location.length, bytes)
        else none
      | .folder => none := by
  unfold filesBelow besides
  rw [List.filterMap_filter]
  refine List.filterMap_congr fun entry _ => ?_
  obtain ⟨place, content⟩ := entry
  cases content with
  | folder => simp
  | file bytes =>
    by_cases hbeside : Beside zone place
    · simp [hbeside]
    · have hnot : location.isPrefixOf place = false := by
        rw [Bool.eq_false_iff]
        exact fun hbelow => hbeside (h.below (List.isPrefixOf_iff_prefix.mp hbelow))
      simp [hnot, hbeside]

theorem Around.filesBelow (h : base.Around zone tree) {location : Location}
    (hbeside : Beside zone location) : tree.filesBelow location = base.filesBelow location := by
  rw [filesBelow_of_beside hbeside, filesBelow_of_beside hbeside, h.besides]

theorem foldersBelow_of_beside {location : Location} (h : Beside zone location) (tree : Tree)
    (enters : Text → Bool) :
    tree.foldersBelow location enters = (tree.besides zone).filterMap fun (place, entry) =>
      match entry with
      | .folder =>
        if location.isPrefixOf place && (place.drop location.length).all enters then
          some (place.drop location.length)
        else none
      | .file _ => none := by
  unfold foldersBelow besides
  rw [List.filterMap_filter]
  refine List.filterMap_congr fun entry _ => ?_
  obtain ⟨place, content⟩ := entry
  cases content with
  | file bytes => simp
  | folder =>
    by_cases hbeside : Beside zone place
    · simp [hbeside]
    · have hnot : location.isPrefixOf place = false := by
        rw [Bool.eq_false_iff]
        exact fun hbelow => hbeside (h.below (List.isPrefixOf_iff_prefix.mp hbelow))
      simp [hnot, hbeside]

theorem Around.foldersBelow (h : base.Around zone tree) {location : Location}
    (hbeside : Beside zone location) (enters : Text → Bool) :
    tree.foldersBelow location enters = base.foldersBelow location enters := by
  rw [foldersBelow_of_beside hbeside, foldersBelow_of_beside hbeside, h.besides]

theorem Around.listedDepth (h : base.Around zone tree) {location : Location}
    (hbeside : Beside zone location) : tree.listedDepth location = base.listedDepth location := by
  unfold Tree.listedDepth
  rw [h.foldersBelow hbeside]

theorem Around.searchDepth (h : base.Around zone tree) {location : Location}
    (hbeside : Beside zone location) (endings : List Text) :
    tree.searchDepth endings location = base.searchDepth endings location := by
  unfold Tree.searchDepth searched
  rw [h.foldersBelow hbeside, h.filesBelow hbeside]

/-! ## 3. Paths that pass through something new -/

/-- Where a path passes through something that is new in `later`, it goes on with a name, and not
with one that is too long. -/
def Plain (base later : Tree) (location : Location) (segments : List Text) : Prop :=
  ∀ above segment below, segments = above ++ segment :: below →
    base.entryAt? (Path.descend location above) = none →
    later.entryAt? (Path.descend location above) ≠ none →
    segment ≠ ['.', '.'] ∧ byteSize segment ≤ nameLimit

theorem Plain.up {later : Tree} {location : Location} {rest : List Text}
    (h : Plain base later location (['.', '.'] :: rest)) :
    Plain base later location.dropLast rest := by
  intro above segment below hrest
  exact h (['.', '.'] :: above) segment below (congrArg (List.cons ['.', '.']) hrest)

theorem Plain.down {later : Tree} {location : Location} {first : Text} {rest : List Text}
    (hup : first ≠ ['.', '.']) (h : Plain base later location (first :: rest)) :
    Plain base later (location ++ [first]) rest := by
  intro above segment below hrest
  have hfirst := h (first :: above) segment below (congrArg (List.cons first) hrest)
  rw [Path.descend_cons hup] at hfirst
  exact hfirst

theorem Plain.rest {later : Tree} {location : Location} {first rest : List Text}
    (h : Plain base later location (first ++ rest)) :
    Plain base later (Path.descend location first) rest := by
  intro above segment below hrest
  rw [← Path.descend_append]
  refine h (first ++ above) segment below ?_
  rw [hrest, List.append_assoc]

/-- In an earlier tree less is new. -/
theorem Plain.of_grows {between later : Tree} (hgrows : between.Grows later) {location : Location}
    {segments : List Text} (h : Plain base later location segments) :
    Plain base between location segments := by
  intro above segment below hsegments hnone hsome
  refine h above segment below hsegments hnone fun hgone => ?_
  obtain ⟨entry, hentry⟩ := Option.ne_none_iff_exists'.mp hsome
  have hkind : between.kindAt? (Path.descend location above) = some (Entry.isFile entry) := by
    unfold kindAt?
    rw [hentry]
    rfl
  have hlater := hgrows _ _ hkind
  rw [kindAt?_eq_none.mpr hgone] at hlater
  cases hlater

/-- What is looked for at the end of a path. That it leads nowhere is no fault. -/
def sight : Except FileFault Location → Except FileFault (Option Location)
  | .ok location => .ok (some location)
  | .error (.nameTooLong whole) => .error (.nameTooLong whole)
  | .error _ => .ok none

/-- From something new on, a path that leads beside the zone leads nowhere. -/
theorem sight_follow_of_new (hbase : base.Sound) (h : base.Around zone tree) {whole : Path}
    {location : Location} {segments : List Text} (hnone : base.entryAt? location = none)
    (hsome : tree.entryAt? location ≠ none) (hplain : Plain base tree location segments)
    (hbeside : Beside zone (Path.descend location segments)) :
    sight (tree.follow whole location segments) = .ok none := by
  induction segments generalizing location with
  | nil =>
    change Beside zone location at hbeside
    rw [h.entryAt? hbeside] at hsome
    exact absurd hnone hsome
  | cons segment rest ih =>
    obtain ⟨hup, hlimit⟩ := hplain [] segment rest rfl hnone hsome
    have hbelow : base.entryAt? (location ++ [segment]) = none := by
      cases hentry : base.entryAt? (location ++ [segment]) with
      | none => rfl
      | some entry =>
        have habove := hbase.above_entry hentry
        rw [List.dropLast_concat, hnone] at habove
        cases habove
    rw [Path.descend_cons hup] at hbeside
    rw [follow_cons hup, if_neg (Nat.not_lt.mpr hlimit)]
    cases hkind : tree.kindAt? (location ++ [segment]) with
    | none => rfl
    | some kind =>
      have hthere : tree.entryAt? (location ++ [segment]) ≠ none := by
        intro hgone
        rw [kindAt?_eq_none.mpr hgone] at hkind
        cases hkind
      cases kind with
      | false => exact ih hbelow hthere (hplain.down hup) hbeside
      | true =>
        cases rest with
        | nil =>
          change Beside zone (location ++ [segment]) at hbeside
          rw [h.entryAt? hbeside] at hthere
          exact absurd hbelow hthere
        | cons next rest => rfl

/-- **A path that leads beside the zone leads where it led before.** -/
theorem sight_follow (hbase : base.Sound) (h : base.Around zone tree) {whole : Path}
    {location : Location} {segments : List Text}
    (hfolder : base.entryAt? location = some .folder) (hplain : Plain base tree location segments)
    (hbeside : Beside zone (Path.descend location segments)) :
    sight (tree.follow whole location segments) = sight (base.follow whole location segments) := by
  induction segments generalizing location with
  | nil => rfl
  | cons segment rest ih =>
    by_cases hup : segment = ['.', '.']
    · subst hup
      exact ih (hbase.above_entry hfolder) hplain.up hbeside
    · rw [Path.descend_cons hup] at hbeside
      rw [follow_cons hup, follow_cons hup]
      by_cases hlimit : nameLimit < byteSize segment
      · rw [if_pos hlimit, if_pos hlimit]
      · rw [if_neg hlimit, if_neg hlimit]
        cases hkind : base.kindAt? (location ++ [segment]) with
        | some kind =>
          rw [h.grows _ _ hkind]
          cases kind with
          | false => exact ih (kindAt?_eq_folder.mp hkind) (hplain.down hup) hbeside
          | true => rfl
        | none =>
          have hnone := kindAt?_eq_none.mp hkind
          cases hnew : tree.kindAt? (location ++ [segment]) with
          | none => rfl
          | some kind =>
            have hthere : tree.entryAt? (location ++ [segment]) ≠ none := by
              intro hgone
              rw [kindAt?_eq_none.mpr hgone] at hnew
              cases hnew
            cases kind with
            | false => exact sight_follow_of_new hbase h hnone hthere (hplain.down hup) hbeside
            | true =>
              cases rest with
              | nil =>
                change Beside zone (location ++ [segment]) at hbeside
                rw [h.entryAt? hbeside] at hthere
                exact absurd hnone hthere
              | cons next rest => rfl

/-- Above what is there, something is there. -/
theorem Sound.entryAt?_of_isPrefix (hbase : base.Sound) {location above : Location}
    (hthere : base.entryAt? location ≠ none) (habove : above <+: location) :
    base.entryAt? above ≠ none := by
  induction location using List.reverseRecOn with
  | nil =>
    rw [List.prefix_nil.mp habove]
    exact hthere
  | append_singleton location last ih =>
    rcases List.prefix_concat_iff.mp habove with rfl | habove
    · exact hthere
    · refine ih ?_ habove
      obtain ⟨entry, hentry⟩ := Option.ne_none_iff_exists'.mp hthere
      have hfolder := hbase.above_entry hentry
      rw [List.dropLast_concat] at hfolder
      rw [hfolder]
      exact Option.some_ne_none _

/-- What a path leads to, if anything. Of the faults only a name that is too long matters. -/
def whereabouts (tree : Tree) (path : Path) : Except FileFault (Option Location) :=
  sight (tree.locate path)

end Tree

/-! ## 4. Safe paths -/

/-- A path that leads beside the zone, and on down wherever it passes through something that can
be new. -/
structure Path.Safe (zone : Location) (base final : Tree) (path : Path) : Prop where
  beside : Beside zone (Path.descend [] path.segments)
  plain : ∀ tree : Tree, base.Around zone tree → tree.Grows final →
    base.Plain tree [] path.segments

namespace Path

variable {zone : Location} {base final : Tree} {path : Path}

theorem safe_of_plain (hbeside : Beside zone (descend [] path.segments))
    (hplain : base.Plain final [] path.segments) : path.Safe zone base final :=
  ⟨hbeside, fun _ _ hgrows => hplain.of_grows hgrows⟩

/-- Names below a safe path. -/
theorem Safe.append (h : path.Safe zone base final) {names : List Text}
    (hnames : ['.', '.'] ∉ names) {further : Path}
    (hfurther : further.segments = path.segments ++ names) : further.Safe zone base final := by
  have hend : descend [] further.segments = descend [] path.segments ++ names := by
    rw [hfurther, descend_append, descend_eq_append hnames]
  constructor
  · rw [hend]
    exact h.beside.below (List.prefix_append _ _)
  · intro tree haround hgrows above segment below hsegments hnone hsome
    rw [hfurther] at hsegments
    rcases List.append_eq_append_iff.mp hsegments with ⟨more, habove, hmore⟩ | ⟨more, hpath, hmore⟩
    · -- the path has been passed: nothing is new beside the zone
      have hdown : ['.', '.'] ∉ more := fun hm => hnames (by
        rw [hmore]
        exact List.mem_append_left _ hm)
      have hbeside : Beside zone (descend [] above) := by
        rw [habove, descend_append, descend_eq_append hdown]
        exact h.beside.below (List.prefix_append _ _)
      rw [haround.entryAt? hbeside] at hsome
      exact absurd hnone hsome
    · cases more with
      | nil =>
        have hbeside : Beside zone (descend [] above) := by
          rw [List.append_nil] at hpath
          rw [← hpath]
          exact h.beside
        rw [haround.entryAt? hbeside] at hsome
        exact absurd hnone hsome
      | cons first more =>
        obtain ⟨rfl, -⟩ := List.cons.inj hmore
        exact h.plain tree haround hgrows above segment more hpath hnone hsome

/-- The resolved form of a path to something that is there. -/
theorem safe_of_entry (hbase : base.Sound) {location : Location}
    (hpath : path.segments = location) (hup : ['.', '.'] ∉ location)
    (hthere : base.entryAt? location ≠ none) (hbeside : Beside zone location) :
    path.Safe zone base final := by
  subst hpath
  constructor
  · rw [descend_eq_append hup, List.nil_append]
    exact hbeside
  · intro tree haround hgrows above segment below hsegments hnone hsome
    have hdown : ['.', '.'] ∉ above := fun hm => hup (by
      rw [hsegments]
      exact List.mem_append_left _ hm)
    rw [descend_eq_append hdown, List.nil_append] at hnone
    refine absurd hnone (hbase.entryAt?_of_isPrefix hthere ?_)
    rw [hsegments]
    exact List.prefix_append _ _

end Path

/-! ## 5. Reading -/

namespace Tree

variable {zone : Location} {base tree final : Tree} {path : Path}

theorem eq_descend_of_whereabouts {location : Location}
    (h : tree.whereabouts path = .ok (some location)) :
    location = Path.descend [] path.segments := by
  unfold whereabouts at h
  cases hlocate : tree.locate path with
  | error fault =>
    rw [hlocate] at h
    cases fault <;> cases h
  | ok found =>
    rw [hlocate] at h
    cases h
    exact follow_eq_descend (locate_eq_ok_iff.mp hlocate).2

theorem whereabouts_eq_some_iff {location : Location} :
    tree.whereabouts path = .ok (some location) ↔ tree.locate path = .ok location := by
  unfold whereabouts
  cases tree.locate path with
  | ok found => simp [sight]
  | error fault => cases fault <;> simp [sight]

theorem probe_eq (tree : Tree) (path : Path) :
    tree.probe path = (tree.whereabouts path).map (·.bind tree.entryAt?) := by
  unfold probe whereabouts
  cases tree.locate path with
  | ok location => rfl
  | error fault => cases fault <;> rfl

theorem hasSources_eq [Platform] (tree : Tree) (endings : List Text) (root : Path) :
    tree.hasSources endings root = (tree.whereabouts root).bind fun found =>
      match found with
      | none => .ok false
      | some location =>
        if Platform.stack.folders < tree.searchDepth endings location then .error .tooDeep
        else .ok ((tree.filesBelow location).any (isSource endings)) := by
  unfold hasSources whereabouts
  cases tree.locate root with
  | ok location => rfl
  | error fault => cases fault <;> rfl

theorem scan_eq [Platform] (tree : Tree) (selection : Selection) {raw root : Path}
    (hexpand : raw.expand = .ok root) :
    tree.scan selection raw = ((tree.whereabouts root).mapError Failure.file).bind fun found =>
      match found with
      | none => .error (.rootMissing raw)
      | some location =>
        if tree.entryAt? location == some .folder then
          .ok (Text.sorted ((tree.pathsBelow location).filter selection.selects))
        else .error (.rootNotFolder raw) := by
  unfold scan whereabouts
  rw [hexpand]
  simp only [Except.mapError, bind, Except.bind]
  cases tree.locate root with
  | ok location => rfl
  | error fault => cases fault <;> rfl

theorem read_eq_ok_iff {bytes : Bytes} :
    tree.read path = .ok bytes ↔
      ∃ location, tree.whereabouts path = .ok (some location) ∧
        tree.entryAt? location = some (.file bytes) := by
  unfold read whereabouts
  cases tree.locate path with
  | error fault =>
    constructor
    · intro h
      cases h
    · intro h
      obtain ⟨location, hsight, -⟩ := h
      cases fault <;> cases hsight
  | ok location =>
    have hfound : (∃ found, sight (.ok location) = .ok (some found) ∧
        tree.entryAt? found = some (.file bytes)) ↔
          tree.entryAt? location = some (.file bytes) := by
      constructor
      · intro h
        obtain ⟨_, hsight, hfile⟩ := h
        cases hsight
        exact hfile
      · exact fun hfile => ⟨location, rfl, hfile⟩
    rw [hfound]
    dsimp only [bind, Except.bind]
    rcases tree.entryAt? location with _ | _ | content
    · exact ⟨nofun, nofun⟩
    · exact ⟨nofun, nofun⟩
    · rw [Except.ok.injEq, Option.some.injEq, Entry.file.injEq]

section Safe

variable (hbase : base.Sound) (h : base.Around zone tree) (hfinal : tree.Grows final)
  (hsafe : path.Safe zone base final)
include hbase h hfinal hsafe

theorem whereabouts_of_safe : tree.whereabouts path = base.whereabouts path := by
  unfold whereabouts locate
  cases path.check with
  | error fault => rfl
  | ok checked =>
    exact sight_follow hbase h rfl (hsafe.plain tree h hfinal) hsafe.beside

omit hbase h hfinal in
/-- What a safe path leads to stands beside the zone. -/
theorem beside_of_whereabouts {location : Location}
    (hsight : base.whereabouts path = .ok (some location)) : Beside zone location :=
  eq_descend_of_whereabouts hsight ▸ hsafe.beside

theorem locate_of_safe {location : Location} :
    tree.locate path = .ok location ↔ base.locate path = .ok location := by
  rw [← whereabouts_eq_some_iff, ← whereabouts_eq_some_iff, whereabouts_of_safe hbase h hfinal hsafe]

theorem probe_of_safe : tree.probe path = base.probe path := by
  rw [probe_eq, probe_eq, whereabouts_of_safe hbase h hfinal hsafe]
  cases hsight : base.whereabouts path with
  | error fault => rfl
  | ok found =>
    cases found with
    | none => rfl
    | some location =>
      exact congrArg Except.ok (h.entryAt? (beside_of_whereabouts hsafe hsight))

theorem isFolder_of_safe : tree.isFolder path = base.isFolder path := by
  unfold isFolder
  rw [probe_of_safe hbase h hfinal hsafe]

theorem isFile_of_safe : tree.isFile path = base.isFile path := by
  unfold isFile
  rw [probe_of_safe hbase h hfinal hsafe]

theorem hasSources_of_safe [Platform] (endings : List Text) :
    tree.hasSources endings path = base.hasSources endings path := by
  rw [hasSources_eq, hasSources_eq, whereabouts_of_safe hbase h hfinal hsafe]
  cases hsight : base.whereabouts path with
  | error fault => rfl
  | ok found =>
    cases found with
    | none => rfl
    | some location =>
      have hbeside := beside_of_whereabouts hsafe hsight
      simp only [Except.bind, h.filesBelow hbeside, h.searchDepth hbeside]

theorem scan_of_safe [Platform] {raw : Path} (hexpand : raw.expand = .ok path)
    (selection : Selection) : tree.scan selection raw = base.scan selection raw := by
  rw [scan_eq tree selection hexpand, scan_eq base selection hexpand,
    whereabouts_of_safe hbase h hfinal hsafe]
  cases hsight : base.whereabouts path with
  | error fault => rfl
  | ok found =>
    cases found with
    | none => rfl
    | some location =>
      have hbeside := beside_of_whereabouts hsafe hsight
      simp only [Except.mapError, Except.bind, pathsBelow, h.filesBelow hbeside,
        h.entryAt? hbeside]

theorem read_of_safe {bytes : Bytes} :
    tree.read path = .ok bytes ↔ base.read path = .ok bytes := by
  rw [read_eq_ok_iff, read_eq_ok_iff, whereabouts_of_safe hbase h hfinal hsafe]
  refine exists_congr fun location => and_congr_right fun hsight => ?_
  rw [h.entryAt? (beside_of_whereabouts hsafe hsight)]

end Safe

/-! ## 6. Writing in the zone -/

theorem besides_append (zone : Location) {tree made : Tree} {added : List (Location × Entry)}
    (h : made.entries = tree.entries ++ added) (hadded : ∀ entry ∈ added, ¬ Beside zone entry.1) :
    made.besides zone = tree.besides zone := by
  have hnone : added.filter (fun entry => decide (Beside zone entry.1)) = [] := by
    rw [List.filter_eq_nil_iff]
    exact fun entry hm => by simpa using hadded entry hm
  unfold besides
  rw [h, List.filter_append, hnone, List.append_nil]

/-- What is put in the zone is not put beside it. -/
theorem besides_put {location : Location} (h : ¬ Beside zone location) (tree : Tree)
    (entry : Entry) : (tree.put location entry).besides zone = tree.besides zone := by
  by_cases hin : location ∈ tree.locations
  · unfold besides put
    rw [if_pos (any_eq_true_iff_mem.mpr hin), List.filter_map]
    have hsame : tree.entries.filter ((fun entry => decide (Beside zone entry.1)) ∘
        fun old => if old.1 == location then (location, entry) else old) =
        tree.entries.filter fun entry => decide (Beside zone entry.1) := by
      refine List.filter_congr fun old _ => ?_
      by_cases hkey : old.1 = location
      · simp [hkey]
      · simp [hkey]
    rw [hsame]
    refine (List.map_congr_left fun old hm => ?_).trans (List.map_id _)
    have hbeside : Beside zone old.1 := of_decide_eq_true (List.mem_filter.mp hm).2
    have hkey : old.1 ≠ location := fun he => h (he ▸ hbeside)
    simp [hkey]
  · refine besides_append zone (put_of_not_mem hin entry) fun other hm => ?_
    rw [List.mem_singleton.mp hm]
    exact h

/-- A folder that is new on the way to the zone lies above the zone. -/
theorem isPrefix_of_new (hbase : base.Sound) {location : Location} {segments : List Text}
    (hplain : Plain base final location segments) (hnone : base.entryAt? location = none)
    (hway : ∀ above, above <+: segments → final.entryAt? (Path.descend location above) ≠ none) :
    location <+: Path.descend location segments := by
  induction segments generalizing location with
  | nil => exact List.prefix_rfl
  | cons segment rest ih =>
    obtain ⟨hup, -⟩ := hplain [] segment rest rfl hnone (hway [] (List.nil_prefix))
    have hbelow : base.entryAt? (location ++ [segment]) = none := by
      by_contra hthere
      exact hbase.entryAt?_of_isPrefix hthere (List.prefix_append _ _) hnone
    rw [Path.descend_cons hup]
    refine (List.prefix_append location [segment]).trans (ih (hplain.down hup) hbelow ?_)
    intro above habove
    have hlonger := hway (segment :: above) (List.cons_prefix_cons.mpr ⟨rfl, habove⟩)
    rw [Path.descend_cons hup] at hlonger
    exact hlonger

/-- **Folders that are made on the way to the zone, or in it, are not made beside it.** -/
theorem Around.made {made : Tree} {destination path : Path} (hbase : base.Sound)
    (hplain : base.Plain final [] destination.segments) {names : List Text}
    (hnames : ['.', '.'] ∉ names) (hpath : path.segments = destination.segments ++ names)
    (h : base.Around (Path.descend [] destination.segments) tree) (hmade : tree.Made path made)
    (hgrows : made.Grows final) : base.Around (Path.descend [] destination.segments) made := by
  refine ⟨hmade.sound, h.grows.trans hmade.grows, Eq.trans ?_ h.besides⟩
  obtain ⟨added, hentries, hadded⟩ := hmade.entries
  refine besides_append _ hentries fun entry hm => ?_
  obtain ⟨location, hlocation, rfl⟩ := List.mem_map.mp hm
  obtain ⟨hnone, above, habove, rfl⟩ := hadded location hlocation
  rw [hpath] at habove
  rcases List.prefix_or_prefix_of_prefix habove (List.prefix_append destination.segments names) with
    ⟨rest, hrest⟩ | ⟨further, rfl⟩
  · -- on the way: something new there lies above the zone
    have hnew : base.entryAt? (Path.descend [] above) = none := by
      by_contra hthere
      obtain ⟨entry, hentry⟩ := Option.ne_none_iff_exists'.mp hthere
      have hkind := h.grows _ _ (congrArg (Option.map Entry.isFile) hentry)
      rw [kindAt?_eq_none.mpr hnone] at hkind
      cases hkind
    rw [← hrest] at hplain hpath ⊢
    have hway : ∀ further, further <+: rest →
        final.entryAt? (Path.descend (Path.descend [] above) further) ≠ none := by
      intro further hfurther
      have hway' : above ++ further <+: path.segments := by
        rw [hpath]
        exact ((List.prefix_append_right_inj above).mpr hfurther).trans (List.prefix_append _ _)
      have hfolder := hmade.sound.follow_isPrefix rfl hmade.folder hmade.follow hway'
      rw [← Path.descend_append, hgrows.folder hfolder]
      exact Option.some_ne_none _
    have habovezone := isPrefix_of_new hbase hplain.rest hnew hway
    rw [Path.descend_append]
    exact fun hbeside => hbeside.2 habovezone
  · have hdown : ['.', '.'] ∉ further := fun hm =>
      hnames (((List.prefix_append_right_inj _).mp habove).subset hm)
    rw [Path.descend_append, Path.descend_eq_append hdown]
    exact fun hbeside => hbeside.1 (List.prefix_append _ _)

/-- **A file below the zone, with the folders above it, is written at the zone only.** -/
theorem Around.written {made : Tree} {destination path : Path} (hbase : base.Sound)
    (hplain : base.Plain final [] destination.segments) {names : List Text} {name : Text}
    (hnames : ['.', '.'] ∉ names) (hpath : path.segments = destination.segments ++ names ++ [name])
    (h : base.Around (Path.descend [] destination.segments) tree)
    (hmade : tree.Made path.parent made) (hwritable : made.Writable path) (bytes : Bytes)
    (hgrows : (made.put (Path.descend [] path.segments) (.file bytes)).Grows final) :
    base.Around (Path.descend [] destination.segments)
      (made.put (Path.descend [] path.segments) (.file bytes)) := by
  have hparent : path.parent.segments = destination.segments ++ names := by
    show path.segments.dropLast = _
    rw [hpath, List.dropLast_concat]
  have hput := hwritable.grows_put bytes
  have haround := h.made hbase hplain hnames hparent hmade (hput.trans hgrows)
  refine ⟨haround.sound.put_file hwritable bytes, haround.grows.trans hput, ?_⟩
  rw [besides_put, haround.besides]
  -- the place of the file lies below the zone
  obtain ⟨-, hdrop, -⟩ := hwritable.descend_eq
  rw [hparent, Path.descend_append, Path.descend_eq_append hnames] at hdrop
  refine fun hbeside => hbeside.1 ?_
  exact (List.prefix_append _ names).trans (hdrop ▸ List.dropLast_prefix _)

end Tree

end CodeAtlas
