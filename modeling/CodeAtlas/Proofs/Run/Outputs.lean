/-
  File:      CodeAtlas/Proofs/Run/Outputs.lean
  Subject:   Where the files of a run go, and when two of them go to one place.

  The page of a source goes where the source lies below its root, under the name of
  the source without its ending. So sources below different roots, or with different
  endings, can have one page; a source can be named like a page of the navigation;
  and two packages can have one folder. Those are the only ways.

  * `Work.Returns`: whenever a step succeeds, it succeeds with a given value.
  * `Tree.ofText_of_scan`: the paths that a scan gives lie below the root.
  * `Work.Tidy`, `Work.Adds`: what the writing of pages keeps.
  * `Apart`: the files of a run go to different places.
  * `outputs_nodup_iff`: what a run writes is pairwise distinct exactly then.
-/
import CodeAtlas.Proofs.Run.Failing
import CodeAtlas.Proofs.Run.OneFile
import CodeAtlas.Proofs.Run.Snapshot
import CodeAtlas.Proofs.Symbols.Folders

namespace CodeAtlas

/-! ## 1. Values of steps -/

namespace Work

variable {α β : Type}

/-- Whenever a step succeeds, it succeeds with `value`. -/
def Returns (step : Work α) (value : α) : Prop :=
  ∀ desk result after, step.Yields desk result after → result = value

theorem returns_pure (value : α) : Returns (pure value) value :=
  fun _ _ _ h => (yields_pure.mp h).1.symm

theorem returns_throw (failure : Failure) (value : α) : Returns (throw failure) value :=
  fun _ _ _ h => nomatch h

theorem Returns.bind {step : Work α} {next : α → Work β} {value : β}
    (h : ∀ between, Returns (next between) value) : Returns (step >>= next) value := by
  intro desk result after hyields
  obtain ⟨between, middle, -, hnext⟩ := yields_bind.mp hyields
  exact h between middle result after hnext

theorem Returns.mapM {step : α → Work β} {value : α → β} (h : ∀ a, Returns (step a) (value a))
    (values : List α) : Returns (values.mapM step) (values.map value) := by
  induction values with
  | nil => exact returns_pure []
  | cons first values ih =>
    intro desk result after hyields
    rw [List.mapM_cons] at hyields
    obtain ⟨head, between, hhead, hyields⟩ := yields_bind.mp hyields
    obtain ⟨tail, last, htail, hyields⟩ := yields_bind.mp hyields
    obtain ⟨rfl, -⟩ := yields_pure.mp hyields
    rw [h first _ _ _ hhead, ih _ _ _ htail]
    rfl

section Steps

variable [Platform]

theorem returns_writePage (renderer : Template.Renderer) (encoding : Text) (folder : Path)
    (scope : Template.Scope) (name : Text) :
    Returns (writePage renderer encoding folder scope name) (folder.child (name ++ ".html")) := by
  refine Returns.bind fun desk => ?_
  split
  · exact returns_throw _ _
  · exact Returns.bind fun _ => Returns.bind fun _ => returns_pure _

theorem returns_transform (language : Language) (path target : Path) (options : PageOptions) :
    Returns (transform language path target options) target :=
  Returns.bind fun _ => Returns.bind fun _ => Returns.bind fun _ => Returns.bind fun _ =>
    Returns.bind fun _ => Returns.bind fun _ => returns_pure target

/-- The pages of the navigation. -/
theorem yields_writeNavigation_value {renderer : Template.Renderer} {root : Path}
    {options : NavigationOptions} {desk after : Desk} {written : List Path}
    (h : (writeNavigation renderer root options).Yields desk written after) :
    written = rootPages.map (fun name => root.child (name ++ ".html")) ++
      (ProjectIndex.ofTable desk.survey.table).packages.flatMap fun entry =>
        packagePages.map fun name =>
          (root.join (Path.ofText entry.2.folder)).child (name ++ ".html") := by
  unfold writeNavigation at h
  simp only [yields_bind] at h
  obtain ⟨_, _, hget, atRoot, _, hroot, inPackages, _, hpackages, _, _, -, hresult⟩ := h
  obtain ⟨rfl, rfl⟩ := yields_get.mp hget
  obtain ⟨rfl, -⟩ := yields_pure.mp hresult
  rw [Returns.mapM (fun _ => returns_writePage _ _ _ _ _) _ _ _ _ hroot,
    Returns.mapM (fun _ => Returns.mapM (fun _ => returns_writePage _ _ _ _ _) _) _ _ _ _ hpackages]
  rfl

/-- The style sheet that the settings name, if it is there. -/
def ownStylesheet (settings : Settings) : Work (Option Path) :=
  match settings.stylesheet with
  | some path => do
    if ← ask (Template.isFile · path) then pure (some path)
    else
      announce .warning ("Stylesheet " ++ path.toText ++ " not found, using the default")
      pure none
  | none => pure none

/-- The style sheet of the templates, unless there is another. -/
def chooseStylesheet (renderer : Template.Renderer) : Option Path → Work (Option Path)
  | some path => pure (some path)
  | none => ask renderer.stylesheet?

/-- Copies a style sheet to the destination. -/
def placeStylesheet (destination : Path) : Option Path → Work (Option Path)
  | none => do
    announce .warning "No stylesheet available to copy"
    pure none
  | some source => do
    let target := destination.child stylesheetName
    let (copied, fault) := copyStylesheetTo source target (← get).tree
    modify fun desk => { desk with tree := copied }
    match fault with
    | none => pure (some target)
    | some why =>
      announce .warning ("Unable to copy stylesheet " ++ source.toText ++ ": " ++ why)
      pure none

/-- **Copying the style sheet in three steps**: it is looked for twice, and then put in place. -/
theorem copyStylesheet_eq (settings : Settings) (renderer : Template.Renderer)
    (destination : Path) :
    copyStylesheet settings renderer destination =
      ownStylesheet settings >>= chooseStylesheet renderer >>= placeStylesheet destination := by
  unfold copyStylesheet ownStylesheet
  cases settings.stylesheet with
  | none =>
    simp only [pure_bind]
    rfl
  | some path =>
    simp only [bind_assoc]
    refine bind_congr fun found => ?_
    cases found with
    | true =>
      simp only [if_true, pure_bind]
      rfl
    | false =>
      simp only [Bool.false_eq_true, if_false, bind_assoc, pure_bind]
      rfl

/-- The style sheet goes to one place only. -/
theorem yields_copyStylesheet_value {settings : Settings} {renderer : Template.Renderer}
    {destination : Path} {desk after : Desk} {copied : Option Path}
    (h : (copyStylesheet settings renderer destination).Yields desk copied after) :
    copied = none ∨ copied = some (destination.child stylesheetName) := by
  rw [copyStylesheet_eq] at h
  obtain ⟨found, _, -, h⟩ := yields_bind.mp h
  cases found with
  | none =>
    obtain ⟨_, _, -, hresult⟩ := yields_bind.mp h
    exact Or.inl (yields_pure.mp hresult).1.symm
  | some source =>
    simp only [placeStylesheet, yields_bind] at h
    obtain ⟨_, _, -, _, _, -, h⟩ := h
    split at h
    · exact Or.inr (yields_pure.mp h).1.symm
    · obtain ⟨_, _, -, hresult⟩ := yields_bind.mp h
      exact Or.inl (yields_pure.mp hresult).1.symm

end Steps

end Work

/-! ## 2. The paths that a scan gives -/

namespace Path

/-- Names that are joined by slashes are read back. -/
theorem ofText_join {names : List Text} (hne : names ≠ []) (h : ∀ name ∈ names, IsName name) :
    ofText (Text.join ['/'] names) = ⟨.relative, names⟩ := by
  have hsegments : segmentsOf (Text.join ['/'] names) = names := by
    unfold segmentsOf Text.join
    rw [List.splitOn_intercalate '/' (fun name hm => (h name hm).2.2.2) hne, List.filter_eq_self]
    intro name hm
    simp [(h name hm).1, (h name hm).2.1]
  have hanchor : anchorOf (Text.join ['/'] names) = .relative := by
    cases names with
    | nil => exact absurd rfl hne
    | cons first rest =>
      obtain ⟨hfirst, -, -, hslash⟩ := h first List.mem_cons_self
      cases first with
      | nil => exact absurd rfl hfirst
      | cons c first =>
        have hc : c ≠ '/' := fun e => hslash (e ▸ List.mem_cons_self)
        obtain ⟨more, hmore⟩ : ∃ more, Text.join ['/'] ((c :: first) :: rest) = c :: more := by
          cases rest with
          | nil => exact ⟨first, List.intercalate_singleton⟩
          | cons next rest => exact ⟨_, List.intercalate_cons_cons⟩
        rw [hmore]
        simp [anchorOf, hc]
  unfold ofText
  rw [hsegments, hanchor]

end Path

/-- **A path that a scan gives leads to a file below the root**, on a way of names. -/
theorem Tree.place_of_scan [Platform] {tree : Tree} (hnamed : tree.Named) {selection : Selection}
    {raw : Path} {paths : List Text} (hscan : tree.scan selection raw = .ok paths)
    {relative : Text} (h : relative ∈ paths) :
    ∃ root location names, raw.expand = .ok root ∧ tree.locate root = .ok location ∧
      location ++ names ∈ tree.locations ∧ names ≠ [] ∧ (∀ name ∈ names, Path.IsName name) ∧
      Path.ofText relative = ⟨.relative, names⟩ := by
  obtain ⟨root, location, hexpand, hlocate, -, rfl⟩ := scan_eq_ok_iff.mp hscan
  have hm := (List.mem_filter.mp ((List.mergeSort_perm _ _).mem_iff.mp h)).1
  obtain ⟨⟨names, bytes⟩, hfile, rfl⟩ := List.mem_map.mp hm
  obtain ⟨hne, hentry⟩ := mem_filesBelow.mp (List.mem_filter.mp hfile).1
  have hplace : location ++ names ∈ tree.locations := List.mem_map_of_mem hentry
  have hnames : ∀ name ∈ names, Path.IsName name := fun name hm =>
    hnamed _ hplace name (List.mem_append_right location hm)
  exact ⟨root, location, names, hexpand, hlocate, hplace, hne, hnames,
    Path.ofText_join hne hnames⟩

theorem Tree.ofText_of_scan [Platform] {tree : Tree} (hnamed : tree.Named) {selection : Selection}
    {raw : Path} {paths : List Text} (hscan : tree.scan selection raw = .ok paths)
    {relative : Text} (h : relative ∈ paths) :
    ∃ names, names ≠ [] ∧ (∀ name ∈ names, Path.IsName name) ∧
      Path.ofText relative = ⟨.relative, names⟩ := by
  obtain ⟨_, _, names, -, -, -, hne, hnames, htext⟩ := place_of_scan hnamed hscan h
  exact ⟨names, hne, hnames, htext⟩

/-! ## 3. What the writing of pages keeps -/

namespace Work

variable {α : Type}

theorem yields_onTree {change : Tree → Tree × Except Failure α} {desk after : Desk} {value : α} :
    Yields (onTree change) desk value after ↔
      ∃ tree, change desk.tree = (tree, .ok value) ∧ after = { desk with tree } := by
  unfold onTree
  rw [yields_bind]
  constructor
  · intro h
    obtain ⟨_, _, hget, h⟩ := h
    obtain ⟨rfl, rfl⟩ := yields_get.mp hget
    obtain ⟨_, _, hmodify, hresult⟩ := yields_bind.mp h
    obtain rfl := yields_modify.mp hmodify
    obtain ⟨hvalue, rfl⟩ := yields_ofExcept.mp hresult
    exact ⟨(change desk.tree).1, Prod.ext rfl hvalue, rfl⟩
  · intro h
    obtain ⟨tree, hchange, rfl⟩ := h
    refine ⟨desk, desk, yields_get.mpr ⟨rfl, rfl⟩, ?_⟩
    rw [hchange]
    exact yields_bind.mpr ⟨(), _, yields_modify.mpr rfl, yields_ofExcept.mpr ⟨rfl, rfl⟩⟩

/-- Nothing that is reported goes to a file, and the tree is as file systems are. -/
structure Tidy (desk : Desk) : Prop where
  quiet : Quiet desk
  sound : desk.tree.Sound
  named : desk.tree.Named

/-- A part of the writing: the tree grows, and what is scanned stays the same. -/
structure Adds (desk after : Desk) : Prop where
  tidy : Tidy after
  grows : desk.tree.Grows after.tree
  selection : after.survey.selection = desk.survey.selection

theorem Adds.refl {desk : Desk} (h : Tidy desk) : Adds desk desk := ⟨h, .refl _, rfl⟩

theorem Adds.trans {desk between after : Desk} (h : Adds desk between) (h' : Adds between after) :
    Adds desk after :=
  ⟨h'.tidy, h.grows.trans h'.grows, h'.selection.trans h.selection⟩

theorem adds_report {records : List Record} {desk after : Desk} {result : Unit} (hdesk : Tidy desk)
    (h : (report records).Yields desk result after) : Adds desk after := by
  obtain rfl := yields_report.mp h
  have htree : Listener.note desk.listener records desk.tree = desk.tree :=
    note_of_noFile hdesk.quiet records desk.tree
  rw [htree]
  exact ⟨⟨hdesk.quiet, hdesk.sound, hdesk.named⟩, .refl _, rfl⟩

theorem adds_fetch [Platform] {path : Path} {desk after : Desk} {source : SourceFile}
    (hdesk : Tidy desk) (h : (fetch path).Yields desk source after) : Adds desk after := by
  obtain ⟨cache, hsurvey, hcatalog, hlistener, hread⟩ := yields_fetch h
  obtain ⟨htree, -, -⟩ := hread hdesk.quiet
  refine ⟨⟨?_, ?_, ?_⟩, ?_, ?_⟩
  · unfold Quiet
    rw [hlistener]
    exact hdesk.quiet
  · rw [htree]
    exact hdesk.sound
  · rw [htree]
    exact hdesk.named
  · rw [htree]
    exact .refl _
  · rw [hsurvey]
    unfold Survey.selection
    rw [hcatalog]

theorem adds_publish [Platform] {target : Path} {encoding page : Text} {desk after : Desk}
    {result : Unit} (hdesk : Tidy desk) (htarget : target.Proper)
    (h : (onTree fun tree => tree.publish target encoding page).Yields desk result after) :
    Adds desk after := by
  obtain ⟨written, hpublish, rfl⟩ := yields_onTree.mp h
  obtain ⟨made, bytes, hmade, hwritable, rfl, -⟩ := Tree.publish_spec hdesk.sound hpublish
  exact ⟨⟨hdesk.quiet, hmade.sound.put_file hwritable bytes, hdesk.named.publish htarget hmade bytes⟩,
    hmade.grows.trans (hwritable.grows_put bytes), rfl⟩

theorem adds_transform [Platform] {language : Language} {path target : Path} {options : PageOptions}
    {desk after : Desk} {written : Path} (hdesk : Tidy desk) (htarget : target.Proper)
    (h : (transform language path target options).Yields desk written after) :
    written = target ∧ Adds desk after := by
  unfold transform at h
  simp only [yields_bind] at h
  obtain ⟨source, _, hfetch, _, _, hget, text, _, htext, _, _, hreport, lines, _, hlines, _, _,
    hpublish, hresult⟩ := h
  obtain ⟨rfl, rfl⟩ := yields_get.mp hget
  obtain ⟨-, rfl⟩ := yields_ofExcept.mp htext
  obtain ⟨-, rfl⟩ := yields_ofExcept.mp hlines
  obtain ⟨rfl, rfl⟩ := yields_pure.mp hresult
  have hfetched := adds_fetch hdesk hfetch
  have hreported := hfetched.trans (adds_report hfetched.tidy hreport)
  exact ⟨rfl, hreported.trans (adds_publish hreported.tidy htarget hpublish)⟩

end Work

/-! ## 4. Places -/

/-- A place below the destination: the folders that lead to it, and the name of a page without its
ending. -/
abbrev Spot := List Text × Text

/-- The page at a place. -/
def Path.pageAt (destination : Path) (spot : Spot) : Path :=
  { destination with segments := destination.segments ++ spot.1 ++ [spot.2 ++ ".html"] }

/-- The place of the page of a source. -/
def pageSpot (catalog : Catalog) (root : Path) (relative : Text) : Spot :=
  let source := root.join (Path.ofText relative)
  ((Path.ofText relative).segments.dropLast, (catalog.languageFor source).pageName source.name)

/-- The places of the navigation, for packages with the given folders. -/
def navigationSpots (ways : List (List Text)) : List Spot :=
  rootPages.map ([], ·) ++ ways.flatMap fun way => packagePages.map (way, ·)

theorem Path.pageAt_injective (destination : Path) : Function.Injective destination.pageAt := by
  intro a b h
  have hsegments := congrArg Path.segments h
  change destination.segments ++ a.1 ++ [a.2 ++ ".html".toList] =
    destination.segments ++ b.1 ++ [b.2 ++ ".html".toList] at hsegments
  obtain ⟨hfolders, hname⟩ := List.append_inj' hsegments rfl
  have hway : a.1 = b.1 := List.append_cancel_left hfolders
  have hpage : a.2 = b.2 := List.append_cancel_right (List.cons.inj hname).1
  exact Prod.ext hway hpage

theorem isName_page {name : Text} (h : '/' ∉ name) : Path.IsName (name ++ ".html") := by
  have hlong (short : Text) (hlt : short.length < 5) : name ++ ".html" ≠ short := by
    intro he
    have hlength := congrArg List.length he
    rw [List.length_append] at hlength
    have hfive : ".html".toList.length = 5 := rfl
    omega
  refine ⟨hlong [] (by decide), hlong ['.'] (by decide), hlong ['.', '.'] (by decide), ?_⟩
  rw [List.mem_append, not_or]
  exact ⟨h, by decide⟩

theorem Path.Proper.pageAt {destination : Path} (h : destination.Proper) {spot : Spot}
    (hway : ∀ name ∈ spot.1, Path.IsName name) (hname : '/' ∉ spot.2) :
    (destination.pageAt spot).Proper := by
  intro segment hm
  rcases List.mem_append.mp hm with hm | hm
  · rcases List.mem_append.mp hm with hm | hm
    · exact h segment hm
    · exact Or.inr (hway segment hm)
  · rw [List.mem_singleton.mp hm]
    exact Or.inr (isName_page hname)

namespace Work

/-- The page of a source goes to its place. -/
theorem pagePath_eq {destination root : Path} {catalog : Catalog} {relative : Text}
    {names : List Text} (hpath : Path.ofText relative = ⟨.relative, names⟩) :
    pagePath destination (catalog.languageFor (root.join (Path.ofText relative)))
        (root.join (Path.ofText relative)) relative =
      destination.pageAt (pageSpot catalog root relative) := by
  unfold pagePath pageSpot Path.pageAt
  rw [hpath]
  rfl

theorem proper_pageAt {destination root : Path} {catalog : Catalog} {relative : Text}
    {names : List Text} (hdestination : destination.Proper) (hne : names ≠ [])
    (hnames : ∀ name ∈ names, Path.IsName name)
    (hpath : Path.ofText relative = ⟨.relative, names⟩) :
    (destination.pageAt (pageSpot catalog root relative)).Proper := by
  have hsegments : (Path.ofText relative).segments = names := by rw [hpath]
  refine hdestination.pageAt (fun name hm => ?_) fun hm => ?_
  · refine hnames name (List.mem_of_mem_dropLast ?_)
    rw [← hsegments]
    exact hm
  · -- the name of the source is the last of the names
    obtain ⟨last, hlast⟩ := Option.ne_none_iff_exists'.mp (mt List.getLast?_eq_none_iff.mp hne)
    have hname : (root.join (Path.ofText relative)).name = last := by
      rw [hpath]
      show ((root.segments ++ names).getLast?).getD [] = last
      rw [List.getLast?_append, hlast]
      rfl
    have hstart : (pageSpot catalog root relative).2 <+: last := by
      rw [← hname]
      exact Language.pageName_isPrefix _ _
    exact (hnames last (List.mem_of_getLast? hlast)).2.2.2 (hstart.subset hm)

variable [Platform]

/-- The pages of one root. -/
theorem adds_transformRoot {catalog : Catalog} {destination : Path} {options : PageOptions}
    {root : Path} {desk after : Desk} {pages : List Path} (hdesk : Tidy desk)
    (hdestination : destination.Proper)
    (hroot : (transformRoot catalog destination options root).Yields desk pages after) :
    ∃ paths, desk.tree.scan desk.survey.selection root = .ok paths ∧
      pages = paths.map (destination.pageAt <| pageSpot catalog root ·) ∧ Adds desk after := by
  obtain ⟨paths, _, hpaths, h⟩ := yields_bind.mp hroot
  obtain ⟨hread, rfl⟩ := yields_sourcePaths.mp hpaths
  have hscan := Survey.scan_of_sourcePaths hread
  have hways (relative : Text) (hm : relative ∈ paths) := Tree.ofText_of_scan hdesk.named hscan hm
  refine ⟨paths, hscan, ?_⟩
  clear hroot hscan hread hpaths
  induction paths generalizing desk pages with
  | nil =>
    obtain ⟨rfl, rfl⟩ := yields_pure.mp h
    exact ⟨rfl, .refl hdesk⟩
  | cons relative paths ih =>
    rw [List.mapM_cons] at h
    obtain ⟨page, between, hpage, h⟩ := yields_bind.mp h
    obtain ⟨rest, _, hrest, hresult⟩ := yields_bind.mp h
    obtain ⟨rfl, rfl⟩ := yields_pure.mp hresult
    obtain ⟨names, hne, hnames, hpath⟩ := hways relative List.mem_cons_self
    change (transformFile catalog destination options root relative).Yields desk page between at hpage
    unfold transformFile at hpage
    simp only [pagePath_eq hpath] at hpage
    obtain ⟨rfl, hfirst⟩ :=
      adds_transform hdesk (proper_pageAt hdestination hne hnames hpath) hpage
    obtain ⟨rfl, hlater⟩ :=
      ih hfirst.tidy hrest fun other hm => hways other (List.mem_cons_of_mem relative hm)
    exact ⟨rfl, hfirst.trans hlater⟩

/-- The pages of all roots. Each root is scanned when the pages of those before it are written. -/
theorem adds_roots {catalog : Catalog} {destination : Path} {options : PageOptions}
    {roots : List Path} {desk after : Desk} {pages : List (List Path)} (hdesk : Tidy desk)
    (hdestination : destination.Proper)
    (h : (roots.mapM (transformRoot catalog destination options)).Yields desk pages after) :
    ∃ found : List (Path × List Text), found.map (·.1) = roots ∧
      (∀ file ∈ found, ∃ tree, desk.tree.Grows tree ∧
        tree.scan desk.survey.selection file.1 = .ok file.2) ∧
      pages.flatten = (found.flatMap fun file => file.2.map (pageSpot catalog file.1)).map
        destination.pageAt := by
  induction roots generalizing desk pages with
  | nil =>
    obtain ⟨rfl, -⟩ := yields_pure.mp h
    exact ⟨[], rfl, fun _ hm => absurd hm List.not_mem_nil, rfl⟩
  | cons root roots ih =>
    rw [List.mapM_cons] at h
    obtain ⟨first, between, hfirst, h⟩ := yields_bind.mp h
    obtain ⟨rest, _, hrest, hresult⟩ := yields_bind.mp h
    obtain ⟨rfl, rfl⟩ := yields_pure.mp hresult
    obtain ⟨paths, hscan, rfl, hadds⟩ := adds_transformRoot hdesk hdestination hfirst
    obtain ⟨found, hroots, hfound, hpages⟩ := ih hadds.tidy hrest
    refine ⟨(root, paths) :: found, ?_, fun file hm => ?_, ?_⟩
    · rw [List.map_cons, hroots]
    · rcases List.mem_cons.mp hm with rfl | hm
      · exact ⟨desk.tree, .refl _, hscan⟩
      · obtain ⟨tree, hgrows, hother⟩ := hfound file hm
        rw [hadds.selection] at hother
        exact ⟨tree, hadds.grows.trans hgrows, hother⟩
    · rw [List.flatten_cons, hpages, List.flatMap_cons, List.map_append, List.map_map]
      rfl

end Work

/-! ## 5. Files that go to different places -/

/-- The files of a run go to different places: no two pages of sources have one place, no two
packages have one folder, and no page of a source has the place of a page of the navigation. -/
structure Apart (pages : List Spot) (ways : List (List Text)) : Prop where
  sources : pages.Nodup
  folders : ways.Nodup
  root : ∀ name ∈ rootPages, ([], name) ∉ pages
  packages : ∀ way ∈ ways, ∀ name ∈ packagePages, (way, name) ∉ pages

theorem mem_navigationSpots {ways : List (List Text)} {spot : Spot} :
    spot ∈ navigationSpots ways ↔
      spot.1 = [] ∧ spot.2 ∈ rootPages ∨ spot.1 ∈ ways ∧ spot.2 ∈ packagePages := by
  obtain ⟨way, name⟩ := spot
  unfold navigationSpots
  rw [List.mem_append, List.mem_map, List.mem_flatMap]
  simp only [List.mem_map, Prod.mk.injEq]
  constructor
  · intro h
    rcases h with ⟨other, hm, rfl, rfl⟩ | ⟨other, hway, found, hname, rfl, rfl⟩
    · exact Or.inl ⟨rfl, hm⟩
    · exact Or.inr ⟨hway, hname⟩
  · intro h
    rcases h with ⟨rfl, hm⟩ | ⟨hway, hname⟩
    · exact Or.inl ⟨name, hm, rfl, rfl⟩
    · exact Or.inr ⟨way, hway, name, hname, rfl, rfl⟩

/-- The navigation goes to different places if its packages have different folders. -/
theorem nodup_navigationSpots_iff {ways : List (List Text)} :
    (navigationSpots ways).Nodup ↔ ways.Nodup := by
  have hroot : (rootPages.map fun name => (([], name) : Spot)).Nodup := by decide
  have hpackage (way : List Text) : (packagePages.map fun name => ((way, name) : Spot)).Nodup :=
    List.Nodup.map (fun a b h => (Prod.mk.inj h).2) (by decide)
  have hnames : ∀ name ∈ rootPages, name ∉ packagePages := by decide
  have hapart {a b : List Text} : (packagePages.map fun name => ((a, name) : Spot)).Disjoint
      (packagePages.map fun name => ((b, name) : Spot)) ↔ a ≠ b := by
    constructor
    · intro hdisjoint hab
      subst hab
      exact hdisjoint (List.mem_map_of_mem List.mem_cons_self)
        (List.mem_map_of_mem List.mem_cons_self)
    · intro hne spot ha hb
      obtain ⟨_, -, rfl⟩ := List.mem_map.mp ha
      obtain ⟨_, -, he⟩ := List.mem_map.mp hb
      exact hne (Prod.mk.inj he).1.symm
  unfold navigationSpots
  rw [List.nodup_append, List.nodup_flatMap]
  constructor
  · intro h
    refine h.2.1.2.imp fun {a b} hdisjoint => hapart.mp ?_
    exact hdisjoint
  · intro h
    refine ⟨hroot, ⟨fun way _ => hpackage way, h.imp fun {a b} hne => hapart.mpr hne⟩, ?_⟩
    intro spot hspot other hother he
    subst he
    obtain ⟨name, hname, rfl⟩ := List.mem_map.mp hspot
    obtain ⟨way, -, hother⟩ := List.mem_flatMap.mp hother
    obtain ⟨found, hfound, he⟩ := List.mem_map.mp hother
    exact hnames name hname ((Prod.mk.inj he).2 ▸ hfound)

theorem nodup_append_navigationSpots_iff {pages : List Spot} {ways : List (List Text)} :
    (pages ++ navigationSpots ways).Nodup ↔ Apart pages ways := by
  rw [List.nodup_append, nodup_navigationSpots_iff]
  constructor
  · intro h
    obtain ⟨hpages, hways, hapart⟩ := h
    refine ⟨hpages, hways, fun name hname hm => ?_, fun way hway name hname hm => ?_⟩
    · exact hapart _ hm _ (mem_navigationSpots.mpr (Or.inl ⟨rfl, hname⟩)) rfl
    · exact hapart _ hm _ (mem_navigationSpots.mpr (Or.inr ⟨hway, hname⟩)) rfl
  · intro h
    refine ⟨h.sources, h.folders, fun spot hspot other hother he => ?_⟩
    subst he
    obtain ⟨way, name⟩ := spot
    rcases mem_navigationSpots.mp hother with ⟨hroot, hname⟩ | ⟨hway, hname⟩
    · change way = [] at hroot
      subst hroot
      exact h.root name hname hspot
    · exact h.packages way hway name hname hspot

/-- Everything that a run has written. -/
def RunResult.outputs (result : RunResult) : List Path :=
  result.pages ++ result.indexPages ++ result.stylesheet.toList

/-- The style sheet is no page. -/
theorem child_stylesheet_ne_pageAt (destination : Path) (spot : Spot) :
    destination.child stylesheetName ≠ destination.pageAt spot := by
  intro h
  have hsegments := congrArg Path.segments h
  change destination.segments ++ [stylesheetName] =
    destination.segments ++ spot.1 ++ [spot.2 ++ ".html".toList] at hsegments
  obtain ⟨-, hname⟩ := List.append_inj' hsegments rfl
  have hend : ['l'] <:+ stylesheetName := by
    rw [(List.cons.inj hname).1]
    exact List.IsSuffix.trans (by decide) (List.suffix_append spot.2 ".html".toList)
  exact absurd hend (by decide)

theorem outputs_nodup_iff_of_spots {result : RunResult} {destination : Path} {pages : List Spot}
    {ways : List (List Text)} (hpages : result.pages = pages.map destination.pageAt)
    (hindex : result.indexPages.Perm ((navigationSpots ways).map destination.pageAt))
    (hsheet : result.stylesheet = none ∨
      result.stylesheet = some (destination.child stylesheetName)) :
    result.outputs.Nodup ↔ Apart pages ways := by
  have hperm : (result.pages ++ result.indexPages).Perm
      ((pages ++ navigationSpots ways).map destination.pageAt) := by
    rw [hpages, List.map_append]
    exact List.Perm.append_left _ hindex
  have hsheets : result.outputs.Nodup ↔ (result.pages ++ result.indexPages).Nodup := by
    unfold RunResult.outputs
    rcases hsheet with hnone | hsome
    · rw [hnone]
      exact iff_of_eq (congrArg _ (List.append_nil _))
    · rw [hsome, List.nodup_append]
      refine ⟨fun h => h.1, fun h => ⟨h, List.nodup_singleton _, ?_⟩⟩
      intro page hpage sheet hm he
      obtain ⟨spot, -, rfl⟩ := List.mem_map.mp (hperm.mem_iff.mp hpage)
      rw [List.mem_singleton.mp hm] at he
      exact child_stylesheet_ne_pageAt destination spot he.symm
  rw [hsheets, hperm.nodup_iff, List.nodup_map_iff destination.pageAt_injective,
    nodup_append_navigationSpots_iff]

/-! ## 6. The files of a run -/

theorem exists_of_mem_mapM {ε α β : Type} {read : α → Except ε β} {values : List α}
    {results : List β} (h : values.mapM read = .ok results) {result : β} (hm : result ∈ results) :
    ∃ value ∈ values, read value = .ok result := by
  induction values generalizing results with
  | nil =>
    cases h
    exact absurd hm List.not_mem_nil
  | cons value values ih =>
    rw [List.mapM_cons] at h
    cases hfirst : read value with
    | error fault =>
      rw [hfirst] at h
      cases h
    | ok first =>
      cases hrest : values.mapM read with
      | error fault =>
        rw [hfirst, hrest] at h
        cases h
      | ok rest =>
        rw [hfirst, hrest] at h
        cases h
        rcases List.mem_cons.mp hm with rfl | hm
        · exact ⟨value, List.mem_cons_self, hfirst⟩
        · obtain ⟨other, hother, hread⟩ := ih hrest hm
          exact ⟨other, List.mem_cons_of_mem value hother, hread⟩

/-- A file that is read below a root is read under its own path. -/
theorem Cache.parse_of_parseBelow [Platform] {cache : Cache} {tree : Tree}
    {selection : Selection} {root : Path} {sources : List SourceFile}
    (h : cache.parseBelow tree selection root = .ok sources) {source : SourceFile}
    (hm : source ∈ sources) : ∃ key, cache.parse tree key = .ok source := by
  unfold parseBelow at h
  cases hkey : root.resolve with
  | error fault =>
    rw [hkey] at h
    cases h
  | ok key =>
    simp only [hkey, Except.mapError, bind, Except.bind] at h
    cases hscan : tree.scan selection key with
    | error failure =>
      rw [hscan] at h
      cases h
    | ok paths =>
      rw [hscan] at h
      obtain ⟨path, -, hparse⟩ := exists_of_mem_mapM h hm
      unfold parseAt at hparse
      cases hfile : (key.join (Path.ofText path)).resolve with
      | error fault =>
        rw [hfile] at hparse
        cases hparse
      | ok file =>
        rw [hfile] at hparse
        exact ⟨file, hparse⟩

/-- The packages of files that are read are empty, or start as words do. -/
theorem Cache.package_of_parseBelow [Platform] {cache : Cache} {tree : Tree} {selection : Selection}
    {root : Path} {sources : List SourceFile}
    (h : cache.parseBelow tree selection root = .ok sources) {source : SourceFile}
    (hm : source ∈ sources) : source.package = [] ∨ StartsWord source.package := by
  obtain ⟨key, hload⟩ := parse_of_parseBelow h hm
  obtain ⟨bytes, -, hsource⟩ := SourceFile.load_eq_ok_iff.mp hload
  unfold SourceFile.ofBytes at hsource
  cases htext : decodeText (encodingOrDefault cache.encoding) bytes with
  | error fault =>
    rw [htext] at hsource
    cases hsource
  | ok text =>
    simp only [htext, Except.mapError, bind, Except.bind] at hsource
    split at hsource
    · cases hsource
    · cases hsource
      exact SourceFile.package_starts _ _ _ _

theorem Cache.package_of_roots [Platform] {cache : Cache} {tree : Tree} {selection : Selection}
    {roots : List Path} {sources : List (List SourceFile)}
    (h : roots.mapM (cache.parseBelow tree selection) = .ok sources) {source : SourceFile}
    (hm : source ∈ sources.flatten) : source.package = [] ∨ StartsWord source.package := by
  obtain ⟨below, hbelow, hm⟩ := List.mem_flatten.mp hm
  obtain ⟨root, -, hroot⟩ := exists_of_mem_mapM h hbelow
  exact Cache.package_of_parseBelow hroot hm

namespace Work

theorem adds_apiFolder {settings : Settings} {desk after : Desk} {folder : Option Path}
    (hdesk : Tidy desk) (h : (apiFolder settings).Yields desk folder after) : Adds desk after := by
  unfold apiFolder at h
  split at h
  · obtain ⟨-, rfl⟩ := yields_pure.mp h
    exact .refl hdesk
  · split at h
    · obtain ⟨found, _, hask, h⟩ := yields_bind.mp h
      obtain ⟨-, rfl⟩ := yields_ask.mp hask
      split at h
      · obtain ⟨-, rfl⟩ := yields_pure.mp h
        exact .refl hdesk
      · obtain ⟨_, _, hannounce, h⟩ := yields_bind.mp h
        obtain ⟨-, rfl⟩ := yields_pure.mp h
        exact adds_report hdesk hannounce
    · obtain ⟨found, _, hask, h⟩ := yields_bind.mp h
      obtain ⟨-, rfl⟩ := yields_ask.mp hask
      obtain ⟨-, rfl⟩ := yields_pure.mp h
      exact .refl hdesk

/-- The pages of the navigation are the places of the navigation, in some order. -/
theorem perm_navigation (destination : Path) {table : SymbolTable} (honce : table.EachOnce)
    (hnamed : ∀ package ∈ table.packages, package.IsNamed) :
    (rootPages.map (fun name => destination.child (name ++ ".html")) ++
      (ProjectIndex.ofTable table).packages.flatMap fun entry => packagePages.map fun name =>
        (destination.join (Path.ofText entry.2.folder)).child (name ++ ".html")).Perm
      ((navigationSpots (table.packages.map Package.way)).map destination.pageAt) := by
  have hroot : rootPages.map (fun name => destination.child (name ++ ".html")) =
      (rootPages.map fun name => (([], name) : Spot)).map destination.pageAt := by
    rw [List.map_map]
    refine List.map_congr_left fun name _ => ?_
    simp only [Function.comp, Path.pageAt, Path.child, List.append_nil]
  have hpackage (package : Package) (hm : package ∈ table.packages) :
      (packagePages.map fun name =>
        (destination.join (Path.ofText package.entry.folder)).child (name ++ ".html")) =
      (packagePages.map fun name => ((package.way, name) : Spot)).map destination.pageAt := by
    rw [List.map_map, (hnamed package hm).ofText_folder]
    exact List.map_congr_left fun name _ => rfl
  have hentries := (ProjectIndex.packages_perm honce hnamed).flatMap_right fun entry =>
    packagePages.map fun name =>
      (destination.join (Path.ofText entry.folder)).child (name ++ ".html")
  rw [List.flatMap_map, List.flatMap_map, List.flatMap_congr hpackage] at hentries
  unfold navigationSpots
  rw [List.map_append, hroot, List.map_flatMap, List.flatMap_map]
  exact hentries.append_left _

section Stages

variable [Platform] {settings : Settings} {context : RunContext} {candidates : List Path}
  {desk after : Desk} {result : RunResult}

/-- The pages of the sources are the places of the sources, which are found in a tree that has
grown. -/
theorem Stages.page_spots (run : Stages settings context candidates desk result after)
    (hdesk : Tidy desk) (hdestination : settings.destinationFolder.Proper) :
    ∃ found : List (Path × List Text), found.map (·.1) = result.sourceRoots ∧
      (∀ file ∈ found, ∃ tree, desk.tree.Grows tree ∧
        tree.scan (settings.scanned context run.found) file.1 = .ok file.2) ∧
      result.pages = (found.flatMap fun file => file.2.map
        (pageSpot (settings.catalog context.catalog) file.1)).map
          settings.destinationFolder.pageAt := by
  obtain ⟨_, hreading, -⟩ := run.reads hdesk.quiet
  have htree : run.read.tree = desk.tree := hreading.tree
  have htidy : Tidy run.read :=
    ⟨hreading.steady.noFile, htree ▸ hdesk.sound, htree ▸ hdesk.named⟩
  have hdumped := adds_report htidy run.dump
  have hlooked := hdumped.trans (adds_apiFolder hdumped.tidy run.api)
  obtain ⟨found, hfound, hscans, hplaces⟩ :=
    adds_roots hlooked.tidy hdestination run.transforming
  refine ⟨found, hfound, fun file hm => ?_, run.pages_eq.trans hplaces⟩
  have hselection : run.looked.survey.selection = settings.scanned context run.found :=
    hlooked.selection.trans hreading.selection
  obtain ⟨tree, hgrows, hscan⟩ := hscans file hm
  rw [hselection] at hscan
  have hbelow := hlooked.grows.trans hgrows
  rw [htree] at hbelow
  exact ⟨tree, hbelow, hscan⟩

/-- The pages of the navigation are at the top, and in the folders of the packages that are read. -/
theorem Stages.index_spots (run : Stages settings context candidates desk result after)
    (hquiet : Quiet desk) :
    result.indexPages.Perm ((navigationSpots (run.read.survey.table.packages.map
      Package.way)).map settings.destinationFolder.pageAt) := by
  obtain ⟨sources, hreading, hsources⟩ := run.reads hquiet
  have htable : run.read.survey.table = SymbolTable.ofSources sources.flatten := hreading.table
  have hperm := perm_navigation settings.destinationFolder
    (SymbolTable.EachOnce.ofSources sources.flatten)
    fun package hm => SymbolTable.isNamed_of_mem (fun _ => Cache.package_of_roots hsources) hm
  rw [yields_writeNavigation_value run.showing, run.table_chosen, htable]
  exact hperm

/-- What a run that finds sources writes, and the table that its navigation shows. -/
theorem generate_outputs (hdesk : Tidy desk) (hdestination : settings.destinationFolder.Proper)
    (hrun : (generate settings context).Yields desk result after)
    (hroots : result.sourceRoots ≠ []) :
    ∃ (languages : Catalog) (found : List (Path × List Text)) (table : SymbolTable),
      Platform.found = .ok languages ∧ found.map (·.1) = result.sourceRoots ∧
      (∀ file ∈ found, ∃ tree, desk.tree.Grows tree ∧
        tree.scan (settings.scanned context languages) file.1 = .ok file.2) ∧
      SymbolTable.parsed desk.tree (Cache.empty none languages)
        (settings.scanned context languages) result.sourceRoots = .ok table ∧
      result.pages = (found.flatMap fun file => file.2.map
        (pageSpot (settings.catalog context.catalog) file.1)).map
          settings.destinationFolder.pageAt ∧
      result.indexPages.Perm ((navigationSpots (table.packages.map Package.way)).map
        settings.destinationFolder.pageAt) ∧
      (result.stylesheet = none ∨
        result.stylesheet = some (settings.destinationFolder.child stylesheetName)) := by
  obtain ⟨candidates, -, ⟨-, rfl, -⟩ | ⟨-, ⟨run⟩⟩⟩ := generate_cases hrun
  · exact absurd rfl hroots
  · obtain ⟨found, hfound, hscans, hplaces⟩ := run.page_spots hdesk hdestination
    exact ⟨run.found, found, run.read.survey.table, run.languages, hfound, hscans,
      run.parsed hdesk.quiet, hplaces, run.index_spots hdesk.quiet,
      yields_copyStylesheet_value run.copying⟩

end Stages

section Roots

variable [Platform]

/-- A root is scanned if it has not been seen before. -/
theorem fresh_of_process {root : Path} {desk after : Desk} {fresh : Bool}
    (h : (process root).Yields desk fresh after) (hroots : desk.survey.roots = []) :
    fresh = true := by
  obtain ⟨key, -, ⟨hseen, -⟩ | ⟨-, hfresh, -⟩⟩ := yields_process.mp h
  · rw [hroots] at hseen
    exact absurd hseen List.not_mem_nil
  · exact hfresh

/-- **The first root that holds sources is scanned**; without one nothing is written. -/
theorem generate_sourceRoots {settings : Settings} {context : RunContext} {desk after : Desk}
    {result : RunResult} (hrun : (generate settings context).Yields desk result after) :
    ∃ candidates, desk.tree.prune (sourceEndings settings.includes
        (settings.catalog context.catalog)) settings.sourceRoots = .ok candidates ∧
      match candidates with
      | [] => result = { destination := settings.destinationFolder }
      | first :: _ => ∃ more, result.sourceRoots = first :: more := by
  obtain ⟨candidates, hprune, hcases⟩ := generate_cases hrun
  refine ⟨candidates, hprune, ?_⟩
  rcases hcases with ⟨rfl, hresult, -⟩ | ⟨hsome, ⟨run⟩⟩
  · exact hresult
  · cases candidates with
    | nil => exact absurd rfl hsome
    | cons first rest =>
      obtain ⟨fresh, _, more, hprocess, -, hroots⟩ := yields_filterM_cons.mp run.reading
      have hnoted := yields_report.mp run.scanning
      have hfresh : fresh = true := fresh_of_process hprocess (by rw [hnoted]; rfl)
      subst hfresh
      exact ⟨more, hroots⟩

end Roots

end Work

/-! ## 7. A run whose pages meet -/

section Usual

attribute [local instance] Platform.usual

/-- One source, named like a page of the navigation. Its root is named twice, once by way of a
folder that the run makes. -/
def clash : OneFile where
  settings :=
    { root := ⟨.root, []⟩
      sourceFolders :=
        [⟨.root, ["d".toList, "..".toList, "s".toList]⟩, ⟨.root, ["s".toList]⟩]
      destination := some ⟨.root, ["d".toList, "out".toList]⟩
      api := { enabled := false } }
  tree := ⟨[(["s".toList], .folder),
      (["s".toList, "index.java".toList], .file (Encoding.utf8.encode "class A".toList))] ++
      blankTemplates⟩
  root := ⟨.root, ["s".toList]⟩
  file := "index.java".toList

theorem clash_scan :
    clash.tree.scan (clash.settings.scanned blankContext Catalog.standard) clash.root =
      .ok ["index.java".toList] := by
  cbv

theorem clash_goes :
    clash.Goes ⟨[⟨[], [⟨"A".toList, "index".toList, 1⟩]⟩]⟩ [['.']] where
  prune := eq_ok_of_toOption (by decide +kernel)
  resolve := rfl
  paths := clash_scan
  reads := by decide +kernel
  pages := by decide +kernel
  shows := by decide +kernel
  lists := by cbv
  copies := by decide +kernel
  api := rfl
  sheet := rfl

/-- The page of the source and the first page of the navigation are one file. -/
theorem clash_generate :
    ∃ result after, (Work.generate clash.settings blankContext).Yields (firstDesk none clash.tree)
      result after ∧ result.sourceRoots = [clash.root] ∧ ¬ result.outputs.Nodup := by
  obtain ⟨page, written, _, _, after, _, hpage, hwritten, hrun, -⟩ := clash_goes.yields_generate
  refine ⟨_, after, hrun, rfl, fun hnodup => ?_⟩
  have hfirst : page = clash.settings.destinationFolder.child "index.html".toList := by
    rw [Work.returns_transform _ _ _ _ _ _ _ hpage]
    decide +kernel
  have hmem : page ∈ written := by
    rw [Work.yields_writeNavigation_value hwritten, hfirst]
    exact List.mem_append_left _ List.mem_cons_self
  have hapart := (List.nodup_append.mp (List.nodup_append.mp hnodup).1).2.2
  exact hapart page List.mem_cons_self page hmem rfl

theorem clash_sound : clash.tree.Sound := ⟨by decide +kernel, by decide +kernel⟩

end Usual

/-! ## 8. When files go to different places -/

/-- **When the files of a run go to different places.** A run without sources writes nothing. Every
other run writes a page for each source that it finds below its roots, at the place of the source;
the pages of the navigation, at the top and in the folder of each package; and perhaps a style
sheet. No two of these are one file exactly if their places are apart. -/
theorem outputs_nodup_iff [Platform] {settings : Settings} {context : RunContext}
    {listener : Option Listener} {tree : Tree} {chance : Nat} {result : RunResult}
    (hlistener : listener.bind (·.file) = none) (hsound : tree.Sound) (hnamed : tree.Named)
    (hdestination : settings.destinationFolder.Proper)
    (hrun : (generate settings context listener tree chance).result = .ok result) :
    (result.sourceRoots = [] → result.outputs = []) ∧
    (result.sourceRoots ≠ [] → ∃ (languages : Catalog) (found : List (Path × List Text))
        (table : SymbolTable),
      Platform.found = .ok languages ∧ found.map (·.1) = result.sourceRoots ∧
      (∀ file ∈ found, ∃ later, tree.Grows later ∧
        later.scan (settings.scanned context languages) file.1 = .ok file.2) ∧
      SymbolTable.parsed tree (Cache.empty none languages)
        (settings.scanned context languages) result.sourceRoots = .ok table ∧
      result.pages = (found.flatMap fun file => file.2.map
        (pageSpot (settings.catalog context.catalog) file.1)).map
          settings.destinationFolder.pageAt ∧
      result.indexPages.Perm ((navigationSpots (table.packages.map Package.way)).map
        settings.destinationFolder.pageAt) ∧
      (result.stylesheet = none ∨
        result.stylesheet = some (settings.destinationFolder.child stylesheetName)) ∧
      (result.outputs.Nodup ↔
        Apart (found.flatMap fun file => file.2.map
          (pageSpot (settings.catalog context.catalog) file.1))
          (table.packages.map Package.way))) := by
  obtain ⟨after, hyields, -⟩ := generate_eq_ok_iff.mp ⟨hrun, rfl⟩
  refine ⟨fun hroots => ?_, fun hroots => ?_⟩
  · obtain ⟨candidates, -, hcases⟩ := Work.generate_sourceRoots hyields
    cases candidates with
    | nil =>
      obtain rfl : result = { destination := settings.destinationFolder } := hcases
      rfl
    | cons first rest =>
      obtain ⟨more, hmore⟩ := hcases
      rw [hroots] at hmore
      cases hmore
  · have htidy : Work.Tidy (firstDesk listener tree chance) := ⟨hlistener, hsound, hnamed⟩
    obtain ⟨languages, found, table, hlanguages, hfound, hscans, hparsed, hpages, hindex, hsheet⟩ :=
      Work.generate_outputs htidy hdestination hyields hroots
    exact ⟨languages, found, table, hlanguages, hfound, hscans, hparsed, hpages, hindex, hsheet,
      outputs_nodup_iff_of_spots hpages hindex hsheet⟩

section Usual

attribute [local instance] Platform.usual

theorem outputs_nodup_iff_clash :
    ∃ result, (generate clash.settings blankContext none clash.tree).result = .ok result ∧
      result.sourceRoots = [clash.root] ∧
      ∃ (found : List (Path × List Text)) (table : SymbolTable),
        found.map (·.1) = [clash.root] ∧
        (result.outputs.Nodup ↔
          Apart (found.flatMap fun file => file.2.map
            (pageSpot (clash.settings.catalog blankContext.catalog) file.1))
            (table.packages.map Package.way)) := by
  obtain ⟨result, after, hyields, hroots, -⟩ := clash_generate
  have hrun := (generate_eq_ok_iff.mpr ⟨after, hyields, rfl⟩).1
  have hsome : result.sourceRoots ≠ [] := by
    rw [hroots]
    exact List.cons_ne_nil _ _
  have hnamed : clash.tree.Named := by
    unfold Tree.Named
    decide +kernel
  obtain ⟨_, found, table, -, hfound, -, -, -, -, -, hiff⟩ :=
    (outputs_nodup_iff rfl clash_sound hnamed (by decide) hrun).2 hsome
  exact ⟨result, hrun, hroots, found, table, hfound.trans hroots, hiff⟩

/-- The page of the source is written over by a page of the navigation. -/
theorem page_written_over :
    ∃ result, (generate clash.settings blankContext none clash.tree).result = .ok result ∧
      ¬ result.outputs.Nodup := by
  obtain ⟨result, after, hyields, -, hclash⟩ := clash_generate
  exact ⟨result, (generate_eq_ok_iff.mpr ⟨after, hyields, rfl⟩).1, hclash⟩

end Usual

end CodeAtlas
