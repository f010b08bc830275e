/-
  File:      CodeAtlas/Proofs/Run/Again.lean
  Subject:   The steps of a run, when it is repeated on the tree that it leaves.

  Every step of a run repeats, if what it reads lies beside the destination.

  * `Rerun.repeats_process`: a root that is read was there before the run.
  * `Rerun.repeats_transformRoot`: the pages of the sources below a root.
  * `Rerun.repeats_writeNavigation`: the pages of the navigation.
  * `Rerun.repeats_copyStylesheet`: the style sheet, copied or not.
-/
import CodeAtlas.Proofs.Run.Echo
import CodeAtlas.Proofs.Template.BuiltIn

namespace CodeAtlas

open Work
open Template (Renderer)

/-! ## 1. Reading -/

/-- A file that is the same in two trees is got in the same way. -/
theorem Cache.get_of_read [Platform] {cache : Cache} {tree other : Tree} {path : Path}
    (hread : ∀ key, path.resolve = .ok key → ∀ bytes,
      tree.read key = .ok bytes ↔ other.read key = .ok bytes)
    {found : SourceFile × Cache} (h : cache.get tree path = .ok found) :
    cache.get other path = .ok found := by
  unfold get at h ⊢
  cases hkey : path.resolve with
  | error fault =>
    rw [hkey] at h
    cases h
  | ok key =>
    rw [hkey] at h
    simp only [Except.mapError, bind, Except.bind] at h ⊢
    split at h
    · exact h
    · cases hsource : SourceFile.load tree key cache.encoding (cache.catalog.languageFor key) with
      | error failure =>
        rw [hsource] at h
        cases h
      | ok source =>
        obtain ⟨bytes, hbytes, hmade⟩ := SourceFile.load_eq_ok_iff.mp hsource
        have hload : SourceFile.load other key cache.encoding (cache.catalog.languageFor key) =
            .ok source :=
          SourceFile.load_eq_ok_iff.mpr ⟨bytes, (hread key hkey bytes).mp hbytes, hmade⟩
        rw [hload]
        rw [hsource] at h
        exact h

theorem Tree.readSource_of_read [Platform] {tree other : Tree} {path : Path}
    (hread : ∀ bytes, tree.read path = .ok bytes ↔ other.read path = .ok bytes)
    {encoding text : Text} (h : tree.readSource path encoding = .ok text) :
    other.readSource path encoding = .ok text := by
  unfold readSource at h ⊢
  rcases Tree.readText_cases hread encoding with he | ⟨_, _, hfault, -⟩
  · rw [← he]
    exact h
  · rw [hfault] at h
    cases h

/-- A path that a scan gives: a way of names. -/
def IsWay (relative : Text) : Prop :=
  ∃ names, (∀ name ∈ names, Path.IsName name) ∧ Path.ofText relative = ⟨.relative, names⟩

namespace Rerun

variable {rerun : Rerun} {root path : Path}

theorem Mirrors.read {tree other : Tree} (h : rerun.Mirrors tree other)
    (hfinal : tree.Grows rerun.final) (hsafe : rerun.Safe path) (bytes : Bytes) :
    tree.read path = .ok bytes ↔ other.read path = .ok bytes :=
  (Tree.read_of_safe rerun.sound h.around hfinal hsafe).trans
    (Tree.read_of_safe rerun.sound h.around' h.grows hsafe).symm

theorem Safe.join {relative : Text} (h : rerun.Safe root) (hway : IsWay relative) :
    rerun.Safe (root.join (Path.ofText relative)) := by
  obtain ⟨names, hnames, hpath⟩ := hway
  rw [hpath]
  exact h.append (fun hm => (hnames _ hm).2.2.1 rfl) rfl

theorem Safe.join_resolved {relative : Text} (h : rerun.Safe root.resolved)
    (hway : IsWay relative) : rerun.Safe (root.join (Path.ofText relative)).resolved := by
  obtain ⟨names, hnames, hpath⟩ := hway
  have hdown : ['.', '.'] ∉ names := fun hm => (hnames _ hm).2.2.1 rfl
  rw [hpath]
  refine h.append hdown ?_
  show Path.descend [] (root.segments ++ names) = Path.descend [] root.segments ++ names
  rw [Path.descend_append, Path.descend_eq_append hdown]

/-- A root as it is once a leading `~` has been replaced: it shows the same, and nothing below it
starts in a home folder. The empty path, below which a name could, leads to the root of all
files, which is not beside the destination. -/
structure Whole (rerun : Rerun) (root : Path) : Prop where
  account : root.account? = none
  safe : rerun.Safe root

theorem Whole.account?_join (h : rerun.Whole root) (relative : Text) :
    (root.join (Path.ofText relative)).account? = none := by
  unfold Path.join
  split
  · rename_i habsolute
    exact Path.account?_of_isAbsolute habsolute
  · have haccount := h.account
    obtain ⟨anchor, segments⟩ := root
    cases segments with
    | nil => exact absurd List.nil_prefix h.safe.beside.2
    | cons first rest =>
      cases anchor with
      | relative =>
        cases first with
        | nil => rfl
        | cons c word =>
          by_cases htilde : c = '~'
          · subst htilde
            cases haccount
          · simp [Path.account?, htilde]
      | root | doubleRoot | builtIn => rfl

section Reading

variable [Platform]

theorem Whole.expand (h : rerun.Whole root) : root.expand = .ok root :=
  Path.expand_of_account h.account

/-- What a file below a root is kept under in the cache shows the same. -/
theorem Whole.resolve_join (h : rerun.Whole root) (hresolved : rerun.Safe root.resolved)
    {relative : Text} (hway : IsWay relative) {key : Path}
    (hkey : (root.join (Path.ofText relative)).resolve = .ok key) : rerun.Safe key := by
  rw [Path.resolve_eq_resolved (Path.expand_of_account (h.account?_join relative)) hkey]
  exact hresolved.join_resolved hway

theorem repeats_fetch (path : Path) :
    rerun.Repeats (fun _ => ∀ key, path.resolve = .ok key → rerun.Safe key) (fetch path)
      fun _ _ => True := by
  unfold fetch
  refine repeats_survey (fun survey => report (Survey.readingRecords survey.cache path) >>= fun _ =>
    _) fun survey => ?_
  refine (repeats_report _ fun _ hpre => hpre.1).bind fun _ => ?_
  have hget : rerun.Shows (fun _ => ∀ key, path.resolve = .ok key → rerun.Safe key)
      (fun desk => desk.survey.cache.get desk.tree path) fun _ => True := by
    refine ⟨fun _ _ _ _ => trivial, fun hechoes hsafe hfinal hfound => ?_⟩
    rw [hechoes.survey]
    exact Cache.get_of_read (fun key hkey => hechoes.trees.read hfinal (hsafe key hkey)) hfound
  have hkept : ∀ survey (found : SourceFile × Cache), rerun.Repeats
      (fun desk => True ∧ (∀ key, path.resolve = .ok key → rerun.Safe key) ∧ desk.survey = survey)
      (onSurvey ({ · with cache := found.2 }) >>= fun _ => pure found.1)
      fun (_ : SourceFile) _ => True := fun survey found =>
    (repeats_onSurvey _ fun _ _ => trivial).bind fun _ => repeats_pure _ fun _ _ => trivial
  have hlook := repeats_look _ hget hkept
  exact hlook

/-- The resolved form of a safe path is safe, if something is there. -/
theorem Safe.resolved {tree : Tree} (h : rerun.Safe root)
    (haround : rerun.base.Around rerun.zone tree) {selection : Selection} {paths : List Text}
    (hscan : tree.scan selection root.resolved = .ok paths) : rerun.Safe root.resolved := by
  have hup := Path.up_not_mem_descend root.segments
  obtain ⟨whole, location, hexpand, hlocate, hfolder, -⟩ := Tree.scan_eq_ok_iff.mp hscan
  cases (Path.expand_resolved root).symm.trans hexpand
  have hlocation : location = Path.descend [] root.segments := by
    rw [Tree.follow_eq_descend (Tree.locate_eq_ok_iff.mp hlocate).2]
    exact (Path.descend_eq_append hup).trans (List.nil_append _)
  subst hlocation
  rw [haround.entryAt? h.beside] at hfolder
  exact Path.safe_of_entry rerun.sound rfl hup (hfolder ▸ Option.some_ne_none _) h.beside

/-- A root that shows the same is scanned in the same way. -/
theorem sourcePaths_of_safe {survey : Survey} {tree : Tree} {paths : List Text}
    (haround : rerun.base.Around rerun.zone tree) (hfinal : tree.Grows rerun.final)
    (hexpand : root.expand = .ok root) (hsafe : rerun.Safe root) :
    survey.sourcePaths tree root = .ok paths ↔ survey.sourcePaths rerun.base root = .ok paths := by
  rw [Survey.sourcePaths_eq_ok_iff, Survey.sourcePaths_eq_ok_iff,
    Tree.scan_of_safe rerun.sound haround hfinal hsafe hexpand]
  refine and_congr_right fun _ => exists_congr fun whole => exists_congr fun location =>
    and_congr_right fun hwhole => ?_
  cases hexpand.symm.trans hwhole
  rw [Tree.locate_of_safe rerun.sound haround hfinal hsafe]
  refine and_congr_right fun hlocate => ?_
  rw [haround.listedDepth
    (Tree.beside_of_whereabouts hsafe (Tree.whereabouts_eq_some_iff.mpr hlocate))]

/-- Scanning a root, if it is safe whenever it can be scanned. -/
theorem repeats_sourcePaths (root : Path) :
    rerun.Repeats
      (fun _ => root.expand = .ok root ∧
        ∀ (tree : Tree) (selection : Selection) (paths : List Text),
          rerun.base.Around rerun.zone tree → tree.scan selection root = .ok paths → rerun.Safe root)
      (sourcePaths root) fun paths _ => rerun.Safe root ∧ ∀ relative ∈ paths, IsWay relative := by
  refine repeats_of_same (fun hyields => (yields_sourcePaths.mp hyields).2) ?_ ?_
  · intro desk paths hinside hpre hfinal hyields
    obtain ⟨hpaths, -⟩ := yields_sourcePaths.mp hyields
    have hsafe := hpre.2 _ _ _ hinside.around (Survey.scan_of_sourcePaths hpaths)
    refine ⟨hsafe, fun relative hm => ?_⟩
    have hbase := (sourcePaths_of_safe hinside.around hfinal hpre.1 hsafe).mp hpaths
    obtain ⟨names, -, hnames, hpath⟩ :=
      Tree.ofText_of_scan rerun.named (Survey.scan_of_sourcePaths hbase) hm
    exact ⟨names, hnames, hpath⟩
  · intro desk other paths hechoes hpre hfinal hyields
    obtain ⟨hpaths, -⟩ := yields_sourcePaths.mp hyields
    have htrees := hechoes.trees
    have hsafe := hpre.2 _ _ _ htrees.around (Survey.scan_of_sourcePaths hpaths)
    refine yields_sourcePaths.mpr ⟨?_, rfl⟩
    rw [hechoes.survey]
    exact (sourcePaths_of_safe htrees.around' htrees.grows hpre.1 hsafe).mpr
      ((sourcePaths_of_safe htrees.around hfinal hpre.1 hsafe).mp hpaths)

theorem repeats_readFiles (folder : Path) (paths : List Text) :
    rerun.Repeats
      (fun _ => (rerun.Whole folder ∧ rerun.Safe folder.resolved) ∧
        ∀ relative ∈ paths, IsWay relative)
      (readFiles folder paths) fun _ _ => True := by
  induction paths with
  | nil => exact repeats_pure () fun _ _ => trivial
  | cons relative paths ih =>
    unfold readFiles
    have hfetch := (@repeats_fetch rerun _ (folder.join (Path.ofText relative))).fact
      ((rerun.Whole folder ∧ rerun.Safe folder.resolved) ∧ ∀ other ∈ paths, IsWay other)
    refine (hfetch.mono (fun _ hpre => ?_) fun _ _ hpost => hpost.1).bind fun source => ?_
    · obtain ⟨hfirst, hrest⟩ := List.forall_mem_cons.mp hpre.2
      exact ⟨⟨hpre.1, hrest⟩, fun key => hpre.1.1.resolve_join hpre.1.2 hfirst⟩
    · exact (repeats_onSurvey _ fun _ hpre => hpre).bind fun _ => ih

/-- **Reading a root.** One that is read was there before the run. -/
theorem repeats_process (root : Path) :
    rerun.Repeats (fun _ => rerun.Whole root) (process root)
      fun fresh _ => fresh = true → rerun.Safe root.resolved := by
  unfold process
  cases hkey : root.resolve with
  | error fault => exact repeats_throw (Failure.file fault)
  | ok key =>
    obtain ⟨whole, hexpand, -, rfl⟩ := Path.resolve_eq_ok_iff.mp hkey
    change rerun.Repeats _ (do
      let desk ← get
      if desk.survey.roots.contains whole.resolved then pure false
      else
        onSurvey (·.mark whole.resolved)
        report [Survey.scanningRecord whole.resolved]
        readFiles whole.resolved (← sourcePaths whole.resolved)
        pure true) _
    refine repeats_survey (fun survey =>
      if survey.roots.contains whole.resolved then pure false
      else
        onSurvey (·.mark whole.resolved) >>= fun _ => _) fun survey => ?_
    split
    · exact repeats_pure _ fun _ _ hfalse => nomatch hfalse
    · refine (repeats_onSurvey _ fun _ hpre => hpre.1).bind fun _ => ?_
      refine (repeats_report _ fun _ hpre => hpre).bind fun _ => ?_
      have hpaths := (@repeats_sourcePaths rerun _ whole.resolved).fact (rerun.Whole root)
      refine (hpaths.mono (fun _ hroot => ⟨hroot, Path.expand_resolved whole,
        fun tree selection paths haround hscan => ?_⟩) fun _ _ h => h).bind fun paths => ?_
      · cases hroot.expand.symm.trans hexpand
        exact hroot.safe.resolved haround hscan
      · have hread := (@repeats_readFiles rerun _ whole.resolved paths).fact
          (rerun.Safe root.resolved)
        refine (hread.mono (fun _ hpre => ?_) fun _ _ hpost => hpost.1).bind
          fun _ => repeats_pure true fun _ hsafe _ => hsafe
        obtain ⟨hroot, hresolved, hways⟩ := hpre
        cases hroot.expand.symm.trans hexpand
        refine ⟨hresolved, ⟨⟨Path.account?_resolved root, hresolved⟩, ?_⟩, hways⟩
        rw [Path.resolved_resolved]
        exact hresolved

/-! ## 2. Pages -/

theorem repeats_transform (language : Language) (path target : Path) (options : PageOptions) :
    rerun.Repeats
      (fun _ => rerun.Safe path ∧ (∀ key, path.resolve = .ok key → rerun.Safe key) ∧
        rerun.Below target)
      (transform language path target options) fun _ _ => True := by
  unfold transform
  have hfetch := (@repeats_fetch rerun _ path).fact (rerun.Safe path ∧ rerun.Below target)
  refine (hfetch.mono (fun _ hpre => ⟨⟨hpre.1, hpre.2.2⟩, hpre.2.1⟩)
    fun _ _ hpost => hpost.1).bind fun source => ?_
  have htext : rerun.Shows (fun _ => rerun.Safe path ∧ rerun.Below target)
      (fun desk => desk.tree.readSource path (inputEncoding options desk.survey.cache))
      fun _ => True := by
    refine ⟨fun _ _ _ _ => trivial, fun hechoes hpre hfinal htext => ?_⟩
    rw [hechoes.survey]
    exact Tree.readSource_of_read (hechoes.trees.read hfinal hpre.1) htext
  refine repeats_look (fun survey text => report _ >>= fun _ => Work.ofExcept (fitLines text) >>=
    fun lines => (onTree fun tree => tree.publish target options.outputEncoding
      ((Markup.Linker.ofLanguage source survey.table language).page lines options
        ⟨.root, []⟩ (some target.parent))) >>= fun _ => pure target) htext fun survey text => ?_
  refine (repeats_report _ fun _ hpre => hpre.2.1.2).bind fun _ => ?_
  refine (repeats_ofExcept fun _ _ hbelow _ => hbelow).bind fun lines => ?_
  exact (repeats_publish _ _ _).bind fun _ => repeats_pure _ fun _ _ => trivial

omit [Platform] in
theorem below_child (name : Text) : rerun.Below (rerun.destination.child name) :=
  ⟨[], name, List.not_mem_nil, congrArg (· ++ _) (List.append_nil _).symm⟩

omit [Platform] in
theorem below_pageAt {spot : Spot} (h : ['.', '.'] ∉ spot.1) :
    rerun.Below (rerun.destination.pageAt spot) :=
  ⟨spot.1, spot.2 ++ ".html", h, rfl⟩

theorem repeats_transformRoot (catalog : Catalog) (options : PageOptions) (root : Path) :
    rerun.Repeats (fun _ => rerun.Whole root ∧ rerun.Safe root.resolved)
      (transformRoot catalog rerun.destination options root) fun _ _ => True := by
  have hpaths := (@repeats_sourcePaths rerun _ root).fact
    (rerun.Whole root ∧ rerun.Safe root.resolved)
  refine (hpaths.mono (fun _ hpre => ⟨hpre, hpre.1.expand, fun _ _ _ _ _ => hpre.1.safe⟩)
    fun _ _ hpost => hpost).bind fun paths => ?_
  refine Repeats.mapM
    (fun relative => (rerun.Whole root ∧ rerun.Safe root.resolved) ∧ IsWay relative)
    (fun _ hpre relative hm => ⟨hpre.1, hpre.2.2 relative hm⟩) fun relative _ => ?_
  refine (repeats_transform _ _ _ _).mono (fun _ hpre => ?_) fun _ _ h => h
  obtain ⟨⟨hroot, hresolved⟩, hway⟩ := hpre
  refine ⟨hroot.safe.join hway, fun key => hroot.resolve_join hresolved hway, ?_⟩
  obtain ⟨names, hnames, hpath⟩ := hway
  rw [pagePath_eq hpath]
  have hsegments : (Path.ofText relative).segments = names := by rw [hpath]
  exact below_pageAt fun hm => (hnames _ (hsegments ▸ List.mem_of_mem_dropLast hm)).2.2.1 rfl

end Reading

end Rerun

/-- The folder in which the API documentation is looked for. -/
def Settings.apiPath (settings : Settings) : Path :=
  settings.api.folder.getD (settings.destinationFolder.parent.child "apidocs")

namespace Rerun

variable {rerun : Rerun}

theorem repeats_isFolder {pre : Desk → Prop} {folder : Path} (h : rerun.Safe folder) :
    rerun.Repeats pre (ask (·.isFolder folder)) fun _ after => pre after := by
  have hask := @repeats_ask rerun Bool pre (·.isFolder folder) fun haround hfinal =>
    Tree.isFolder_of_safe rerun.sound haround hfinal h
  exact hask.mono (fun _ hpre => hpre) fun _ _ hpost => hpost.1

theorem repeats_apiFolder (settings : Settings)
    (hsafe : settings.api.enabled = true → rerun.Safe settings.apiPath) :
    rerun.Repeats (fun _ => True) (apiFolder settings) fun _ _ => True := by
  unfold apiFolder
  split
  · exact repeats_pure none fun _ _ => trivial
  · rename_i henabled
    have hfolder : rerun.Safe settings.apiPath := hsafe (by simpa using henabled)
    unfold Settings.apiPath at hfolder
    split
    · rename_i folder hnamed
      rw [hnamed] at hfolder
      refine (repeats_isFolder hfolder).bind fun found => ?_
      split
      · exact repeats_pure _ fun _ _ => trivial
      · exact (repeats_report _ fun _ _ => trivial).bind fun _ =>
          repeats_pure none fun _ _ => trivial
    · rename_i hnamed
      rw [hnamed] at hfolder
      refine (repeats_isFolder hfolder).bind fun found => ?_
      exact repeats_pure _ fun _ _ => trivial

end Rerun

/-! ## 3. Navigation -/

namespace Work

variable [Platform]

/-- Writes a navigation page whose text is there. -/
def putPage (encoding : Text) (target : Path) (page : Text) : Work Path := do
  onTree fun tree => tree.publish target encoding page
  report [Stage.indexing.record .debug ("Wrote " ++ target.toText)]
  pure target

theorem writePage_eq (renderer : Renderer) (encoding : Text) (folder : Path)
    (scope : Template.Scope) (name : Text) :
    writePage renderer encoding folder scope name = (do
      let desk ← get
      Work.ofExcept (renderer.render desk.chance desk.tree name scope) >>=
        putPage encoding (folder.child (name ++ ".html"))) := by
  unfold writePage
  refine bind_congr fun desk => ?_
  cases renderer.render desk.chance desk.tree name scope <;> rfl

/-- Writes all navigation pages for a table. -/
def navigate (renderer : Renderer) (root : Path) (options : NavigationOptions)
    (table : SymbolTable) : Work (List Path) := do
  let index := ProjectIndex.ofTable table
  let scope := index.scope options
  let write := writePage renderer options.outputEncoding
  let atRoot ← rootPages.mapM (write root scope)
  let inPackages ← index.packages.mapM fun (_, entry) =>
    packagePages.mapM (write (root.join (Path.ofText entry.folder)) (entry.scope scope))
  let written := atRoot ++ inPackages.flatten
  report [Stage.indexing.record .info ("Wrote " ++ Text.ofNat written.length ++
    " index pages for " ++ Text.ofNat index.packages.length ++ " packages")]
  pure written

theorem writeNavigation_eq (renderer : Renderer) (root : Path) (options : NavigationOptions) :
    writeNavigation renderer root options =
      (do let desk ← get; navigate renderer root options desk.survey.table) := rfl

end Work

/-- Every package is in a table once, and has a name as sources give it. -/
structure SymbolTable.Fit (table : SymbolTable) : Prop where
  once : table.EachOnce
  named : ∀ package ∈ table.packages, package.IsNamed

theorem SymbolTable.Fit.folder {table : SymbolTable} (h : table.Fit) {entry : Text × PackageEntry}
    (hm : entry ∈ (ProjectIndex.ofTable table).packages) :
    ∃ way, ['.', '.'] ∉ way ∧ Path.ofText entry.2.folder = ⟨.relative, way⟩ := by
  have hperm := ProjectIndex.packages_perm h.once h.named
  obtain ⟨package, hpackage, he⟩ := List.mem_map.mp (hperm.mem_iff.mp (List.mem_map_of_mem hm))
  refine ⟨package.way, fun hup => (Package.isName_of_mem_way hup).2.2.1 rfl, ?_⟩
  rw [← he]
  exact (h.named package hpackage).ofText_folder

namespace Rerun

variable [Platform] {rerun : Rerun}

/-- All templates are looked for in folders that show the same, and what is made of those for the
pages of the navigation is settled. -/
structure KeepsTemplates (rerun : Rerun) (renderer : Renderer) : Prop where
  folders : ∀ folder ∈ renderer.folders, rerun.Kept folder
  settled : ∀ name ∈ rootPages ++ packagePages, renderer.Settled rerun.base name

theorem repeats_writePage (renderer : Renderer) (encoding : Text) (folder : Path)
    (scope : Template.Scope) {name : Text} (hname : name ∈ rootPages ++ packagePages) :
    rerun.Repeats
      (fun _ => rerun.KeepsTemplates renderer ∧ rerun.Below (folder.child (name ++ ".html")))
      (writePage renderer encoding folder scope name)
      fun _ after => after.tree.Made folder after.tree := by
  have hrender : rerun.Shows
      (fun _ => rerun.KeepsTemplates renderer ∧ rerun.Below (folder.child (name ++ ".html")))
      (fun desk => renderer.render desk.chance desk.tree name scope) fun _ => True := by
    refine ⟨fun _ _ _ _ => trivial, fun {desk other page} hechoes hpre hfinal hpage => ?_⟩
    have htrees := hechoes.trees
    have hsame := Template.sameTemplates_of_kept rerun.sound htrees.around hfinal hpre.1.folders
    have hsame' :=
      Template.sameTemplates_of_kept rerun.sound htrees.around' htrees.grows hpre.1.folders
    have hsize := (hfinal.trans htrees.grown).length_le htrees.around.sound
    exact hpre.1.settled name hname _ _ _ _ _ _ hsame hsame' hsize hpage
  rw [writePage_eq]
  refine repeats_look (fun _ page => putPage encoding (folder.child (name ++ ".html")) page) hrender
    fun survey page => ?_
  unfold putPage
  have hpublish := @repeats_publish rerun _ (folder.child (name ++ ".html")) encoding page
  rw [Path.parent_child] at hpublish
  refine ((hpublish.fact True).mono (fun _ hpre => ⟨trivial, hpre.2.1.2⟩)
    fun _ _ hpost => hpost).bind fun _ => ?_
  refine ((repeats_report _ fun _ htrue => htrue).standing folder).bind fun _ => ?_
  exact repeats_pure _ fun _ hpost => hpost.2

theorem repeats_rootPages (renderer : Renderer) (encoding : Text) (scope : Template.Scope) :
    rerun.Repeats (fun _ => rerun.KeepsTemplates renderer)
      (rootPages.mapM (writePage renderer encoding rerun.destination scope))
      fun _ after => after.tree.Made rerun.destination after.tree := by
  have hpage {name : Text} (hname : name ∈ rootPages) :
      rerun.Repeats (fun _ => rerun.KeepsTemplates renderer)
        (writePage renderer encoding rerun.destination scope name)
        fun _ after => after.tree.Made rerun.destination after.tree :=
    (repeats_writePage _ _ _ _ (List.mem_append_left _ hname)).mono
      (fun _ hkeeps => ⟨hkeeps, below_child _⟩) fun _ _ hpost => hpost
  have hrest {names : List Text} (hnames : ∀ name ∈ names, name ∈ rootPages) :
      rerun.Repeats (fun _ => rerun.KeepsTemplates renderer)
        (names.mapM (writePage renderer encoding rerun.destination scope)) fun _ _ => True :=
    Repeats.mapM (fun _ => rerun.KeepsTemplates renderer) (fun _ hkeeps _ _ => hkeeps)
      fun name hm => (hpage (hnames name hm)).mono (fun _ hkeeps => hkeeps) fun _ _ _ => trivial
  have hcons : rootPages = "index".toList :: rootPages.tail := rfl
  rw [hcons, List.mapM_cons]
  have hfirst := (hpage (List.mem_cons_self : "index".toList ∈ rootPages)).fact
    (rerun.KeepsTemplates renderer)
  refine (hfirst.mono (fun _ hkeeps => ⟨hkeeps, hkeeps⟩) fun _ _ hpost => hpost).bind fun _ => ?_
  exact ((hrest fun _ hm => List.mem_of_mem_tail hm).standing rerun.destination).bind fun _ =>
    repeats_pure _ fun _ hpost => hpost.2

theorem repeats_packagePages {table : SymbolTable} (renderer : Renderer) (encoding : Text)
    (scope : Template.Scope) :
    rerun.Repeats (fun _ => rerun.KeepsTemplates renderer ∧ table.Fit)
      ((ProjectIndex.ofTable table).packages.mapM fun (_, entry) =>
        packagePages.mapM (writePage renderer encoding
          (rerun.destination.join (Path.ofText entry.folder)) (entry.scope scope)))
      fun _ _ => True := by
  refine Repeats.mapM (fun entry => rerun.KeepsTemplates renderer ∧
    ∃ way, ['.', '.'] ∉ way ∧ Path.ofText entry.2.folder = ⟨.relative, way⟩)
    (fun _ hpre entry hm => ⟨hpre.1, hpre.2.folder hm⟩) fun entry _ => ?_
  refine Repeats.mapM (fun _ => rerun.KeepsTemplates renderer ∧
    ∃ way, ['.', '.'] ∉ way ∧ Path.ofText entry.2.folder = ⟨.relative, way⟩)
    (fun _ hpre _ _ => hpre) fun name hname => ?_
  refine (repeats_writePage _ _ _ _ (List.mem_append_right _ hname)).mono (fun _ hpre => ?_)
    fun _ _ _ => trivial
  obtain ⟨hkeeps, way, hway, hpath⟩ := hpre
  refine ⟨hkeeps, way, name ++ ".html", hway, ?_⟩
  rw [hpath]
  rfl

/-- **The navigation.** After it the destination is there. -/
theorem repeats_writeNavigation (renderer : Renderer) (options : NavigationOptions) :
    rerun.Repeats (fun desk => rerun.KeepsTemplates renderer ∧ desk.survey.table.Fit)
      (writeNavigation renderer rerun.destination options)
      fun _ after => after.tree.Made rerun.destination after.tree := by
  rw [writeNavigation_eq]
  refine repeats_survey (fun survey => navigate renderer rerun.destination options survey.table)
    fun survey => ?_
  unfold navigate
  have hroot := (@repeats_rootPages _ rerun renderer options.outputEncoding
    ((ProjectIndex.ofTable survey.table).scope options)).fact
      (rerun.KeepsTemplates renderer ∧ survey.table.Fit)
  refine (hroot.mono (fun desk hpre => ?_) fun _ _ hpost => hpost).bind fun atRoot => ?_
  · obtain ⟨⟨hkeeps, hfit⟩, hsurvey⟩ := hpre
    rw [hsurvey] at hfit
    exact ⟨⟨hkeeps, hfit⟩, hkeeps⟩
  · refine ((repeats_packagePages _ _ _).standing rerun.destination).bind fun inPackages => ?_
    refine ((repeats_report _ fun _ htrue => htrue).standing rerun.destination).bind fun _ => ?_
    exact repeats_pure _ fun _ hpost => hpost.2

end Rerun

/-- The templates for a version are among those that come with the program. -/
theorem Template.Renderer.builtIn_of_ofVersion [Platform] {version : Option Text}
    {renderer : Renderer} {records : List Record}
    (h : Renderer.ofVersion version = .ok (renderer, records)) :
    (∀ folder ∈ renderer.folders, folder.anchor = .builtIn) ∧
      renderer.engine = Template.Engine.interpreter := by
  rcases ofVersion_cases version with ⟨generation, hg, made, hmade⟩ | ⟨digits, -, hmade⟩
  · rw [hmade] at h
    cases h
    refine ⟨fun folder hm => ?_, rfl⟩
    exact Template.anchor_of_mem_folders hg (Template.folders_ofGeneration hg ▸ hm)
  · rw [hmade] at h
    cases h

namespace Rerun

variable [Platform] {rerun : Rerun}

theorem repeats_selectRenderer {settings : Settings} {context : RunContext}
    (h : ∀ renderer ∈ settings.ownRenderer context, rerun.KeepsTemplates renderer) :
    rerun.Repeats (fun _ => True) (selectRenderer settings context)
      fun renderer _ => rerun.KeepsTemplates renderer := by
  unfold selectRenderer
  cases hrenderer : settings.ownRenderer context with
  | some renderer => exact repeats_pure renderer fun _ _ => h renderer hrenderer
  | none =>
    refine (repeats_ofExcept fun _ _ htrue _ => htrue).bind fun asked => ?_
    refine (repeats_report asked.2 fun _ htrue => htrue).bind fun _ => ?_
    refine (repeats_report _ fun _ htrue => htrue).bind fun _ => ?_
    refine (repeats_ofExcept fun _ _ _ hvalue => ?_).bind fun found =>
      (repeats_report found.2 fun _ hkeeps => hkeeps).bind fun _ =>
        repeats_pure found.1 fun _ hkeeps => hkeeps
    obtain ⟨hbuiltIn, hengine⟩ := Renderer.builtIn_of_ofVersion hvalue
    exact ⟨fun folder hm => Or.inl (hbuiltIn folder hm), fun name _ =>
      Template.Renderer.settled_of_interpreter hengine _ name⟩

end Rerun

/-! ## 4. The style sheet -/

namespace Work

variable [Platform]

theorem grows_copyStylesheetTo (source target : Path) {tree : Tree} (h : tree.Sound) :
    (copyStylesheetTo source target tree).1.Sound ∧
      tree.Grows (copyStylesheetTo source target tree).1 := by
  have hfolders := Tree.grows_makeFolders h target.parent
  unfold copyStylesheetTo
  generalize tree.makeFolders target.parent = outcome at hfolders
  rcases outcome with ⟨made, fault | done⟩
  · exact hfolders
  · dsimp only at hfolders ⊢
    split
    · exact hfolders
    · split
      · exact hfolders
      · split
        · rename_i bytes _ _ written hwrite
          obtain ⟨hwritable, rfl⟩ := (Tree.write_eq_ok_iff hfolders.1).mp hwrite
          exact ⟨hfolders.1.put_file hwritable bytes, hfolders.2.trans (hwritable.grows_put bytes)⟩
        · exact hfolders

theorem yields_placeStylesheet {destination source : Path} {desk after : Desk}
    {copied : Option Path} :
    (placeStylesheet destination (some source)).Yields desk copied after ↔
      ∃ tree fault, copyStylesheetTo source (destination.child stylesheetName) desk.tree =
          (tree, fault) ∧
        match fault with
        | none => copied = some (destination.child stylesheetName) ∧ after = { desk with tree }
        | some why => copied = none ∧ (announce .warning ("Unable to copy stylesheet " ++
            source.toText ++ ": " ++ why)).Yields { desk with tree } () after := by
  rcases hcopy : copyStylesheetTo source (destination.child stylesheetName) desk.tree with
    ⟨left, fault⟩
  constructor
  · intro h
    simp only [placeStylesheet, yields_bind] at h
    obtain ⟨_, _, hget, _, _, hmodify, h⟩ := h
    obtain ⟨rfl, rfl⟩ := yields_get.mp hget
    obtain rfl := yields_modify.mp hmodify
    refine ⟨left, fault, rfl, ?_⟩
    rw [hcopy] at h
    cases fault with
    | none =>
      obtain ⟨rfl, rfl⟩ := yields_pure.mp h
      exact ⟨rfl, rfl⟩
    | some why =>
      obtain ⟨_, _, hreport, h⟩ := yields_bind.mp h
      obtain ⟨rfl, rfl⟩ := yields_pure.mp h
      exact ⟨rfl, hreport⟩
  · intro h
    obtain ⟨tree, found, hsame, hcases⟩ := h
    obtain ⟨rfl, rfl⟩ := Prod.mk.inj hsame
    simp only [placeStylesheet, yields_bind]
    refine ⟨desk, desk, yields_get.mpr ⟨rfl, rfl⟩, (), _, yields_modify.mpr rfl, ?_⟩
    rw [hcopy]
    cases fault with
    | none =>
      obtain ⟨rfl, rfl⟩ := hcases
      exact yields_pure.mpr ⟨rfl, rfl⟩
    | some why =>
      obtain ⟨rfl, hreport⟩ := hcases
      exact yields_bind.mpr ⟨(), after, hreport, yields_pure.mpr ⟨rfl, rfl⟩⟩

end Work

namespace Rerun

variable {rerun : Rerun}

theorem repeats_ownStylesheet {settings : Settings}
    (h : ∀ path ∈ settings.stylesheet, rerun.Kept path) :
    rerun.Repeats (fun _ => True) (ownStylesheet settings)
      fun own _ => ∀ path ∈ own, rerun.Kept path := by
  unfold ownStylesheet
  split
  · rename_i path hpath
    have hkept : rerun.Kept path := h path hpath
    have hask := @repeats_ask rerun Bool (fun _ => True) (Template.isFile · path)
      fun haround hfinal => Template.isFile_of_kept rerun.sound haround hfinal hkept
    refine hask.bind fun found => ?_
    split
    · refine repeats_pure _ fun _ _ other hother => ?_
      cases hother
      exact hkept
    · refine (repeats_report _ fun _ hpre => hpre.1).bind fun _ => ?_
      exact repeats_pure none fun _ _ _ hother => nomatch hother
  · exact repeats_pure none fun _ _ _ hother => nomatch hother

theorem repeats_chooseStylesheet (renderer : Renderer) (own : Option Path) :
    rerun.Repeats (fun _ => rerun.KeepsTemplates renderer ∧ ∀ path ∈ own, rerun.Kept path)
      (chooseStylesheet renderer own) fun found _ => ∀ path ∈ found, rerun.Kept path := by
  cases own with
  | some path => exact repeats_pure _ fun _ hpre => hpre.2
  | none =>
    refine repeats_of_same (fun hyields => (yields_ask.mp hyields).2) ?_ ?_
    · intro desk found hinside hpre hfinal hyields path hpath
      cases hpath
      exact (Template.Renderer.stylesheet?_of_kept rerun.sound hinside.around hfinal hpre.1.folders).2 path
        (yields_ask.mp hyields).1
    · intro desk other found hechoes hpre hfinal hyields
      have htrees := hechoes.trees
      refine yields_ask.mpr ⟨?_, rfl⟩
      rw [(Template.Renderer.stylesheet?_of_kept rerun.sound htrees.around' htrees.grows hpre.1.folders).1,
        ← (Template.Renderer.stylesheet?_of_kept rerun.sound htrees.around hfinal hpre.1.folders).1]
      exact (yields_ask.mp hyields).1

/-- The place of the copy. -/
def sheet (rerun : Rerun) : Path := rerun.destination.child stylesheetName

theorem parent_sheet : rerun.sheet.parent = rerun.destination := Path.parent_child _ _

/-- A style sheet beside the destination is not the copy. -/
theorem copyFault_of_kept {source : Path} (h : rerun.Kept source) (tree : Tree) :
    copyFault tree source rerun.sheet = none := by
  unfold copyFault
  split
  · rfl
  · rename_i a b ha hb hanchor
    have hsafe : rerun.Safe source := h.resolve_left hanchor
    split
    · rename_i hsame
      have hbeside := hsafe.beside
      rw [← Tree.follow_eq_descend (Tree.locate_eq_ok_iff.mp ha).2, beq_iff_eq.mp hsame,
        Tree.follow_eq_descend (Tree.locate_eq_ok_iff.mp hb).2] at hbeside
      have hplace : Path.descend [] rerun.sheet.segments = rerun.zone ++ [stylesheetName] := by
        show Path.descend [] (rerun.destination.segments ++ [stylesheetName]) = _
        exact Path.descend_concat (by decide) [] _
      rw [hplace] at hbeside
      exact absurd (List.prefix_append _ _) hbeside.1
    · rfl
  · rfl

theorem writable_sheet {tree : Tree} (hready : tree.Made rerun.destination tree)
    (hcheck : rerun.sheet.check = .ok ())
    (hfree : tree.entryAt? (Path.descend [] rerun.sheet.segments) ≠ some .folder) :
    tree.Writable rerun.sheet := by
  exact ⟨hcheck, ⟨rerun.destination.segments, stylesheetName, rfl, by decide, by decide,
    Tree.follow_of_grows (.refl tree) hready.follow, hready.folder⟩, hfree⟩

variable [Platform]

/-- **Copying the style sheet** once the destination is there: it is put into its place, or nothing
happens. -/
theorem copyStylesheetTo_cases {tree : Tree} (hsound : tree.Sound) {source : Path}
    (hsource : rerun.Kept source) (hready : tree.Made rerun.destination tree) :
    (∃ bytes, stylesheetBytes tree source = .ok bytes ∧ tree.Writable rerun.sheet ∧
        copyStylesheetTo source rerun.sheet tree =
          (tree.put (Path.descend [] rerun.sheet.segments) (.file bytes), none)) ∨
      (∃ why, copyStylesheetTo source rerun.sheet tree = (tree, some why)) ∧
        ∀ bytes, stylesheetBytes tree source = .ok bytes → ¬ tree.Writable rerun.sheet := by
  have hfolders := hready.again hsound (.refl tree)
  rw [← parent_sheet] at hfolders
  unfold copyStylesheetTo
  rw [hfolders]
  dsimp only
  rw [copyFault_of_kept hsource]
  dsimp only
  cases hbytes : stylesheetBytes tree source with
  | error fault => exact Or.inr ⟨⟨_, rfl⟩, nofun⟩
  | ok bytes =>
    dsimp only
    cases hwrite : tree.write rerun.sheet bytes with
    | ok written =>
      obtain ⟨hwritable, rfl⟩ := (Tree.write_eq_ok_iff hsound).mp hwrite
      exact Or.inl ⟨bytes, rfl, hwritable, rfl⟩
    | error fault =>
      refine Or.inr ⟨⟨_, rfl⟩, fun _ _ hwritable => ?_⟩
      rw [(Tree.write_eq_ok_iff hsound).mpr ⟨hwritable, rfl⟩] at hwrite
      cases hwrite

theorem around_copyStylesheetTo {tree : Tree} (h : rerun.base.Around rerun.zone tree) {source : Path}
    (hsource : rerun.Kept source) (hready : tree.Made rerun.destination tree)
    (hfinal : (copyStylesheetTo source rerun.sheet tree).1.Grows rerun.final) :
    rerun.base.Around rerun.zone (copyStylesheetTo source rerun.sheet tree).1 := by
  rcases copyStylesheetTo_cases h.sound hsource hready with
    ⟨bytes, -, hwritable, hcopied⟩ | ⟨⟨why, hcopied⟩, -⟩
  · rw [hcopied] at hfinal ⊢
    obtain ⟨names, name, hnames, hpath⟩ := @below_child rerun stylesheetName
    rw [← parent_sheet] at hready
    exact h.written rerun.sound rerun.plain hnames hpath hready hwritable bytes hfinal
  · rw [hcopied]
    exact h

theorem Mirrors.copyStylesheetTo {tree other : Tree} (h : rerun.Mirrors tree other) {source : Path}
    (hsource : rerun.Kept source) (hready : tree.Made rerun.destination tree)
    (hfinal : (Work.copyStylesheetTo source rerun.sheet tree).1.Grows rerun.final) :
    (Work.copyStylesheetTo source rerun.sheet other).2.isNone =
        (Work.copyStylesheetTo source rerun.sheet tree).2.isNone ∧
      rerun.Mirrors (Work.copyStylesheetTo source rerun.sheet tree).1
        (Work.copyStylesheetTo source rerun.sheet other).1 := by
  have htree := (grows_copyStylesheetTo source rerun.sheet h.around.sound).2.trans hfinal
  have hready' := hready.of_grows h.around'.sound (htree.trans h.grown)
  have hbytes (bytes : Bytes) :
      stylesheetBytes tree source = .ok bytes ↔ stylesheetBytes other source = .ok bytes :=
    (Template.read_of_kept rerun.sound h.around htree hsource bytes).trans
      (Template.read_of_kept rerun.sound h.around' h.grows hsource bytes).symm
  rcases copyStylesheetTo_cases h.around.sound hsource hready with
    ⟨bytes, hread, hwritable, hcopied⟩ | ⟨⟨why, hcopied⟩, hnot⟩
  · rw [hcopied] at hfinal ⊢
    have hmade : tree.Made rerun.sheet.parent tree := parent_sheet.symm ▸ hready
    obtain ⟨-, hwrite, hmirrors⟩ := h.written (below_child _) hmade hwritable bytes hfinal
    have hwritable' := ((Tree.write_eq_ok_iff h.around'.sound).mp hwrite).1
    rcases copyStylesheetTo_cases h.around'.sound hsource hready' with
      ⟨bytes', hread', -, hcopied'⟩ | ⟨-, hnot⟩
    · rw [(hbytes bytes).mp hread] at hread'
      cases hread'
      rw [hcopied']
      exact ⟨rfl, hmirrors⟩
    · exact absurd hwritable' (hnot bytes ((hbytes bytes).mp hread))
  · rw [hcopied] at hfinal ⊢
    rcases copyStylesheetTo_cases h.around'.sound hsource hready' with
      ⟨bytes, hread, hwritable, -⟩ | ⟨⟨why', hcopied'⟩, -⟩
    · refine absurd (writable_sheet hready hwritable.check fun hfolder => ?_)
        (hnot bytes ((hbytes bytes).mpr hread))
      exact hwritable.free (h.grown.folder (hfinal.folder hfolder))
    · rw [hcopied']
      exact ⟨rfl, h⟩

/-- The desk once a style sheet has been copied, or not. -/
theorem calm_copyStylesheetTo {desk : Desk} {source target : Path} {tree : Tree}
    {fault : Option Text} (h : Calm desk)
    (hcopy : copyStylesheetTo source target desk.tree = (tree, fault)) :
    Calm { desk with tree } ∧ desk.tree.Grows tree := by
  have hgrows := grows_copyStylesheetTo source target h.sound
  rw [hcopy] at hgrows
  exact ⟨⟨h.quiet, hgrows.1⟩, hgrows.2⟩

theorem growing_placeStylesheet (destination source : Path) :
    Growing (placeStylesheet destination (some source)) := by
  intro desk copied after hdesk hyields
  obtain ⟨tree, fault, hcopy, hcases⟩ := yields_placeStylesheet.mp hyields
  obtain ⟨hleft, hgrows⟩ := calm_copyStylesheetTo hdesk hcopy
  cases fault with
  | none =>
    obtain ⟨-, rfl⟩ := hcases
    exact ⟨hleft, hgrows⟩
  | some why =>
    obtain ⟨hafter, hlater⟩ := growing_report _ _ _ _ hleft hcases.2
    exact ⟨hafter, hgrows.trans hlater⟩

/-- A style sheet that is copied is inside the destination. -/
theorem Inside.placeStylesheet {source : Path} {desk after : Desk} {copied : Option Path}
    (h : rerun.Inside desk) (hsource : rerun.Kept source)
    (hready : desk.tree.Made rerun.destination desk.tree)
    (hyields : (Work.placeStylesheet rerun.destination (some source)).Yields desk copied after)
    (hfinal : after.tree.Grows rerun.final) : rerun.Inside after := by
  obtain ⟨tree, fault, hcopy, hcases⟩ := yields_placeStylesheet.mp hyields
  change copyStylesheetTo source rerun.sheet desk.tree = (tree, fault) at hcopy
  have hleft (hgrows : tree.Grows rerun.final) : rerun.Inside { desk with tree } := by
    have haround := around_copyStylesheetTo h.around hsource hready
    rw [hcopy] at haround
    exact ⟨h.quiet, haround hgrows⟩
  cases fault with
  | none =>
    obtain ⟨-, rfl⟩ := hcases
    exact hleft hfinal
  | some why =>
    obtain ⟨-, hlater⟩ := growing_report _ _ _ _ (calm_copyStylesheetTo h.calm hcopy).1 hcases.2
    exact ((repeats_report _ fun _ htrue => htrue).stays (hleft (hlater.trans hfinal)) trivial
      hcases.2 hfinal).1

/-- It is copied again by the repetition, or not copied again. -/
theorem Echoes.placeStylesheet {source : Path} {desk other after : Desk} {copied : Option Path}
    (h : rerun.Echoes desk other) (hsource : rerun.Kept source)
    (hready : desk.tree.Made rerun.destination desk.tree)
    (hyields : (Work.placeStylesheet rerun.destination (some source)).Yields desk copied after)
    (hfinal : after.tree.Grows rerun.final) :
    ∃ after', (Work.placeStylesheet rerun.destination (some source)).Yields other copied after' ∧
      rerun.Echoes after after' := by
  obtain ⟨tree, fault, hcopy, hcases⟩ := yields_placeStylesheet.mp hyields
  change copyStylesheetTo source rerun.sheet desk.tree = (tree, fault) at hcopy
  obtain ⟨tree', fault', hcopy'⟩ : ∃ tree' fault',
    copyStylesheetTo source rerun.sheet other.tree = (tree', fault') := ⟨_, _, rfl⟩
  have hleft (hgrows : tree.Grows rerun.final) : fault'.isNone = fault.isNone ∧
      rerun.Echoes { desk with tree } { other with tree := tree' } := by
    have hmirrors := h.trees.copyStylesheetTo hsource hready
    rw [hcopy, hcopy'] at hmirrors
    obtain ⟨hfault, htrees⟩ := hmirrors hgrows
    exact ⟨hfault, h.survey, h.quiet, h.quiet', htrees⟩
  cases fault with
  | none =>
    obtain ⟨rfl, rfl⟩ := hcases
    obtain ⟨hfault, hafter⟩ := hleft hfinal
    obtain rfl := Option.isNone_iff_eq_none.mp hfault
    exact ⟨_, yields_placeStylesheet.mpr ⟨tree', none, hcopy', rfl, rfl⟩, hafter⟩
  | some why =>
    obtain ⟨rfl, hreport⟩ := hcases
    obtain ⟨-, hlater⟩ := growing_report _ _ _ _
      (calm_copyStylesheetTo h.inside.calm hcopy).1 hreport
    obtain ⟨hfault, hbetween⟩ := hleft (hlater.trans hfinal)
    cases fault' with
    | none => cases hfault
    | some why' =>
      obtain ⟨after', hreport', hafter⟩ := hbetween.report hreport _
      exact ⟨after', yields_placeStylesheet.mpr ⟨tree', some why', hcopy', rfl, hreport'⟩, hafter⟩

theorem repeats_placeStylesheet (found : Option Path) :
    rerun.Repeats
      (fun desk => (∀ source ∈ found, rerun.Kept source) ∧
        desk.tree.Made rerun.destination desk.tree)
      (placeStylesheet rerun.destination found) fun _ _ => True := by
  cases found with
  | none =>
    exact (repeats_report _ fun _ _ => trivial).bind fun _ => repeats_pure none fun _ _ => trivial
  | some source =>
    exact
      { growing := growing_placeStylesheet rerun.destination source
        stays := fun hinside hpre hyields hfinal =>
          ⟨hinside.placeStylesheet (hpre.1 source rfl) hpre.2 hyields hfinal, trivial⟩
        again := fun hechoes hpre hyields hfinal =>
          hechoes.placeStylesheet (hpre.1 source rfl) hpre.2 hyields hfinal }

theorem repeats_copyStylesheet {settings : Settings} (renderer : Renderer)
    (h : ∀ path ∈ settings.stylesheet, rerun.Kept path) :
    rerun.Repeats
      (fun desk => rerun.KeepsTemplates renderer ∧ desk.tree.Made rerun.destination desk.tree)
      (copyStylesheet settings renderer rerun.destination) fun _ _ => True := by
  rw [copyStylesheet_eq]
  have hown := ((repeats_ownStylesheet h).fact (rerun.KeepsTemplates renderer)).mono
    (fun _ hkeeps => ⟨hkeeps, trivial⟩) fun _ _ hpost => hpost
  have hfound := hown.bind fun own => repeats_chooseStylesheet renderer own
  exact (hfound.standing rerun.destination).bind fun found => repeats_placeStylesheet found

end Rerun

end CodeAtlas
