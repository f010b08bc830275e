/-
  File:      CodeAtlas/Proofs/Template/Found.lean
  Subject:   Templates that are found and filled in while pages are written.

  Templates are looked up anew for every page, in a tree that has grown since the last
  one. Those that come with the program are always the same. Those in a folder beside
  the zone are the same as before.

  * `Path.Kept`: a path to a built-in file, or a safe path.
  * `SameTemplates`: two trees show the same below the folders of templates. They do, if
    the folders are kept (`sameTemplates_of_kept`).
  * `Form.fillWith_of_le`: the number of parents is bounded by the size of the tree. A
    greater bound changes no page.
  * `Renderer.Settled`: what is made of a template is made of it again. That is so for the
    engine of the built-in templates (`Renderer.settled_of_interpreter`), and an engine for
    templates of one's own may leave something to chance.
-/
import CodeAtlas.Proofs.Tree.Beside
import CodeAtlas.Template.Renderer
import Mathlib.Data.List.Find

namespace CodeAtlas

/-! ## 1. Texts -/

/-- What is read from a file as a text depends on its bytes. -/
theorem Tree.readText_cases [Platform] {tree other : Tree} {path : Path}
    (h : ∀ bytes, tree.read path = .ok bytes ↔ other.read path = .ok bytes) (encoding : Text) :
    tree.readText path encoding = other.readText path encoding ∨
      ∃ fault fault', tree.readText path encoding = .error (.file fault) ∧
        other.readText path encoding = .error (.file fault') := by
  unfold readText
  cases NameFault.check encoding with
  | error fault => exact Or.inl rfl
  | ok checked =>
    cases hread : tree.read path with
    | ok bytes =>
      rw [(h bytes).mp hread]
      exact Or.inl rfl
    | error fault =>
      cases hother : other.read path with
      | ok bytes =>
        rw [(h bytes).mpr hother] at hread
        cases hread
      | error fault' => exact Or.inr ⟨fault, fault', rfl, rfl⟩

/-! ## 2. Paths to templates -/

/-- A path to a built-in file, or a safe path. -/
def Path.Kept (zone : Location) (base final : Tree) (path : Path) : Prop :=
  path.anchor = .builtIn ∨ path.Safe zone base final

namespace Path

variable {zone : Location} {base final : Tree} {path further : Path}

theorem Kept.append (h : path.Kept zone base final) {names : List Text}
    (hnames : ['.', '.'] ∉ names) (hanchor : further.anchor = path.anchor)
    (hfurther : further.segments = path.segments ++ names) : further.Kept zone base final :=
  h.imp hanchor.trans fun hsafe => hsafe.append hnames hfurther

end Path

namespace Template

theorem withBuiltIn_of_builtIn {path : Path} (h : path.anchor = .builtIn) (tree other : Tree) :
    tree.withBuiltIn path = other.withBuiltIn path := by
  unfold Tree.withBuiltIn
  rw [h]

theorem withBuiltIn_of_ne {path : Path} (h : path.anchor ≠ .builtIn) (tree : Tree) :
    tree.withBuiltIn path = (tree, path) := by
  unfold Tree.withBuiltIn
  split
  · rename_i hanchor
    exact absurd hanchor h
  · rfl

/-! ## 3. Looking templates up -/

/-- Two trees show the same below some folders: the same files are there, with the same bytes. -/
structure SameTemplates (folders : List Path) (tree other : Tree) : Prop where
  isFile : ∀ folder ∈ folders, ∀ name path, templatePath? name folder = some path →
    isFile tree path = isFile other path
  read : ∀ folder ∈ folders, ∀ name path, templatePath? name folder = some path → ∀ bytes,
    (tree.withBuiltIn path).1.read (tree.withBuiltIn path).2 = .ok bytes ↔
      (other.withBuiltIn path).1.read (other.withBuiltIn path).2 = .ok bytes

section Kept

variable {zone : Location} {base tree final : Tree} (hbase : base.Sound)
  (h : base.Around zone tree) (hfinal : tree.Grows final)
include hbase h hfinal

theorem isFile_of_kept {path : Path} (hkept : path.Kept zone base final) :
    isFile tree path = isFile base path := by
  by_cases hanchor : path.anchor = .builtIn
  · unfold isFile
    rw [withBuiltIn_of_builtIn hanchor tree base]
  · unfold isFile
    rw [withBuiltIn_of_ne hanchor, withBuiltIn_of_ne hanchor]
    exact Tree.isFile_of_safe hbase h hfinal (hkept.resolve_left hanchor)

theorem read_of_kept {path : Path} (hkept : path.Kept zone base final) (bytes : Bytes) :
    (tree.withBuiltIn path).1.read (tree.withBuiltIn path).2 = .ok bytes ↔
      (base.withBuiltIn path).1.read (base.withBuiltIn path).2 = .ok bytes := by
  by_cases hanchor : path.anchor = .builtIn
  · rw [withBuiltIn_of_builtIn hanchor tree base]
  · rw [withBuiltIn_of_ne hanchor, withBuiltIn_of_ne hanchor]
    exact Tree.read_of_safe hbase h hfinal (hkept.resolve_left hanchor)

/-- The style sheet that is found is the same, and it is kept. -/
theorem Renderer.stylesheet?_of_kept {renderer : Renderer}
    (hfolders : ∀ folder ∈ renderer.folders, folder.Kept zone base final) :
    renderer.stylesheet? tree = renderer.stylesheet? base ∧
      ∀ path, renderer.stylesheet? tree = .ok (some path) → path.Kept zone base final := by
  have hsheets : ∀ path ∈ renderer.folders.map (·.child "stylesheet.css"),
      path.Kept zone base final := by
    intro path hm
    obtain ⟨folder, hfolder, rfl⟩ := List.mem_map.mp hm
    exact (hfolders folder hfolder).append (by decide) rfl rfl
  unfold stylesheet?
  generalize renderer.folders.map (·.child "stylesheet.css") = paths at hsheets ⊢
  induction paths with
  | nil => exact ⟨rfl, nofun⟩
  | cons path paths ih =>
    have hkept := hsheets path List.mem_cons_self
    obtain ⟨hrest, hfound⟩ := ih fun other hm => hsheets other (List.mem_cons_of_mem path hm)
    simp only [List.findM?, isFile_of_kept hbase h hfinal hkept]
    cases isFile base path with
    | error fault => exact ⟨rfl, nofun⟩
    | ok found =>
      cases found with
      | false => exact ⟨hrest, hfound⟩
      | true =>
        refine ⟨rfl, fun other hother => ?_⟩
        cases hother
        exact hkept

/-- **The templates that are found are the same.** -/
theorem sameTemplates_of_kept {folders : List Path}
    (hfolders : ∀ folder ∈ folders, folder.Kept zone base final) :
    SameTemplates folders tree base := by
  have hpaths : ∀ folder ∈ folders, ∀ name path, templatePath? name folder = some path →
      path.Kept zone base final := by
    intro folder hfolder name path hpath
    unfold templatePath? at hpath
    split at hpath
    · cases hpath
    · rename_i hup
      cases hpath
      have hdown : ['.', '.'] ∉ Path.segmentsOf name := fun hm =>
        hup (List.contains_iff_mem.mpr (List.mem_filter.mp hm).1)
      exact (hfolders folder hfolder).append hdown rfl rfl
  constructor
  · intro folder hfolder name path hpath
    exact isFile_of_kept hbase h hfinal (hpaths folder hfolder name path hpath)
  · intro folder hfolder name path hpath
    exact read_of_kept hbase h hfinal (hpaths folder hfolder name path hpath)

end Kept

variable [Platform]

theorem load_of_same {folders : List Path} {tree other : Tree}
    (h : SameTemplates folders tree other) : load folders tree = load folders other := by
  funext name
  have hfind : (folders.filterMap (templatePath? name)).find?
        (fun path => (isFile tree path).toOption == some true) =
      (folders.filterMap (templatePath? name)).find?
        (fun path => (isFile other path).toOption == some true) := by
    refine List.find?_congr fun path hm => ?_
    obtain ⟨folder, hfolder, hpath⟩ := List.mem_filterMap.mp hm
    rw [h.isFile folder hfolder name path hpath]
  unfold load
  simp only [hfind]
  split
  · rfl
  · rename_i path hpath
    obtain ⟨folder, hfolder, hname⟩ := List.mem_filterMap.mp (List.mem_of_find?_eq_some hpath)
    by_cases hanchor : path.anchor = .builtIn
    · rw [withBuiltIn_of_builtIn hanchor tree other]
    · have hread := h.read folder hfolder name path hname
      rw [withBuiltIn_of_ne hanchor, withBuiltIn_of_ne hanchor] at hread ⊢
      rcases Tree.readText_cases hread "utf-8".toList with he | ⟨_, _, hfault, hfault'⟩
      · simp only [he]
      · simp only [hfault, hfault']

/-! ## 4. Parents -/

omit [Platform] in
/-- A greater bound on the number of parents changes no page. -/
theorem Form.fillWith_of_le {library : Library} {page : Scope} {fuel more : Nat} {blocks : Blocks}
    {form : Form} {text : Text} (h : form.fillWith library page fuel blocks = .ok text)
    (hle : fuel ≤ more) : form.fillWith library page more blocks = .ok text := by
  induction fuel generalizing more blocks form text with
  | zero => cases h
  | succ fuel ih =>
    cases more with
    | zero => exact absurd hle (Nat.not_succ_le_zero fuel)
    | succ more =>
      simp only [fillWith] at h ⊢
      generalize (Node.fillAll _ page form.nodes).run { blocks } = filled at h ⊢
      rcases filled with fault | ⟨words, progress⟩
      · cases h
      · simp only [bind, Except.bind] at h ⊢
        cases hparent : progress.parent with
        | none =>
          rw [hparent] at h
          exact h
        | some parent =>
          rw [hparent] at h
          simp only at h ⊢
          cases hrest : parent.fillWith library page fuel progress.blocks with
          | error fault =>
            rw [hrest] at h
            cases h
          | ok rest =>
            rw [ih hrest (Nat.le_of_succ_le_succ hle)]
            rw [hrest] at h
            exact h

/-! ## 5. Pages that are made again -/

/-- What the renderer makes of the template of a name is settled: as long as its folders show what
they show in `base`, it makes the same page of the same values again, whatever chance has in
store and however the tree has grown. -/
def Renderer.Settled (renderer : Renderer) (base : Tree) (name : Text) : Prop :=
  ∀ (tree later : Tree) (chance chance' : Nat) (page : Scope) (text : Text),
    SameTemplates renderer.folders tree base → SameTemplates renderer.folders later base →
      tree.entries.length ≤ later.entries.length →
        renderer.render chance tree name page = .ok text →
          renderer.render chance' later name page = .ok text

/-- **The engine of the built-in templates leaves nothing to chance.** -/
theorem Renderer.settled_of_interpreter {renderer : Renderer}
    (h : renderer.engine = Engine.interpreter) (base : Tree) (name : Text) :
    renderer.Settled base name := by
  intro tree later chance chance' page text htree hlater hsize hpage
  have hload : load renderer.folders later = load renderer.folders tree :=
    (load_of_same hlater).trans (load_of_same htree).symm
  unfold render at hpage ⊢
  rw [h] at hpage ⊢
  simp only [Engine.interpreter] at hpage ⊢
  rw [hload]
  cases hform : load renderer.folders tree (fileName name) with
  | error fault =>
    rw [hform] at hpage
    cases hpage
  | ok form =>
    rw [hform] at hpage
    dsimp only at hpage ⊢
    cases hnames : withOwnName (fileName name) page with
    | error fault =>
      rw [hnames] at hpage
      cases hpage
    | ok names =>
      rw [hnames] at hpage
      simp only [Except.mapError, bind, Except.bind] at hpage ⊢
      cases hfill : form.fill (load renderer.folders tree) names
          (tree.entries.length + builtInTree.entries.length + 1) with
      | error fault =>
        rw [hfill] at hpage
        cases hpage
      | ok words =>
        have hagain : form.fill (load renderer.folders tree) names
            (later.entries.length + builtInTree.entries.length + 1) = .ok words :=
          Form.fillWith_of_le hfill (by omega)
        rw [hagain]
        rw [hfill] at hpage
        exact hpage

end Template

end CodeAtlas
