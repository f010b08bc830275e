/-
  File:      CodeAtlas/Proofs/Page/StartPage.lean
  Subject:   The built-in templates make every page of the navigation.

  * `shows_startPage`: the start page of the base generation has a row for each package.
  * `renders_frameset`: that of the other generations is a set of frames, and no frame
    is filled in by it.
  * `ProjectIndex.IsPage`: the pages of the navigation, each with the names that it
    sees. `renders_page`: every generation makes every page, in every tree.
-/
import CodeAtlas.Proofs.Page.Navigation

namespace CodeAtlas

namespace Template

open Node

/-! ## 1. The texts of the start pages -/

/-- The blocks of the start page of the base generation. -/
def startBlocks : Blocks :=
  [("body", [shown "<div class=\"overview\">\n<h1>", escaped (.name "doc_title"),
     shown "</h1>\n<ul class=\"navigation\">\n<li><a href=\"overview-summary.html\">Overview</a></li>\n<li><a href=\"allclasses-frame.html\">All Classes</a></li>\n</ul>\n</div>\n<h2>Packages</h2>\n<ul class=\"packages\">\n",
     overValues "pkg" (.part (.name "info") "all_packages")
       (linkNodes "<li>" [printed (.part (.name "pkg") "dir"), shown "/",
         printed (.name "index_page")] [] [] (.part (.name "pkg") "name") "</li>\n"),
     shown "</ul>\n"]),
   ("footer", [shown "<div id=\"footer\">", printed (.name "bottom"), shown "</div>\n"])]

/-- How the set of frames starts, and how it ends. -/
def framesetStart : Text :=
  textOfLines [
    "<!DOCTYPE HTML PUBLIC \"-//W3C//DTD HTML 4.01 Frameset//EN\" \"http://www.w3.org/TR/html4/frameset.dtd\">",
    "<html lang=\"en\">",
    "<head>"] ++
  "<meta http-equiv=\"Content-Type\" content=\"text/html; charset="

def framesetEnd : Text :=
  "</title>\n" ++
  textOfLines [
    "</head>",
    "<frameset cols=\"20%,80%\" title=\"Documentation frame\">",
    "<frameset rows=\"30%,70%\" title=\"Left frames\">",
    "<frame src=\"overview-frame.html\" name=\"packageListFrame\" title=\"All Packages\" />",
    "<frame src=\"allclasses-frame.html\" name=\"packageFrame\" title=\"All classes and interfaces\" />",
    "</frameset>",
    "<frame src=\"overview-summary.html\" name=\"classFrame\" title=\"Package, class and interface descriptions\" />",
    "<noframes>",
    "<h2>Frame Alert</h2>",
    "<p>This document is designed to be viewed using frames. Link to the <a href=\"overview-summary.html\">non-frame version</a>.</p>",
    "</noframes>",
    "</frameset>",
    "</html>"]

/-- The nodes of the set of frames. -/
def framesetNodes : List Node :=
  [shown framesetStart, printed (.name "output_encoding"), shown "\" />\n<title>",
   escaped (.name "window_title"), shown framesetEnd]

set_option maxRecDepth 100000 in
theorem spells_startPage : Spells baseIndex (pageNodes startBlocks) := by
  unfold baseIndex startBlocks
  repeat rw [textOfLines_cons]
  repeat rw [String.toList_ofList]
  decide +kernel

set_option maxRecDepth 100000 in
theorem spells_frameset : Spells framesetIndex framesetNodes := by
  unfold framesetIndex framesetNodes framesetStart framesetEnd
  repeat rw [textOfLines_cons]
  repeat rw [String.toList_ofList]
  decide +kernel

theorem isTemplate_startPage :
    IsTemplate baseIndex (pageNodes startBlocks) (.child "layout.j2" startBlocks) :=
  ⟨spells_startPage, rfl, rfl⟩

theorem isTemplate_frameset : IsTemplate framesetIndex framesetNodes ⟨framesetNodes, []⟩ :=
  ⟨spells_frameset, rfl, rfl⟩

open Renderer (generationFolders fileName)

theorem load_startPage [Platform] (tree : Tree) :
    load (generationFolders baseGeneration) tree (fileName "index") =
      .ok (.child "layout.j2" startBlocks) := by
  have hread : builtInTree.read ⟨.root, builtInLocation ++ [baseGeneration, fileName "index"]⟩ =
      .ok (Encoding.utf8.encode baseIndex) := rfl
  have hfound : file? baseGeneration (fileName "index") ⟨[]⟩ =
      some ⟨.builtIn, [baseGeneration, fileName "index"]⟩ := by decide +kernel
  refine load_of_file isTemplate_startPage ?_ hread
  rw [file?_eq List.mem_cons_self]
  exact hfound

theorem load_frameset [Platform] {generation : Text} (hg : generation ∈ generations.map (·.2))
    (tree : Tree) :
    load (generationFolders generation) tree (fileName "index") = .ok ⟨framesetNodes, []⟩ := by
  have hread : ∀ generation ∈ generations.map (·.2),
      builtInTree.read ⟨.root, builtInLocation ++ [generation, fileName "index"]⟩ =
        .ok (Encoding.utf8.encode framesetIndex) := by
    unfold generations
    simp only [List.forall_mem_cons, List.map_cons, List.map_nil]
    exact ⟨rfl, rfl, rfl, nofun⟩
  have hfound : ∀ generation ∈ generations.map (·.2), file? generation (fileName "index") ⟨[]⟩ =
      some ⟨.builtIn, [generation, fileName "index"]⟩ := by decide +kernel
  refine load_of_file isTemplate_frameset ?_ (hread generation hg)
  rw [file?_eq (List.mem_cons_of_mem _ hg)]
  exact hfound generation hg

end Template

open Template

/-! ## 2. The start page is made -/

variable [Platform] (index : ProjectIndex) (options : NavigationOptions)

/-- **The start page of the base generation has a row for each package of the index**, with a link
to the table of the classes of the package. -/
theorem shows_startPage : Shows (.ofGeneration baseGeneration) "index" (index.scope options)
    (linkRows "<li>" [] "</li>\n"
      (index.packages.map fun item => (item.2.rootHref packagePage, item.2.name))) := by
  have haddress : "/".toList ++ packagePage ++ [] = '/' :: packagePage := rfl
  have hbody : FillsBlock (index.scope options) (startBlocks ++ frameBlocks) "body" _ :=
    ⟨_, rfl, fun around inherited own => fills_cons (fills_text _) (fills_cons
      (fills_escaped (Expression.means_name rfl)) (fills_cons (fills_text _) (fills_cons
        (fills_packageRows (means_packages index options around inherited own)
          (fun _ _ => fills_cons (fills_text _) (fills_last (fills_print
            (Expression.means_name rfl)))) haddress)
        (fills_last (fills_text _)))))⟩
  have hfooter : FillsBlock (index.scope options) (startBlocks ++ frameBlocks) "footer" _ :=
    ⟨_, rfl, fun _ _ _ => fills_cons (fills_text _) (fills_cons (fills_print
      (Expression.means_name rfl)) (fills_last (fills_text _)))⟩
  have htitle : FillsBlock (index.scope options) (startBlocks ++ frameBlocks) "title" _ :=
    fillsBlock_windowTitle rfl rfl
  have hencoding : Scope.Has (index.scope options) "output_encoding" _ := rfl
  have hroot : Scope.Has (index.scope options) "root_ref" _ := rfl
  intro chance tree
  obtain ⟨start, hrender⟩ := Renderer.render_of_load List.mem_cons_self
    (load_startPage tree) rfl hencoding hroot htitle hbody hfooter chance
  refine ⟨_, hrender, infix_frameText ?_⟩
  exact (List.infix_append' _ _ _).trans
    ((List.suffix_append _ _).trans (List.suffix_append _ _)).isInfix

/-- The start page of the other generations is made. -/
theorem renders_frameset {generation : Text} (hg : generation ∈ generations.map (·.2))
    (chance : Nat) (tree : Tree) : ∃ page,
      (Renderer.ofGeneration generation).render chance tree "index" (index.scope options) =
        .ok page := by
  obtain ⟨own, hown⟩ : ∃ own, withOwnName (Renderer.fileName "index")
      (index.scope options) = .ok ((index.scope options).withOwn own) :=
    exists_withOwnName _ rfl
  let library := load (Renderer.generationFolders generation) tree
  have hgives : Gives [] (Node.fillAll
      { library, page := (index.scope options).withOwn own,
        enter := fun blocks => fillBlock library (blocks.length + 1) blocks } ((index.scope options).withOwn own) framesetNodes) _ :=
    fills_cons (fills_text _) (fills_cons (fills_print (Expression.means_name rfl))
      (fills_cons (fills_text _) (fills_cons (fills_escaped (Expression.means_name rfl))
        (fills_last (fills_text _)))))
  have hfill : (⟨framesetNodes, []⟩ : Form).fill library ((index.scope options).withOwn own)
      (tree.entries.length + builtInTree.entries.length + 1) = .ok _ :=
    Form.fillWith_of_gives hgives
  unfold Renderer.render
  rw [folders_ofGeneration (List.mem_cons_of_mem _ hg)]
  simp only [Renderer.ofGeneration, Engine.interpreter, load_frameset hg tree, hown]
  refine ⟨_, congrArg (Except.mapError _) (congrArg (Except.mapError PageFault.fill) hfill)⟩

/-! ## 3. All pages are made -/

/-- A page of the navigation: the name of its template, and the names that it sees. -/
inductive ProjectIndex.IsPage : Text → Scope → Prop where
  | atRoot {name : Text} (h : name ∈ rootPages) : IsPage name (index.scope options)
  | ofPackage {name : Text} {entry : PackageEntry} (h : name ∈ packagePages)
      (hentry : entry ∈ index.packages.map (·.2)) : IsPage name (entry.scope (index.scope options))

omit [Platform] in
theorem Shows.renders {renderer : Renderer} {name text : Text} {scope : Scope}
    (h : Shows renderer name scope text) (chance : Nat) (tree : Tree) :
    ∃ page, renderer.render chance tree name scope = .ok page := by
  obtain ⟨page, hpage, -⟩ := h chance tree
  exact ⟨page, hpage⟩

variable {index options}

/-- **Every generation makes every page of the navigation**, whatever tree there is. -/
theorem renders_page {generation : Text} (hg : generation ∈ builtInGenerations) {name : Text}
    {scope : Scope} (h : index.IsPage options name scope) (chance : Nat) (tree : Tree) :
    ∃ page, (Renderer.ofGeneration generation).render chance tree name scope = .ok page := by
  cases h with
  | atRoot hname =>
    simp only [rootPages, List.mem_cons, List.not_mem_nil, or_false] at hname
    rcases hname with rfl | rfl | rfl | rfl
    · rcases List.mem_cons.mp hg with rfl | hlater
      · exact (shows_startPage index options).renders chance tree
      · exact renders_frameset index options hlater chance tree
    · exact (shows_overviewFrame hg index options).renders chance tree
    · exact (shows_allClasses hg index options).renders chance tree
    · exact (shows_overviewSummary hg index options).renders chance tree
  | @ofPackage entry hname _ =>
    simp only [packagePages, List.mem_cons, List.not_mem_nil, or_false] at hname
    rcases hname with rfl | rfl
    · exact (shows_packageSummary hg entry index options).renders chance tree
    · exact (shows_packageFrame hg entry index options).renders chance tree

end CodeAtlas
