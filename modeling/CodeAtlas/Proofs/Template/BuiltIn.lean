/-
  File:      CodeAtlas/Proofs/Template/BuiltIn.lean
  Subject:   What the built-in templates are, and where they are found.

  * `Node.parts`: how nodes are written, as far as the built-in templates have them.
  * `IsTemplate`: a text is the template of some nodes, also after it has been in a file.
  * `builtInPages`: the pages of the generation `base`, with their blocks. All of them fill
    in the blocks of a frame (`frameNodes`).
  * `builtInGenerations`: every version has the templates of one of them
    (`Renderer.ofVersion_cases`).
  * `load_page`, `load_frame`: every generation takes these pages from
    `base` and the frame from its own folder, whatever tree there is.
  * `Renderer.render_page`: the text of a page is that of the frame, with the texts of the
    blocks of the page.
-/
import CodeAtlas.Proofs.Template.Filling
import CodeAtlas.Proofs.Template.Found

namespace CodeAtlas.Template

/-! ## 1. How nodes are written -/

/-- The lexemes that an expression is read from, for the kinds that the built-in pages have. -/
def Expression.lexemes : Expression → List Lexeme
  | .name word => [.name word]
  | .part of word => of.lexemes ++ [.sign ".", .name word]
  | .call of _ _ => of.lexemes ++ [.sign "(", .sign ")"]
  | .filter of word _ _ => of.lexemes ++ [.sign "|", .name word]
  | .text words => [.string words]
  | _ => []

/-- The lexemes that a target is read from. -/
def Target.lexemes : Target → List Lexeme
  | .name word => [.name word]
  | .tuple _ => []

mutual

/-- The parts that a node is read from, for the kinds that the built-in pages have. -/
def Node.parts : Node → List Part
  | .text words _ => [.plain words]
  | .print value _ => [.value value.lexemes]
  | .each target through _ body _ _ =>
    .tag (.name "for" :: target.lexemes ++ .name "in" :: through.lexemes) ::
      (partsAll body ++ [.tag [.name "endfor"]])
  | .block name _ body _ =>
    .tag [.name "block", .name name] :: (partsAll body ++ [.tag [.name "endblock"]])
  | .extend parent _ => [.tag (.name "extends" :: parent.lexemes)]
  | .choose .. | .extendAgain => []

/-- The parts that nodes are read from. -/
def Node.partsAll : List Node → List Part
  | [] => []
  | node :: rest => node.parts ++ partsAll rest

end

namespace Node

def shown (words : Text) : Node := .text words false

def printed (value : Expression) : Node := .print value false

def escaped (value : Expression) : Node := .print (.filter value "e" [] true) false

def named (name : Text) (body : List Node) : Node := .block name ⟨false, false⟩ body false

/-- A loop over the values of a table. -/
def overValues (word : Text) (table : Expression) (body : List Node) : Node :=
  .each (.name word) (.call (.part table "values") [] true) none body [] false

end Node

/-! ## 2. Texts of templates -/

/-- A text is written as some nodes are, and comes back from a file as it is. The nodes keep the
limits. -/
def Spells (text : Text) (nodes : List Node) : Prop :=
  (Part.ofText text).toOption = some (Node.partsAll nodes) ∧
    (Encoding.utf8.decode (Encoding.utf8.encode text)).toOption = some text ∧
    Text.unifyBreaks text = text ∧ excess? nodes = none

instance (text : Text) (nodes : List Node) : Decidable (Spells text nodes) :=
  inferInstanceAs (Decidable (_ ∧ _ ∧ _ ∧ _))

/-- A text is the template of some nodes, also after it has been in a file. -/
structure IsTemplate (text : Text) (nodes : List Node) (form : Form) : Prop where
  spells : Spells text nodes
  reads : Node.ofParts (Node.partsAll nodes) = .ok nodes
  settles : Form.ofNodes nodes = .ok form

section Texts

variable {text : Text} {nodes : List Node} {form : Form} (h : IsTemplate text nodes form)
include h

theorem IsTemplate.ofText : Form.ofText text = .ok form := by
  obtain ⟨hparts, -, -, hfits⟩ := h.spells
  unfold Form.ofText
  simp only [eq_ok_of_toOption hparts, h.reads, h.settles, hfits, bind, Except.bind,
    Except.mapError]
  rfl

/-- A template that is read from a file is the one that was put there. -/
theorem IsTemplate.readText [Platform] {tree : Tree} {path : Path}
    (hread : tree.read path = .ok (Encoding.utf8.encode text)) :
    tree.readText path "utf-8" = .ok text := by
  obtain ⟨-, hdecoded, hunified, -⟩ := h.spells
  have hcheck : NameFault.check "utf-8" = .ok () := rfl
  have hknown : Encoding.named? "utf-8" = some .utf8 := rfl
  unfold Tree.readText
  rw [hcheck, hread, hknown]
  simp only [Except.mapError, bind, Except.bind, eq_ok_of_toOption hdecoded, hunified]

end Texts

/-- The lines of a text whose characters are known. With it, texts are spelled out before they
are computed with. -/
theorem textOfLines_cons (chars : Text) (lines : List String) :
    textOfLines (String.ofList chars :: lines) = chars ++ '\n' :: textOfLines lines := by
  unfold textOfLines
  rw [List.flatMap_cons, String.toList_ofList, List.append_assoc]
  rfl

/-! ## 3. The frame -/

section Nodes

open Node

/-- The nodes of a frame, which starts with a text of its own. -/
def frameNodes (start : Text) : List Node :=
  [shown start, printed (.name "output_encoding"), shown "\" />\n<title>",
   named "title" [escaped (.name "window_title")],
   shown "</title>\n<link rel=\"stylesheet\" type=\"text/css\" href=\"",
   printed (.name "root_ref"), shown "stylesheet.css\" title=\"style\" />\n</head>\n<body>\n",
   named "body" [], named "footer" [], shown "</body>\n</html>\n"]

/-- The blocks of a frame. -/
def frameBlocks : Blocks :=
  [("title", [escaped (.name "window_title")]), ("body", []), ("footer", [])]

/-- How the frame of the base generation starts. -/
def baseStart : Text :=
  "<!DOCTYPE html>\n<html lang=\"en\">\n<head>\n<meta charset=\""

/-- How the frames of the other generations start. -/
def looseStart : Text :=
  textOfLines [
    "<!DOCTYPE HTML PUBLIC \"-//W3C//DTD HTML 4.01 Transitional//EN\" \"http://www.w3.org/TR/html4/loose.dtd\">",
    "<html lang=\"en\">",
    "<head>"] ++
  "<meta http-equiv=\"Content-Type\" content=\"text/html; charset="

/-- The frames, each with its start. -/
def frames : List (Text × Text) := [(baseLayout, baseStart), (looseLayout, looseStart)]

set_option maxRecDepth 100000 in
theorem spells_frames : ∀ frame ∈ frames, Spells frame.1 (frameNodes frame.2) := by
  unfold frames baseLayout baseStart looseLayout looseStart
  repeat rw [textOfLines_cons]
  repeat rw [String.toList_ofList]
  decide +kernel

theorem isTemplate_frame {frame : Text × Text} (h : frame ∈ frames) :
    IsTemplate frame.1 (frameNodes frame.2) ⟨frameNodes frame.2, frameBlocks⟩ :=
  ⟨spells_frames frame h, rfl, rfl⟩

/-! ## 4. The pages -/

/-- The nodes of a page: it names the frame, and has blocks. -/
def pageNodes (blocks : Blocks) : List Node :=
  .extend (.text "layout.j2") true :: blocks.map fun (name, body) => named name body

def windowTitle : Node := escaped (.name "window_title")

/-- The footer, below a rule. -/
def footerBlock : Text × List Node :=
  ("footer", [shown "<hr />\n<div id=\"footer\">", printed (.name "bottom"), shown "</div>\n"])

/-- The title of the pages of a package. -/
def packageTitle : Text × List Node :=
  ("title", [windowTitle, shown " - ", escaped (.part (.name "pkg_info") "name")])

/-- A link that shows a name. Its address ends with a text; `within` stands in its tag after the
address. -/
def linkNodes (before : Text) (href : List Node) (rest within : Text) (name : Expression)
    (after : Text) : List Node :=
  shown (before ++ "<a href=\"") :: (href ++
    [shown (rest ++ ("\"" ++ (within ++ ">"))), escaped name, shown ("</a>" ++ after)])

/-- The address of a class in the folder of its package. -/
def ownHref : List Node :=
  [printed (.part (.name "cls") "filename"), shown ".html#", printed (.part (.name "cls") "name")]

def toClassFrame : Text := " target=\"classFrame\""

def toPackageFrame : Text := " target=\"packageFrame\""

def allClassesBlocks : Blocks :=
  [("title", [shown "All Classes"]),
   ("body", [shown "<h3>All Classes</h3>\n<ul>\n",
     overValues "cls" (.part (.name "info") "all_classes")
       (linkNodes "<li>" (printed (.part (.name "cls") "dir") :: shown "/" :: ownHref) []
         toClassFrame (.part (.name "cls") "name") "</li>\n"),
     shown "</ul>\n"])]

def overviewFrameBlocks : Blocks :=
  [("body", [shown "<h3><a href=\"allclasses-frame.html\" target=\"packageFrame\">All Classes</a></h3>\n<h3>Packages</h3>\n<ul>\n",
     overValues "pkg" (.part (.name "info") "all_packages")
       (linkNodes "<li>" [printed (.part (.name "pkg") "dir")] "/package-frame.html"
         toPackageFrame (.part (.name "pkg") "name") "</li>\n"),
     shown "</ul>\n"])]

def overviewSummaryBlocks : Blocks :=
  [("body", [shown "<div class=\"overview\">\n<ul>\n<li class=\"selected\">Overview</li>\n<li>Package</li>\n</ul>\n</div>\n<h1 class=\"title\">",
     escaped (.name "doc_title"),
     shown "</h1>\n<table class=\"summary\">\n<thead>\n<tr><th>Packages</th></tr>\n</thead>\n<tbody>\n",
     overValues "pkg" (.part (.name "info") "all_packages")
       (linkNodes "<tr><td>" [printed (.part (.name "pkg") "dir"), shown "/",
         printed (.name "index_page")] [] [] (.part (.name "pkg") "name") "</td></tr>\n"),
     shown "</tbody>\n</table>\n"]),
   footerBlock]

def packageFrameBlocks : Blocks :=
  [packageTitle,
   ("body", linkNodes "<h3>" [printed (.name "index_page")] [] toClassFrame
       (.part (.name "pkg_info") "name") "</h3>\n<h3>Classes</h3>\n<ul>\n" ++
     [overValues "cls" (.part (.name "pkg_info") "classes")
       (linkNodes "<li>" ownHref [] toClassFrame (.part (.name "cls") "name") "</li>\n"),
     shown "</ul>\n"])]

def packageSummaryBlocks : Blocks :=
  [packageTitle,
   ("body", [shown "<div class=\"overview\">\n<ul>\n<li><a href=\"", printed (.name "root_ref"),
     shown "overview-summary.html\">Overview</a></li>\n<li class=\"selected\">Package</li>\n</ul>\n</div>\n<h2>Package ",
     escaped (.part (.name "pkg_info") "name"),
     shown "</h2>\n<table class=\"summary\">\n<thead>\n<tr><th>Class Summary</th></tr>\n</thead>\n<tbody>\n",
     overValues "cls" (.part (.name "pkg_info") "classes")
       (linkNodes "<tr><td>" ownHref [] toClassFrame (.part (.name "cls") "name") "</td></tr>\n"),
     shown "</tbody>\n</table>\n"]),
   footerBlock]

/-- A page of the base generation: its name, its text and its blocks. -/
structure BuiltInPage where
  name : Text
  text : Text
  blocks : Blocks

/-- The pages that fill in the frame in every generation. -/
def builtInPages : List BuiltInPage :=
  [⟨"allclasses-frame", allClasses, allClassesBlocks⟩,
   ⟨"overview-frame", overviewFrame, overviewFrameBlocks⟩,
   ⟨"overview-summary", overviewSummary, overviewSummaryBlocks⟩,
   ⟨"package-frame", packageFrame, packageFrameBlocks⟩,
   ⟨"package-summary", packageSummary, packageSummaryBlocks⟩]

set_option maxRecDepth 100000 in
theorem spells_pages : ∀ page ∈ builtInPages, Spells page.text (pageNodes page.blocks) := by
  unfold builtInPages allClasses allClassesBlocks overviewFrame overviewFrameBlocks
    overviewSummary overviewSummaryBlocks packageFrame packageFrameBlocks packageSummary
    packageSummaryBlocks footerBlock
  repeat rw [textOfLines_cons]
  repeat rw [String.toList_ofList]
  decide +kernel

theorem reads_pages : ∀ page ∈ builtInPages,
    Node.ofParts (Node.partsAll (pageNodes page.blocks)) = .ok (pageNodes page.blocks) ∧
      Form.ofNodes (pageNodes page.blocks) = .ok (.child "layout.j2" page.blocks) := by
  unfold builtInPages
  simp only [List.forall_mem_cons]
  exact ⟨⟨rfl, rfl⟩, ⟨rfl, rfl⟩, ⟨rfl, rfl⟩, ⟨rfl, rfl⟩, ⟨rfl, rfl⟩, nofun⟩

theorem isTemplate_page {page : BuiltInPage} (h : page ∈ builtInPages) :
    IsTemplate page.text (pageNodes page.blocks) (.child "layout.j2" page.blocks) :=
  ⟨spells_pages page h, (reads_pages page h).1, (reads_pages page h).2⟩

end Nodes

/-! ## 5. Finding them -/

/-- The generations of the built-in templates. -/
def builtInGenerations : List Text := baseGeneration :: generations.map (·.2)

/-- A version has the templates of a generation. -/
theorem mem_generationFor {version : Option Text} {chosen : Text × List Record}
    (h : generationFor version = .ok chosen) : chosen.1 ∈ builtInGenerations := by
  unfold generationFor at h
  cases hnumbers : versionNumbers (version.getD []) with
  | error digits =>
    rw [hnumbers] at h
    cases h
  | ok numbers =>
    rw [hnumbers] at h
    simp only [bind, Except.bind] at h
    split at h
    · rename_i name hname
      cases h
      unfold generation? at hname
      obtain ⟨entry, hentry, rfl⟩ := Option.map_eq_some_iff.mp hname
      exact List.mem_cons_of_mem _ (List.mem_map_of_mem (List.mem_of_find?_eq_some hentry))
    · cases h
      exact List.mem_cons_self

/-- The templates for a version are those of a generation, unless a number of it is too long. -/
theorem Renderer.ofVersion_cases [Platform] (version : Option Text) :
    (∃ generation ∈ builtInGenerations, ∃ records,
        ofVersion version = .ok (.ofGeneration generation, records)) ∨
      ∃ digits, generationFor version = .error digits ∧
        ofVersion version = .error (.longVersion digits) := by
  unfold ofVersion
  cases hgeneration : generationFor version with
  | error digits => exact Or.inr ⟨digits, rfl, rfl⟩
  | ok chosen => exact Or.inl ⟨chosen.1, mem_generationFor hgeneration, chosen.2, rfl⟩

open Renderer (generationFolders ofGeneration)

/-- Every generation is a folder among the templates that come with the program. -/
theorem anchor_of_mem_folders {generation : Text} (hg : generation ∈ builtInGenerations)
    {folder : Path} (hm : folder ∈ generationFolders generation) : folder.anchor = .builtIn := by
  have hfolders : ∀ generation ∈ builtInGenerations,
      ∀ folder ∈ generationFolders generation, folder.anchor = .builtIn := by decide
  exact hfolders generation hg folder hm

theorem folders_ofGeneration [Platform] {generation : Text}
    (hg : generation ∈ builtInGenerations) :
    (ofGeneration generation).folders = generationFolders generation := by
  have hnamed : ∀ generation ∈ builtInGenerations, ¬ generation.isEmpty := by decide
  unfold ofGeneration
  simp only [if_neg (hnamed generation hg)]

/-- The file of a template, as a generation finds it. -/
def file? (generation name : Text) (tree : Tree) : Option Path :=
  ((generationFolders generation).filterMap (templatePath? name)).find? fun path =>
    (isFile tree path).toOption == some true

theorem builtIn_of_mem {generation name : Text} (hg : generation ∈ builtInGenerations)
    {path : Path} (hm : path ∈ (generationFolders generation).filterMap (templatePath? name)) :
    path.anchor = .builtIn := by
  obtain ⟨folder, hfolder, hpath⟩ := List.mem_filterMap.mp hm
  unfold templatePath? at hpath
  split at hpath
  · cases hpath
  · cases hpath
    have hanchor := anchor_of_mem_folders hg hfolder
    exact hanchor

/-- Which file is found does not depend on the tree. -/
theorem file?_eq {generation name : Text} (hg : generation ∈ builtInGenerations) (tree : Tree) :
    file? generation name tree = file? generation name ⟨[]⟩ := by
  unfold file?
  refine List.find?_congr fun path hm => ?_
  unfold isFile
  rw [withBuiltIn_of_builtIn (builtIn_of_mem hg hm) tree ⟨[]⟩]

section Load

variable [Platform]

theorem load_of_file {generation name text : Text} {nodes : List Node} {form : Form}
    {tree : Tree} {folder : Text} (htemplate : IsTemplate text nodes form)
    (hfile : file? generation name tree = some ⟨.builtIn, [folder, name]⟩)
    (hread : builtInTree.read ⟨.root, builtInLocation ++ [folder, name]⟩ =
      .ok (Encoding.utf8.encode text)) :
    load (generationFolders generation) tree name = .ok form := by
  unfold file? at hfile
  unfold load
  simp only [hfile]
  have hplace : tree.withBuiltIn ⟨.builtIn, [folder, name]⟩ =
      (builtInTree, ⟨.root, builtInLocation ++ [folder, name]⟩) := rfl
  rw [hplace]
  simp only [htemplate.readText hread, formOf, htemplate.ofText]
  rfl

/-- **Every generation takes the pages from the base generation.** -/
theorem load_page {generation : Text} (hg : generation ∈ builtInGenerations)
    {page : BuiltInPage} (hpage : page ∈ builtInPages) (tree : Tree) :
    load (generationFolders generation) tree (Renderer.fileName page.name) =
      .ok (.child "layout.j2" page.blocks) := by
  have hfound : ∀ generation ∈ builtInGenerations, ∀ page ∈ builtInPages,
      file? generation (Renderer.fileName page.name) ⟨[]⟩ =
        some ⟨.builtIn, [baseGeneration, Renderer.fileName page.name]⟩ := by decide +kernel
  have hread : ∀ page ∈ builtInPages,
      builtInTree.read
          ⟨.root, builtInLocation ++ [baseGeneration, Renderer.fileName page.name]⟩ =
        .ok (Encoding.utf8.encode page.text) := by
    unfold builtInPages
    simp only [List.forall_mem_cons]
    exact ⟨rfl, rfl, rfl, rfl, rfl, nofun⟩
  refine load_of_file (isTemplate_page hpage) ?_ (hread page hpage)
  rw [file?_eq hg]
  exact hfound generation hg page hpage

/-- **Every generation has a frame.** -/
theorem load_frame {generation : Text} (hg : generation ∈ builtInGenerations) (tree : Tree) :
    ∃ start, load (generationFolders generation) tree "layout.j2" =
      .ok ⟨frameNodes start, frameBlocks⟩ := by
  have hfound : ∀ generation ∈ builtInGenerations, file? generation "layout.j2" ⟨[]⟩ =
      some ⟨.builtIn, [generation, "layout.j2"]⟩ := by decide +kernel
  have hread : ∀ generation ∈ builtInGenerations, ∃ frame ∈ frames,
      builtInTree.read ⟨.root, builtInLocation ++ [generation, "layout.j2".toList]⟩ =
        .ok (Encoding.utf8.encode frame.1) := by
    have hbase : (baseLayout, baseStart) ∈ frames := List.mem_cons_self
    have hloose : (looseLayout, looseStart) ∈ frames := List.mem_cons_of_mem _ List.mem_cons_self
    unfold builtInGenerations generations
    simp only [List.forall_mem_cons, List.map_cons, List.map_nil]
    exact ⟨⟨_, hbase, rfl⟩, ⟨_, hloose, rfl⟩, ⟨_, hloose, rfl⟩, ⟨_, hloose, rfl⟩, nofun⟩
  obtain ⟨frame, hframe, hframeRead⟩ := hread generation hg
  refine ⟨frame.2, load_of_file (isTemplate_frame hframe) ?_ hframeRead⟩
  rw [file?_eq hg]
  exact hfound generation hg

end Load

/-! ## 6. Filling them in -/

/-- The text of a page in its frame. -/
def frameText (start encoding rootRef title body footer : Text) : Text :=
  start ++ (encoding ++ ("\" />\n<title>" ++ (title ++
    ("</title>\n<link rel=\"stylesheet\" type=\"text/css\" href=\"" ++ (rootRef ++
    ("stylesheet.css\" title=\"style\" />\n</head>\n<body>\n" ++ (body ++ (footer ++
    "</body>\n</html>\n"))))))))

/-- A name has a value. -/
def Scope.Has (scope : Scope) (name : Text) (value : Value) : Prop :=
  scope.lookup name = some value

/-- The names that a page sees, its own among them. -/
def Scope.withOwn (scope : Scope) (own : Text) : Scope := scope ++ [(selfWord, .page own)]

/-- Whatever there is around it, a block gives a text. It sees the names of the page, and the body
that it inherits. -/
def FillsBlock (scope : Scope) (blocks : Blocks) (name text : Text) : Prop :=
  ∃ body, blocks.lookup name = some body ∧ ∀ (around : Surroundings) (inherited : Value)
    (own : Text), Gives blocks (Node.fillAll around
      ((superWord, inherited) :: scope.withOwn own) body) text

section Pages

variable {scope : Scope}

theorem Scope.Has.withOwn {name : Text} {value : Value} (h : scope.Has name value) (own : Text) :
    (scope.withOwn own).Has name value := by
  unfold Has at h
  unfold Has Scope.withOwn
  rw [List.lookup_append, h]
  rfl

theorem exists_withOwnName (file : Text) (hself : scope.lookup selfWord = none) :
    ∃ own, withOwnName file scope = .ok (scope.withOwn own) := by
  unfold withOwnName
  rw [hself]
  exact ⟨_, rfl⟩

theorem FillsBlock.text {blocks : Blocks} {name text : Text}
    (h : FillsBlock scope blocks name text) (library : Library) (own : Text) :
    fillBlock library (blocks.length + 1) blocks name 0 (scope.withOwn own) =
      .ok text := by
  obtain ⟨body, hbody, hgives⟩ := h
  exact fillBlock_of_gives hbody fun inherited => hgives _ inherited own

variable [Platform]

/-- The text of a template that fills in the blocks of a frame is that of the frame. -/
theorem Renderer.render_of_load {generation : Text} (hg : generation ∈ builtInGenerations)
    {name : Text} {blocks : Blocks} {tree : Tree}
    (hload : load (generationFolders generation) tree (fileName name) =
      .ok (.child "layout.j2" blocks))
    {encoding rootRef title body footer : Text} (hself : scope.lookup selfWord = none)
    (hencoding : scope.Has "output_encoding" (.text encoding))
    (hroot : scope.Has "root_ref" (.text rootRef))
    (htitle : FillsBlock scope (blocks ++ frameBlocks) "title" title)
    (hbody : FillsBlock scope (blocks ++ frameBlocks) "body" body)
    (hfooter : FillsBlock scope (blocks ++ frameBlocks) "footer" footer) (chance : Nat) :
    ∃ start, (ofGeneration generation).render chance tree name scope =
      .ok (frameText start encoding rootRef title body footer) := by
  obtain ⟨start, hframe⟩ := load_frame hg tree
  obtain ⟨own, hown⟩ := exists_withOwnName (fileName name) hself
  have hgives : Gives (blocks ++ frameBlocks) (Node.fillAll
      { library := load (generationFolders generation) tree, page := scope.withOwn own,
        enter := fun blocks => fillBlock (load (generationFolders generation) tree)
          (blocks.length + 1) blocks } (scope.withOwn own) (frameNodes start))
      (frameText start encoding rootRef title body footer) := by
    refine fills_cons (fills_text start) (fills_cons (fills_print (Expression.means_name
      (hencoding.withOwn own))) (fills_cons (fills_text _) (fills_cons
      (fills_block (htitle.text _ own)) (fills_cons (fills_text _) (fills_cons (fills_print
      (Expression.means_name (hroot.withOwn own))) (fills_cons (fills_text _)
      (fills_cons (fills_block (hbody.text _ own)) (fills_cons
      (fills_block (hfooter.text _ own)) (fills_last (fills_text _))))))))))
  -- The page and its frame: two templates, and there are more built-in files than that.
  obtain ⟨n, hn⟩ : ∃ n, tree.entries.length + builtInTree.entries.length + 1 = n + 2 :=
    ⟨tree.entries.length + (builtInTree.entries.length - 1), by
      have hsome : 0 < builtInTree.entries.length := by decide
      omega⟩
  have hfill : (Form.child "layout.j2" blocks).fill (load (generationFolders generation) tree)
      (scope.withOwn own) (n + 2) =
        .ok (frameText start encoding rootRef title body footer) :=
    Form.fill_child hframe (Form.fillWith_of_gives hgives)
  refine ⟨start, ?_⟩
  unfold render
  rw [folders_ofGeneration hg]
  simp only [ofGeneration, Engine.interpreter, hload, hown, hn, hfill, Except.mapError, bind,
    Except.bind]

/-- **The text of a page is that of its frame, with the texts of its blocks.** -/
theorem Renderer.render_page {generation : Text} (hg : generation ∈ builtInGenerations)
    {page : BuiltInPage} (hpage : page ∈ builtInPages) (tree : Tree)
    {encoding rootRef title body footer : Text} (hself : scope.lookup selfWord = none)
    (hencoding : scope.Has "output_encoding" (.text encoding))
    (hroot : scope.Has "root_ref" (.text rootRef))
    (htitle : FillsBlock scope (page.blocks ++ frameBlocks) "title" title)
    (hbody : FillsBlock scope (page.blocks ++ frameBlocks) "body" body)
    (hfooter : FillsBlock scope (page.blocks ++ frameBlocks) "footer" footer) (chance : Nat) :
    ∃ start, (ofGeneration generation).render chance tree page.name scope =
      .ok (frameText start encoding rootRef title body footer) :=
  render_of_load hg (load_page hg hpage tree) hself hencoding hroot htitle hbody hfooter chance

end Pages

end CodeAtlas.Template
