/-
  File:      CodeAtlas/Proofs/Page/Navigation.lean
  Subject:   What the built-in pages of the navigation say.

  * `linkText`, `linkRows`: a link, and rows with a link each.
  * `Shows`: the page of a name is made, in every tree, and a text stands in it.
  * `shows_allClasses`, `shows_overviewFrame`, `shows_overviewSummary`: the pages at the root
    have a row for each class or package of the index.
  * `shows_packageFrame`, `shows_packageSummary`: the pages of a package have a row for each
    of its classes.
-/
import CodeAtlas.Navigation
import CodeAtlas.Proofs.Template.BuiltIn

namespace CodeAtlas

namespace Template

/-! ## 1. Links -/

/-- A link that shows a name. `within` stands in its tag after the address. -/
def linkText (within href shown : Text) : Text :=
  "<a href=\"" ++ (href ++ ("\"" ++ (within ++ (">" ++ (Value.hideMarkup shown ++ "</a>")))))

/-- Rows with a link each: its address, and what it shows. -/
def linkRows (before within after : Text) (links : List (Text × Text)) : Text :=
  links.flatMap fun link => before ++ (linkText within link.1 link.2 ++ after)

theorem linkText_isInfix {before within after : Text} {link : Text × Text}
    {links : List (Text × Text)} (h : link ∈ links) :
    linkText within link.1 link.2 <:+: linkRows before within after links := by
  obtain ⟨first, rest, rfl⟩ := List.append_of_mem h
  unfold linkRows
  rw [List.flatMap_append, List.flatMap_cons]
  have hrow : linkText within link.1 link.2 <:+: before ++ (linkText within link.1 link.2 ++ after) :=
    List.infix_append' _ _ _
  exact hrow.trans (List.infix_append' _ _ _)

section Filling

variable {blocks : Blocks} {around : Surroundings} {scope : Scope}

theorem fills_link {before rest within after address whole shown : Text} {href : List Node}
    {name : Expression} (hhref : Gives blocks (Node.fillAll around scope href) address)
    (hname : name.Means around scope (.text shown)) (hwhole : address ++ rest = whole) :
    Gives blocks (Node.fillAll around scope (linkNodes before href rest within name after))
      (before ++ (linkText within whole shown ++ after)) := by
  have hlink : Gives blocks (Node.fillAll around scope
      (linkNodes before href rest within name after)) _ :=
    fills_cons (fills_text _) (fills_append hhref (fills_cons (fills_text _)
      (fills_cons (fills_escaped hname) (fills_last (fills_text _)))))
  unfold linkText
  rw [← hwhole]
  simpa only [List.append_assoc] using hlink

/-- A part of the item that a round of a loop is about. -/
theorem means_item {word kind part : Text} {fields : List (Text × Value)} {loop value : Value}
    (hpart : fields.lookup part = some value) :
    Expression.Means around ((word, .record kind fields) :: (loopWord, loop) :: scope)
      (.part (.name word) part) value :=
  (Expression.means_name List.lookup_cons_self).field hpart

/-- A loop over the items of a table gives their rows. -/
theorem fills_overValues {α : Type} {word : Text} {table : Expression} {body : List Node}
    {items : List (Text × α)} {value : α → Value} {row : Text × α → Text}
    (htable : table.Means around scope
      (.table (items.map fun item => (.text item.1, value item.2))))
    (hrow : ∀ item loop, Gives blocks
      (Node.fillAll around ((word, value item.2) :: (loopWord, loop) :: scope) body) (row item)) :
    Gives blocks (Node.fill around scope (Node.overValues word table body))
      (items.flatMap row) := by
  have hvalues := htable.values
  rw [List.map_map] at hvalues
  exact fills_each hvalues fun item _ loop => hrow item loop

end Filling

end Template

open Template

/-! ## 2. Addresses -/

/-- The address of a class from the folder of its package. -/
def ClassEntry.ownHref (entry : ClassEntry) : Text :=
  entry.page ++ (".html#" ++ entry.name)

/-- The address of a class from the root. -/
def ClassEntry.rootHref (entry : ClassEntry) : Text :=
  entry.folder ++ ("/" ++ entry.ownHref)

/-- The address of a page of a package from the root. -/
def PackageEntry.rootHref (entry : PackageEntry) (page : Text) : Text :=
  entry.folder ++ '/' :: page

/-- The page with the list of the classes of a package. -/
def packageFramePage : Text := "package-frame.html"

/-! ## 3. Blocks of several pages -/

/-- The page of a name is made, whatever tree there is, and a text stands in it. -/
def Shows (renderer : Renderer) (name : Text) (scope : Scope) (text : Text) : Prop :=
  ∀ chance tree, ∃ page, renderer.render chance tree name scope = .ok page ∧ text <:+: page

section Blocks

variable {scope : Scope} {blocks : Blocks}

/-- A name of the page is seen in a block. -/
theorem Has.inBlock {word : Text} {value : Value} (h : scope.Has word value)
    (hsuper : (word == superWord) = false) (inherited : Value) (own : Text) :
    Scope.Has ((superWord, inherited) :: scope.withOwn own) word value := by
  unfold Scope.Has
  rw [List.lookup_cons, hsuper]
  exact h.withOwn own

/-- A block without a body of its own gives that of the frame. -/
theorem fillsBlock_windowTitle {title : Text} (hblock : blocks.lookup ("title" : Text) = some [windowTitle])
    (h : scope.Has "window_title" (.text title)) :
    FillsBlock scope blocks "title" (Value.hideMarkup title) :=
  ⟨_, hblock, fun _ inherited own => fills_last (fills_escaped
    (Expression.means_name (Has.inBlock h rfl inherited own)))⟩

theorem fillsBlock_noFooter (hblock : blocks.lookup ("footer" : Text) = some []) :
    FillsBlock scope blocks "footer" [] := ⟨_, hblock, fun _ _ _ => fills_nil⟩

theorem fillsBlock_footer {bottom : Text} (hblock : blocks.lookup ("footer" : Text) = some footerBlock.2)
    (h : scope.Has "bottom" (.text bottom)) :
    FillsBlock scope blocks "footer"
      ("<hr />\n<div id=\"footer\">" ++ (bottom ++ "</div>\n")) :=
  ⟨_, hblock, fun _ inherited own => fills_cons (fills_text _) (fills_cons (fills_print
    (Expression.means_name (Has.inBlock h rfl inherited own))) (fills_last (fills_text _)))⟩

end Blocks

/-- What stands in the body of a page stands in its frame. -/
theorem infix_frameText {start encoding rootRef title body footer text : Text}
    (h : text <:+: body) : text <:+: frameText start encoding rootRef title body footer := by
  refine h.trans ?_
  unfold frameText
  iterate 7 refine List.IsInfix.trans ?_ (List.suffix_append _ _).isInfix
  exact (List.prefix_append _ _).isInfix

/-- A page shows what stands in its body. -/
theorem shows_of_body [Platform] {generation : Text} (hg : generation ∈ builtInGenerations)
    {page : BuiltInPage} (hpage : page ∈ builtInPages) {scope : Scope}
    {encoding rootRef title body footer text : Text}
    (hself : scope.lookup selfWord = none) (hencoding : scope.Has "output_encoding" (.text encoding))
    (hroot : scope.Has "root_ref" (.text rootRef))
    (htitle : FillsBlock scope (page.blocks ++ frameBlocks) "title" title)
    (hbody : FillsBlock scope (page.blocks ++ frameBlocks) "body" body)
    (hfooter : FillsBlock scope (page.blocks ++ frameBlocks) "footer" footer)
    (htext : text <:+: body) : Shows (.ofGeneration generation) page.name scope text := by
  intro chance tree
  obtain ⟨start, hrender⟩ :=
    Renderer.render_page hg hpage tree hself hencoding hroot htitle hbody hfooter chance
  exact ⟨_, hrender, infix_frameText htext⟩

/-! ## 4. Rows -/

section Rows

variable {blocks : Blocks} {around : Surroundings} {scope : Scope}

theorem fills_ownHref (entry : ClassEntry) (loop : Value) :
    Gives blocks (Node.fillAll around (("cls", entry.value) :: (loopWord, loop) :: scope)
      Template.ownHref) entry.ownHref :=
  fills_cons (fills_print (means_item rfl)) (fills_cons (fills_text _)
    (fills_last (fills_print (means_item rfl))))

/-- A row for each class of a package, seen from the folder of the package. -/
theorem fills_classRows {before after : Text} {table : Expression}
    {classes : List (Text × ClassEntry)} (htable : table.Means around scope
      (.table (classes.map fun item => (.text item.1, item.2.value)))) :
    Gives blocks (Node.fill around scope (Node.overValues "cls" table
      (linkNodes before Template.ownHref [] toClassFrame (.part (.name "cls") "name") after)))
      (linkRows before toClassFrame after
        (classes.map fun item => (item.2.ownHref, item.2.name))) := by
  unfold linkRows
  rw [List.flatMap_map]
  exact fills_overValues htable fun item loop =>
    fills_link (fills_ownHref item.2 loop) (means_item rfl) (List.append_nil _)

/-- A row for each class of the index, seen from the root. -/
theorem fills_rootRows {before after : Text} {table : Expression}
    {classes : List (Text × ClassEntry)} (htable : table.Means around scope
      (.table (classes.map fun item => (.text item.1, item.2.value)))) :
    Gives blocks (Node.fill around scope (Node.overValues "cls" table
      (linkNodes before (Node.printed (.part (.name "cls") "dir") :: Node.shown "/" ::
        Template.ownHref) [] toClassFrame (.part (.name "cls") "name") after)))
      (linkRows before toClassFrame after
        (classes.map fun item => (item.2.rootHref, item.2.name))) := by
  unfold linkRows
  rw [List.flatMap_map]
  exact fills_overValues htable fun item loop =>
    fills_link (fills_cons (fills_print (means_item rfl))
      (fills_cons (fills_text _) (fills_ownHref item.2 loop))) (means_item rfl) (List.append_nil _)

/-- A row for each package of the index. The address leads to the page of a name. -/
theorem fills_packageRows {before within after page address rest : Text} {href : List Node}
    {table : Expression} {packages : List (Text × PackageEntry)} (htable : table.Means around scope
      (.table (packages.map fun item => (.text item.1, item.2.value))))
    (hhref : ∀ (entry : PackageEntry) (loop : Value), Gives blocks (Node.fillAll around
      (("pkg", entry.value) :: (loopWord, loop) :: scope) href) address)
    (hpage : address ++ rest = '/' :: page) :
    Gives blocks (Node.fill around scope (Node.overValues "pkg" table
      (linkNodes before (Node.printed (.part (.name "pkg") "dir") :: href) rest within
        (.part (.name "pkg") "name") after)))
      (linkRows before within after
        (packages.map fun item => (item.2.rootHref page, item.2.name))) := by
  unfold linkRows PackageEntry.rootHref
  rw [List.flatMap_map, ← hpage]
  exact fills_overValues htable fun item loop =>
    fills_link (fills_cons (fills_print (means_item rfl)) (hhref item.2 loop)) (means_item rfl)
      (List.append_assoc _ _ _)

end Rows

/-! ## 5. Pages at the root -/

section Root

variable {generation : Text} (hg : generation ∈ builtInGenerations) (index : ProjectIndex)
  (options : NavigationOptions)

theorem means_packages (around : Surroundings) (inherited : Value) (own : Text) :
    Expression.Means around ((superWord, inherited) :: (index.scope options).withOwn own)
      (.part (.name "info") "all_packages")
      (.table (index.packages.map fun item => (.text item.1, item.2.value))) :=
  (Expression.means_name rfl).field rfl

theorem means_classes (around : Surroundings) (inherited : Value) (own : Text) :
    Expression.Means around ((superWord, inherited) :: (index.scope options).withOwn own)
      (.part (.name "info") "all_classes")
      (.table (index.classes.map fun item => (.text item.1, item.2.value))) :=
  (Expression.means_name rfl).field rfl

variable [Platform]
include hg

/-- **The list of all classes has a row for each class of the index.** -/
theorem shows_allClasses : Shows (.ofGeneration generation) "allclasses-frame"
    (index.scope options) (linkRows "<li>" toClassFrame "</li>\n"
      (index.classes.map fun item => (item.2.rootHref, item.2.name))) := by
  have hpage : ⟨"allclasses-frame", allClasses, allClassesBlocks⟩ ∈ builtInPages := by
    simp [builtInPages]
  exact shows_of_body hg hpage rfl rfl rfl ⟨_, rfl, fun _ _ _ => fills_last (fills_text _)⟩
    ⟨_, rfl, fun around inherited own => fills_cons (fills_text _)
      (fills_cons (fills_rootRows (means_classes index options around inherited own))
        (fills_last (fills_text _)))⟩
    (fillsBlock_noFooter rfl) (List.infix_append' _ _ _)

/-- **The list of all packages has a row for each package of the index**, with a link to the list
of the classes of the package. -/
theorem shows_overviewFrame : Shows (.ofGeneration generation) "overview-frame"
    (index.scope options) (linkRows "<li>" toPackageFrame "</li>\n"
      (index.packages.map fun item => (item.2.rootHref packageFramePage, item.2.name))) := by
  have hpage : ⟨"overview-frame", overviewFrame, overviewFrameBlocks⟩ ∈ builtInPages := by
    simp [builtInPages]
  exact shows_of_body hg hpage rfl rfl rfl (fillsBlock_windowTitle rfl rfl)
    ⟨_, rfl, fun around inherited own => fills_cons (fills_text _)
      (fills_cons (fills_packageRows (means_packages index options around inherited own)
        (fun _ _ => fills_nil) rfl) (fills_last (fills_text _)))⟩
    (fillsBlock_noFooter rfl) (List.infix_append' _ _ _)

/-- **The table of all packages has a row for each package of the index**, with a link to the
table of the classes of the package. -/
theorem shows_overviewSummary : Shows (.ofGeneration generation) "overview-summary"
    (index.scope options) (linkRows "<tr><td>" [] "</td></tr>\n"
      (index.packages.map fun item => (item.2.rootHref packagePage, item.2.name))) := by
  have hpage : ⟨"overview-summary", overviewSummary, overviewSummaryBlocks⟩ ∈ builtInPages := by
    simp [builtInPages]
  have haddress : "/".toList ++ packagePage ++ [] = '/' :: packagePage := rfl
  refine shows_of_body hg hpage rfl rfl rfl (fillsBlock_windowTitle rfl rfl)
    ⟨_, rfl, fun around inherited own => fills_cons (fills_text _) (fills_cons
      (fills_escaped (Expression.means_name rfl)) (fills_cons (fills_text _) (fills_cons
        (fills_packageRows (means_packages index options around inherited own)
          (fun _ _ => fills_cons (fills_text _) (fills_last (fills_print
            (Expression.means_name rfl)))) haddress)
        (fills_last (fills_text _)))))⟩
    (fillsBlock_footer rfl rfl) ?_
  exact (List.infix_append' _ _ _).trans
    ((List.suffix_append _ _).trans (List.suffix_append _ _)).isInfix

end Root

/-! ## 6. Pages of a package -/

section OfPackage

variable {generation : Text} (hg : generation ∈ builtInGenerations) (entry : PackageEntry)
  (index : ProjectIndex) (options : NavigationOptions)

theorem means_packageName (around : Surroundings) (inherited : Value) (own : Text) :
    Expression.Means around
      ((superWord, inherited) :: (entry.scope (index.scope options)).withOwn own)
      (.part (.name "pkg_info") "name") (.text entry.name) := (Expression.means_name rfl).field rfl

theorem means_ownClasses (around : Surroundings) (inherited : Value) (own : Text) :
    Expression.Means around
      ((superWord, inherited) :: (entry.scope (index.scope options)).withOwn own)
      (.part (.name "pkg_info") "classes")
      (.table (entry.classes.map fun item => (.text item.1, item.2.value))) :=
  (Expression.means_name rfl).field rfl

theorem fillsBlock_packageTitle {blocks : Blocks}
    (hblock : blocks.lookup ("title" : Text) = some packageTitle.2) :
    FillsBlock (entry.scope (index.scope options)) blocks "title"
      (Value.hideMarkup options.windowTitle ++ (" - " ++ Value.hideMarkup entry.name)) :=
  ⟨_, hblock, fun around inherited own => fills_cons (fills_escaped (Expression.means_name rfl))
    (fills_cons (fills_text _) (fills_last (fills_escaped
      (means_packageName entry index options around inherited own))))⟩

variable [Platform]
include hg

/-- **The list of the classes of a package has a row for each of them**, below a link to the table
of the classes. -/
theorem shows_packageFrame : Shows (.ofGeneration generation) "package-frame"
    (entry.scope (index.scope options)) (linkRows "<li>" toClassFrame "</li>\n"
      (entry.classes.map fun item => (item.2.ownHref, item.2.name))) := by
  have hpage : ⟨"package-frame", packageFrame, packageFrameBlocks⟩ ∈ builtInPages := by
    simp [builtInPages]
  exact shows_of_body hg hpage rfl rfl rfl (fillsBlock_packageTitle entry index options rfl)
    ⟨_, rfl, fun around inherited own => fills_append
      (fills_link (fills_last (fills_print (Expression.means_name rfl)))
        (means_packageName entry index options around inherited own) (List.append_nil _))
      (fills_cons (fills_classRows (means_ownClasses entry index options around inherited own))
        (fills_last (fills_text _)))⟩
    (fillsBlock_noFooter rfl) (List.infix_append' _ _ _)

/-- The text of the body of a package's table of classes. -/
def packageSummaryText (entry : PackageEntry) : Text :=
  "<div class=\"overview\">\n<ul>\n<li><a href=\"" ++ (entry.rootRef ++
    ("overview-summary.html\">Overview</a></li>\n<li class=\"selected\">Package</li>\n</ul>\n</div>\n<h2>Package " ++
    (Value.hideMarkup entry.name ++
    ("</h2>\n<table class=\"summary\">\n<thead>\n<tr><th>Class Summary</th></tr>\n</thead>\n<tbody>\n" ++
    (linkRows "<tr><td>" toClassFrame "</td></tr>\n"
      (entry.classes.map fun item => (item.2.ownHref, item.2.name)) ++
    "</tbody>\n</table>\n")))))

/-- **The table of the classes of a package has a row for each of them**, below a link to the
table of all packages. -/
theorem shows_packageSummary : Shows (.ofGeneration generation) "package-summary"
    (entry.scope (index.scope options)) (packageSummaryText entry) := by
  have hpage : ⟨"package-summary", packageSummary, packageSummaryBlocks⟩ ∈ builtInPages := by
    simp [builtInPages]
  exact shows_of_body hg hpage rfl rfl rfl (fillsBlock_packageTitle entry index options rfl)
    ⟨_, rfl, fun around inherited own => fills_cons (fills_text _) (fills_cons
      (fills_print (Expression.means_name rfl)) (fills_cons (fills_text _) (fills_cons
        (fills_escaped (means_packageName entry index options around inherited own))
        (fills_cons (fills_text _) (fills_cons
          (fills_classRows (means_ownClasses entry index options around inherited own))
          (fills_last (fills_text _)))))))⟩
    (fillsBlock_footer rfl rfl) List.infix_rfl

end OfPackage

end CodeAtlas
