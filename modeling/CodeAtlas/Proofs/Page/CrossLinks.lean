/-
  File:      CodeAtlas/Proofs/Page/CrossLinks.lean
  Subject:   The links of all pages to a type or a package lead to one page.

  Links are written in several places: on the pages of files, and by the templates of the
  navigation. Some go up to the root first, some start there, and some stay in the folder of
  the package. The package without a name has the folder `.` in the navigation and none on
  the pages of files.

  * `IsLiteral`: a text whose characters stand for themselves in an address.
  * `Leads`: an address leads from a folder to a page, and is written as it is.
  * `Package.IsPlain`: a package whose name and pages are such that its addresses can be
    followed. `IsPlain.typeHref_leads` and others: one lemma for each kind of link.
  * `LinksAgree`, `SourceText.links_agree`: the links to a package and to its types.
-/
import CodeAtlas.Proofs.Page.Navigation
import CodeAtlas.Proofs.Run.Outputs
import CodeAtlas.Proofs.Symbols.Index

namespace CodeAtlas

open Template

/-! ## 1. Addresses -/

/-- A text whose characters stand for themselves in an address. -/
def IsLiteral (text : Text) : Prop := ∀ c ∈ text, Markup.isHidden c = false ∧ c ≠ '#' ∧ c ≠ '?'

section IsLiteral

variable {a b : Text}

theorem IsLiteral.append (ha : IsLiteral a) (hb : IsLiteral b) : IsLiteral (a ++ b) := fun c hc =>
  (List.mem_append.mp hc).elim (ha c) (hb c)

theorem IsLiteral.cons {c : Char} (hc : Markup.isHidden c = false ∧ c ≠ '#' ∧ c ≠ '?')
    (hb : IsLiteral b) : IsLiteral (c :: b) := fun d hd =>
  (List.mem_cons.mp hd).elim (fun e => e ▸ hc) (hb d)

theorem IsLiteral.escape (ha : IsLiteral a) : Markup.escapeAttribute a = a :=
  Markup.escapeAttribute_eq_self fun c hc => (ha c hc).1

theorem IsLiteral.escape_fragment (ha : IsLiteral a) (hb : IsLiteral b) :
    Markup.escapeAttribute (a ++ '#' :: b) = a ++ '#' :: b := by
  refine Markup.escapeAttribute_eq_self fun c hc => ?_
  rcases List.mem_append.mp hc with hc | hc
  · exact (ha c hc).1
  · rcases List.mem_cons.mp hc with rfl | hc
    · decide
    · exact (hb c hc).1

theorem IsWord.isLiteral (h : IsWord a) : IsLiteral a := fun c hc =>
  ⟨h.not_hidden c hc, by rintro rfl; exact h.not_mem (by decide) hc,
    by rintro rfl; exact h.not_mem (by decide) hc⟩

theorem isLiteral_packageFolder (h : a = [] ∨ IsWord a) : IsLiteral (packageFolder a) := by
  intro c hc
  rcases Markup.Linker.mem_packageFolder hc with rfl | hm
  · decide
  · rcases h with rfl | hword
    · exact absurd hm List.not_mem_nil
    · exact hword.isLiteral c hm

theorem isLiteral_up (n : Nat) : IsLiteral (Text.times n "../") := by
  intro c hc
  obtain ⟨step, hstep, hc⟩ := List.mem_flatten.mp hc
  rw [List.eq_of_mem_replicate hstep] at hc
  have hall : IsLiteral "../" := forall_mem_of_all rfl
  exact hall c hc

end IsLiteral

/-- An address leads from a folder to a page. It stands in an attribute as it is. -/
def Leads (folder href : Text) (address : Address) : Prop :=
  Markup.escapeAttribute href = href ∧ Address.ofHref folder href = address

theorem Leads.of_path {folder path : Text} {segments : List Text} (hpath : IsLiteral path)
    (h : Path.location (.ofText folder) (.ofText path) = segments) :
    Leads folder path ⟨segments, none⟩ := by
  refine ⟨hpath.escape, ?_⟩
  have hall : ∀ c ∈ path, (c != '#' && c != '?') = true := fun c hc => by
    simp [(hpath c hc).2.1, (hpath c hc).2.2]
  have hnone : path.dropWhile (· != '#') = [] :=
    List.dropWhile_eq_nil_iff.mpr fun c hc => by simp [(hpath c hc).2.1]
  have hwhole : hrefPath path = path := List.takeWhile_eq_self_iff.mpr hall
  unfold Address.ofHref hrefFragment?
  rw [hnone, hwhole, h]

theorem Leads.of_fragment {folder path name : Text} {segments : List Text} (hpath : IsLiteral path)
    (hname : IsLiteral name) (h : Path.location (.ofText folder) (.ofText path) = segments) :
    Leads folder (path ++ '#' :: name) ⟨segments, some name⟩ := by
  refine ⟨hpath.escape_fragment hname, ?_⟩
  rw [Address.ofHref_append folder (fun hc => (hpath _ hc).2.1 rfl)
    (fun hc => (hpath _ hc).2.2 rfl), h]

/-! ## 2. Ways -/

namespace Path

/-- From a folder without `..` in its path, another path is walked as it stands. -/
theorem location_eq_descend {folder path : Text} (hdots : ['.', '.'] ∉ segmentsOf folder)
    (h : segmentsOf folder = [] ∨ path.head? ≠ some '/') :
    location (.ofText folder) (.ofText path) = descend (segmentsOf folder) (segmentsOf path) := by
  rw [location_ofText h, descend_append, descend_eq_append hdots, List.nil_append]

/-- The name of a page is one segment. -/
theorem segmentsOf_page {page : Text} (hslash : '/' ∉ page) (hlong : 2 < page.length) :
    segmentsOf page = [page] := by
  refine segmentsOf_singleton hslash ?_ ?_
  · rintro rfl
    exact absurd hlong (by decide)
  · rintro rfl
    exact absurd hlong (by decide)

/-- A page below a folder leads there. -/
theorem descend_page {way : List Text} {page : Text} (hlong : 2 < page.length) :
    descend way [page] = way ++ [page] := by
  refine descend_eq_append fun hm => ?_
  rw [← List.mem_singleton.mp hm] at hlong
  exact absurd hlong (by decide)

/-- As many steps up as there are folders above lead to the root, and on from there. -/
theorem location_up {folder : Text} (hdots : ['.', '.'] ∉ segmentsOf folder) (rest : Text) :
    location (.ofText folder) (.ofText (Text.times (segmentsOf folder).length "../" ++ rest)) =
      descend [] (segmentsOf rest) := by
  have hstart : segmentsOf folder = [] ∨
      (Text.times (segmentsOf folder).length "../" ++ rest).head? ≠ some '/' := by
    cases hfolder : segmentsOf folder with
    | nil => exact Or.inl rfl
    | cons segment way => exact Or.inr fun e => nomatch e
  rw [location_eq_descend hdots hstart, Markup.Linker.segmentsOf_up, descend_append, descend_up]

end Path

/-- The name of the page of a type is longer than the segments that paths treat as no names. -/
theorem two_lt_length_html (page : Text) : 2 < (page ++ ".html").length := by
  have hhtml : ".html".toList.length = 5 := rfl
  rw [List.length_append, hhtml]
  omega

/-! ## 3. The links to a package -/

/-- A package whose addresses can be followed: its name has no empty segments, and the names of
its pages have no characters with a meaning of their own. -/
structure Package.IsPlain (package : Package) : Prop where
  name : IsPackageName package.name
  named : package.IsNamed
  types : ∀ declaration ∈ package.types,
    IsLiteral declaration.page ∧ '/' ∉ declaration.page ∧ IsWord declaration.name

theorem Package.isLiteral_rootRef (package : Package) : IsLiteral package.entry.rootRef := by
  show IsLiteral (if package.name.isEmpty then "./".toList else _)
  split
  · exact forall_mem_of_all rfl
  · exact isLiteral_up _

namespace Package.IsPlain

variable {package : Package} (h : package.IsPlain)
include h

theorem isWord : package.name = [] ∨ IsWord package.name := h.named.imp_right And.left

theorem slash_not_mem : '/' ∉ package.name := by
  rcases h.isWord with hnil | hword
  · rw [hnil]
    exact List.not_mem_nil
  · exact hword.not_mem (by decide)

theorem dots_not_mem_way : ['.', '.'] ∉ package.way :=
  dots_not_mem_segmentsOf h.name h.slash_not_mem

theorem segmentsOf_folder : Path.segmentsOf package.entry.folder = package.way :=
  congrArg Path.segments h.named.ofText_folder

theorem isLiteral_folder : IsLiteral package.entry.folder := by
  show IsLiteral (if package.name.isEmpty then ['.'] else package.folder)
  split
  · exact IsLiteral.cons (by decide) fun _ hm => absurd hm List.not_mem_nil
  · exact isLiteral_packageFolder h.isWord

/-- The path of a page in the folder of the package, seen from where all pages are. -/
theorem join_child (root : Path) (page : Text) :
    (root.join (Path.ofText package.entry.folder)).child page =
      root.join ⟨.relative, package.way ++ [page]⟩ := by
  rw [h.named.ofText_folder]
  show (⟨root.anchor, root.segments ++ package.way ++ [page]⟩ : Path) = _
  rw [List.append_assoc]
  rfl

/-- A page below the folder of the package, from the root. -/
theorem location_below {page : Text} (hslash : '/' ∉ page) (hlong : 2 < page.length) :
    Path.location (.ofText []) (.ofText (package.entry.folder ++ '/' :: page)) =
      package.way ++ [page] := by
  have hroot : Path.segmentsOf [] = [] := rfl
  rw [Path.location_eq_descend (hroot ▸ List.not_mem_nil) (Or.inl hroot), hroot,
    Path.segmentsOf_append, h.segmentsOf_folder, Path.segmentsOf_page hslash hlong,
    Path.descend_append, Path.descend_eq_append h.dots_not_mem_way, List.nil_append,
    Path.descend_page hlong]

/-- A page in the folder of the package, from there. -/
theorem location_beside {page : Text} (hslash : '/' ∉ page) (hlong : 2 < page.length) :
    Path.location (.ofText package.entry.folder) (.ofText page) = package.way ++ [page] := by
  have hstart : page.head? ≠ some '/' := fun e => hslash (List.mem_of_head? e)
  rw [Path.location_eq_descend (h.segmentsOf_folder ▸ h.dots_not_mem_way) (Or.inr hstart),
    h.segmentsOf_folder, Path.segmentsOf_page hslash hlong, Path.descend_page hlong]

section Types

variable {declaration : Declaration} (hd : declaration ∈ package.types)
include hd

theorem isLiteral_html : IsLiteral (declaration.page ++ ".html") :=
  (h.types declaration hd).1.append (forall_mem_of_all rfl)

theorem slash_not_mem_html : '/' ∉ declaration.page ++ ".html" := by
  rw [List.mem_append, not_or]
  exact ⟨(h.types declaration hd).2.1, by decide⟩

/-- **The link on the page of a file.** -/
theorem type_leads {linker : Markup.Linker} (hsource : IsPackageName linker.source.package)
    (hslash : '/' ∉ linker.source.package) :
    Leads (packageFolder linker.source.package) (linker.typeHref ⟨package.name, declaration⟩)
      ⟨package.way ++ [declaration.page ++ ".html"], some declaration.name⟩ := by
  obtain ⟨hliteral, hpage, hword⟩ := h.types declaration hd
  constructor
  · rw [Markup.Linker.typeHref_eq]
    refine IsLiteral.escape_fragment
      ((isLiteral_up _).append (IsLiteral.append ?_ (h.isLiteral_html hd))) hword.isLiteral
    split
    · exact fun _ hm => absurd hm List.not_mem_nil
    · exact (isLiteral_packageFolder h.isWord).append
        (IsLiteral.cons (by decide) fun _ hm => absurd hm List.not_mem_nil)
  · refine linker.typeHref_leads ⟨package.name, declaration⟩ hsource hslash h.name h.isWord ?_
    intro c hc
    simp only [List.mem_cons, List.not_mem_nil, or_false] at hc
    rcases hc with rfl | rfl | rfl
    · exact fun hm => (hliteral _ hm).2.1 rfl
    · exact fun hm => (hliteral _ hm).2.2 rfl
    · exact hpage

/-- **The link in the list of all classes.** -/
theorem rootHref_leads : Leads [] (package.classEntry declaration).rootHref
    ⟨package.way ++ [declaration.page ++ ".html"], some declaration.name⟩ := by
  have hsplit : (package.classEntry declaration).rootHref =
      (package.entry.folder ++ '/' :: (declaration.page ++ ".html")) ++ '#' :: declaration.name := by
    unfold ClassEntry.rootHref ClassEntry.ownHref
    have hend : ".html#".toList = ".html".toList ++ ['#'] := rfl
    rw [hend]
    simp only [List.append_assoc, List.cons_append]
    rfl
  rw [hsplit]
  exact .of_fragment (h.isLiteral_folder.append (IsLiteral.cons (by decide) (h.isLiteral_html hd)))
    (h.types declaration hd).2.2.isLiteral
    (h.location_below (h.slash_not_mem_html hd) (two_lt_length_html _))

/-- **The link on the pages of the package.** -/
theorem ownHref_leads : Leads package.entry.folder (package.classEntry declaration).ownHref
    ⟨package.way ++ [declaration.page ++ ".html"], some declaration.name⟩ := by
  have hsplit : (package.classEntry declaration).ownHref =
      (declaration.page ++ ".html") ++ '#' :: declaration.name := by
    unfold ClassEntry.ownHref
    have hend : ".html#".toList = ".html".toList ++ ['#'] := rfl
    rw [hend]
    simp only [List.append_assoc, List.singleton_append]
    rfl
  rw [hsplit]
  exact .of_fragment (h.isLiteral_html hd) (h.types declaration hd).2.2.isLiteral
    (h.location_beside (h.slash_not_mem_html hd) (two_lt_length_html _))

end Types

/-- **The link to the package on the page of a file.** -/
theorem package_leads {linker : Markup.Linker} (hne : package.name ≠ [])
    (hsource : IsPackageName linker.source.package) (hslash : '/' ∉ linker.source.package) :
    Leads (packageFolder linker.source.package) (linker.packageHref package.name)
      ⟨package.way ++ [packagePage], none⟩ := by
  have hfolder : package.entry.folder = packageFolder package.name := by
    simp [Package.entry, Package.folder, hne]
  have hsplit : linker.packageHref package.name =
      linker.source.rootRef ++ (package.entry.folder ++ '/' :: packagePage) := by
    unfold Markup.Linker.packageHref
    rw [hfolder, List.append_assoc, List.append_assoc]
    rfl
  have hliteral : IsLiteral packagePage := forall_mem_of_all rfl
  have hup := Path.location_up (dots_not_mem_segmentsOf hsource hslash)
    (package.entry.folder ++ '/' :: packagePage)
  rw [length_segmentsOf hsource hslash] at hup
  rw [hsplit]
  refine .of_path ((isLiteral_up _).append (h.isLiteral_folder.append
    (IsLiteral.cons (by decide) hliteral))) (hup.trans ?_)
  rw [Path.segmentsOf_append, h.segmentsOf_folder,
    Path.segmentsOf_page (by decide) (by decide), Path.descend_append,
    Path.descend_eq_append h.dots_not_mem_way, List.nil_append, Path.descend_page (by decide)]

/-- **The link to a page of the package in the lists of all packages.** -/
theorem row_leads {page : Text} (hpage : page ∈ [packagePage, packageFramePage]) :
    Leads [] (package.entry.rootHref page) ⟨package.way ++ [page], none⟩ := by
  have hpages : ∀ page ∈ [packagePage, packageFramePage], '/' ∉ page ∧ 2 < page.length := by
    decide
  have hliteral : IsLiteral page := by
    rcases List.mem_pair.mp hpage with rfl | rfl
    · exact forall_mem_of_all rfl
    · exact forall_mem_of_all rfl
  exact .of_path (h.isLiteral_folder.append (IsLiteral.cons (by decide) hliteral))
    (h.location_below (hpages page hpage).1 (hpages page hpage).2)

/-- **The way back from the pages of the package leads to the root**, and on from there. -/
theorem location_rootRef (rest : Text) :
    Path.location (.ofText package.entry.folder) (.ofText (package.entry.rootRef ++ rest)) =
      Path.descend [] (Path.segmentsOf rest) := by
  by_cases hnil : package.name = []
  · have hfolder : package.entry.folder = ['.'] := by simp [Package.entry, hnil]
    have hup : package.entry.rootRef = "./" := by simp [Package.entry, hnil]
    have hhere : Path.segmentsOf ("./" ++ rest) = Path.segmentsOf rest :=
      Path.segmentsOf_append ['.'] rest
    rw [hfolder, hup, Path.location_eq_descend (by decide) (Or.inl rfl), hhere]
    rfl
  · have hup : package.entry.rootRef = Text.times (packageDepth package.name) "../" := by
      simp [Package.entry, hnil]
    have hdepth : (Path.segmentsOf package.entry.folder).length = packageDepth package.name := by
      rw [h.segmentsOf_folder]
      exact length_segmentsOf h.name h.slash_not_mem
    rw [hup, ← hdepth]
    exact Path.location_up (h.segmentsOf_folder ▸ h.dots_not_mem_way) rest

/-- **The links back from the pages of the package.** -/
theorem wayBack_leads :
    Path.location (.ofText package.entry.folder) (.ofText package.entry.rootRef) = [] ∧
      Leads package.entry.folder (package.entry.rootRef ++ "overview-summary.html")
        ⟨["overview-summary.html"], none⟩ := by
  have hroot := h.location_rootRef []
  rw [List.append_nil] at hroot
  have hoverview : IsLiteral "overview-summary.html" := forall_mem_of_all rfl
  exact ⟨hroot, .of_path (package.isLiteral_rootRef.append hoverview) (h.location_rootRef _)⟩

end Package.IsPlain

/-! ## 4. The index of parsed files -/

namespace SourceText

/-- The index of some files. -/
def index (files : List SourceText) : ProjectIndex := .ofTable (table files)

section Index

variable {files : List SourceText} {package : Package} (h : package ∈ (table files).packages)
include h

theorem mem_packages_index : (package.shownName, package.entry) ∈ (index files).packages :=
  (ProjectIndex.keyedPackages_perm (.ofSources (files.map source))
    fun _ => isNamed_of_mem_table).mem_iff.mpr (List.mem_map_of_mem h)

variable {declaration : Declaration} (hd : declaration ∈ package.types)
include hd

theorem mem_classes_index : (package.classKey declaration.name, package.classEntry declaration) ∈
    (index files).classes := by
  have hplain : (table files).Plain := fun _ hp _ hm =>
    (isWord_of_mem_table hp hm).not_mem (by decide)
  refine (ProjectIndex.classes_perm (.ofSources (files.map source))
    (fun _ => isNamed_of_mem_table) hplain).mem_iff.mpr ?_
  exact List.mem_flatMap.mpr ⟨package, h, List.mem_map_of_mem hd⟩

theorem mem_classes_entry :
    (declaration.name, package.classEntry declaration) ∈ package.entry.classes := by
  have honce : (table files).EachOnce := .ofSources (files.map source)
  exact (Package.classes_perm (honce.types package h)).mem_iff.mpr (List.mem_map_of_mem hd)

end Index

/-- The packages of a table of parsed files are plain, if the packages of the files have names
without empty segments, and their pages names without characters of HTML and addresses. -/
theorem isPlain_of_mem_table {files : List SourceText}
    (hpackage : ∀ file ∈ files, IsPackageName file.source.package)
    (hpage : ∀ file ∈ files, ∀ c ∈ ['&', '<', '>', '"', '\'', '#', '?'], c ∉ file.source.page)
    {package : Package} (h : package ∈ (table files).packages) : package.IsPlain := by
  obtain ⟨named, hnamed, hname⟩ := (mem_names_table files package.name).mp ⟨package, h, rfl⟩
  refine ⟨hname ▸ hpackage named hnamed, isNamed_of_mem_table h, fun declaration hd => ?_⟩
  obtain ⟨source, hs, -, hm⟩ :=
    SymbolTable.from_ofSources (files.map source) package h declaration hd
  obtain ⟨file, hfile, rfl⟩ := List.mem_map.mp hs
  have hsame : declaration.page = file.source.page := (SourceFile.declared_ofText hm).page_eq
  rw [hsame]
  refine ⟨fun c hc => ⟨?_, ?_, ?_⟩, file.slash_not_mem_page, isWord_of_mem_table h hd⟩
  · cases hhidden : Markup.isHidden c with
    | false => rfl
    | true =>
      rcases Markup.hidden_cases hhidden with rfl | rfl | rfl | rfl | rfl
      all_goals exact absurd hc (hpage file hfile _ (by decide))
  · rintro rfl
    exact hpage file hfile _ (by decide) hc
  · rintro rfl
    exact hpage file hfile _ (by decide) hc

end SourceText

/-! ## 5. All links -/

open SourceText (table index) in
/-- The pages to which all links to a package of some files and to its types lead. Links are
followed from every file whose package has a name without empty segments. -/
structure LinksAgree [Platform] (files : List SourceText) (generation : Text)
    (options : NavigationOptions) (package : Package) : Prop where
  /-- The links to a type on the pages of files. -/
  types : ∀ declaration ∈ package.types, ∀ file : SourceText, IsPackageName file.source.package →
    Leads (packageFolder file.source.package)
      ((file.linker (table files)).typeHref ⟨package.name, declaration⟩)
      ⟨package.way ++ [declaration.page ++ ".html"], some declaration.name⟩
  /-- The list of all classes links to each class of the index, -/
  allClasses : Shows (.ofGeneration generation) "allclasses-frame" ((index files).scope options)
    (linkRows "<li>" toClassFrame "</li>\n"
      ((index files).classes.map fun item => (item.2.rootHref, item.2.name)))
  /-- among them the types of the package. -/
  rootRows : ∀ declaration ∈ package.types,
    (package.classKey declaration.name, package.classEntry declaration) ∈ (index files).classes ∧
      Leads [] (package.classEntry declaration).rootHref
        ⟨package.way ++ [declaration.page ++ ".html"], some declaration.name⟩
  /-- The list of the classes of the package links to each of them, -/
  packageFrame : Shows (.ofGeneration generation) "package-frame"
    (package.entry.scope ((index files).scope options))
    (linkRows "<li>" toClassFrame "</li>\n"
      (package.entry.classes.map fun item => (item.2.ownHref, item.2.name)))
  /-- and so does the table of the classes, which links to the table of all packages, too. -/
  packageSummary : Shows (.ofGeneration generation) "package-summary"
    (package.entry.scope ((index files).scope options)) (packageSummaryText package.entry)
  /-- These links are followed from the folder of the package. -/
  ownRows : ∀ declaration ∈ package.types,
    (declaration.name, package.classEntry declaration) ∈ package.entry.classes ∧
      Leads package.entry.folder (package.classEntry declaration).ownHref
        ⟨package.way ++ [declaration.page ++ ".html"], some declaration.name⟩
  /-- The links to the package on the pages of files. -/
  packages : package.name ≠ [] → ∀ file : SourceText, IsPackageName file.source.package →
    Leads (packageFolder file.source.package) ((file.linker (table files)).packageHref package.name)
      ⟨package.way ++ [packagePage], none⟩
  /-- The table of all packages links to the table of the classes of each package of the index, -/
  overviewSummary : Shows (.ofGeneration generation) "overview-summary"
    ((index files).scope options) (linkRows "<tr><td>" [] "</td></tr>\n"
      ((index files).packages.map fun item => (item.2.rootHref packagePage, item.2.name)))
  /-- and the list of all packages to the list of the classes of each; -/
  overviewFrame : Shows (.ofGeneration generation) "overview-frame"
    ((index files).scope options) (linkRows "<li>" toPackageFrame "</li>\n"
      ((index files).packages.map fun item => (item.2.rootHref packageFramePage, item.2.name)))
  /-- the package is among them. -/
  overviewRows : (package.shownName, package.entry) ∈ (index files).packages ∧
    Leads [] (package.entry.rootHref packagePage) ⟨package.way ++ [packagePage], none⟩ ∧
    Leads [] (package.entry.rootHref packageFramePage) ⟨package.way ++ [packageFramePage], none⟩
  /-- The pages of the package are written where these links lead. -/
  written : ∀ (root : Path) (desk after : Desk) (pages : List Path),
    desk.survey.table = table files →
    (Work.writeNavigation (.ofGeneration generation) root options).Yields desk pages after →
      root.join ⟨.relative, package.way ++ [packagePage]⟩ ∈ pages ∧
        root.join ⟨.relative, package.way ++ [packageFramePage]⟩ ∈ pages
  /-- The way back from the pages of the package. -/
  wayBack : Path.location (.ofText package.entry.folder) (.ofText package.entry.rootRef) = [] ∧
    Leads package.entry.folder (package.entry.rootRef ++ "overview-summary.html")
      ⟨["overview-summary.html"], none⟩

namespace SourceText

section Agree

variable [Platform]

/-- The pages of a package are among those that are written. -/
theorem mem_written {files : List SourceText} {package : Package}
    (h : package ∈ (table files).packages) (hplain : package.IsPlain) {renderer : Renderer}
    {root : Path} {options : NavigationOptions} {desk after : Desk} {pages : List Path}
    (htable : desk.survey.table = table files)
    (hyields : (Work.writeNavigation renderer root options).Yields desk pages after) {page : Text}
    (hpage : page ∈ [packagePage, packageFramePage]) :
    root.join ⟨.relative, package.way ++ [page]⟩ ∈ pages := by
  obtain ⟨name, hname, rfl⟩ : ∃ name ∈ packagePages, name ++ ".html" = page := by
    rcases List.mem_pair.mp hpage with rfl | rfl
    · exact ⟨"package-summary", by simp [packagePages], rfl⟩
    · exact ⟨"package-frame", by simp [packagePages], rfl⟩
  rw [Work.yields_writeNavigation_value hyields, htable, ← hplain.join_child]
  exact List.mem_append_right _ (List.mem_flatMap.mpr
    ⟨_, mem_packages_index h, List.mem_map_of_mem hname⟩)

/-- **All links lead to one page.** For every package of a table of parsed files: the links to
each of its types lead to one page and one fragment, whatever page they stand on, and the links to
the package lead to the pages that are written for it. -/
theorem links_agree (files : List SourceText)
    (hpackage : ∀ file ∈ files, IsPackageName file.source.package)
    (hpage : ∀ file ∈ files, ∀ c ∈ ['&', '<', '>', '"', '\'', '#', '?'], c ∉ file.source.page)
    (generation : Text) (hg : generation ∈ builtInGenerations) (options : NavigationOptions)
    (package : Package) (h : package ∈ (table files).packages) :
    LinksAgree files generation options package := by
  have hplain : package.IsPlain := isPlain_of_mem_table hpackage hpage h
  exact
    { types := fun declaration hd file hfile =>
        hplain.type_leads hd hfile file.slash_not_mem_package
      allClasses := shows_allClasses hg _ options
      rootRows := fun declaration hd => ⟨mem_classes_index h hd, hplain.rootHref_leads hd⟩
      packageFrame := shows_packageFrame hg _ _ options
      packageSummary := shows_packageSummary hg _ _ options
      ownRows := fun declaration hd => ⟨mem_classes_entry h hd, hplain.ownHref_leads hd⟩
      packages := fun hne file hfile => hplain.package_leads hne hfile file.slash_not_mem_package
      overviewSummary := shows_overviewSummary hg _ options
      overviewFrame := shows_overviewFrame hg _ options
      overviewRows := ⟨mem_packages_index h, hplain.row_leads (by simp), hplain.row_leads (by simp)⟩
      written := fun root desk after pages htable hyields =>
        ⟨mem_written h hplain htable hyields (by simp), mem_written h hplain htable hyields (by simp)⟩
      wayBack := hplain.wayBack_leads }

end Agree

section Usual

attribute [local instance] Platform.usual

theorem links_agree_two :
    (∃ package ∈ (table twoFiles).packages, package.types ≠ []) ∧
      ∀ package ∈ (table twoFiles).packages, LinksAgree twoFiles "jdk8" {} package := by
  have hpackage : ∀ file ∈ twoFiles, IsPackageName file.source.package := by
    unfold IsPackageName
    decide +kernel
  have hpages : ∀ file ∈ twoFiles, file.source.page ∈ [['A'], ['C']] := by decide +kernel
  have hplain : ∀ page ∈ ([['A'], ['C']] : List Text),
      ∀ c ∈ ['&', '<', '>', '"', '\'', '#', '?'], c ∉ page := by simp
  exact ⟨by decide +kernel, links_agree twoFiles hpackage
    (fun file hfile => hplain _ (hpages file hfile)) "jdk8" (by decide) {}⟩

/-- The list of all packages links to the list of the classes of a package, not to its table. -/
theorem overviewFrame_leads_beside :
    (∃ package ∈ (table twoFiles).packages, package.name = "c") ∧
      (∃ page, (Renderer.ofGeneration "base").render 0 ⟨[]⟩ "overview-frame"
          ((index twoFiles).scope {}) = .ok page ∧
        linkText toPackageFrame "c/package-frame.html" "c" <:+: page) ∧
      Address.ofHref [] "c/package-frame.html" ≠ ⟨["c", "package-summary.html"], none⟩ := by
  have hpackage : ∃ package ∈ (table twoFiles).packages, package.name = "c" := by decide +kernel
  obtain ⟨package, hp, hname⟩ := hpackage
  have hlink : linkText toPackageFrame (package.entry.rootHref packageFramePage) package.entry.name =
      linkText toPackageFrame "c/package-frame.html" "c" := by
    unfold PackageEntry.rootHref Package.entry Package.shownName Package.folder
    rw [hname]
    rfl
  obtain ⟨page, hpage, hrows⟩ :=
    shows_overviewFrame List.mem_cons_self (index twoFiles) {} 0 ⟨[]⟩
  refine ⟨⟨package, hp, hname⟩, ⟨page, hpage, hlink ▸ ?_⟩, by decide⟩
  exact (linkText_isInfix (List.mem_map_of_mem (mem_packages_index hp))).trans hrows

end Usual

end SourceText

end CodeAtlas
