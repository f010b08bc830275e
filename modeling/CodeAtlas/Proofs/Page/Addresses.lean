/-
  File:      CodeAtlas/Proofs/Page/Addresses.lean
  Subject:   Links to types lead to anchors.

  * `Address.ofHref`: the page and the fragment that a relative address leads to
    from a folder: the path up to `#` or `?`, walked from the folder.
  * `Linker.typeHref_leads`: the address of a type leads from the folder of the
    file's package to the page of the type.
  * `SourceText`: a text to be parsed, with its path and language.
  * `SourceText.type_links_resolve`: every link to a type on the page of a file
    leads to the page of a file that declares the type, and that page has the
    anchor.
-/
import CodeAtlas.Proofs.Page.Anchors
import CodeAtlas.Proofs.Symbols.Table

namespace CodeAtlas

/-! ## 1. Paths -/

namespace Path

theorem segmentsOf_append (a b : Text) :
    segmentsOf (a ++ '/' :: b) = segmentsOf a ++ segmentsOf b := by
  unfold segmentsOf
  rw [List.splitOn_append_cons_self, List.filter_append]

theorem segmentsOf_singleton {segment : Text} (h : '/' ∉ segment) (hne : segment ≠ [])
    (hdot : segment ≠ ['.']) : segmentsOf segment = [segment] := by
  unfold segmentsOf
  rw [List.splitOn_eq_singleton h, List.filter_eq_self]
  intro only ho
  rw [List.mem_singleton.mp ho]
  simp [hne, hdot]

theorem descend_append (location a b : List Text) :
    descend location (a ++ b) = descend (descend location a) b := by
  induction a generalizing location with
  | nil => rfl
  | cons segment a ih =>
    simp only [List.cons_append, descend]
    split
    · exact ih _
    · exact ih _

theorem descend_eq_append {location down : List Text} (h : ['.', '.'] ∉ down) :
    descend location down = location ++ down := by
  induction down generalizing location with
  | nil => exact (List.append_nil location).symm
  | cons segment down ih =>
    simp only [List.mem_cons, not_or] at h
    have hne : (segment == ['.', '.']) = false := by simpa using fun e => h.1 e.symm
    rw [descend, hne]
    simp only [Bool.false_eq_true, if_false]
    rw [ih h.2, List.append_assoc, List.singleton_append]

/-- Going up as often as there are segments leads to the root. -/
theorem descend_up (location : List Text) :
    descend location (List.replicate location.length ['.', '.']) = [] := by
  induction hn : location.length generalizing location with
  | zero => exact List.length_eq_zero_iff.mp hn
  | succ n ih =>
    have hlen : location.dropLast.length = n := by rw [List.length_dropLast, hn]; rfl
    rw [List.replicate_succ, descend]
    simp only [beq_self_eq_true, if_true]
    exact ih _ hlen

end Path

/-! ## 2. The folder of a package -/

/-- A package name that is empty, or segments with dots between them, none of them empty. -/
def IsPackageName (package : Text) : Prop :=
  package = [] ∨ ∀ segment ∈ package.splitOn '.', segment ≠ []

theorem splitOn_packageFolder {package : Text} (h : '/' ∉ package) :
    (packageFolder package).splitOn '/' = package.splitOn '.' := by
  unfold packageFolder Text.swap
  induction package with
  | nil => rfl
  | cons c package ih =>
    simp only [List.mem_cons, not_or] at h
    rw [List.map_cons, List.splitOn_cons_eq_if_modifyHead, List.splitOn_cons_eq_if_modifyHead,
      ih h.2]
    by_cases hc : c = '.'
    · subst hc
      rfl
    · have hslash : c ≠ '/' := fun e => h.1 e.symm
      simp [hc, hslash]

/-- The folder of a package has the segments of its name. -/
theorem segmentsOf_packageFolder {package : Text} (hname : IsPackageName package)
    (hslash : '/' ∉ package) :
    Path.segmentsOf (packageFolder package) = if package = [] then [] else package.splitOn '.' := by
  by_cases hnil : package = []
  · subst hnil
    rfl
  · rw [if_neg hnil]
    unfold Path.segmentsOf
    rw [splitOn_packageFolder hslash, List.filter_eq_self]
    intro segment hs
    have hne : segment ≠ [] := (hname.resolve_left hnil) segment hs
    have hdot : segment ≠ ['.'] := by
      rintro rfl
      exact not_mem_of_mem_splitOn hs List.mem_cons_self
    simp [hne, hdot]

/-- No segment of a package name leads up. -/
theorem dots_not_mem_segmentsOf {package : Text} (hname : IsPackageName package)
    (hslash : '/' ∉ package) : ['.', '.'] ∉ Path.segmentsOf (packageFolder package) := by
  rw [segmentsOf_packageFolder hname hslash]
  split
  · exact List.not_mem_nil
  · exact fun hm => not_mem_of_mem_splitOn hm List.mem_cons_self

theorem length_segmentsOf {package : Text} (hname : IsPackageName package)
    (hslash : '/' ∉ package) :
    (Path.segmentsOf (packageFolder package)).length = packageDepth package := by
  rw [segmentsOf_packageFolder hname hslash]
  unfold packageDepth
  by_cases hnil : package = []
  · subst hnil
    rfl
  · have hempty : package.isEmpty = false := by simpa using hnil
    rw [if_neg hnil, hempty]
    rfl

/-! ## 3. Addresses -/

/-- Where an address leads: the segments of a page, and the fragment if there is one. -/
structure Address where
  segments : List Text
  fragment : Option Text
  deriving DecidableEq, Repr

/-- The part of an address before its query and its fragment. -/
def hrefPath (href : Text) : Text := href.takeWhile fun c => c != '#' && c != '?'

/-- What follows the first `#` of an address. -/
def hrefFragment? (href : Text) : Option Text :=
  match href.dropWhile (· != '#') with
  | [] => none
  | _ :: fragment => some fragment

/-- Where an address leads from a folder below the root of all pages. -/
def Address.ofHref (folder href : Text) : Address :=
  ⟨Path.location (.ofText folder) (.ofText (hrefPath href)), hrefFragment? href⟩

theorem Address.ofHref_append {path fragment : Text} (folder : Text) (h1 : '#' ∉ path)
    (h2 : '?' ∉ path) :
    ofHref folder (path ++ '#' :: fragment) =
      ⟨Path.location (.ofText folder) (.ofText path), some fragment⟩ := by
  have hpath : hrefPath (path ++ '#' :: fragment) = path := by
    have hall : ∀ c ∈ path, (c != '#' && c != '?') = true := by
      intro c hc
      have hne1 : c ≠ '#' := fun e => h1 (e ▸ hc)
      have hne2 : c ≠ '?' := fun e => h2 (e ▸ hc)
      simp [hne1, hne2]
    unfold hrefPath
    rw [List.takeWhile_append_of_pos hall, List.takeWhile_cons]
    exact List.append_nil path
  have hfragment : hrefFragment? (path ++ '#' :: fragment) = some fragment := by
    have hall : ∀ c ∈ path, (c != '#') = true := by
      intro c hc
      have hne : c ≠ '#' := fun e => h1 (e ▸ hc)
      simp [hne]
    unfold hrefFragment?
    rw [List.dropWhile_append_of_pos hall]
    rfl
  unfold ofHref
  rw [hpath, hfragment]

/-- A relative path is walked from the folder; from the root it does not matter whether the path
is relative. -/
theorem Path.location_ofText {folder path : Text}
    (h : segmentsOf folder = [] ∨ path.head? ≠ some '/') :
    location (.ofText folder) (.ofText path) = descend [] (segmentsOf folder ++ segmentsOf path) := by
  unfold location join
  split
  · rename_i habs
    rcases h with h | h
    · rw [h]
      rfl
    · have hrelative : (ofText path).anchor = .relative := by
        cases path with
        | nil => rfl
        | cons c path =>
          have hc : c ≠ '/' := fun e => h (by rw [e]; rfl)
          simp [ofText, anchorOf, hc]
      simp [isAbsolute, hrelative] at habs
  · rfl

namespace Markup.Linker

theorem segmentsOf_up (n : Nat) (rest : Text) :
    Path.segmentsOf (Text.times n "../" ++ rest) =
      List.replicate n ['.', '.'] ++ Path.segmentsOf rest := by
  induction n with
  | zero => rfl
  | succ n ih =>
    have e : Text.times (n + 1) "../" ++ rest = ['.', '.'] ++ '/' :: (Text.times n "../" ++ rest) := by
      simp [Text.times, List.replicate_succ]
    rw [e, Path.segmentsOf_append, ih]
    rfl

/-- The address of a type without its fragment. -/
def typePath (linker : Linker) (target : Target) : Text :=
  linker.source.rootRef ++ ((if (packageFolder target.package).isEmpty then []
    else packageFolder target.package ++ ['/']) ++ (target.declaration.page ++ ".html"))

theorem typeHref_eq (linker : Linker) (target : Target) :
    linker.typeHref target = linker.typePath target ++ '#' :: target.declaration.name := by
  have hend : ".html#".toList = ".html".toList ++ ['#'] := rfl
  unfold typeHref typePath
  rw [hend]
  simp only [List.append_assoc, List.singleton_append]

theorem not_mem_typePath {linker : Linker} {target : Target} {c : Char}
    (hword : target.package = [] ∨ IsWord target.package) (hpart : isWordPart c = false)
    (hslash : c ≠ '/') (hpage : c ∉ target.declaration.page ++ ".html") :
    c ∉ linker.typePath target := by
  have hdot : c ≠ '.' := by
    rintro rfl
    exact absurd hpart (by decide)
  have hfolder : c ∉ packageFolder target.package := by
    intro hm
    rcases mem_packageFolder hm with hm | hm
    · exact hslash hm
    · rcases hword with hnil | hword
      · rw [hnil] at hm
        exact absurd hm List.not_mem_nil
      · exact hword.not_mem hpart hm
  unfold typePath
  rw [List.mem_append, List.mem_append, not_or, not_or]
  refine ⟨fun hm => (mem_rootRef hm).elim hdot hslash, ?_, hpage⟩
  split
  · exact List.not_mem_nil
  · rw [List.mem_append, not_or]
    exact ⟨hfolder, fun hm => hslash (List.mem_singleton.mp hm)⟩

/-- The path of a type goes up to the root, and from there to the page. -/
theorem segmentsOf_typePath (linker : Linker) {target : Target}
    (hpage : '/' ∉ target.declaration.page ++ ".html") :
    Path.segmentsOf (linker.typePath target) =
      List.replicate (packageDepth linker.source.package) ['.', '.'] ++
        (Path.segmentsOf (packageFolder target.package) ++ [target.declaration.page ++ ".html"]) := by
  have hlong : ∀ short : Text, short.length < 5 → target.declaration.page ++ ".html" ≠ short := by
    rintro short hlt rfl
    rw [List.length_append] at hlt
    have : ".html".toList.length = 5 := rfl
    omega
  have hlast := Path.segmentsOf_singleton hpage (hlong [] (by decide)) (hlong ['.'] (by decide))
  unfold typePath SourceFile.rootRef
  rw [segmentsOf_up]
  congr 1
  split
  · rename_i hempty
    rw [List.isEmpty_iff.mp hempty, List.nil_append, hlast]
    rfl
  · rw [List.append_assoc, List.singleton_append, Path.segmentsOf_append, hlast]

/-- **The address of a type leads from the folder of the file's package to the type's page**, and
there to the type's name. -/
theorem typeHref_leads (linker : Linker) (target : Target)
    (hsource : IsPackageName linker.source.package) (hslash : '/' ∉ linker.source.package)
    (hpackage : IsPackageName target.package) (hword : target.package = [] ∨ IsWord target.package)
    (hpage : ∀ c ∈ ['#', '?', '/'], c ∉ target.declaration.page) :
    Address.ofHref (packageFolder linker.source.package) (linker.typeHref target) =
      ⟨((Path.ofText (packageFolder target.package)).child
        (target.declaration.page ++ ".html")).segments, some target.declaration.name⟩ := by
  have hhtml : ∀ c ∈ ['#', '?', '/'], c ∉ target.declaration.page ++ ".html" := by
    intro c hc hm
    have hnot : ∀ c ∈ ['#', '?', '/'], c ∉ ".html".toList := forall_mem_of_all rfl
    exact (List.mem_append.mp hm).elim (hpage c hc) (hnot c hc)
  have htslash : '/' ∉ target.package := by
    rcases hword with hnil | hword
    · rw [hnil]
      exact List.not_mem_nil
    · exact hword.not_mem (by decide)
  have hstart : Path.segmentsOf (packageFolder linker.source.package) = [] ∨
      (linker.typePath target).head? ≠ some '/' := by
    cases hdepth : packageDepth linker.source.package with
    | zero =>
      left
      exact List.length_eq_zero_iff.mp ((length_segmentsOf hsource hslash).trans hdepth)
    | succ n =>
      right
      unfold typePath SourceFile.rootRef
      rw [hdepth]
      exact fun e => nomatch e
  have hdots : ['.', '.'] ∉ Path.segmentsOf (packageFolder target.package) ++
      [target.declaration.page ++ ".html"] := by
    rw [List.mem_append, List.mem_singleton, not_or]
    refine ⟨dots_not_mem_segmentsOf hpackage htslash, fun e => ?_⟩
    have hlen := congrArg List.length e
    rw [List.length_append] at hlen
    have : ".html".toList.length = 5 := rfl
    have : (['.', '.'] : Text).length = 2 := rfl
    omega
  rw [typeHref_eq, Address.ofHref_append _
    (not_mem_typePath hword (by decide) (by decide) (hhtml '#' (by decide)))
    (not_mem_typePath hword (by decide) (by decide) (hhtml '?' (by decide))),
    Path.location_ofText hstart, segmentsOf_typePath linker (hhtml '/' (by decide)),
    Path.descend_append, Path.descend_eq_append (dots_not_mem_segmentsOf hsource hslash),
    List.nil_append, ← length_segmentsOf hsource hslash, Path.descend_append, Path.descend_up,
    Path.descend_eq_append hdots]
  rfl

end Markup.Linker

/-! ## 4. The links of a page -/

namespace Markup

theorem hash_mem_escapeAttribute {text : Text} (h : '#' ∈ text) : '#' ∈ escapeAttribute text := by
  rw [escapeAttribute_eq_flatMap]
  exact List.mem_flatMap.mpr ⟨'#', h, by decide⟩

theorem linkTag_injective {a b : Text} (h : linkTag a = linkTag b) : a = b := by
  unfold linkTag at h
  exact escapeAttribute_injective (List.append_cancel_left (List.append_cancel_right h))

/-- A whole tag of a text is one of its tags. -/
theorem mem_tags_of_isInfix {body html : Text} (hb : TagFree body)
    (h : '<' :: body ++ ['>'] <:+: html) : body ∈ tags html := by
  obtain ⟨before, after, rfl⟩ := h
  unfold tags
  rw [tagsFrom_append, tagsFrom_append, (tagsFrom_tag hb _).1]
  exact List.mem_append_left _ (List.mem_append_right _
    (List.mem_append_right _ List.mem_cons_self))

/-- Among marks, a link with a fragment is a link to a known type. -/
theorem Marks.link_knows {linker : Linker} {form : Text → Text} (hform : IsForm form)
    {tags names : List Text} (h : Marks linker form tags names) {href : Text}
    (hm : linkTag href ∈ tags) (hhash : '#' ∈ href) :
    ∃ target, linker.Knows target ∧ href = linker.typeHref target := by
  induction h with
  | nil => exact absurd hm List.not_mem_nil
  | mute ht _ ih =>
    rcases List.mem_cons.mp hm with rfl | hm
    · refine absurd ?_ ht.1
      unfold linkTag
      exact List.mem_append_left _ (List.mem_append_right _ (hash_mem_escapeAttribute hhash))
    · exact ih hm
  | @link target _ _ ht _ ih =>
    rcases List.mem_cons.mp hm with e | hm
    · exact ⟨target, ht, linkTag_injective e⟩
    · exact ih hm
  | @anchor name _ _ _ ih =>
    rcases List.mem_cons.mp hm with e | hm
    · obtain ⟨rest, hname⟩ := hform name
      exact nomatch e.trans hname
    · exact ih hm

theorem RowsMark.link_knows {linker : Linker} {number : Nat} {placed final : Placed}
    {rows : List Text} {anchored : List (List Text)}
    (h : RowsMark linker number placed rows anchored final) {href : Text}
    (hm : linkTag href ∈ tags rows.flatten) (hhash : '#' ∈ href) :
    ∃ target, linker.Knows target ∧ href = linker.typeHref target := by
  induction h with
  | nil => exact absurd hm List.not_mem_nil
  | cons hrow hrows ih =>
    obtain ⟨empties, list, htags, hempties, hmarks⟩ := hrow.tags
    rw [List.flatten_cons, (htags.append ⟨rfl, hrows.closed⟩).tags_eq] at hm
    rcases List.mem_append.mp hm with hm | hm
    · rcases List.mem_cons.mp hm with e | hm
      · exact nomatch e
      · rcases List.mem_cons.mp hm with e | hm
        · exact nomatch e
        · rcases List.mem_append.mp hm with hm | hm
          · exact hempties.link_knows isForm_idTag hm hhash
          · exact hmarks.link_knows isForm_anchorTag hm hhash
    · exact ih hm

end Markup

/-! ## 5. The pages of parsed files -/

theorem Language.pageName_isPrefix (language : Language) (fileName : Text) :
    language.pageName fileName <+: fileName := by
  unfold pageName
  split
  · exact List.nil_prefix
  · exact List.take_prefix _ _
  · split
    · rename_i hcut
      exact ⟨_, (Text.cutLast?_eq_append hcut).symm⟩
    · exact List.prefix_rfl

/-- The name of a path that was read from a text holds no slash. -/
theorem Path.slash_not_mem_name (text : Text) : '/' ∉ (Path.ofText text).name := by
  unfold name
  cases h : (ofText text).segments.getLast? with
  | none => exact List.not_mem_nil
  | some segment =>
    have hm : segment ∈ segmentsOf text := List.mem_of_getLast? h
    exact not_mem_of_mem_splitOn (List.mem_filter.mp hm).1

/-- A text to be parsed, with its path and its language. -/
structure SourceText where
  path : Text
  text : Text
  language : Language
  encoding : Option Text := none

namespace SourceText

/-- The outline of the text. -/
def source (file : SourceText) : SourceFile :=
  .ofText file.text (.ofText file.path) file.language file.encoding

/-- What is known where the text is marked up. -/
def linker (file : SourceText) (table : SymbolTable) : Markup.Linker :=
  .ofLanguage file.source table file.language

/-- The rows of the page of the text. -/
def rows (file : SourceText) (table : SymbolTable) : List Text :=
  ((file.linker table).rows 1 [] .code (splitLines file.text)).1

/-- The page of the text. -/
def page (file : SourceText) (table : SymbolTable) (options : PageOptions) (current : Path)
    (pageFolder : Option Path) : Text :=
  (file.linker table).page (splitLines file.text) options current pageFolder

/-- The table of some texts, registered in order. -/
def table (files : List SourceText) : SymbolTable := .ofSources (files.map source)

theorem slash_not_mem_page (file : SourceText) : '/' ∉ file.source.page := fun hm =>
  Path.slash_not_mem_name file.path ((file.language.pageName_isPrefix _).subset hm)

theorem slash_not_mem_package (file : SourceText) : '/' ∉ file.source.package := by
  rcases SourceFile.package_ofText file.text (.ofText file.path) file.language file.encoding with
    hnil | hword
  · exact fun hm => absurd (hnil ▸ hm) List.not_mem_nil
  · exact hword.not_mem (by decide)

/-- Every type that a file declares has an anchor on the page of the file. -/
theorem anchor_isInfix_page (file : SourceText) (table : SymbolTable) {declaration : Declaration}
    (h : declaration ∈ file.source.types) (options : PageOptions) (current : Path)
    (pageFolder : Option Path) :
    ("<a id=\"" ++ declaration.name ++ "\"" : Text) <:+: file.page table options current pageFolder := by
  have hword : IsWord declaration.name := (SourceFile.declared_ofText h).isWord
  obtain ⟨anchored, hmark⟩ :=
    (file.linker table).rowsMark_rows 1 [] .code (splitLines file.text)
  have hfinal := Markup.Linker.rows_placed file.text (.ofText file.path) file.language
    file.encoding table h
  have hin : declaration.name ∈ anchored.flatten :=
    (hmark.mem_final_iff.mp hfinal).resolve_left List.not_mem_nil
  have hpos : 0 < Markup.occurrences ('<' :: Markup.idStart declaration.name)
      (file.rows table).flatten := by
    unfold rows
    rw [hmark.occurrences_eq (hword.not_mem (by decide)) hword.tagFree, List.count_pos_iff]
    exact List.mem_map.mpr ⟨_, hin, Markup.escapeAttribute_eq_self hword.not_hidden⟩
  refine List.IsInfix.trans (Markup.occurrences_pos_iff.mp hpos) ?_
  unfold page rows
  rw [Markup.Linker.page_eq]
  exact List.IsInfix.trans (List.infix_append _ _ _) (List.prefix_append _ _).isInfix

/-- **Every link to a type resolves.** Where a row of a file's page has a link with a fragment, the
address leads from the folder of the file's package to the page of one of the files, which
declares a type of that name, and whose page has the anchor. -/
theorem type_links_resolve (files : List SourceText)
    (hpackage : ∀ file ∈ files, IsPackageName file.source.package)
    (hpage : ∀ file ∈ files, '#' ∉ file.source.page ∧ '?' ∉ file.source.page)
    (file : SourceText) (hfile : file ∈ files) (href : Text)
    (hlink : ("<a href=\"" ++ Markup.escapeAttribute href ++ "\">" : Text) <:+:
      (file.rows (table files)).flatten)
    (hhash : '#' ∈ href) :
    ∃ target ∈ files, ∃ declaration ∈ target.source.types,
      Address.ofHref (packageFolder file.source.package) href =
        ⟨((Path.ofText (packageFolder target.source.package)).child
          (target.source.page ++ ".html")).segments, some declaration.name⟩ ∧
      ∀ options current pageFolder,
        ("<a id=\"" ++ declaration.name ++ "\"" : Text) <:+:
          target.page (table files) options current pageFolder := by
  obtain ⟨anchored, hmark⟩ :=
    (file.linker (table files)).rowsMark_rows 1 [] .code (splitLines file.text)
  have hwhole : "<a href=\"" ++ Markup.escapeAttribute href ++ "\">" =
      '<' :: Markup.linkTag href ++ ['>'] := by
    have hend : "\">".toList = "\"".toList ++ ['>'] := rfl
    rw [hend, ← List.append_assoc]
    rfl
  rw [hwhole] at hlink
  have htag := Markup.mem_tags_of_isInfix (Markup.tagFree_linkTag href) hlink
  obtain ⟨found, hknows, rfl⟩ := hmark.link_knows htag hhash
  obtain ⟨source, hs, hfrom, hd, _⟩ := SymbolTable.find?_ofSources hknows
  obtain ⟨target, ht, rfl⟩ := List.mem_map.mp hs
  have hsame : found.declaration.page = target.source.page :=
    (SourceFile.declared_ofText hd).page_eq
  refine ⟨target, ht, found.declaration, hd, ?_, fun options current pageFolder =>
    target.anchor_isInfix_page (table files) hd options current pageFolder⟩
  rw [hfrom, ← hsame]
  refine (file.linker (table files)).typeHref_leads found (hpackage file hfile)
    file.slash_not_mem_package (hfrom ▸ hpackage target ht) ?_ ?_
  · rw [← hfrom]
    exact SourceFile.package_ofText _ _ _ _
  · rw [hsame]
    intro c hc
    simp only [List.mem_cons, List.not_mem_nil, or_false] at hc
    rcases hc with rfl | rfl | rfl
    · exact (hpage target ht).1
    · exact (hpage target ht).2
    · exact target.slash_not_mem_page

/-- A type, and a file of another package that imports and extends it. -/
def twoFiles : List SourceText :=
  [⟨"a/A.java", "package a.b; class A \x7b\x7d", .java, none⟩,
   ⟨"c/C.java", "package c;\nimport a.b.A;\nclass C extends A \x7b\x7d", .java, none⟩]

theorem type_links_resolve_two :
    ∃ file ∈ twoFiles, ∃ target ∈ twoFiles, ∃ declaration ∈ target.source.types,
      Address.ofHref (packageFolder file.source.package) "../a/b/A.html#A" =
        ⟨((Path.ofText (packageFolder target.source.package)).child
          (target.source.page ++ ".html")).segments, some declaration.name⟩ ∧
      ∀ options current pageFolder,
        ("<a id=\"" ++ declaration.name ++ "\"" : Text) <:+:
          target.page (table twoFiles) options current pageFolder := by
  have hpackage : ∀ file ∈ twoFiles, IsPackageName file.source.package := by
    unfold IsPackageName
    decide +kernel
  have hlink : ("<a href=\"" ++ Markup.escapeAttribute "../a/b/A.html#A" ++ "\">" : Text) <:+:
      ((SourceText.rows twoFiles[1] (table twoFiles)).flatten) := by decide +kernel
  exact ⟨twoFiles[1], by simp [twoFiles], type_links_resolve twoFiles hpackage (by decide +kernel)
    twoFiles[1] (by simp [twoFiles]) "../a/b/A.html#A" hlink (by decide)⟩

end SourceText

end CodeAtlas
