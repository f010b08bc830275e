/-
  File:      CodeAtlas/Proofs/Run/Passing.lean
  Subject:   Which failures pass through a run, and the parts of it that read and write sources.

  * `Passes`: the causes that a run does not report as its own, each with what it takes
    of the settings, of the platform and of the desk that is left.
  * `Cache.outline_error`: why a file is not read into a table, if it is for such a cause.
  * `ends_process`, `ends_readRoots`: reading the roots fails for no others.
  * `ends_transformRoot`: neither does writing the pages of their files.
-/
import CodeAtlas.Proofs.Run.Ends
import CodeAtlas.Proofs.Page.StartPage
import CodeAtlas.Proofs.Tree.Pruning

namespace CodeAtlas

open Template (Renderer)

namespace Work

/-! ## 1. What passes through a run -/

/-- What the navigation pages of a run share. -/
def navigationOptions (settings : Settings) (context : RunContext) : NavigationOptions :=
  { windowTitle := settings.windowTitle
    docTitle := settings.docTitle
    bottom := resolveFooter settings.bottom settings.inceptionYear settings.organization context.year
    outputEncoding := settings.outputEncoding }

variable [Platform]

/-- A path at which a run looks for a source root. -/
def IsRoot (settings : Settings) (path : Path) : Prop :=
  ∃ raw ∈ settings.sourceRoots, ∃ root, raw.expand = .ok root ∧
    (path = root ∨ path = root.resolved)

/-- A folder that a run writes pages into. -/
inductive IsPageFolder (settings : Settings) (left : Desk) : Path → Prop where
  | source {relative : Text} (h : left.tree.Names relative) :
      IsPageFolder settings left
        (settings.destinationFolder.join (Path.ofText relative).parent)
  | root : IsPageFolder settings left settings.destinationFolder
  | package {package : Package} (h : package ∈ left.survey.table.packages) :
      IsPageFolder settings left
        (settings.destinationFolder.join (Path.ofText package.entry.folder))

/-- The causes of failure that a run does not report as its own, with what each of them takes.
`left` is the desk that the failure leaves. -/
inductive Passes (settings : Settings) (context : RunContext) : Failure → Desk → Prop where
  /-- The name of the encoding of the sources cannot be one. -/
  | inputName {fault : NameFault} {left : Desk}
      (h : NameFault.check (encodingOrDefault settings.inputEncoding) = .error fault) :
      Passes settings context (.encodingName fault) left
  /-- The name of the encoding of the pages cannot be one. -/
  | outputName {fault : NameFault} {left : Desk}
      (h : NameFault.check settings.outputEncoding = .error fault) :
      Passes settings context (.encodingName fault) left
  /-- A source is to be read as UTF-16 of either byte order. -/
  | byteOrder {left : Desk}
      (h : Encoding.named? (encodingOrDefault settings.inputEncoding) = some .utf16) :
      Passes settings context .noByteOrderMark left
  /-- The encoding of the sources is one of the platform, and fails in a way that speaks of no
  bytes. -/
  | inputCodec {codec : Codec} {path : Path} {bytes : Bytes} {why : Text} {left : Desk}
      (hnone : Encoding.named? (encodingOrDefault settings.inputEncoding) = none)
      (hcodec : Platform.codec? (encodingOrDefault settings.inputEncoding) = some codec)
      (hread : left.tree.read path = .ok bytes) (h : codec.decode bytes = .error (.other why)) :
      Passes settings context (.codec (.other why)) left
  /-- The encoding of the pages is one of the platform, and does not write a text. -/
  | outputCodec {codec : Codec} {text : Text} {fault : CodecFault} {left : Desk}
      (hnone : Encoding.named? settings.outputEncoding = none)
      (hcodec : Platform.codec? settings.outputEncoding = some codec)
      (h : codec.encode text = .error fault) : Passes settings context (.codec fault) left
  /-- No home folder is known for a source root. -/
  | root {raw : Path} {fault : FileFault} {left : Desk} (hraw : raw ∈ settings.sourceRoots)
      (h : raw.expand = .error fault) : Passes settings context (.file fault) left
  /-- A file below the current folder has the name of an account, which is looked up. -/
  | home {relative : Text} {fault : FileFault} {left : Desk}
      (hroot : ⟨.relative, []⟩ ∈ settings.sourceRoots) (hnames : left.tree.Names relative)
      (h : (Path.ofText relative).resolve = .error fault) :
      Passes settings context (.file fault) left
  /-- A page goes to a path that the operating system cannot be shown. -/
  | target {fault : FileFault} {left : Desk} (h : ¬ settings.destinationFolder.Fits ∨
      ∃ package ∈ left.survey.table.packages, ¬ Text.Fits package.name) :
      Passes settings context (.file fault) left
  /-- Folders of a source root are nested too deep, when it is looked for sources. -/
  | searched {raw root : Path} {location : Location} {left : Desk}
      (hraw : raw ∈ settings.sourceRoots) (hexpand : raw.expand = .ok root)
      (hlocate : left.tree.locate root = .ok location)
      (h : Platform.stack.folders < left.tree.searchDepth
        (sourceEndings settings.includes (settings.catalog context.catalog)) location) :
      Passes settings context (.file .tooDeep) left
  /-- Folders of a source root are nested too deep, when its files are listed. -/
  | listed {path : Path} {location : Location} {left : Desk} (hroot : IsRoot settings path)
      (hlocate : left.tree.locate path = .ok location)
      (h : Platform.stack.listed < left.tree.listedDepth location) :
      Passes settings context (.file .tooDeep) left
  /-- Too many folders are missing above one that pages go to. -/
  | made {folder : Path} {left : Desk} (hfolder : IsPageFolder settings left folder)
      (h : Platform.stack.missing < left.tree.missingRev folder.anchor folder.segments.reverse) :
      Passes settings context (.file .tooDeep) left
  /-- Types of a source are nested too deep. -/
  | types {path : Path} {text : Text} {left : Desk}
      (hread : left.tree.readText path (encodingOrDefault none) = .ok text)
      (h : Reader.exceeds (left.survey.cache.catalog.languageFor path) Platform.stack.types text) :
      Passes settings context .tooDeep left
  /-- A line of a source has too many comments. It was read before its page was announced. -/
  | comments {path : Path} {text : Text} {before : Tree} {records : List Record} {left : Desk}
      (hread : before.readText path (encodingOrDefault settings.inputEncoding) = .ok text)
      (hleft : left.tree = Listener.note left.listener records before)
      (h : Markup.exceeds Platform.stack.comments .code (splitLines text)) :
      Passes settings context .tooDeep left
  /-- The built-in templates are chosen by the version of the tool, and asking for it is broken
  off. -/
  | tool {cause : Failure} {left : Desk} (hbuiltIn : settings.ownRenderer context = none)
      (h : settings.askedVersion context = .error cause) : Passes settings context cause left
  /-- The built-in templates are chosen by a version with a number of too many digits. -/
  | version {version : Text} {records : List Record} {digits : Nat} {left : Desk}
      (hbuiltIn : settings.ownRenderer context = none)
      (hasked : settings.askedVersion context = .ok (version, records))
      (h : generationFor (some version) = .error digits) :
      Passes settings context (.longVersion digits) left
  /-- A template of one's own does not make its page. -/
  | template {renderer : Renderer} {name : Text} {page : Template.Scope} {cause : Failure}
      {left : Desk} (hown : settings.ownRenderer context = some renderer)
      (hpage : (ProjectIndex.ofTable left.survey.table).IsPage (navigationOptions settings context)
        name page)
      (h : renderer.render left.chance left.tree name page = .error cause) :
      Passes settings context cause left
  /-- The languages of the platform cannot be put together. -/
  | discovery {error : DiscoveryError} {left : Desk} (h : Platform.found = .error error) :
      Passes settings context (.discovery error) left

end Work

/-! ## 2. Files that are not read -/

section Unread

variable [Platform] {tree : Tree} {path : Path} {failure : Failure}

/-- UTF-8 is spelled out here, and has no byte orders. -/
theorem Tree.Unread.not_passes_utf8 :
    ¬ Tree.Unread.Passes tree path (encodingOrDefault none) failure := by
  have hname : NameFault.check (encodingOrDefault none) = .ok () := by decide
  have hknown : Encoding.named? (encodingOrDefault none) = some .utf8 := by cbv
  intro h
  cases h with
  | name h =>
    rw [hname] at h
    cases h
  | order h =>
    rw [hknown] at h
    cases h
  | codec hnone =>
    rw [hknown] at hnone
    cases hnone

/-- A file is not read into a table for such a cause only if its types are nested too deep. -/
theorem SourceFile.load_error {encoding : Option Text} {language : Language} (hfits : path.Fits)
    (h : load tree path encoding language = .error failure) (hown : failure.isContained = false) :
    Tree.Unread.Passes tree path (encodingOrDefault encoding) failure ∨
      failure = .tooDeep ∧ ∃ text, tree.readText path (encodingOrDefault encoding) = .ok text ∧
        Reader.exceeds language Platform.stack.types text := by
  unfold load at h
  cases hholds : tree.holds path with
  | error fault =>
    rw [hholds] at h
    cases h
    have hnot : fault.isOfSystem = false := hown
    rw [Tree.isOfSystem_of_map_probe hholds] at hnot
    cases hnot
  | ok found =>
    simp only [hholds, Except.mapError, bind, Except.bind] at h
    split at h
    · cases h
      cases hown
    · cases hread : tree.readSource path (encodingOrDefault encoding) with
      | error fault =>
        rw [hread] at h
        cases h
        exact Or.inl (Tree.passes_of_readSource hfits hread hown)
      | ok text =>
        rw [hread] at h
        simp only at h
        split at h
        · rename_i hdeep
          cases h
          exact Or.inr ⟨rfl, text, Tree.readText_of_readSource hread, hdeep⟩
        · cases h

/-- Why a cache that reads in the default encoding does not give the outline of a file. -/
theorem Cache.outline_error {cache : Cache} (hencoding : cache.encoding = none)
    (h : cache.outline tree path = .error failure) (hown : failure.isContained = false) :
    (∃ fault, path.resolve = .error fault ∧ failure = .file fault) ∨
      failure = .tooDeep ∧ ∃ key text, tree.readText key (encodingOrDefault none) = .ok text ∧
        Reader.exceeds (cache.catalog.languageFor key) Platform.stack.types text := by
  rw [outline_eq] at h
  cases hresolve : path.resolve with
  | error fault =>
    simp only [hresolve] at h
    cases h
    exact Or.inl ⟨fault, rfl, rfl⟩
  | ok key =>
    simp only [hresolve] at h
    split at h
    · cases h
    · unfold parse at h
      rw [hencoding] at h
      obtain ⟨whole, -, hchecked, rfl⟩ := Path.resolve_eq_ok_iff.mp hresolve
      have hfits := (Path.checkText_eq_ok_iff.mp hchecked).resolved
      rcases SourceFile.load_error hfits h hown with hpasses | ⟨hfailure, text, hread, hdeep⟩
      · exact absurd hpasses Tree.Unread.not_passes_utf8
      · exact Or.inr ⟨hfailure, _, text, hread, hdeep⟩

end Unread

theorem Cache.encoding_get [Platform] {cache after : Cache} {tree : Tree} {path : Path}
    {source : SourceFile} (h : cache.get tree path = .ok (source, after)) :
    after.encoding = cache.encoding := by
  obtain ⟨_, -, ⟨-, rfl⟩ | ⟨-, -, rfl⟩⟩ := get_cases h
  · rfl
  · rfl

namespace Work

variable [Platform] {settings : Settings} {context : RunContext} {desk : Desk}

/-! ## 3. Reading the roots -/

theorem ends_fetch (hready : Ready desk) {path : Path}
    (hresolve : ∀ fault later, path.resolve = .error fault → Onward desk later →
      Passes settings context (.file fault) later) :
    Ends (Passes settings context) desk (fetch path) fun _ _ => True := by
  refine ends_get ((ends_report _).bind fun _ noted hnoted _ => ends_get ?_)
  have hencoding := (hnoted.ready hready).encoding
  have hfound : Ends (Passes settings context) noted
      (ofExcept (noted.survey.cache.get noted.tree path)) fun found _ =>
        found.2.encoding = none := by
    refine ends_ofExcept (fun found hfound => ?_) fun failure hfailure hown => ?_
    · rw [Cache.encoding_get hfound]
      exact hencoding
    · have houtline : noted.survey.cache.outline noted.tree path = .error failure := by
        unfold Cache.outline
        rw [hfailure]
        rfl
      rcases Cache.outline_error hencoding houtline hown with
        ⟨fault, hfault, rfl⟩ | ⟨rfl, key, text, hread, hdeep⟩
      · exact hresolve fault noted hfault hnoted
      · exact .types hread hdeep
  refine hfound.bind fun found after _ hnone => ?_
  have hkept : Onward after { after with survey := { after.survey with cache := found.2 } } :=
    ⟨.refl after.tree, fun _ => hnone⟩
  exact (ends_modify hkept).bind fun _ _ _ _ => ends_value _

theorem ends_sourcePaths {path : Path} (hroot : IsRoot settings path)
    (hexpand : path.expand = .ok path) :
    Ends (Passes settings context) desk (sourcePaths path) fun paths after =>
      ∀ relative ∈ paths, after.tree.Names relative := by
  refine ends_get (ends_ofExcept (fun paths hpaths relative hm => ?_)
    fun failure hfailure hown => ?_)
  · exact Tree.names_of_scan (Survey.scan_of_sourcePaths hpaths) hm
  · rcases Survey.sourcePaths_error hfailure with
      hscan | ⟨rfl, root, location, hother, hlocate, hdeep⟩
    · rcases Tree.scan_error hscan with ⟨fault, hfault, -⟩ | hcontained
      · rw [hexpand] at hfault
        cases hfault
      · rw [hcontained] at hown
        cases hown
    · cases hexpand.symm.trans hother
      exact .listed hroot hlocate hdeep

/-- The files below a folder that is given from the root on. -/
theorem ends_readFiles (hready : Ready desk) {folder : Path} (habsolute : folder.isAbsolute)
    (hfolder : folder.Fits) {paths : List Text} (hpaths : ∀ path ∈ paths, Text.Fits path) :
    Ends (Passes settings context) desk (readFiles folder paths) fun _ _ => True := by
  induction paths generalizing desk with
  | nil => exact ends_value _
  | cons path paths ih =>
    have hpath : (folder.join (Path.ofText path)).Fits :=
      hfolder.join (Path.fits_ofText (hpaths path List.mem_cons_self))
    have haccount : (folder.join (Path.ofText path)).account? = none := by
      refine Path.account?_of_isAbsolute ?_
      unfold Path.join
      split
      · assumption
      · exact habsolute
    have hfetch : Ends (Passes settings context) desk (fetch (folder.join (Path.ofText path)))
        fun _ _ => True := by
      refine ends_fetch hready fun fault _ hfault => ?_
      rw [hpath.resolve haccount] at hfault
      cases hfault
    refine hfetch.bind fun source fetched hfetched _ => ?_
    refine (ends_modify ⟨.refl fetched.tree, id⟩).bind fun _ registered hregistered _ => ?_
    exact ih (hregistered.ready (hfetched.ready hready)) fun other hm =>
      hpaths other (List.mem_cons_of_mem path hm)

/-- A root that may be read: one of the settings, that can be shown to the operating system. -/
structure Candidate (settings : Settings) (root : Path) : Prop where
  given : ∃ raw ∈ settings.sourceRoots, raw.expand = .ok root
  fits : root.Fits

theorem Candidate.expand {root : Path} (h : Candidate settings root) : root.expand = .ok root :=
  h.given.elim fun _ hraw => Path.expand_of_expand hraw.2

theorem Candidate.isRoot {root : Path} (h : Candidate settings root) : IsRoot settings root := by
  obtain ⟨raw, hraw, hexpand⟩ := h.given
  exact ⟨raw, hraw, root, hexpand, Or.inl rfl⟩

theorem Candidate.isRoot_resolved {root : Path} (h : Candidate settings root) :
    IsRoot settings root.resolved := by
  obtain ⟨raw, hraw, hexpand⟩ := h.given
  exact ⟨raw, hraw, root, hexpand, Or.inr rfl⟩

theorem candidate_of_prune {tree : Tree} {endings : List Text} {candidates : List Path}
    (h : tree.prune endings settings.sourceRoots = .ok candidates) {root : Path}
    (hm : root ∈ candidates) : Candidate settings root := by
  obtain ⟨hgiven, hsources⟩ := (Tree.mem_prune_iff h).mp hm
  refine ⟨hgiven, ?_⟩
  unfold Tree.hasSources at hsources
  split at hsources
  · cases hsources
  · cases hsources
  · rename_i hlocate
    exact Path.checkText_eq_ok_iff.mp (Path.checkText_of_check (Tree.locate_eq_ok_iff.mp hlocate).1)

theorem ends_process (hready : Ready desk) {root : Path} (hroot : Candidate settings root) :
    Ends (Passes settings context) desk (process root) fun _ _ => True := by
  have hresolve : root.resolve = .ok root.resolved :=
    hroot.fits.resolve (Path.account?_of_expand hroot.expand)
  have hkey : Ends (Passes settings context) desk (ofExcept (root.resolve.mapError .file))
      fun key _ => key = root.resolved := by
    rw [hresolve]
    exact ends_pure rfl
  refine hkey.bind fun key begun hbegun hkey => ends_get ?_
  subst hkey
  split
  · exact ends_value _
  · refine (ends_modify ⟨.refl begun.tree, id⟩).bind fun _ marked hmarked _ => ?_
    refine (ends_report _).bind fun _ noted hnoted _ => ?_
    have hlater := ((hbegun.trans hmarked).trans hnoted).ready hready
    refine (ends_sourcePaths hroot.isRoot_resolved (Path.expand_resolved root)).bind
      fun paths listed hlisted hpaths => ?_
    have hfiles := hlisted.ready hlater
    refine (ends_readFiles hfiles rfl hroot.fits.resolved fun path hm =>
      hfiles.shown.fits (hpaths path hm)).bind fun _ _ _ _ => ends_value _

theorem ends_readRoots (hready : Ready desk) (found catalog : Catalog) {candidates : List Path}
    (hcandidates : ∀ root ∈ candidates, Candidate settings root) :
    Ends (Passes settings context) desk (readRoots found settings catalog candidates) fun roots _ =>
      ∀ root ∈ roots, Candidate settings root := by
  have hbegin : Ends (Passes settings context) desk (onSurvey fun _ => Survey.start found
      (Cache.empty settings.inputEncoding catalog) settings.includes settings.excludes)
      fun _ after => Ready after :=
    -- the survey does not use the cache that it is given
    (ends_modify ⟨.refl desk.tree, fun _ => rfl⟩).imp fun _ after hafter =>
      hafter ▸ ⟨hready.shown, rfl⟩
  refine hbegin.bind fun _ begun _ hbegun => (ends_announce _ _).bind fun _ noted hnoted _ => ?_
  refine (ends_filterM fun root hm later hlater =>
    ends_process ((hnoted.trans hlater).ready hbegun) (hcandidates root hm)).bind
      fun roots read _ hroots => ends_get ((ends_report _).bind fun _ _ _ _ => ?_)
  exact ends_pure fun root hm => hcandidates root (hroots root hm)

/-! ## 4. Writing their pages -/

/-- Options that name the encodings of the settings. -/
def OfSettings (settings : Settings) (options : PageOptions) : Prop :=
  options.inputEncoding = settings.inputEncoding ∧ options.outputEncoding = settings.outputEncoding

omit [Platform] in
theorem inputEncoding_eq {options : PageOptions} {cache : Cache} (h : cache.encoding = none) :
    inputEncoding options cache = encodingOrDefault options.inputEncoding := by
  unfold inputEncoding
  rw [h]
  rcases options.inputEncoding with _ | _ | ⟨first, rest⟩ <;> rfl

omit [Platform] in
/-- The page of a file lies below the destination. -/
theorem fits_pagePath {destination source : Path} {relative : Text} (language : Language)
    (hdestination : destination.Fits) (hsource : source.Fits) (hrelative : Text.Fits relative) :
    (pagePath destination language source relative).Fits := by
  have hpage : Text.Fits (language.pageName source.name) := by
    refine hsource.name.of_infix ?_
    unfold Language.pageName
    split
    · exact List.nil_infix
    · exact (List.take_prefix _ _).isInfix
    · split
      · rename_i hcut
        rw [Text.cutLast?_eq_append hcut]
        exact (List.prefix_append _ _).isInfix
      · exact List.infix_rfl
  have hfile : Text.Fits (language.pageName source.name ++ ".html") :=
    (Text.fits_append_cons_iff Text.isPlain_dot).mpr ⟨hpage, by decide⟩
  exact (hdestination.join (Path.fits_ofText hrelative).parent).child hfile

/-- Writing a page into a folder. -/
theorem ends_publish {folder : Path} {name page : Text}
    (hunfit : ¬ (folder.child name).Fits → ∀ fault made,
      Passes settings context (.file fault) { desk with tree := made })
    (hfolder : ∀ made, desk.tree.Extends made →
      IsPageFolder settings { desk with tree := made } folder) :
    Ends (Passes settings context) desk
      (onTree fun tree => tree.publish (folder.child name) settings.outputEncoding page)
      fun _ _ => True := by
  have hextends := Tree.extends_publish desk.tree (folder.child name) settings.outputEncoding page
  refine ends_onTree hextends fun made failure hfailure hown => ?_
  rw [hfailure] at hextends
  cases Tree.passes_of_publish hfailure hown with
  | name h => exact .outputName h
  | path h => exact hunfit h _ made
  | folders h =>
    rw [Path.parent_child] at h
    exact .made (hfolder made hextends) h
  | codec hnone hcodec h => exact .outputCodec hnone hcodec h

/-- A file below a root has no resolved form only if the root is the current folder. -/
theorem passes_of_resolve {root : Path} (hroot : Candidate settings root) {relative : Text}
    (hready : Ready desk) (hnames : desk.tree.Names relative) {fault : FileFault}
    (h : (root.join (Path.ofText relative)).resolve = .error fault) {later : Desk}
    (hlater : Onward desk later) : Passes settings context (.file fault) later := by
  have hfits : (root.join (Path.ofText relative)).Fits :=
    hroot.fits.join (Path.fits_ofText (hready.shown.fits hnames))
  have haccount : (root.join (Path.ofText relative)).account? ≠ none := by
    intro hnone
    rw [hfits.resolve hnone] at h
    cases h
  obtain ⟨rfl, hjoin⟩ := Path.join_of_account (Path.account?_of_expand hroot.expand) haccount
  obtain ⟨raw, hraw, hexpand⟩ := hroot.given
  rw [hjoin] at h
  refine .home ?_ (hnames.of_extends hlater.tree) h
  -- a home folder would be given from the root on
  rcases Path.expand_cases hexpand with ⟨-, rfl⟩ | ⟨account, rest, home, -, hhome, hwhole⟩
  · exact hraw
  · have habsolute := Path.isAbsolute_of_homes hhome
    unfold Path.isAbsolute at habsolute
    rw [← congrArg Path.anchor hwhole] at habsolute
    cases habsolute

/-- Reading a source in the encoding of the settings. -/
theorem ends_readSource {path : Path} (hfits : path.Fits) :
    Ends (Passes settings context) desk
      (ofExcept (desk.tree.readSource path (encodingOrDefault settings.inputEncoding)))
      fun text after => after = desk ∧
        desk.tree.readText path (encodingOrDefault settings.inputEncoding) = .ok text := by
  refine ends_ofExcept (fun text htext => ⟨rfl, Tree.readText_of_readSource htext⟩)
    fun failure hfailure hown => ?_
  cases Tree.passes_of_readSource hfits hfailure hown with
  | name h => exact .inputName h
  | order h => exact .byteOrder h
  | codec hnone hcodec hbytes h => exact .inputCodec hnone hcodec hbytes h

/-- Cutting a source into lines, once its page has been announced. -/
theorem ends_fitLines {path : Path} {text : Text} {before : Tree} {records : List Record}
    (hread : before.readText path (encodingOrDefault settings.inputEncoding) = .ok text)
    (hleft : desk.tree = Listener.note desk.listener records before) :
    Ends (Passes settings context) desk (ofExcept (fitLines text)) fun _ _ => True := by
  refine ends_ofExcept (fun _ _ => trivial) fun failure hfailure _ => ?_
  unfold fitLines at hfailure
  simp only at hfailure
  split at hfailure
  · rename_i hdeep
    cases hfailure
    exact .comments hread hleft hdeep
  · cases hfailure

theorem ends_transformFile (hready : Ready desk) {options : PageOptions}
    (hoptions : OfSettings settings options) (catalog : Catalog) {root : Path}
    (hroot : Candidate settings root) {relative : Text} (hnames : desk.tree.Names relative) :
    Ends (Passes settings context) desk
      (transformFile catalog settings.destinationFolder options root relative)
      fun _ _ => True := by
  have hrelative := hready.shown.fits hnames
  have hsource : (root.join (Path.ofText relative)).Fits :=
    hroot.fits.join (Path.fits_ofText hrelative)
  unfold transformFile transform
  refine (ends_fetch hready fun fault later hfault hlater =>
    passes_of_resolve hroot hready hnames hfault hlater).bind fun source fetched hfetched _ =>
      ends_get ?_
  have hencoding : inputEncoding options fetched.survey.cache =
      encodingOrDefault settings.inputEncoding := by
    rw [inputEncoding_eq (hfetched.ready hready).encoding, hoptions.1]
  rw [hencoding, hoptions.2]
  refine (ends_readSource hsource).bind fun text _ _ htext => ?_
  obtain ⟨rfl, htext⟩ := htext
  refine (ends_report _).bind fun _ noted hnoted hrecords => ?_
  refine (ends_fitLines htext hrecords).bind fun lines cut hcut _ => ?_
  refine (ends_publish (fun hunfit fault made => ?_) fun made hmade => ?_).bind
    fun _ _ _ _ => ends_value _
  · exact .target (Or.inl fun hdestination =>
      hunfit (fits_pagePath _ hdestination hsource hrelative))
  · exact .source (hnames.of_extends (((hfetched.trans hnoted).trans hcut).tree.trans hmade))

theorem ends_transformRoot (hready : Ready desk) {options : PageOptions}
    (hoptions : OfSettings settings options) (catalog : Catalog) {root : Path}
    (hroot : Candidate settings root) :
    Ends (Passes settings context) desk
      (transformRoot catalog settings.destinationFolder options root) fun _ _ => True := by
  refine (ends_sourcePaths hroot.isRoot hroot.expand).bind fun paths listed hlisted hpaths => ?_
  refine ends_mapM trivial fun relative hm later hlater _ => ?_
  exact ends_transformFile ((hlisted.trans hlater).ready hready) hoptions catalog hroot
    ((hpaths relative hm).of_extends hlater.tree)

end Work

end CodeAtlas
