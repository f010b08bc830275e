/-
  File:      CodeAtlas/Proofs/Tree/Shown.lean
  Subject:   Trees of names that the operating system can be shown.

  * `Tree.Shown`: a tree of such names. The paths that a scan of it gives are made of
    them (`Tree.names_of_scan`, `Shown.fits`).
  * `Tree.Unread`, `Tree.Unwritten`: why a file is not read as a text, and why a text is
    not written to a file.
  * `Unread.Passes`, `Unwritten.Passes`: the same, if a run does not report it as its own
    failure (`Tree.passes_of_readSource`, `Tree.passes_of_publish`).
  * `Tree.Extends`: all that a change does to the names in a tree; it takes none away and
    adds fit ones (`Tree.extends_publish`, `Tree.extends_note`).
-/
import CodeAtlas.Listener
import CodeAtlas.Proofs.Tree.Fit
import CodeAtlas.Proofs.Tree.Scan

namespace CodeAtlas

/-- Only UTF-16 whose byte order is to be found out needs a mark. -/
theorem Encoding.eq_utf16_of_noByteOrderMark {known : Encoding} {bytes : Bytes}
    (h : known.decode bytes = .error .noByteOrderMark) : known = .utf16 := by
  have hnot : ∀ {result : Except DecodeFault Text},
      result.mapError TextFault.decode ≠ .error .noByteOrderMark := by
    intro result e
    cases result <;> cases e
  cases known with
  | utf16 => rfl
  | latin1 => cases h
  | utf8Marked =>
    change (if bytes.isPrefixOf utf8Mark then Except.ok []
      else if utf8Mark.isPrefixOf bytes then (decodeUtf8 (bytes.drop 3)).mapError TextFault.decode
      else (decodeUtf8 bytes).mapError TextFault.decode) = _ at h
    split at h
    · cases h
    · split at h
      · exact absurd h hnot
      · exact absurd h hnot
  | utf8 => exact absurd h hnot
  | ascii => exact absurd h hnot
  | utf16Little => exact absurd h hnot
  | utf16Big => exact absurd h hnot

namespace Tree

/-! ## 1. What a scan gives -/

/-- A tree whose names can be shown to the operating system. -/
def Shown (tree : Tree) : Prop :=
  ∀ location ∈ tree.locations, ∀ segment ∈ location, Text.Fits segment

instance (tree : Tree) : Decidable tree.Shown :=
  inferInstanceAs (Decidable (∀ _ ∈ _, ∀ _ ∈ _, _))

variable {tree : Tree} {path : Path} {fault : FileFault}

/-- A relative path below a folder of a tree. -/
def Names (tree : Tree) (relative : Text) : Prop :=
  ∃ folder names, folder ++ names ∈ tree.locations ∧ relative = Text.join ['/'] names

theorem names_of_scan [Platform] {selection : Selection} {root : Path} {paths : List Text}
    (hscan : tree.scan selection root = .ok paths) {relative : Text} (hm : relative ∈ paths) :
    tree.Names relative := by
  obtain ⟨_, location, -, -, -, rfl⟩ := scan_eq_ok_iff.mp hscan
  have hbelow := List.mem_of_mem_filter (List.mem_mergeSort.mp hm)
  unfold pathsBelow at hbelow
  obtain ⟨⟨names, bytes⟩, hfile, rfl⟩ := List.mem_map.mp hbelow
  obtain ⟨-, hentry⟩ := mem_filesBelow.mp (List.mem_of_mem_filter hfile)
  exact ⟨location, names, List.mem_map_of_mem hentry, rfl⟩

theorem Shown.fits (h : tree.Shown) {relative : Text} (hnames : tree.Names relative) :
    Text.Fits relative := by
  obtain ⟨folder, names, hlocation, rfl⟩ := hnames
  refine (Text.fits_join_iff Text.isPlain_slash).mpr fun name hname => ?_
  exact h _ hlocation name (List.mem_append_right _ hname)

/-! ## 2. What makes an operation fail -/

theorem isOfSystem_of_follow {whole : Path} {location : Location} {segments : List Text}
    (h : tree.follow whole location segments = .error fault) : fault.isOfSystem = true := by
  induction segments generalizing location with
  | nil => cases h
  | cons segment rest ih =>
    rw [follow] at h
    split at h
    · exact ih h
    · split at h
      · cases h
        rfl
      · split at h
        · cases h
          rfl
        · exact ih h
        · split at h
          · cases h
          · cases h
            rfl

/-- What is at a path is only asked where the operating system can answer. -/
theorem isOfSystem_of_map_probe {α : Type} {look : Option Entry → α}
    (h : (tree.probe path).map look = .error fault) : fault.isOfSystem = true := by
  unfold probe at h
  split at h
  · cases h
  · cases h
    rfl
  · cases h

theorem checkText_of_locate (h : tree.locate path = .error fault)
    (hnames : fault.isOfSystem = false) : path.checkText = .error fault := by
  unfold locate at h
  cases hcheck : path.check with
  | error other =>
    rw [hcheck] at h
    cases h
    exact Path.checkText_of_check_error hcheck hnames
  | ok checked =>
    rw [hcheck] at h
    rw [isOfSystem_of_follow h] at hnames
    cases hnames

theorem checkText_of_read (h : tree.read path = .error fault) (hnames : fault.isOfSystem = false) :
    path.checkText = .error fault := by
  unfold read at h
  cases hlocate : tree.locate path with
  | error other =>
    rw [hlocate] at h
    cases h
    exact checkText_of_locate hlocate hnames
  | ok location =>
    rw [hlocate] at h
    simp only [bind, Except.bind] at h
    split at h <;> cases h <;> cases hnames

theorem checkText_of_place (h : tree.place path = .error fault)
    (hnames : fault.isOfSystem = false) : path.checkText = .error fault := by
  unfold place at h
  split at h
  · cases h
  · cases hcheck : path.check with
    | error other =>
      rw [hcheck] at h
      cases h
      exact Path.checkText_of_check_error hcheck hnames
    | ok checked =>
      cases hfollow : tree.follow path [] path.segments.dropLast with
      | error other =>
        rw [hcheck, hfollow] at h
        cases h
        rw [isOfSystem_of_follow hfollow] at hnames
        cases hnames
      | ok folder =>
        rw [hcheck, hfollow] at h
        simp only [bind, Except.bind] at h
        split at h
        · cases h
          cases hnames
        · split at h
          · cases h
            cases hnames
          · cases h

theorem checkText_of_write {bytes : Bytes} (h : tree.write path bytes = .error fault)
    (hnames : fault.isOfSystem = false) : path.checkText = .error fault := by
  cases hplace : tree.place path with
  | error other =>
    unfold write at h
    rw [hplace] at h
    cases h
    exact checkText_of_place hplace hnames
  | ok location =>
    rw [write_of_place hplace] at h
    split at h
    · cases h
      cases hnames
    · cases h

theorem checkText_of_ensureFolder (h : tree.ensureFolder path = .error fault)
    (hnames : fault.isOfSystem = false) : path.checkText = .error fault := by
  unfold ensureFolder at h
  split at h
  · cases h
  · rename_i other hmake
    split at h
    · cases h
    · cases h
      cases hplace : tree.place path with
      | error other =>
        unfold makeFolder at hmake
        rw [hplace] at hmake
        cases hmake
        exact checkText_of_place hplace hnames
      | ok location =>
        rw [makeFolder_of_place hplace] at hmake
        split at hmake
        · cases hmake
          cases hnames
        · cases hmake

/-- Folders that cannot be made because of their names: one of them is turned away. -/
theorem checkText_of_makeFoldersRev {anchor : Anchor} {reversed : List Text} {made : Tree}
    (h : tree.makeFoldersRev anchor reversed = (made, .error fault))
    (hnames : fault.isOfSystem = false) :
    ∃ above : Path, above.checkText = .error fault ∧ above.segments <+: reversed.reverse := by
  induction reversed generalizing tree made fault with
  | nil => cases h
  | cons segment above ih =>
    have hwhole : ∀ {between : Tree},
        between.ensureFolder ⟨anchor, (segment :: above).reverse⟩ = .error fault →
          ∃ way : Path, way.checkText = .error fault ∧
            way.segments <+: (segment :: above).reverse :=
      fun hensure => ⟨_, checkText_of_ensureFolder hensure hnames, List.prefix_rfl⟩
    unfold makeFoldersRev at h
    simp only at h
    split at h
    · cases h
    · split at h
      · rename_i hmade
        cases h
        obtain ⟨way, hway, hprefix⟩ := ih hmade hnames
        refine ⟨way, hway, hprefix.trans ?_⟩
        rw [List.reverse_cons]
        exact List.prefix_append above.reverse [segment]
      · split at h
        · cases h
        · rename_i hensure
          cases h
          exact hwhole hensure
    · rename_i hensure
      cases h
      exact hwhole hensure

section Texts

variable [Platform]

/-- Folders cannot be made because of the names on the way, or because too many are missing. -/
theorem makeFolders_error {made : Tree} (h : tree.makeFolders path = (made, .error fault))
    (hnames : fault.isOfSystem = false) :
    (∃ above : Path, above.checkText = .error fault ∧ above.segments <+: path.segments) ∨
      Platform.stack.missing < made.missingRev path.anchor path.segments.reverse ∧
        fault = .tooDeep := by
  unfold makeFolders at h
  split at h
  · rename_i hdeep
    cases h
    exact Or.inr ⟨hdeep, rfl⟩
  · obtain ⟨above, habove, hprefix⟩ := checkText_of_makeFoldersRev h hnames
    rw [List.reverse_reverse] at hprefix
    exact Or.inl ⟨above, habove, hprefix⟩

/-- Why a file is not read as a text. -/
inductive Unread (tree : Tree) (path : Path) (encoding : Text) : ReadFault → Prop where
  /-- The name of the encoding cannot be one. -/
  | name {fault : NameFault} (h : NameFault.check encoding = .error fault) :
      Unread tree path encoding (.encodingName fault)
  | file {fault : FileFault} (h : tree.read path = .error fault) :
      Unread tree path encoding (.file fault)
  | unknown (h : Encoding.named? encoding = none) :
      Unread tree path encoding (.unknownEncoding encoding)
  | decode (fault : DecodeFault) : Unread tree path encoding (.decode fault)
  /-- The order of bytes in UTF-16 cannot be told. -/
  | order (h : Encoding.named? encoding = some .utf16) :
      Unread tree path encoding .noByteOrderMark
  | codec {codec : Codec} {bytes : Bytes} {fault : CodecFault}
      (hnone : Encoding.named? encoding = none) (hcodec : Platform.codec? encoding = some codec)
      (hread : tree.read path = .ok bytes) (h : codec.decode bytes = .error fault) :
      Unread tree path encoding (.codec fault)

theorem unread_of_readText {encoding : Text} {fault : ReadFault}
    (h : tree.readText path encoding = .error fault) : tree.Unread path encoding fault := by
  unfold readText at h
  cases hname : NameFault.check encoding with
  | error found =>
    rw [hname] at h
    cases h
    exact .name hname
  | ok fit =>
    cases hread : tree.read path with
    | error found =>
      rw [hname, hread] at h
      cases h
      exact .file hread
    | ok bytes =>
      simp only [hname, hread, Except.mapError, bind, Except.bind] at h
      split at h
      · rename_i hnone _
        cases h
        exact .unknown hnone
      · rename_i codec hnone hcodec
        cases hdecode : codec.decode bytes with
        | error found =>
          rw [hdecode] at h
          cases h
          exact .codec hnone hcodec hread hdecode
        | ok text =>
          rw [hdecode] at h
          cases h
      · rename_i known hknown
        split at h
        · cases h
        · cases h
          exact .decode _
        · rename_i hdecode
          cases h
          rw [Encoding.eq_utf16_of_noByteOrderMark hdecode] at hknown
          exact .order hknown

theorem readText_of_readSource {encoding text : Text}
    (h : tree.readSource path encoding = .ok text) : tree.readText path encoding = .ok text := by
  unfold readSource at h
  cases hread : tree.readText path encoding with
  | error fault =>
    rw [hread] at h
    cases h
  | ok found =>
    rw [hread] at h
    cases h
    rfl

/-- Why a text is not read from a fit path, if a run does not report it as its own failure. -/
inductive Unread.Passes (tree : Tree) (path : Path) (encoding : Text) : Failure → Prop where
  | name {fault : NameFault} (h : NameFault.check encoding = .error fault) :
      Passes tree path encoding (.encodingName fault)
  | order (h : Encoding.named? encoding = some .utf16) : Passes tree path encoding .noByteOrderMark
  /-- An encoding that is not spelled out here fails in a way that speaks of no bytes. -/
  | codec {codec : Codec} {bytes : Bytes} {why : Text}
      (hnone : Encoding.named? encoding = none) (hcodec : Platform.codec? encoding = some codec)
      (hread : tree.read path = .ok bytes) (h : codec.decode bytes = .error (.other why)) :
      Passes tree path encoding (.codec (.other why))

theorem passes_of_readSource {encoding : Text} {failure : Failure} (hfits : path.Fits)
    (h : tree.readSource path encoding = .error failure) (hown : failure.isContained = false) :
    Unread.Passes tree path encoding failure := by
  unfold readSource at h
  cases hread : tree.readText path encoding with
  | ok text =>
    rw [hread] at h
    cases h
  | error fault =>
    rw [hread] at h
    cases h
    cases unread_of_readText hread with
    | name hname => exact .name hname
    | order hwide => exact .order hwide
    | unknown | decode => cases hown
    | @file found hbytes =>
      -- a fit path is turned away for a reason of the operating system only
      have hsystem : found.isOfSystem = true := by
        by_contra hno
        exact Path.not_fits_of_checkText
          (checkText_of_read hbytes (Bool.eq_false_iff.mpr hno)) hfits
      simp only [Failure.ofReading, hsystem, if_true, Failure.isContained] at hown
      cases hown
    | @codec _ _ found hnone hcodec hbytes hdecode =>
      cases found with
      | undecodable why | notForTexts why => cases hown
      | other why => exact .codec hnone hcodec hbytes hdecode

/-- Why a text is not written to a file. -/
inductive Unwritten (tree : Tree) (path : Path) (encoding text : Text) : WriteFault → Prop where
  /-- The name of the encoding cannot be one. -/
  | name {fault : NameFault} (h : NameFault.check encoding = .error fault) :
      Unwritten tree path encoding text (.encodingName fault)
  | file {bytes : Bytes} {fault : FileFault} (h : tree.write path bytes = .error fault) :
      Unwritten tree path encoding text (.file fault)
  | unfit {fault : WriteFault} (h : bytesOf encoding text = .error fault) :
      Unwritten tree path encoding text fault

theorem unwritten_of_writeText {encoding text : Text} {fault : WriteFault} {left : Tree}
    (h : tree.writeText path encoding text = (left, .error fault)) :
    tree.Unwritten path encoding text fault := by
  unfold writeText at h
  split at h
  · rename_i hname
    cases h
    exact .name hname
  · split at h
    · cases h
    · rename_i found hwrite
      cases h
      exact .file hwrite
  · rename_i unfit _ hunfit
    split at h
    · cases h
      exact .unfit hunfit
    · rename_i found hwrite
      cases h
      exact .file hwrite

/-- Why a text has no bytes in the encoding of a name. -/
theorem bytesOf_error {encoding text : Text} {fault : WriteFault}
    (h : bytesOf encoding text = .error fault) :
    fault = .unknownEncoding encoding ∨ ∃ codec found, Encoding.named? encoding = none ∧
      Platform.codec? encoding = some codec ∧ codec.encode text = .error found ∧
        fault = .codec found := by
  unfold bytesOf at h
  split at h
  · cases h
  · rename_i codec hnone hcodec
    cases hencode : codec.encode text with
    | ok bytes =>
      rw [hencode] at h
      cases h
    | error found =>
      rw [hencode] at h
      cases h
      exact Or.inr ⟨codec, found, hnone, hcodec, hencode, rfl⟩
  · cases h
    exact Or.inl rfl

/-- Why a text is not written, if a run does not report it as its own failure. `left` is the tree
that the attempt leaves. -/
inductive Unwritten.Passes (left : Tree) (path : Path) (encoding : Text) : Failure → Prop where
  | name {fault : NameFault} (h : NameFault.check encoding = .error fault) :
      Passes left path encoding (.encodingName fault)
  | path {fault : FileFault} (h : ¬ path.Fits) : Passes left path encoding (.file fault)
  /-- Too many folders above the path are missing. -/
  | folders (h : Platform.stack.missing <
      left.missingRev path.anchor path.parent.segments.reverse) :
      Passes left path encoding (.file .tooDeep)
  /-- An encoding that is not spelled out here does not write the text. -/
  | codec {codec : Codec} {text : Text} {fault : CodecFault}
      (hnone : Encoding.named? encoding = none) (hcodec : Platform.codec? encoding = some codec)
      (h : codec.encode text = .error fault) : Passes left path encoding (.codec fault)

theorem passes_of_publish {encoding text : Text} {failure : Failure} {left : Tree}
    (h : tree.publish path encoding text = (left, .error failure))
    (hown : failure.isContained = false) : Unwritten.Passes left path encoding failure := by
  have hnotOfSystem {found : FileFault}
      (hnot : (Failure.ofWriting path (.file found)).isContained = false) :
      found.isOfSystem = false := by
    cases hsystem : found.isOfSystem with
    | false => rfl
    | true =>
      simp only [Failure.ofWriting, hsystem, if_true, Failure.isContained] at hnot
      cases hnot
  have hpath {found : FileFault} (hsystem : found.isOfSystem = false) (hfits : ¬ path.Fits) :
      Unwritten.Passes left path encoding (.ofWriting path (.file found)) := by
    simp only [Failure.ofWriting, hsystem, Bool.false_eq_true, if_false]
    exact .path hfits
  unfold publish at h
  rcases hfolders : tree.makeFolders path.parent with ⟨made, found | done⟩
  · rw [hfolders] at h
    cases h
    have hsystem := hnotOfSystem hown
    rcases makeFolders_error hfolders hsystem with ⟨way, hway, hprefix⟩ | ⟨hdeep, rfl⟩
    · exact hpath hsystem fun hfits =>
        Path.not_fits_of_checkText hway (hfits.parent.of_prefix hprefix)
    · exact .folders hdeep
  · rw [hfolders] at h
    simp only at h
    rcases htext : made.writeText path encoding text with ⟨written, fault | done⟩
    · rw [htext] at h
      cases h
      cases unwritten_of_writeText htext with
      | name hname => exact .name hname
      | file hwrite =>
        have hsystem := hnotOfSystem hown
        exact hpath hsystem (Path.not_fits_of_checkText (checkText_of_write hwrite hsystem))
      | unfit hunfit =>
        rcases bytesOf_error hunfit with rfl | ⟨codec, found, hnone, hcodec, hencode, rfl⟩
        · cases hown
        · cases found with
          | notForTexts why => cases hown
          | undecodable why | other why => exact .codec hnone hcodec hencode
    · rw [htext] at h
      cases h

end Texts

/-! ## 3. What a change does to the names -/

theorem fits_of_place {location : Location} (h : tree.place path = .ok location) :
    ∀ segment ∈ location, Text.Fits segment := by
  unfold place at h
  split at h
  · cases h
    exact fun _ hm => nomatch hm
  · rename_i last hlast
    have hsegments : path.segments = path.segments.dropLast ++ [last] :=
      (List.dropLast_append_getLast? last hlast).symm
    cases hcheck : path.check with
    | error other =>
      rw [hcheck] at h
      cases h
    | ok checked =>
      have hfits := Path.checkText_eq_ok_iff.mp (Path.checkText_of_check hcheck)
      cases hfollow : tree.follow path [] path.segments.dropLast with
      | error other =>
        rw [hcheck, hfollow] at h
        cases h
      | ok folder =>
        obtain rfl := follow_eq_descend hfollow
        have hlocation : location = Path.descend [] path.segments := by
          rw [hcheck, hfollow] at h
          simp only [bind, Except.bind] at h
          split at h
          · cases h
          · split at h
            · cases h
            · cases h
              rw [hsegments, Path.descend_append, List.dropLast_concat]
        rw [hlocation]
        exact Path.Fits.descend hfits

/-- What a change does to the names in a tree: it takes none away and adds fit ones. -/
structure Extends (tree made : Tree) : Prop where
  kept : ∀ location ∈ tree.locations, location ∈ made.locations
  added : ∀ location ∈ made.locations,
    location ∈ tree.locations ∨ ∀ segment ∈ location, Text.Fits segment

variable {made : Tree}

theorem Extends.refl (tree : Tree) : tree.Extends tree :=
  ⟨fun _ hm => hm, fun _ hm => Or.inl hm⟩

theorem Extends.trans {between : Tree} (h : tree.Extends between) (h' : between.Extends made) :
    tree.Extends made where
  kept location hm := h'.kept location (h.kept location hm)
  added location hm := (h'.added location hm).elim (h.added location) Or.inr

theorem Extends.shown (h : tree.Extends made) (hshown : tree.Shown) : made.Shown :=
  fun location hm => (h.added location hm).elim (hshown location) id

theorem Names.of_extends {relative : Text} (hnames : tree.Names relative) (h : tree.Extends made) :
    made.Names relative := by
  obtain ⟨folder, names, hlocation, rfl⟩ := hnames
  exact ⟨folder, names, h.kept _ hlocation, rfl⟩

theorem extends_put {location : Location} (hlocation : ∀ segment ∈ location, Text.Fits segment)
    (entry : Entry) : tree.Extends (tree.put location entry) where
  kept other hm := by
    rw [locations_put]
    split
    · exact hm
    · exact List.mem_append_left _ hm
  added other hm := by
    rw [locations_put] at hm
    split at hm
    · exact Or.inl hm
    · refine (List.mem_append.mp hm).imp id fun hm => ?_
      rw [List.mem_singleton.mp hm]
      exact hlocation

theorem extends_write {bytes : Bytes} (hwrite : tree.write path bytes = .ok made) :
    tree.Extends made := by
  obtain ⟨location, hplace, -, rfl⟩ := write_eq_ok hwrite
  exact extends_put (fits_of_place hplace) _

theorem extends_ensureFolder (hmake : tree.ensureFolder path = .ok made) : tree.Extends made := by
  unfold ensureFolder at hmake
  split at hmake
  · rename_i hmade
    cases hmake
    obtain ⟨location, hplace, -, rfl⟩ := makeFolder_eq_ok hmade
    exact extends_put (fits_of_place hplace) _
  · split at hmake
    · cases hmake
      exact .refl tree
    · cases hmake

theorem extends_makeFoldersRev (tree : Tree) (anchor : Anchor) (reversed : List Text) :
    tree.Extends (tree.makeFoldersRev anchor reversed).1 := by
  induction reversed generalizing tree with
  | nil => exact .refl tree
  | cons segment above ih =>
    unfold makeFoldersRev
    simp only
    split
    · rename_i hmade
      exact extends_ensureFolder hmade
    · have habove := ih tree
      split
      · rename_i hmade
        rw [hmade] at habove
        exact habove
      · rename_i hmade
        rw [hmade] at habove
        split
        · rename_i hwhole
          exact habove.trans (extends_ensureFolder hwhole)
        · exact habove
    · exact .refl tree

theorem extends_makeFolders [Platform] (tree : Tree) (path : Path) :
    tree.Extends (tree.makeFolders path).1 := by
  unfold makeFolders
  split
  · exact .refl tree
  · exact extends_makeFoldersRev tree path.anchor path.segments.reverse

theorem extends_writeText [Platform] (tree : Tree) (path : Path) (encoding text : Text) :
    tree.Extends (tree.writeText path encoding text).1 := by
  unfold writeText
  split
  · exact .refl tree
  · split
    · rename_i hwrite
      exact extends_write hwrite
    · exact .refl tree
  · split
    · rename_i hwrite
      exact extends_write hwrite
    · exact .refl tree

theorem extends_publish [Platform] (tree : Tree) (path : Path) (encoding text : Text) :
    tree.Extends (tree.publish path encoding text).1 := by
  have hfolders := extends_makeFolders tree path.parent
  unfold publish
  rcases hmade : tree.makeFolders path.parent with ⟨between, fault | done⟩
  · rw [hmade] at hfolders
    exact hfolders
  · rw [hmade] at hfolders
    have htext := Extends.trans hfolders (extends_writeText between path encoding text)
    simp only
    rcases hwritten : between.writeText path encoding text with ⟨written, fault | done⟩
    · rw [hwritten] at htext
      exact htext
    · rw [hwritten] at htext
      exact htext

theorem extends_append {bytes : Bytes} (hwrite : tree.append path bytes = .ok made) :
    tree.Extends made := by
  unfold append at hwrite
  split at hwrite
  · exact extends_write hwrite
  · exact extends_write hwrite

theorem extends_note (listener : Option Listener) (records : List Record) (tree : Tree) :
    tree.Extends (Listener.note listener records tree) := by
  have hadded : ∀ (path : Path) (bytes : Bytes),
      tree.Extends ((tree.append path bytes).toOption.getD tree) := by
    intro path bytes
    cases hwrite : tree.append path bytes with
    | error fault => exact .refl tree
    | ok made => exact extends_append hwrite
  unfold Listener.note
  split
  · exact .refl tree
  · split
    · exact .refl tree
    · exact .refl tree
    · exact hadded _ _

end Tree

end CodeAtlas
