/-
  File:      CodeAtlas/Proofs/Run/Snapshot.lean
  Subject:   What a cache shows while files change.

  A cache is asked for outlines and about itself, it is cleared, and between these
  steps anything may happen to the files.

  * `SourceFile.ofBytes`: the outline of a file that holds given bytes;
    `SourceFile.load_eq_ok_iff`: reading a file makes the outline of its bytes.
  * `Viewpoint`: the folder that paths are spelled from. `Viewpoint.key`: the path under
    which a cache keeps the file of a spelling.
  * `CacheStep`, `CacheSession`: the steps, and what they work on.
  * `CacheHistory`: a session with the gets that have succeeded since the cache was
    last cleared, each with the files as they were at that moment.
  * `CacheHistory.Frozen`: the cache holds what was first got, in the order of the
    first gets. Every step keeps it (`frozen_next`), so every run does.
  * `CacheHistory.shows_first_gets`: what the answers of a cache come to.
-/
import CodeAtlas.Proofs.Pairs
import CodeAtlas.Proofs.Run.Reading

namespace CodeAtlas

/-! ## 1. The bytes of a file -/

section Bytes

variable [Platform]

/-- The text that bytes spell in an encoding, with line feeds as its line breaks. -/
def decodeText (encoding : Text) (bytes : Bytes) : Except ReadFault Text := do
  (NameFault.check encoding).mapError .encodingName
  match Encoding.named? encoding, Platform.codec? encoding with
  | none, none => .error (.unknownEncoding encoding)
  | none, some codec => ((codec.decode bytes).map Text.unifyBreaks).mapError .codec
  | some known, _ =>
    match known.decode bytes with
    | .ok text => .ok (Text.unifyBreaks text)
    | .error (.decode fault) => .error (.decode fault)
    | .error .noByteOrderMark => .error .noByteOrderMark

theorem Tree.readText_eq_ok_iff {tree : Tree} {path : Path} {encoding text : Text} :
    tree.readText path encoding = .ok text ↔
      ∃ bytes, tree.read path = .ok bytes ∧ decodeText encoding bytes = .ok text := by
  unfold Tree.readText decodeText
  cases NameFault.check encoding with
  | error fault =>
    constructor
    · intro h
      cases h
    · rintro ⟨_, -, h⟩
      cases h
  | ok fit =>
    cases tree.read path with
    | error fault =>
      constructor
      · intro h
        cases h
      · rintro ⟨_, h, -⟩
        cases h
    | ok bytes =>
      constructor
      · exact fun h => ⟨bytes, rfl, h⟩
      · rintro ⟨_, hbytes, h⟩
        cases hbytes
        exact h

namespace Tree

omit [Platform] in
/-- A file that can be read is there. -/
theorem holds_of_read {tree : Tree} {path : Path} {bytes : Bytes}
    (h : tree.read path = .ok bytes) : tree.holds path = .ok true := by
  unfold Tree.read at h
  unfold Tree.holds Tree.probe
  cases hlocate : tree.locate path with
  | error fault => rw [hlocate] at h; cases h
  | ok location =>
    rw [hlocate] at h
    cases hentry : tree.entryAt? location with
    | none => simp only [bind, Except.bind, hentry] at h; cases h
    | some entry => simp only [hentry]; rfl

end Tree

namespace SourceFile

/-- The outline of a file that holds the given bytes. -/
def ofBytes (bytes : Bytes) (path : Path) (encoding : Option Text) (language : Language) :
    Except Failure SourceFile := do
  let text ← (decodeText (encodingOrDefault encoding) bytes).mapError (.ofReading path)
  if Reader.exceeds language Platform.stack.types text then .error .tooDeep
  else .ok (ofText text path language encoding)

/-- Reading a file makes the outline of the bytes that it holds. -/
theorem load_eq_ok_iff {tree : Tree} {path : Path} {encoding : Option Text} {language : Language}
    {source : SourceFile} :
    load tree path encoding language = .ok source ↔
      ∃ bytes, tree.read path = .ok bytes ∧ ofBytes bytes path encoding language = .ok source := by
  constructor
  · intro h
    unfold load at h
    cases hheld : tree.holds path with
    | error fault => rw [hheld] at h; cases h
    | ok held =>
      rw [hheld] at h
      cases held with
      | false => cases h
      | true =>
        unfold Tree.readSource at h
        cases hread : tree.readText path (encodingOrDefault encoding) with
        | error fault => rw [hread] at h; cases h
        | ok text =>
          rw [hread] at h
          obtain ⟨bytes, hbytes, hdecode⟩ := Tree.readText_eq_ok_iff.mp hread
          refine ⟨bytes, hbytes, ?_⟩
          unfold ofBytes
          rw [hdecode]
          exact h
  · rintro ⟨bytes, hbytes, h⟩
    unfold ofBytes at h
    cases hdecode : decodeText (encodingOrDefault encoding) bytes with
    | error fault => rw [hdecode] at h; cases h
    | ok text =>
      rw [hdecode] at h
      unfold load Tree.readSource
      rw [Tree.holds_of_read hbytes, Tree.readText_eq_ok_iff.mpr ⟨bytes, hbytes, hdecode⟩]
      exact h

end SourceFile

end Bytes

/-! ## 2. Sessions -/

/-- From where paths are spelled. -/
structure Viewpoint where
  current : Path

namespace Viewpoint

variable [Platform]

/-- The absolute path of a spelling, which can start in a home folder. -/
def absolute (view : Viewpoint) (spelling : Path) : Except FileFault Path :=
  spelling.expand.map view.current.join

/-- The path under which a cache keeps the file of a spelling. -/
def key (view : Viewpoint) (spelling : Path) : Except FileFault Path :=
  (view.absolute spelling).bind Path.resolve

end Viewpoint

/-- What is asked of a cache, and what happens to the files meanwhile. -/
inductive CacheStep where
  | get (spelling : Path)
  | peek (spelling : Path)
  | contains (spelling : Path)
  | size
  | list
  | clear
  /-- Files are written or removed. -/
  | change (edit : Tree → Tree)

/-- What a step answers. -/
inductive CacheAnswer where
  | failed (failure : Failure)
  | source (source : SourceFile)
  | peeked (source : Option SourceFile)
  | contained (held : Bool)
  | counted (size : Nat)
  | listed (sources : List SourceFile)
  | done

/-- A cache and the files that it reads. -/
structure CacheSession where
  tree : Tree
  cache : Cache

namespace CacheSession

variable [Platform]

/-- Asks about the absolute path of a spelling. The answer leaves the session as it is. -/
def ask (view : Viewpoint) (session : CacheSession) (spelling : Path)
    (answer : Option SourceFile → CacheAnswer) : CacheAnswer :=
  match (view.absolute spelling).bind session.cache.peek with
  | .error fault => .failed (.file fault)
  | .ok found => answer found

/-- Gets the outline of the file at the absolute path of a spelling. -/
def get (view : Viewpoint) (session : CacheSession) (spelling : Path) :
    CacheAnswer × CacheSession :=
  match ((view.absolute spelling).mapError .file).bind (session.cache.get session.tree) with
  | .error failure => (.failed failure, session)
  | .ok (source, cache) => (.source source, { session with cache })

/-- Carries out a step. -/
def act (view : Viewpoint) (session : CacheSession) : CacheStep → CacheAnswer × CacheSession
  | .get spelling => session.get view spelling
  | .peek spelling => (session.ask view spelling .peeked, session)
  | .contains spelling => (session.ask view spelling fun found => .contained found.isSome, session)
  | .size => (.counted session.cache.files.length, session)
  | .list => (.listed session.cache.sources, session)
  | .clear => (.done, { session with cache := session.cache.clear })
  | .change edit => (.done, { session with tree := edit session.tree })

/-- A get gives an outline and may change the cache, or it leaves the session as it is. -/
theorem get_cases (view : Viewpoint) (session : CacheSession) (spelling : Path) :
    (∃ path source cache, view.absolute spelling = .ok path ∧
        session.cache.get session.tree path = .ok (source, cache) ∧
        session.get view spelling = (.source source, { session with cache })) ∨
      (∀ source, (session.get view spelling).1 ≠ .source source) ∧
        (session.get view spelling).2 = session := by
  unfold get
  cases view.absolute spelling with
  | error fault => exact Or.inr ⟨fun source => CacheAnswer.noConfusion, rfl⟩
  | ok path =>
    simp only [Except.mapError, Except.bind]
    cases hget : session.cache.get session.tree path with
    | error failure => exact Or.inr ⟨fun source => CacheAnswer.noConfusion, rfl⟩
    | ok got => exact Or.inl ⟨path, got.1, got.2, rfl, hget, rfl⟩

end CacheSession

/-- A session, and the gets that have succeeded since its cache was last cleared: the resolved
path of each, and the files at that moment. -/
structure CacheHistory where
  session : CacheSession
  gets : List (Path × Tree)

namespace CacheHistory

/-- A new cache. -/
def start (encoding : Option Text) (catalog : Catalog) (tree : Tree) : CacheHistory :=
  ⟨⟨tree, Cache.empty encoding catalog⟩, []⟩

section Steps

variable [Platform]

/-- The answer of a step. -/
def answer (view : Viewpoint) (history : CacheHistory) (step : CacheStep) : CacheAnswer :=
  (history.session.act view step).1

/-- The gets after a step. -/
def getsAfter (view : Viewpoint) (history : CacheHistory) : CacheStep → List (Path × Tree)
  | .clear => []
  | .get spelling =>
    match history.answer view (.get spelling), view.key spelling with
    | .source _, .ok key => history.gets ++ [(key, history.session.tree)]
    | _, _ => history.gets
  | _ => history.gets

/-- What a step leaves. -/
def next (view : Viewpoint) (history : CacheHistory) (step : CacheStep) : CacheHistory :=
  ⟨(history.session.act view step).2, history.getsAfter view step⟩

/-- What steps leave, one after another. -/
def run (view : Viewpoint) (history : CacheHistory) (steps : List CacheStep) : CacheHistory :=
  steps.foldl (next view) history

end Steps

/-- The paths that were got, in the order of their first gets. -/
def keys (history : CacheHistory) : List Path := (history.gets.map (·.1)).eraseDups

/-- The files at the first get of a path; those of now if it has not been got. -/
def firstTree (history : CacheHistory) (key : Path) : Tree :=
  (history.gets.lookup key).getD history.session.tree

/-- The outline of the bytes that the file at a path held when it was first got. -/
def frozen [Platform] (encoding : Option Text) (catalog : Catalog) (history : CacheHistory)
    (key : Path) : Option SourceFile := do
  let bytes ← ((← history.gets.lookup key).read key).toOption
  (SourceFile.ofBytes bytes key encoding (catalog.languageFor key)).toOption

/-! ## 3. What every step keeps -/

section Kept

variable [Platform] {view : Viewpoint} {encoding : Option Text} {catalog : Catalog}

/-- The cache holds what was first got, in the order of the first gets. -/
structure Frozen (encoding : Option Text) (catalog : Catalog) (history : CacheHistory) : Prop where
  encoding : history.session.cache.encoding = encoding
  catalog : history.session.cache.catalog = catalog
  keys : history.session.cache.files.map (·.1) = history.keys
  parsed : ∀ {key source}, history.session.cache.files.lookup key = some source →
    history.session.cache.parse (history.firstTree key) key = .ok source

namespace Frozen

variable {history : CacheHistory}

theorem start (encoding : Option Text) (catalog : Catalog) (tree : Tree) :
    Frozen encoding catalog (CacheHistory.start encoding catalog tree) :=
  ⟨rfl, rfl, rfl, fun h => nomatch h⟩

/-- The paths of the cache are those that were got. -/
theorem lookup_eq_none_iff (h : Frozen encoding catalog history) {key : Path} :
    history.session.cache.files.lookup key = none ↔ history.gets.lookup key = none := by
  rw [Pairs.lookup_eq_none_iff, Pairs.lookup_eq_none_iff, h.keys]
  unfold CacheHistory.keys
  rw [List.mem_eraseDups]

theorem gets_ne_none (h : Frozen encoding catalog history) {key : Path} {source : SourceFile}
    (hfound : history.session.cache.files.lookup key = some source) :
    history.gets.lookup key ≠ none := by
  intro hnone
  rw [h.lookup_eq_none_iff.mpr hnone] at hfound
  cases hfound

/-- A path that was got before is got again without a look at the files. -/
theorem get_again (h : Frozen encoding catalog history) {key : Path} {source : SourceFile}
    (hfound : history.session.cache.files.lookup key = some source) (tree : Tree) :
    Frozen encoding catalog ⟨history.session, history.gets ++ [(key, tree)]⟩ := by
  have hgot := h.gets_ne_none hfound
  have hmem : key ∈ history.gets.map (·.1) := by
    by_contra hnot
    exact hgot (Pairs.lookup_eq_none_iff.mpr hnot)
  have hlookup (other : Path) :
      (history.gets ++ [(key, tree)]).lookup other = history.gets.lookup other := by
    rw [Pairs.lookup_concat]
    cases hother : history.gets.lookup other with
    | some first => rfl
    | none =>
      have hne : (other == key) = false := by
        rw [beq_eq_false_iff_ne]
        rintro rfl
        exact hgot hother
      rw [hne]
      rfl
  refine ⟨h.encoding, h.catalog, ?_, fun {other source} hother => ?_⟩
  · rw [h.keys]
    unfold CacheHistory.keys
    rw [List.map_append, List.eraseDups_append]
    simp [List.removeAll, hmem]
  · have hparsed := h.parsed hother
    unfold firstTree at hparsed ⊢
    rw [hlookup]
    exact hparsed

/-- A path that was not got is read from the files, and goes behind the others. -/
theorem get_first (h : Frozen encoding catalog history) {key : Path} {source : SourceFile}
    (hnew : history.session.cache.files.lookup key = none)
    (hparse : history.session.cache.parse history.session.tree key = .ok source) :
    Frozen encoding catalog
      ⟨{ history.session with
          cache := { history.session.cache with
            files := history.session.cache.files ++ [(key, source)] } },
        history.gets ++ [(key, history.session.tree)]⟩ := by
  have hgets : history.gets.lookup key = none := h.lookup_eq_none_iff.mp hnew
  refine ⟨h.encoding, h.catalog, ?_, fun {other found} hother => ?_⟩
  · have hmem : key ∉ history.gets.map (·.1) := Pairs.lookup_eq_none_iff.mp hgets
    have hkeys := h.keys
    unfold CacheHistory.keys at hkeys ⊢
    rw [List.map_append, List.map_append, hkeys, List.eraseDups_append]
    simp [List.removeAll, hmem, List.eraseDups_cons]
  · show history.session.cache.parse (((history.gets ++ [(key, history.session.tree)]).lookup
      other).getD history.session.tree) other = .ok found
    have hfound : (history.session.cache.files ++ [(key, source)]).lookup other = some found :=
      hother
    rw [Pairs.lookup_concat] at hfound ⊢
    cases hold : history.session.cache.files.lookup other with
    | some old =>
      rw [hold] at hfound
      cases hfound
      have hparsed := h.parsed hold
      obtain ⟨first, hfirst⟩ := Option.ne_none_iff_exists'.mp (h.gets_ne_none hold)
      unfold firstTree at hparsed
      rw [hfirst] at hparsed ⊢
      exact hparsed
    | none =>
      rw [hold, Option.none_or] at hfound
      rw [h.lookup_eq_none_iff.mp hold, Option.none_or]
      by_cases hkey : other = key
      · subst hkey
        simp only [beq_self_eq_true, if_true, Option.some.injEq] at hfound ⊢
        subst hfound
        exact hparse
      · have hne : (other == key) = false := beq_eq_false_iff_ne.mpr hkey
        rw [hne] at hfound
        cases hfound

/-- A get gives the outline of the file as it was at the first get. -/
theorem get (h : Frozen encoding catalog history) {path : Path} {source : SourceFile}
    {cache : Cache}
    (hget : history.session.cache.get history.session.tree path = .ok (source, cache)) :
    ∃ key, path.resolve = .ok key ∧
      history.session.cache.parse (history.firstTree key) key = .ok source ∧
      Frozen encoding catalog ⟨{ history.session with cache },
        history.gets ++ [(key, history.session.tree)]⟩ := by
  obtain ⟨key, hkey, ⟨hfound, rfl⟩ | ⟨hnone, hparse, rfl⟩⟩ := Cache.get_cases hget
  · exact ⟨key, hkey, h.parsed hfound, h.get_again hfound history.session.tree⟩
  · refine ⟨key, hkey, ?_, h.get_first hnone hparse⟩
    unfold firstTree
    rw [h.lookup_eq_none_iff.mp hnone]
    exact hparse

/-- What the cache holds of a path. -/
theorem lookup_eq (h : Frozen encoding catalog history) (key : Path) :
    history.session.cache.files.lookup key = history.frozen encoding catalog key := by
  unfold frozen
  cases hfound : history.session.cache.files.lookup key with
  | none =>
    rw [h.lookup_eq_none_iff.mp hfound]
    rfl
  | some source =>
    have hparsed := h.parsed hfound
    obtain ⟨first, hfirst⟩ := Option.ne_none_iff_exists'.mp (h.gets_ne_none hfound)
    unfold firstTree Cache.parse at hparsed
    rw [hfirst, Option.getD_some, h.encoding, h.catalog] at hparsed
    obtain ⟨bytes, hbytes, houtline⟩ := SourceFile.load_eq_ok_iff.mp hparsed
    simp only [hfirst, Option.bind_eq_bind, Option.bind_some, hbytes, houtline, Except.toOption]

/-- The cache lists what it holds of the paths that were got. -/
theorem map_sources (h : Frozen encoding catalog history) :
    history.session.cache.sources.map some = history.keys.map (history.frozen encoding catalog) := by
  have hnodup : (history.session.cache.files.map (·.1)).Nodup := by
    rw [h.keys]
    exact Pairs.nodup_eraseDups _
  rw [← h.keys]
  unfold Cache.sources
  rw [List.map_map, List.map_map]
  refine List.map_congr_left fun file hfile => ?_
  show some file.2 = history.frozen encoding catalog file.1
  rw [← h.lookup_eq]
  exact (Pairs.lookup_eq_some_of_mem hnodup hfile).symm

/-- Whether the cache holds a path is whether it was got. -/
theorem isSome_frozen (h : Frozen encoding catalog history) (key : Path) :
    (history.frozen encoding catalog key).isSome = decide (key ∈ history.keys) := by
  rw [← h.lookup_eq, ← h.keys]
  by_cases hmem : key ∈ history.session.cache.files.map (·.1)
  · have hsome : history.session.cache.files.lookup key ≠ none :=
      fun hnone => Pairs.lookup_eq_none_iff.mp hnone hmem
    rw [decide_eq_true hmem, Option.isSome_iff_ne_none]
    exact hsome
  · rw [decide_eq_false hmem, Pairs.lookup_eq_none_iff.mpr hmem]
    rfl

end Frozen

/-- One step. -/
theorem frozen_next {history : CacheHistory} (h : Frozen encoding catalog history)
    (step : CacheStep) : Frozen encoding catalog (history.next view step) := by
  cases step with
  | get spelling =>
    rcases CacheSession.get_cases view history.session spelling with
      ⟨path, source, cache, hpath, hget, hanswer⟩ | ⟨hnone, hsame⟩
    · obtain ⟨key, hkey, -, hfrozen⟩ := h.get hget
      have hviewed : view.key spelling = .ok key := by
        unfold Viewpoint.key
        rw [hpath]
        exact hkey
      have hnext : history.next view (.get spelling) = ⟨{ history.session with cache },
          history.gets ++ [(key, history.session.tree)]⟩ := by
        simp only [next, getsAfter, answer, CacheSession.act, hanswer, hviewed]
      rw [hnext]
      exact hfrozen
    · have hnext : history.next view (.get spelling) = history := by
        simp only [next, getsAfter, answer, CacheSession.act, hsame]
        split
        · rename_i source _ hsource _
          exact absurd hsource (hnone source)
        · rfl
      rw [hnext]
      exact h
  | peek spelling => exact h
  | contains spelling => exact h
  | size => exact h
  | list => exact h
  | clear => exact ⟨h.encoding, h.catalog, rfl, fun hfound => nomatch hfound⟩
  | change edit =>
    refine ⟨h.encoding, h.catalog, h.keys, fun {key source} hfound => ?_⟩
    have hparsed := h.parsed hfound
    have hgot : history.gets.lookup key ≠ none := h.gets_ne_none hfound
    obtain ⟨first, hfirst⟩ := Option.ne_none_iff_exists'.mp hgot
    unfold firstTree at hparsed
    show history.session.cache.parse ((history.gets.lookup key).getD (edit history.session.tree))
      key = .ok source
    rw [hfirst] at hparsed ⊢
    exact hparsed

/-- Every run. -/
theorem frozen_run {history : CacheHistory} (h : Frozen encoding catalog history)
    (steps : List CacheStep) : Frozen encoding catalog (history.run view steps) := by
  induction steps generalizing history with
  | nil => exact h
  | cons step steps ih => exact ih (frozen_next h step)

/-! ## 4. The answers -/

/-- What is asked about a path that has a resolved form. -/
theorem ask_eq {session : CacheSession} {spelling key : Path} (hkey : view.key spelling = .ok key)
    (answer : Option SourceFile → CacheAnswer) :
    session.ask view spelling answer = answer (session.cache.files.lookup key) := by
  unfold CacheSession.ask Cache.peek
  unfold Viewpoint.key at hkey
  cases hpath : view.absolute spelling with
  | error fault =>
    rw [hpath] at hkey
    cases hkey
  | ok path =>
    rw [hpath] at hkey
    have hkey : path.resolve = .ok key := hkey
    simp only [Except.bind, hkey, Except.map]

/-- A path that the cache holds is got. -/
theorem get_of_lookup {session : CacheSession} {spelling key : Path} {source : SourceFile}
    (hkey : view.key spelling = .ok key)
    (hfound : session.cache.files.lookup key = some source) :
    (session.get view spelling).1 = .source source := by
  unfold CacheSession.get Cache.get
  unfold Viewpoint.key at hkey
  cases hpath : view.absolute spelling with
  | error fault =>
    rw [hpath] at hkey
    cases hkey
  | ok path =>
    rw [hpath] at hkey
    have hkey : path.resolve = .ok key := hkey
    simp only [Except.mapError, bind, Except.bind, hkey, hfound]

/-- **A cache shows files as they were when they were first got.** After any steps, and whatever
has happened to the files: a get that succeeds gives the outline of the bytes that the file at
the resolved path held at the first get since the cache was last cleared, and a path that was got
since then is got again; the other answers tell of exactly the paths that were got, in the order of
their first gets; and only clearing and gets that succeed change the cache. -/
theorem shows_first_gets (view : Viewpoint) (encoding : Option Text) (catalog : Catalog)
    (tree : Tree) (steps : List CacheStep) :
    let now := (start encoding catalog tree).run view steps
    (∀ spelling source, now.answer view (.get spelling) = .source source →
      ∃ key bytes, view.key spelling = .ok key ∧
        (now.firstTree key).read key = .ok bytes ∧
        SourceFile.ofBytes bytes key encoding (catalog.languageFor key) = .ok source) ∧
    (∀ spelling key, view.key spelling = .ok key →
      (key ∈ now.keys → ∃ source, now.answer view (.get spelling) = .source source) ∧
      now.answer view (.peek spelling) = .peeked (now.frozen encoding catalog key) ∧
      now.answer view (.contains spelling) = .contained (decide (key ∈ now.keys))) ∧
    now.answer view .size = .counted now.keys.length ∧
    (∃ sources, now.answer view .list = .listed sources ∧
      sources.map some = now.keys.map (now.frozen encoding catalog)) ∧
    ∀ step, step ≠ .clear → (∀ source, now.answer view step ≠ .source source) →
      (now.session.act view step).2.cache = now.session.cache := by
  intro now
  have h : Frozen encoding catalog now := frozen_run (Frozen.start encoding catalog tree) steps
  refine ⟨fun spelling source hsource => ?_, fun spelling key hkey => ?_, ?_, ?_,
    fun step hclear hsource => ?_⟩
  · rcases CacheSession.get_cases view now.session spelling with
      ⟨path, found, cache, hpath, hget, hanswer⟩ | ⟨hnone, -⟩
    · have hsame : CacheAnswer.source found = .source source := by
        rw [← hsource]
        exact (congrArg Prod.fst hanswer).symm
      cases hsame
      obtain ⟨key, hkey, hload, -⟩ := h.get hget
      unfold Cache.parse at hload
      rw [h.encoding, h.catalog] at hload
      obtain ⟨bytes, hbytes, houtline⟩ := SourceFile.load_eq_ok_iff.mp hload
      refine ⟨key, bytes, ?_, hbytes, houtline⟩
      unfold Viewpoint.key
      rw [hpath]
      exact hkey
    · exact absurd hsource (hnone source)
  · refine ⟨fun hmem => ?_, ?_, ?_⟩
    · have hsome := h.isSome_frozen key
      rw [decide_eq_true hmem] at hsome
      obtain ⟨source, hfrozen⟩ := Option.isSome_iff_exists.mp hsome
      rw [← h.lookup_eq] at hfrozen
      exact ⟨source, get_of_lookup hkey hfrozen⟩
    · rw [← h.lookup_eq]
      exact ask_eq hkey .peeked
    · rw [← h.isSome_frozen, ← h.lookup_eq]
      exact ask_eq hkey fun found => .contained found.isSome
  · show CacheAnswer.counted now.session.cache.files.length = _
    rw [← h.keys, List.length_map]
  · exact ⟨now.session.cache.sources, rfl, h.map_sources⟩
  · cases step with
    | get spelling =>
      rcases CacheSession.get_cases view now.session spelling with
        ⟨_, source, _, _, _, hanswer⟩ | ⟨-, hsame⟩
      · exact absurd (congrArg Prod.fst hanswer) (hsource source)
      · exact congrArg CacheSession.cache hsame
    | clear => exact absurd rfl hclear
    | peek spelling => rfl
    | contains spelling => rfl
    | size => rfl
    | list => rfl
    | change edit => rfl

end Kept

section Usual

attribute [local instance] Platform.usual

/-- A folder beside the home folder. -/
def sampleView : Viewpoint := ⟨⟨.root, ["b".toList]⟩⟩

/-- A file in the home folder. -/
def sampleTree : Tree :=
  ⟨[(["root".toList], .folder),
    (["root".toList, "F.java".toList], .file (Encoding.utf8.encode "class F".toList))]⟩

/-- The file is got, and then it is removed with all others. -/
def sampleSteps : List CacheStep :=
  [.get (.ofText "~/F.java".toList), .change fun _ => Tree.empty]

/-- The removed file is still got, by another spelling of its path. -/
theorem shows_first_gets_removed :
    ∃ source bytes,
      ((start none Catalog.standard sampleTree).run sampleView sampleSteps).answer sampleView
          (.get (.ofText "../root/F.java".toList)) = .source source ∧
        sampleTree.read ⟨.root, ["root".toList, "F.java".toList]⟩ = .ok bytes ∧
        SourceFile.ofBytes bytes ⟨.root, ["root".toList, "F.java".toList]⟩ none Language.java =
          .ok source := by
  have hshows := shows_first_gets sampleView none Catalog.standard sampleTree sampleSteps
  obtain ⟨hget, hagain, -⟩ := hshows
  obtain ⟨source, hsource⟩ := (hagain (.ofText "../root/F.java".toList)
    ⟨.root, ["root".toList, "F.java".toList]⟩ rfl).1 (by decide +kernel)
  obtain ⟨key, bytes, hkey, hbytes, houtline⟩ := hget _ source hsource
  cases hkey
  exact ⟨source, bytes, hsource, hbytes, houtline⟩

end Usual

end CacheHistory

end CodeAtlas
