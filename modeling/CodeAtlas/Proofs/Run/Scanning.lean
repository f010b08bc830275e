/-
  File:      CodeAtlas/Proofs/Run/Scanning.lean
  Subject:   The list of types and the pages come from the same table.

  Listing the types of a project and writing its pages go different ways to the
  table: the one takes the languages that are found, the other those of its settings
  with words of their own to highlight; the one reads root after root, the other
  filters its roots; and only the other says how many roots there are.

  * `Work.Alike`: desks that differ in their records at most.
  * `Work.Agree`: two steps that give the same from desks that are alike, and leave
    them alike. One rule for each way of making a step; a report is never missed.
  * `Work.agree_roots`: reading root after root, and filtering roots.
  * `Program.listing`: why listing types fails, or the table that it ends with. That is
    the table whose types are shown (`Program.listTypes_output`).
  * `Program.scan_table_of_run`: both see the same symbols, and what fails in the one
    fails in the other, for the same cause. The run has an error of its own for some causes.
  * `Program.scan_passed_noHome`: a cause for which it has none.
-/
import CodeAtlas.Program
import CodeAtlas.Proofs.Run.Outputs
import CodeAtlas.Proofs.Run.Table

namespace CodeAtlas

open ExceptT (outcome_bind outcome_get)

namespace Work

variable {α β : Type}

/-! ## 1. Steps that agree -/

/-- Two desks that differ in their records at most, of which no file is kept. -/
structure Alike (desk other : Desk) : Prop where
  tree : desk.tree = other.tree
  survey : desk.survey = other.survey
  listener : desk.listener = other.listener
  quiet : Quiet desk

/-- From desks that are alike, two steps give the same and leave desks that are alike. -/
def Agree (step other : Work α) : Prop :=
  ∀ desk twin, Alike desk twin → (step.outcome desk).1 = (other.outcome twin).1 ∧
    Alike (step.outcome desk).2 (other.outcome twin).2

theorem Agree.yields {step other : Work α} (h : Agree step other) {desk twin after : Desk}
    {value : α} (halike : Alike desk twin) (hother : other.Yields twin value after) :
    ∃ left, step.Yields desk value left ∧ Alike left after := by
  obtain ⟨hresult, hleft⟩ := h desk twin halike
  rw [hother] at hresult hleft
  exact ⟨(step.outcome desk).2, Prod.ext hresult rfl, hleft⟩

theorem Agree.fails {step other : Work α} (h : Agree step other) {desk twin left : Desk}
    {failure : Failure} (halike : Alike desk twin) (hstep : step.Fails desk failure left) :
    ∃ after, other.Fails twin failure after := by
  obtain ⟨hresult, -⟩ := h desk twin halike
  rw [hstep] at hresult
  exact ⟨(other.outcome twin).2, Prod.ext hresult.symm rfl⟩

theorem agree_pure (value : α) : Agree (pure value) (pure value) :=
  fun _ _ halike => ⟨rfl, halike⟩

theorem agree_ofExcept (outcome : Except Failure α) :
    Agree (ofExcept outcome) (ofExcept outcome) := by
  intro desk twin halike
  rw [outcome_ofExcept, outcome_ofExcept]
  exact ⟨rfl, halike⟩

theorem agree_onSurvey (change : Survey → Survey) :
    Agree (onSurvey change) (onSurvey change) := by
  intro desk twin halike
  refine ⟨rfl, halike.tree, ?_, halike.listener, halike.quiet⟩
  show change desk.survey = change twin.survey
  rw [halike.survey]

theorem agree_report (records others : List Record) : Agree (report records) (report others) := by
  intro desk twin halike
  refine ⟨rfl, ?_, halike.survey, halike.listener, halike.quiet⟩
  show Listener.note desk.listener records desk.tree = Listener.note twin.listener others twin.tree
  rw [← halike.listener, ← halike.tree, note_of_noFile halike.quiet, note_of_noFile halike.quiet]

theorem Agree.bind {step other : Work α} {next later : α → Work β} (h : Agree step other)
    (hnext : ∀ value, Agree (next value) (later value)) :
    Agree (step >>= next) (other >>= later) := by
  intro desk twin halike
  obtain ⟨hresult, hleft⟩ := h desk twin halike
  rw [outcome_bind, outcome_bind]
  rcases hstep : step.outcome desk with ⟨result, left⟩
  rcases hother : other.outcome twin with ⟨result', after⟩
  rw [hstep, hother] at hresult hleft
  obtain rfl : result = result' := hresult
  cases result with
  | error failure => exact ⟨rfl, hleft⟩
  | ok value => exact hnext value left after hleft

/-- Two steps that look at the desk first. -/
theorem agree_get {next later : Desk → Work α}
    (h : ∀ desk twin, Alike desk twin → Agree (next desk) (later twin)) :
    Agree (get >>= next) (get >>= later) := by
  intro desk twin halike
  rw [outcome_bind, outcome_bind, outcome_get, outcome_get]
  exact h desk twin halike desk twin halike

/-- A report that only one of two steps makes. -/
theorem agree_silent {step : Work α} {later : Unit → Work α} {records : List Record}
    (h : Agree step (later ())) : Agree step (report records >>= later) := by
  intro desk twin halike
  obtain ⟨-, hnoted⟩ := agree_report [] records desk twin halike
  have hkept : Alike desk ((report records).outcome twin).2 :=
    ⟨(note_of_noFile halike.quiet [] desk.tree).symm.trans hnoted.tree, hnoted.survey,
      hnoted.listener, halike.quiet⟩
  rw [outcome_bind]
  exact h desk _ hkept

/-! ## 2. Reading agrees -/

section Reading

variable [Platform]

theorem agree_fetch (path : Path) : Agree (fetch path) (fetch path) := by
  refine agree_get fun desk twin halike => (agree_report _ _).bind fun _ =>
    agree_get fun noted other hnoted => ?_
  rw [hnoted.tree, hnoted.survey]
  refine (agree_ofExcept _).bind fun found => ?_
  exact (agree_onSurvey _).bind fun _ => agree_pure _

theorem agree_sourcePaths (root : Path) : Agree (sourcePaths root) (sourcePaths root) := by
  refine agree_get fun desk twin halike => ?_
  rw [halike.tree, halike.survey]
  exact agree_ofExcept _

theorem agree_readFiles (folder : Path) (paths : List Text) :
    Agree (readFiles folder paths) (readFiles folder paths) := by
  induction paths with
  | nil => exact agree_pure ()
  | cons path paths ih =>
    exact (agree_fetch _).bind fun source => (agree_onSurvey _).bind fun _ => ih

theorem agree_process (root : Path) : Agree (process root) (process root) := by
  refine (agree_ofExcept _).bind fun key => agree_get fun desk twin halike => ?_
  rw [halike.survey]
  split
  · exact agree_pure false
  · exact (agree_onSurvey _).bind fun _ => (agree_report _ _).bind fun _ =>
      (agree_sourcePaths key).bind fun paths => (agree_readFiles key paths).bind fun _ =>
        agree_pure true

/-- Reading root after root does what filtering the roots does. -/
theorem agree_roots (roots : List Path) :
    Agree (roots.forM fun root => do let _ ← process root)
      (do let _ ← roots.filterM process) := by
  induction roots with
  | nil => exact agree_pure ()
  | cons root roots ih =>
    have hcons : ((root :: roots).forM fun root => do let _ ← process root) =
        (do let _ ← process root; roots.forM fun root => do let _ ← process root) :=
      bind_assoc _ _ _
    rw [hcons, List.filterM_cons]
    simp only [bind_assoc, pure_bind]
    exact (agree_process root).bind fun _ => ih

/-- The run says how many roots there are before it filters them. -/
theorem agree_announced_roots (level : Level) (message : Text) (roots : List Path) :
    Agree (roots.forM fun root => do let _ ← process root)
      (do announce level message; let _ ← roots.filterM process) := by
  unfold announce
  refine agree_silent ?_
  exact agree_roots roots

end Reading

end Work

/-! ## 3. Failures of a run -/

/-- The words that settings highlight do not change which roots are worth scanning. -/
theorem Settings.sourceEndings_catalog (settings : Settings) (given : Catalog) :
    sourceEndings settings.includes (settings.catalog given) =
      sourceEndings settings.includes given := by
  unfold Settings.catalog
  split
  · rfl
  · unfold sourceEndings
    rw [List.flatMap_map]
    rfl

section Failing

variable [Platform] {settings : Settings} {context : RunContext}

/-- What makes a run fail: roots that cannot be read. -/
theorem Work.generate_of_fails_roots {desk : Desk} {candidates : List Path} {found : Catalog}
    (hprune : desk.tree.prune (sourceEndings settings.includes
      (settings.catalog context.catalog)) settings.sourceRoots = .ok candidates)
    (hsome : candidates ≠ []) (hfound : Platform.found = .ok found) {noted after : Desk}
    {failure : Failure}
    (hnoted : (announce .info ("Scanning " ++ Text.ofNat candidates.length ++
      " source root(s)")).Yields (started settings context found desk) () noted)
    (hfails : (candidates.filterM process).Fails noted failure after) :
    (generate settings context).Fails desk failure after := by
  rw [generate_eq]
  refine fails_bind.mpr (Or.inr ⟨candidates, desk, yields_ask.mpr ⟨hprune, rfl⟩, ?_⟩)
  rw [if_neg fun hempty => hsome (List.isEmpty_iff.mp hempty)]
  refine fails_bind.mpr (Or.inr ⟨found, desk, yields_found.mpr ⟨hfound, rfl⟩, ?_⟩)
  refine fails_bind.mpr (Or.inl ?_)
  unfold readRoots
  exact fails_bind.mpr (Or.inr ⟨(), _, rfl, fails_bind.mpr (Or.inr ⟨(), noted, hnoted,
    fails_bind.mpr (Or.inl hfails)⟩)⟩)

end Failing

namespace Program

open Work

section Table

variable [Platform]

/-! ## 4. The two ways to the table -/

/-- The desk that the types of a project are listed from. -/
def scanDesk (found : Catalog) (settings : Settings) (listener : Option Listener) (tree : Tree) :
    Desk :=
  { tree, survey := newSurvey found settings, listener }

/-- Why listing types fails, or the table that it ends with. -/
def listing (settings : Settings) (listener : Option Listener) (tree : Tree) :
    Except Failure SymbolTable :=
  match Platform.found with
  | .error error => .error (.discovery error)
  | .ok found =>
    let (result, desk) := (scanRoots settings).outcome (scanDesk found settings listener tree)
    result.map fun () => desk.survey.table

/-- What is shown of the types is shown of this table. -/
theorem listTypes_output (settings : Settings) (listener : Listener) (tree : Tree) :
    (listTypes listener settings tree).output =
      match listing settings (some listener) tree with
      | .error _ => []
      | .ok table => table.sorted.flatMap packageLines := by
  have hfail (failure : Failure) (errors : Text) (left : Tree) :
      (fail .scan failure errors left).output = [] := by
    unfold fail
    cases hnamed : failure.isNamed <;> rfl
  unfold listTypes listing
  cases Platform.found with
  | error error => exact hfail _ _ _
  | ok found =>
    have hrun : (scanRoots settings).run
        { tree, survey := newSurvey found settings, listener := some listener } =
          (scanRoots settings).outcome (scanDesk found settings (some listener) tree) := rfl
    simp only [hrun]
    rcases (scanRoots settings).outcome (scanDesk found settings (some listener) tree) with
      ⟨failure | done, desk⟩
    · exact hfail _ _ _
    · rfl

variable {settings : Settings} {context : RunContext} {listener : Option Listener} {tree : Tree}
  {chance : Nat} {found : Catalog}

theorem listing_of_yields (hfound : Platform.found = .ok found) {scanned : Desk}
    (h : (scanRoots settings).Yields (scanDesk found settings listener tree) () scanned) :
    listing settings listener tree = .ok scanned.survey.table := by
  unfold listing
  rw [hfound]
  simp only
  rw [show (scanRoots settings).outcome (scanDesk found settings listener tree) =
    (.ok (), scanned) from h]
  rfl

theorem listing_of_fails (hfound : Platform.found = .ok found) {failure : Failure} {scanned : Desk}
    (h : (scanRoots settings).Fails (scanDesk found settings listener tree) failure scanned) :
    listing settings listener tree = .error failure := by
  unfold listing
  rw [hfound]
  simp only
  rw [show (scanRoots settings).outcome (scanDesk found settings listener tree) =
    (.error failure, scanned) from h]
  rfl

/-- The roots that listing types reads are those that a run reads. -/
theorem scanRoots_eq (found : Catalog) (settings : Settings) (listener : Option Listener)
    (tree : Tree) :
    (scanRoots settings).outcome (scanDesk found settings listener tree) =
      (do
        let roots ← ask (·.prune (sourceEndings settings.includes (settings.catalog found))
          settings.sourceRoots)
        roots.forM fun root => do let _ ← process root).outcome
          (scanDesk found settings listener tree) := by
  rw [settings.sourceEndings_catalog]
  rfl

omit [Platform] in
theorem alike_scanDesk (hlistener : listener.bind (·.file) = none) :
    Alike (scanDesk found settings listener tree)
      (started settings context found (firstDesk listener tree chance)) :=
  ⟨rfl, rfl, rfl, hlistener⟩

/-- Where a run reads its roots, listing types reads them too, into the same table. -/
theorem scanRoots_of_yields (hlistener : listener.bind (·.file) = none)
    {candidates roots : List Path} (hprune : tree.prune (sourceEndings settings.includes (settings.catalog found))
      settings.sourceRoots = .ok candidates) {message : Text} {noted read : Desk}
    (hnoted : (announce .info message).Yields
      (started settings context found (firstDesk listener tree chance)) () noted)
    (hread : (candidates.filterM process).Yields noted roots read) :
    ∃ scanned, (scanRoots settings).Yields (scanDesk found settings listener tree) () scanned ∧
      scanned.survey = read.survey := by
  have hrun : (announce .info message >>= fun _ => do let _ ← candidates.filterM process).Yields
      (started settings context found (firstDesk listener tree chance)) () read :=
    yields_bind.mpr ⟨(), noted, hnoted, yields_bind.mpr ⟨roots, read, hread, rfl⟩⟩
  obtain ⟨scanned, hscanned, halike⟩ :=
    (agree_announced_roots _ _ candidates).yields (alike_scanDesk hlistener) hrun
  refine ⟨scanned, ?_, halike.survey⟩
  unfold Yields
  rw [scanRoots_eq]
  exact yields_bind.mpr ⟨candidates, _, yields_ask.mpr ⟨hprune, rfl⟩, hscanned⟩

/-- Where listing types fails, its roots cannot be looked for, or one of them cannot be read; then
the run fails for the same cause. -/
theorem generate_of_fails_scanRoots (hlistener : listener.bind (·.file) = none)
    (hfound : Platform.found = .ok found) (hcatalog : context.catalog = found) {failure : Failure}
    {scanned : Desk}
    (h : (scanRoots settings).Fails (scanDesk found settings listener tree) failure scanned) :
    (generate settings context listener tree chance).result = .error failure.leaving := by
  subst hcatalog
  unfold Fails at h
  rw [scanRoots_eq] at h
  rcases fails_bind.mp h with hlook | ⟨candidates, _, hask, hread⟩
  · obtain ⟨_, _, hget, hfault⟩ := (fails_bind.mp hlook).resolve_left not_fails_get
    obtain ⟨rfl, rfl⟩ := yields_get.mp hget
    obtain ⟨hprune, rfl⟩ := fails_ofExcept.mp hfault
    have hrun : (Work.generate settings context).Fails (firstDesk listener tree chance) failure
        (firstDesk listener tree chance) := by
      rw [generate_eq]
      exact fails_bind.mpr (Or.inl (fails_bind.mpr (Or.inr ⟨_, _, rfl,
        fails_ofExcept.mpr ⟨hprune, rfl⟩⟩)))
    exact generate_result_of_fails hrun
  · obtain ⟨hprune, rfl⟩ := yields_ask.mp hask
    have halike : Alike (scanDesk context.catalog settings listener tree)
      (started settings context context.catalog (firstDesk listener tree chance)) :=
        alike_scanDesk hlistener
    obtain ⟨after, hrun⟩ := (agree_announced_roots .info ("Scanning " ++
      Text.ofNat candidates.length ++ " source root(s)") candidates).fails halike hread
    obtain ⟨_, noted, hnoted, hroots⟩ := (fails_bind.mp hrun).resolve_left not_fails_report
    have hroots : (candidates.filterM process).Fails noted failure after :=
      (fails_bind.mp hroots).resolve_right fun ⟨_, _, _, hpure⟩ => not_fails_pure hpure
    have hsome : candidates ≠ [] := by
      rintro rfl
      exact not_fails_pure hroots
    refine generate_result_of_fails (generate_of_fails_roots ?_ hsome hfound hnoted hroots)
    exact hprune

/-- What a run that succeeds has found is what listing types finds. -/
theorem listing_of_generate (hlistener : listener.bind (·.file) = none)
    (hfound : Platform.found = .ok found) (hcatalog : context.catalog = found) {result : RunResult}
    {after : Desk}
    (h : (Work.generate settings context).Yields (firstDesk listener tree chance) result after) :
    ∃ table, listing settings listener tree = .ok table ∧
      (result.sourceRoots = [] → table = SymbolTable.empty) ∧
      (result.sourceRoots ≠ [] → after.survey.table = table ∧ ∃ renderer options before shown,
        (writeNavigation renderer settings.destinationFolder options).Yields before
          result.indexPages shown ∧
        before.survey.table = table) := by
  subst hcatalog
  obtain ⟨candidates, hprune, hcases⟩ := generate_cases h
  rcases hcases with ⟨rfl, rfl, -⟩ | ⟨hsome, ⟨run⟩⟩
  · have hscanned : (scanRoots settings).Yields (scanDesk context.catalog settings listener tree) ()
        (scanDesk context.catalog settings listener tree) := by
      unfold Yields
      rw [scanRoots_eq]
      exact yields_bind.mpr ⟨[], _, yields_ask.mpr ⟨hprune, rfl⟩, rfl⟩
    exact ⟨_, listing_of_yields hfound hscanned, fun _ => rfl, fun hroots => absurd rfl hroots⟩
  · have hsame : run.found = context.catalog := Except.ok.inj (run.languages.symm.trans hfound)
    obtain ⟨scanned, hscanned, hsurvey⟩ :=
      scanRoots_of_yields hlistener (hsame ▸ hprune) run.scanning run.reading
    rw [hsame] at hscanned
    refine ⟨_, listing_of_yields hfound hscanned, fun hnone => ?_, fun _ => ⟨?_, run.renderer, _,
      run.chosen, run.shown, run.showing, ?_⟩⟩
    · obtain ⟨others, hprune', hfirst⟩ := generate_sourceRoots h
      obtain rfl : candidates = others := Except.ok.inj (hprune.symm.trans hprune')
      cases candidates with
      | nil => exact absurd rfl hsome
      | cons first rest =>
        obtain ⟨more, hmore⟩ := hfirst
        rw [hnone] at hmore
        cases hmore
    · rw [hsurvey, run.table_after]
    · rw [hsurvey, run.table_chosen]

/-- **Listing types and writing pages see the same symbols.** If a run with the languages that are
found succeeds, so does the listing of types; its table is empty if the run finds no sources, and
else it is the one that the run ends with and that its navigation is made from. If listing types
fails, the run fails for the same cause: with an error of its own that names the cause, if it is
one of those that a run contains, and with the cause itself if it is not. -/
theorem scan_table_of_run (settings : Settings) (renderer : Option Template.Renderer)
    (engine : Template.Engine) (tool : ToolAnswer) (year : Text) (listener : Option Listener)
    (tree : Tree) (chance : Nat) (hlistener : listener.bind (·.file) = none) :
    let installation : Installation := { renderer, engine, tool, year }
    (∀ result, (installation.run settings listener tree chance).result = .ok result →
      ∃ found after table, Platform.found = .ok found ∧
        (Work.generate settings (installation.context found)).Yields
          (firstDesk listener tree chance) result after ∧
        listing settings listener tree = .ok table ∧
        (result.sourceRoots = [] → table = SymbolTable.empty) ∧
        (result.sourceRoots ≠ [] → after.survey.table = table ∧ ∃ used options before shown,
          (writeNavigation used settings.destinationFolder options).Yields before
            result.indexPages shown ∧
          before.survey.table = table)) ∧
    ∀ failure, listing settings listener tree = .error failure →
      (installation.run settings listener tree chance).result =
        .error (if failure.isContained then .run failure else failure) := by
  intro installation
  cases hfound : Platform.found with
  | error error =>
    have hgiven : installation.given = .error error := hfound
    rw [Installation.result_of_given hgiven]
    refine ⟨nofun, fun failure hfailure => ?_⟩
    unfold listing at hfailure
    rw [hfound] at hfailure
    cases hfailure
    rfl
  | ok found =>
    have hgiven : installation.given = .ok found := hfound
    rw [Installation.run_of_given hgiven]
    constructor
    · intro result hresult
      obtain ⟨after, hyields, -⟩ := generate_eq_ok_iff.mp ⟨hresult, rfl⟩
      obtain ⟨table, hlisting⟩ := listing_of_generate hlistener hfound rfl hyields
      exact ⟨found, after, table, rfl, hyields, hlisting⟩
    · intro failure hfailure
      unfold listing at hfailure
      rw [hfound] at hfailure
      simp only at hfailure
      rcases hscan : (scanRoots settings).outcome (scanDesk found settings listener tree) with
        ⟨cause | done, scanned⟩
      · rw [hscan] at hfailure
        cases hfailure
        exact generate_of_fails_scanRoots hlistener hfound rfl hscan
      · rw [hscan] at hfailure
        cases hfailure

end Table

/-! ## 5. Runs and lists over one file -/

section Usual

attribute [local instance] Platform.usual

/-- A root with one file, which is not UTF-8. -/
def brokenTree : Tree :=
  ⟨[(["s".toList], .folder), (["s".toList, "A.java".toList], .file [0x63, 0xFF])]⟩

theorem listing_brokenTree :
    ∃ failure, listing latinSettings none brokenTree = .error failure ∧ failure.isContained := by
  have hprune : brokenTree.prune (sourceEndings latinSettings.includes
      (latinSettings.catalog Catalog.standard)) latinSettings.sourceRoots = .ok [latinRoot] :=
    eq_ok_of_toOption (by decide +kernel)
  let begun := marked latinRoot (scanDesk Catalog.standard latinSettings none brokenTree)
  have hscan : brokenTree.scan (latinSettings.scanned blankContext Catalog.standard) latinRoot =
      .ok ["A.java".toList] := by
    cbv
  obtain ⟨failure, hfiles, hcontained⟩ :=
    exists_fails (readFiles latinRoot ["A.java".toList]) begun Failure.isContained
      (by decide +kernel)
  let stopped := (readFiles latinRoot ["A.java".toList]).left begun
  have hprocess : (process latinRoot).Fails
      (scanDesk Catalog.standard latinSettings none brokenTree) failure stopped :=
    fails_process_of_readFiles rfl List.not_mem_nil hscan hfiles
  have hroots : (scanRoots latinSettings).Fails
      (scanDesk Catalog.standard latinSettings none brokenTree) failure stopped := by
    unfold Fails
    rw [scanRoots_eq]
    exact fails_bind.mpr (Or.inr ⟨_, _, yields_ask.mpr ⟨hprune, rfl⟩,
      fails_bind.mpr (Or.inl (fails_bind.mpr (Or.inl hprocess)))⟩)
  exact ⟨failure, listing_of_fails rfl hroots, hcontained⟩

theorem scan_table_of_run_latin :
    (∃ result, (blankInstallation.run latinSettings none latinTree).result = .ok result ∧
      result.sourceRoots = [latinRoot] ∧ listing latinSettings none latinTree = .ok latinTable) ∧
    ∃ failure, listing latinSettings none brokenTree = .error failure ∧
      (blankInstallation.run latinSettings none brokenTree).result = .error (.run failure) := by
  constructor
  · obtain ⟨result, left, hyields, hroots, htable⟩ := latin_generate
    have hrun : (blankInstallation.run latinSettings none latinTree).result = .ok result :=
      (generate_eq_ok_iff.mpr ⟨left, hyields, rfl⟩).1
    obtain ⟨found, after, table, hfound, hafter, hlisting, -, hsame⟩ :=
      (scan_table_of_run latinSettings (some blankRenderer) .interpreter (.failed []) [] none
        latinTree 0 rfl).1 result hrun
    cases hfound
    have hleft : after = left := congrArg Prod.snd (hafter.symm.trans hyields)
    have hsome : result.sourceRoots ≠ [] := by
      rw [hroots]
      exact List.cons_ne_nil latinRoot []
    refine ⟨result, hrun, hroots, ?_⟩
    rw [hlisting, ← (hsame hsome).1, hleft, htable]
  · obtain ⟨failure, hlisting, hcontained⟩ := listing_brokenTree
    have hrun := (scan_table_of_run latinSettings (some blankRenderer) .interpreter (.failed []) []
      none brokenTree 0 rfl).2 failure hlisting
    rw [if_pos hcontained] at hrun
    exact ⟨failure, hlisting, hrun⟩

/-- Settings whose root lies in the home folder of an account that is not there. -/
def homelessSettings : Settings :=
  { root := ⟨.root, []⟩
    sourceFolders := [⟨.relative, ["~nosuchuser".toList, "src".toList]⟩] }

/-- **No error of its own.** Where no home folder is known for a root, the listing of types fails,
and the cause passes through the run: it does not fail with an error of its own. -/
theorem scan_passed_noHome :
    listing homelessSettings none Tree.empty = .error (.file .noHome) ∧
      (blankInstallation.run homelessSettings none Tree.empty).result = .error (.file .noHome) ∧
      ∀ cause, Failure.file .noHome ≠ .run cause :=
  ⟨rfl, rfl, nofun⟩

end Usual

end Program

end CodeAtlas
