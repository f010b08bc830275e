/-
  File:      CodeAtlas/Proofs/Run/Session.lean
  Subject:   What a session remembers does not show.

  A session keeps the decisions of its registry, its writers and its surveys. A writer
  that outlived its run would look names up in an old survey and highlight in an old
  language. None is ever asked: a run that writes pages has forgotten the writers of
  the runs before it.

  * `Registry.Faithful`: every decision is the one that would be made again.
  * `Bench.Current`: the registry is faithful, and every writer has the latest survey
    and the language of its suffix.
  * `SessionWork.Follows`: a step with a memory does what a step without one does, and
    stays current. One rule for each way of making a step.
  * `Session.Keeps`: what every run of a session keeps. `Session.Keeps.run`: one run;
    `Session.Keeps.after`: a list of runs.
  * `Session.run_after_history`: whatever was run before, a run is the one of a new
    session, and the run that has no memory.
-/
import CodeAtlas.Session
import CodeAtlas.Proofs.Run.OneFile

namespace CodeAtlas

open ExceptT (outcome_bind outcome_get)

/-! ## 1. Decisions -/

/-- The language of the files with a suffix in lower case. -/
def Catalog.languageOf (catalog : Catalog) (suffix : Text) : Language :=
  (catalog.languages.find? (·.extensions.contains suffix)).getD Language.java

namespace Registry

/-- Every decision is the one that would be made again. -/
def Faithful (registry : Registry) : Prop :=
  ∀ entry ∈ registry.decided,
    entry.2 = registry.catalog.languages.find? (·.extensions.contains entry.1)

theorem faithful_new (catalog : Catalog) : Faithful { catalog } := fun _ h => nomatch h

/-- A faithful registry finds the language that its catalog gives, and stays faithful. -/
theorem Faithful.find {registry : Registry} (h : registry.Faithful) (path : Path) :
    (registry.find path).1 = registry.catalog.languageFor? path ∧
      (registry.find path).2.Faithful ∧ (registry.find path).2.catalog = registry.catalog := by
  cases hlookup : registry.decided.lookup (Text.lower path.suffix) with
  | some found =>
    have hfind : registry.find path = (found, registry) := by
      simp only [Registry.find, hlookup]
    obtain ⟨before, later, hdecided, -⟩ := List.lookup_eq_some_iff.mp hlookup
    have hmem : (Text.lower path.suffix, found) ∈ registry.decided := by
      rw [hdecided]
      exact List.mem_append_right before List.mem_cons_self
    rw [hfind]
    exact ⟨h _ hmem, h, rfl⟩
  | none =>
    have hfind : registry.find path = (registry.catalog.languageFor? path, { registry with
        decided := (Text.lower path.suffix, registry.catalog.languageFor? path) ::
          registry.decided }) := by
      simp only [Registry.find, hlookup]
    rw [hfind]
    refine ⟨rfl, fun entry hentry => ?_, rfl⟩
    rcases List.mem_cons.mp hentry with rfl | hentry
    · rfl
    · exact h entry hentry

end Registry

/-! ## 2. Steps that follow steps without a memory -/

/-- A bench in a run that has begun its survey, which has the given number. -/
structure Bench.Current (catalog : Catalog) (number : Nat) (bench : Bench) : Prop where
  faithful : bench.registry.Faithful
  languages : bench.registry.catalog = catalog
  numbered : bench.past.length = number
  writers : ∀ entry ∈ bench.writers, entry.2 = ⟨number, catalog.languageOf entry.1⟩

namespace SessionWork

variable {α β : Type} {catalog : Catalog} {number : Nat}

theorem outcome_get_bind (next : Bench → SessionWork α) (bench : Bench) :
    ((get : SessionWork Bench) >>= next).outcome bench = (next bench).outcome bench :=
  rfl

/-- From a current bench, a step gives what `plain` gives from the desk, does to the desk what
`plain` does, and leaves the bench current. -/
def Follows (catalog : Catalog) (number : Nat) (step : SessionWork α) (plain : Work α) : Prop :=
  ∀ bench : Bench, bench.Current catalog number →
    (step.outcome bench).1 = (plain.outcome bench.desk).1 ∧
    (step.outcome bench).2.desk = (plain.outcome bench.desk).2 ∧
    (step.outcome bench).2.Current catalog number

theorem follows_pure (value : α) : Follows catalog number (pure value) (pure value) :=
  fun _ hbench => ⟨rfl, rfl, hbench⟩

theorem follows_onDesk (step : Work α) : Follows catalog number (onDesk step) step :=
  fun _ hbench => ⟨rfl, rfl, hbench.1, hbench.2, hbench.3, hbench.4⟩

theorem Follows.bind {step : SessionWork α} {plain : Work α} {next : α → SessionWork β}
    {later : α → Work β} (hstep : Follows catalog number step plain)
    (hnext : ∀ value, Follows catalog number (next value) (later value)) :
    Follows catalog number (step >>= next) (plain >>= later) := by
  intro bench hbench
  obtain ⟨hresult, hdesk, hcurrent⟩ := hstep bench hbench
  rw [outcome_bind, outcome_bind]
  rcases hout : step.outcome bench with ⟨result, left⟩
  rcases hplain : plain.outcome bench.desk with ⟨result', after⟩
  rw [hout, hplain] at hresult hdesk
  rw [hout] at hcurrent
  obtain rfl : result = result' := hresult
  obtain rfl : left.desk = after := hdesk
  cases result with
  | error failure => exact ⟨rfl, rfl, hcurrent⟩
  | ok value => exact hnext value left hcurrent

/-- What a step without an effect on the desk gives is handed on. -/
theorem Follows.hand {step : SessionWork α} {value : α} {next : α → SessionWork β} {plain : Work β}
    (hstep : Follows catalog number step (pure value))
    (hnext : Follows catalog number (next value) plain) :
    Follows catalog number (step >>= next) plain := by
  intro bench hbench
  obtain ⟨hresult, hdesk, hcurrent⟩ := hstep bench hbench
  rw [outcome_bind]
  rcases hout : step.outcome bench with ⟨result, left⟩
  rw [hout] at hresult hdesk hcurrent
  obtain rfl : result = .ok value := hresult
  have hleft : left.desk = bench.desk := hdesk
  rw [← hleft]
  exact hnext left hcurrent

theorem Follows.mapM {step : α → SessionWork β} {plain : α → Work β}
    (h : ∀ value, Follows catalog number (step value) (plain value)) (values : List α) :
    Follows catalog number (values.mapM step) (values.mapM plain) := by
  induction values with
  | nil => exact follows_pure []
  | cons value values ih =>
    rw [List.mapM_cons, List.mapM_cons]
    exact (h value).bind fun first => ih.bind fun rest => follows_pure (first :: rest)

/-! ## 3. Pages -/

theorem follows_languageFor (path : Path) :
    Follows catalog number (languageFor path) (pure (catalog.languageFor path)) := by
  intro bench hbench
  obtain ⟨hfound, hfaithful, hcatalog⟩ := hbench.faithful.find path
  have hlanguage : (bench.registry.find path).1.getD Language.java = catalog.languageFor path := by
    rw [hfound, hbench.languages]
    rfl
  exact ⟨congrArg Except.ok hlanguage, rfl, hfaithful, hcatalog.trans hbench.languages,
    hbench.numbered, hbench.writers⟩

theorem outcome_writerFor (suffix : Text) (language : Language) (bench : Bench) :
    (writerFor suffix language).outcome bench =
      match bench.writers.lookup (Text.lower suffix) with
      | some writer => (.ok writer, bench)
      | none => (.ok ⟨bench.past.length, language⟩,
          { bench with
            writers := (Text.lower suffix, ⟨bench.past.length, language⟩) :: bench.writers }) := by
  unfold writerFor
  rw [outcome_get_bind]
  cases bench.writers.lookup (Text.lower suffix) <;> rfl

/-- The writer for a suffix has the latest survey and the language of the suffix, also when an
earlier file has left it behind. -/
theorem follows_writerFor (suffix : Text) :
    Follows catalog number (writerFor suffix (catalog.languageOf (Text.lower suffix)))
      (pure ⟨number, catalog.languageOf (Text.lower suffix)⟩) := by
  intro bench hbench
  rw [outcome_writerFor, hbench.numbered]
  cases hlookup : bench.writers.lookup (Text.lower suffix) with
  | some writer =>
    obtain ⟨before, later, hwriters, -⟩ := List.lookup_eq_some_iff.mp hlookup
    have hmem : (Text.lower suffix, writer) ∈ bench.writers := by
      rw [hwriters]
      exact List.mem_append_right before List.mem_cons_self
    exact ⟨congrArg Except.ok (hbench.writers _ hmem), rfl, hbench⟩
  | none =>
    refine ⟨rfl, rfl, hbench.faithful, hbench.languages, hbench.numbered, fun entry hentry => ?_⟩
    rcases List.mem_cons.mp hentry with rfl | hentry
    · rfl
    · exact hbench.writers entry hentry

variable [Platform]

/-- A writer with the latest survey writes what is written without writers. -/
theorem follows_transform (language : Language) (path target : Path) (options : PageOptions) :
    Follows catalog number (transform ⟨number, language⟩ path target options)
      (Work.transform language path target options) := by
  intro bench hbench
  have hlatest : bench.past[number]? = none := by
    rw [List.getElem?_eq_none_iff, hbench.numbered]
  have hstep : (transform ⟨number, language⟩ path target options).outcome bench =
      (onDesk (Work.transform language path target options)).outcome bench := by
    unfold transform
    rw [outcome_get_bind, hlatest]
  rw [hstep]
  exact follows_onDesk _ bench hbench

theorem follows_transformFile (destination : Path) (options : PageOptions) (root : Path)
    (relative : Text) :
    Follows catalog number (transformFile destination options root relative)
      (Work.transformFile catalog destination options root relative) :=
  (follows_languageFor _).hand ((follows_writerFor _).hand (follows_transform _ _ _ _))

theorem follows_transformRoot (destination : Path) (options : PageOptions) (root : Path) :
    Follows catalog number (scribe.transformRoot destination options root)
      (Work.transformRoot catalog destination options root) :=
  (follows_onDesk (Work.sourcePaths root)).bind fun paths =>
    Follows.mapM (follows_transformFile destination options root) paths

end SessionWork

/-! ## 4. A run -/

namespace Work

/-- Looking at the file tree leaves the desk as it is. -/
theorem outcome_ask {α : Type} (question : Tree → Except FileFault α) (desk : Desk) :
    (ask question).outcome desk = ((question desk.tree).mapError .file, desk) := by
  unfold ask
  rw [outcome_bind, outcome_get]
  exact outcome_ofExcept _ _

variable [Platform]

/-- The survey that a run starts from does not matter: it begins one of its own before it looks
at it. -/
theorem generate_from_survey (settings : Settings) (context : RunContext) (desk : Desk)
    (survey : Survey) :
    ((generate settings context).outcome { desk with survey }).1 =
        ((generate settings context).outcome desk).1 ∧
      ((generate settings context).outcome { desk with survey }).2.tree =
        ((generate settings context).outcome desk).2.tree ∧
      ((generate settings context).outcome { desk with survey }).2.log =
        ((generate settings context).outcome desk).2.log := by
  unfold generate Scribe.generate
  simp only [scribe]
  rw [outcome_bind, outcome_bind, outcome_ask, outcome_ask]
  cases desk.tree.prune (sourceEndings settings.includes (settings.catalog context.catalog))
      settings.sourceRoots with
  | error fault => exact ⟨rfl, rfl, rfl⟩
  | ok candidates =>
    cases candidates with
    | nil => exact ⟨rfl, rfl, rfl⟩
    | cons first rest =>
      cases hfound : Platform.found with
      | error error => exact ⟨rfl, rfl, rfl⟩
      -- from here on both runs have the survey that they begin
      | ok found => exact ⟨rfl, rfl, rfl⟩

end Work

namespace SessionWork

variable [Platform]

/-- What follows once a run has begun its survey. -/
theorem follows_written (found : Catalog) (settings : Settings) (context : RunContext)
    (catalog : Catalog) (number : Nat) (candidates : List Path) (bottom : Text) :
    Follows catalog number
      (do
        let roots ← onDesk (Work.readRoots found settings catalog candidates)
        let options ← onDesk (Work.pageOptions settings bottom)
        let pages ← roots.mapM (scribe.transformRoot settings.destinationFolder options)
        onDesk (Work.finish settings context bottom roots pages.flatten))
      (do
        let roots ← Work.readRoots found settings catalog candidates
        let options ← Work.pageOptions settings bottom
        let pages ← roots.mapM (Work.transformRoot catalog settings.destinationFolder options)
        Work.finish settings context bottom roots pages.flatten) :=
  (follows_onDesk _).bind fun roots => (follows_onDesk _).bind fun options =>
    (Follows.mapM (follows_transformRoot settings.destinationFolder options) roots).bind
      fun _ => follows_onDesk _

/-- **A run with a memory does what the run without one does**, whatever writers and surveys there
are before it, and leaves a faithful registry. -/
theorem generate_follows {settings : Settings} {context : RunContext} {bench : Bench}
    (hfaithful : bench.registry.Faithful)
    (hcatalog : bench.registry.catalog = settings.catalog context.catalog) :
    ((scribe.generate settings context).outcome bench).1 =
        ((Work.generate settings context).outcome bench.desk).1 ∧
      ((scribe.generate settings context).outcome bench).2.desk =
        ((Work.generate settings context).outcome bench.desk).2 ∧
      ((scribe.generate settings context).outcome bench).2.registry.Faithful ∧
      ((scribe.generate settings context).outcome bench).2.registry.catalog =
        bench.registry.catalog := by
  have hlook (question : Tree → Except FileFault (List Path)) :
      (scribe.carryOut (Work.ask question)).outcome bench =
        ((question bench.desk.tree).mapError .file, bench) := by
    show (((Work.ask question).outcome bench.desk).1,
      { bench with desk := ((Work.ask question).outcome bench.desk).2 }) = _
    rw [Work.outcome_ask]
  unfold Work.generate Scribe.generate
  rw [outcome_bind, outcome_bind, hlook]
  rw [show (Work.scribe (settings.catalog context.catalog)).carryOut (α := List Path) = id from rfl,
    id, Work.outcome_ask]
  cases bench.desk.tree.prune (sourceEndings settings.includes (settings.catalog context.catalog))
      settings.sourceRoots with
  | error fault => exact ⟨rfl, rfl, hfaithful, rfl⟩
  | ok candidates =>
    cases candidates with
    | nil => exact ⟨rfl, rfl, hfaithful, rfl⟩
    | cons first rest =>
      cases hfound : Platform.found with
      | error error => exact ⟨rfl, rfl, hfaithful, rfl⟩
      | ok found =>
        let begun : Bench :=
          { bench with past := bench.past ++ [bench.desk.survey], writers := [] }
        have hbegun : begun.Current (settings.catalog context.catalog) begun.past.length :=
          ⟨hfaithful, hcatalog, rfl, fun _ hentry => nomatch hentry⟩
        obtain ⟨hresult, hdesk, hcurrent⟩ := follows_written found settings context
          (settings.catalog context.catalog) begun.past.length (first :: rest)
          (resolveFooter settings.bottom settings.inceptionYear settings.organization context.year)
          begun hbegun
        exact ⟨hresult, hdesk, hcurrent.faithful, hcurrent.languages.trans hcatalog.symm⟩

end SessionWork

/-! ## 5. Sessions -/

namespace Session

/-- What every run of a session keeps: the languages and the templates of one's own choice, and a
registry that is faithful. -/
structure Keeps (languages : Option Catalog) (renderer : Option Template.Renderer)
    (session : Session) : Prop where
  languages : session.languages.map Registry.catalog = languages
  renderer : session.renderer = renderer
  faithful : ∀ registry ∈ session.languages, registry.Faithful

theorem keeps_start (languages : Option Catalog) (renderer : Option Template.Renderer) :
    (Session.start languages renderer).Keeps languages renderer where
  languages := by cases languages <;> rfl
  renderer := rfl
  faithful := by
    intro registry hregistry
    cases languages with
    | none => cases hregistry
    | some catalog =>
      cases hregistry
      exact Registry.faithful_new catalog

variable {languages : Option Catalog} {renderer : Option Template.Renderer} {session : Session}

theorem Keeps.faithful_registryFor (h : session.Keeps languages renderer) (settings : Settings)
    (catalog : Catalog) : (session.registryFor settings catalog).Faithful := by
  unfold registryFor
  cases hlanguages : session.languages with
  | none => exact Registry.faithful_new _
  | some registry =>
    simp only
    split
    · exact h.faithful registry hlanguages
    · exact Registry.faithful_new _

/-- The registry of a session is taken as it is, if the settings name no words to highlight. -/
theorem registryFor_of_some {registry : Registry} {settings : Settings} {catalog : Catalog}
    (h : session.languages = some registry) (hnone : settings.keywords.isEmpty) :
    session.registryFor settings catalog = registry := by
  unfold registryFor
  rw [h]
  exact if_pos hnone

variable [Platform]

theorem catalog_registryFor {catalog : Catalog} (h : session.given = .ok catalog)
    (settings : Settings) :
    (session.registryFor settings catalog).catalog = settings.catalog catalog := by
  unfold registryFor
  cases hlanguages : session.languages with
  | none => rfl
  | some registry =>
    simp only
    split
    · rename_i hnone
      have hsame : registry.catalog = catalog := by
        unfold given at h
        rw [hlanguages] at h
        exact Except.ok.inj h
      unfold Settings.catalog
      rw [if_pos hnone, hsame]
    · rfl

/-- The bench that a run of a session starts from. -/
def bench (session : Session) (job : Job) (catalog : Catalog) : Bench :=
  { desk := { firstDesk job.listener job.tree job.chance with survey := session.latest }
    registry := session.registryFor job.settings catalog
    writers := session.writers
    past := session.past }

/-- The registry after a run: its decisions are kept where it was the session's own. -/
theorem languages_runWith (session : Session) (job : Job) (catalog : Catalog) :
    (session.runWith job catalog).2.languages = session.languages.map fun registry =>
      if job.settings.keywords.isEmpty then
        ((SessionWork.scribe.generate job.settings (session.context job catalog)).outcome
          (session.bench job catalog)).2.registry
      else registry := rfl

/-- What the run of a job is given when it is the only one. -/
def installation (languages : Option Catalog) (renderer : Option Template.Renderer) (job : Job) :
    Installation :=
  { languages, renderer, engine := job.engine, tool := job.tool, year := job.year }

theorem Keeps.given_eq (h : session.Keeps languages renderer) (job : Job) :
    session.given = (installation languages renderer job).given := by
  unfold given Installation.given installation
  rw [← h.languages]
  cases session.languages <;> rfl

omit [Platform] in
theorem Keeps.context_eq (h : session.Keeps languages renderer) (job : Job) (catalog : Catalog) :
    session.context job catalog = (installation languages renderer job).context catalog := by
  unfold context Installation.context installation
  rw [h.renderer]

/-- **One run with languages**: its outcome is that of the run without a memory, and what sessions
keep is kept, whether the run succeeds, finds no sources or fails. -/
theorem Keeps.runWith (h : session.Keeps languages renderer) (job : Job) {catalog : Catalog}
    (hgiven : session.given = .ok catalog) :
    (session.runWith job catalog).1 = CodeAtlas.generate job.settings
        (session.context job catalog) job.listener job.tree job.chance ∧
      (session.runWith job catalog).2.Keeps languages renderer := by
  have hregistry : (session.bench job catalog).registry.Faithful :=
    h.faithful_registryFor job.settings catalog
  have hlanguages : (session.bench job catalog).registry.catalog =
      job.settings.catalog (session.context job catalog).catalog :=
    catalog_registryFor hgiven job.settings
  obtain ⟨hresult, hdesk, hfaithful, hcatalog⟩ := SessionWork.generate_follows hregistry hlanguages
  -- the desk of the bench is the first desk, with another survey
  obtain ⟨hresult', htree, hlog⟩ := Work.generate_from_survey job.settings
    (session.context job catalog) (firstDesk job.listener job.tree job.chance) session.latest
  refine ⟨?_, ?_, h.renderer, ?_⟩
  · refine RunOutcome.mk.injEq _ _ _ _ _ _ |>.mpr ⟨?_, ?_, ?_⟩
    · exact (congrArg Desk.tree hdesk).trans htree
    · exact (congrArg Desk.log hdesk).trans hlog
    · exact congrArg (Except.mapError _) (hresult.trans hresult')
  · rw [← h.languages, languages_runWith]
    cases hlanguages : session.languages with
    | none => rfl
    | some registry =>
      simp only [Option.map_some, Option.some.injEq]
      split
      · rename_i hnone
        rw [hcatalog]
        exact congrArg Registry.catalog (registryFor_of_some hlanguages hnone)
      · rfl
  · intro registry hkept
    rw [languages_runWith] at hkept
    obtain ⟨own, hown, rfl⟩ := Option.map_eq_some_iff.mp hkept
    split
    · exact hfaithful
    · exact h.faithful own hown

/-- **One run**, also when the languages cannot be put together. -/
theorem Keeps.run (h : session.Keeps languages renderer) (job : Job) :
    (session.run job).1 = (installation languages renderer job).run job.settings job.listener
        job.tree job.chance ∧
      (session.run job).2.Keeps languages renderer := by
  unfold Session.run Installation.run
  rw [← h.given_eq job]
  cases hgiven : session.given with
  | error error => exact ⟨rfl, h⟩
  | ok catalog =>
    obtain ⟨hrun, hkeeps⟩ := h.runWith job hgiven
    rw [h.context_eq job catalog] at hrun
    exact ⟨hrun, hkeeps⟩

theorem Keeps.after (h : session.Keeps languages renderer) (jobs : List Job) :
    (session.after jobs).Keeps languages renderer := by
  induction jobs generalizing session with
  | nil => exact h
  | cons job jobs ih => exact ih (h.run job).2

/-- **A session may be used again.** Whatever runs came before, of whatever settings on whatever
trees, and whether they succeeded, found no sources or failed midway: a run leaves the files, the
records and the result that it leaves as the first run of a new session. They are those of the run
without a memory, which writes every page in the language that the languages of the run give for
the path of the source, with the table of the survey that it has begun. -/
theorem run_after_history (languages : Option Catalog) (renderer : Option Template.Renderer)
    (history : List Job) (job : Job) :
    (((Session.start languages renderer).after history).run job).1 =
        ((Session.start languages renderer).run job).1 ∧
      (((Session.start languages renderer).after history).run job).1 =
        (installation languages renderer job).run job.settings job.listener job.tree
          job.chance := by
  have hstart := keeps_start languages renderer
  have hlater := ((hstart.after history).run job).1
  exact ⟨hlater.trans (hstart.run job).1.symm, hlater⟩

end Session

end CodeAtlas
