/-
  File:      CodeAtlas/Proofs/Run/Idempotent.lean
  Subject:   A run that is repeated changes nothing.

  What a run writes does not come in the way of what it reads, if all paths that it
  reads lie beside its destination. Then it can be repeated on the tree that it leaves:
  it finds the same sources, writes the same bytes to the same files, and the tree stays
  as it is. One thing can go wrong: a path may lead beside the destination by way of a
  folder that the run has made. Before the run the path leads nowhere, and after it the
  path leads up again from that folder, to what lies beside. And what is made of templates
  of one's own may be left to chance.

  * `Rerun.repeats_generate`: every part of a run repeats.
  * `Settings.consulted`: the paths at which a run reads.
  * `generate_idempotent`: the run, repeated.
  * `clash_not_idempotent`: a run that finds a root by a new path.
-/
import CodeAtlas.Proofs.Run.Again
import CodeAtlas.Proofs.Run.Table
import CodeAtlas.Proofs.Tree.Pruning

namespace CodeAtlas

open Work

/-! ## 1. Roots that hold sources -/

namespace Rerun

variable [Platform] {rerun : Rerun}

theorem prune_of_safe {tree : Tree} (haround : rerun.base.Around rerun.zone tree)
    (hfinal : tree.Grows rerun.final) {roots : List Path}
    (hsafe : ∀ raw ∈ roots, ∀ root, raw.expand = .ok root → rerun.Safe root)
    (endings : List Text) : tree.prune endings roots = rerun.base.prune endings roots := by
  rw [Tree.prune_eq, Tree.prune_eq]
  generalize ([] : List Path) = kept
  induction roots generalizing kept with
  | nil => rfl
  | cons raw roots ih =>
    have hstep : (raw.expand >>= tree.pruneStep endings kept) =
        raw.expand >>= rerun.base.pruneStep endings kept := by
      cases hexpand : raw.expand with
      | error fault => rfl
      | ok root =>
        show tree.pruneStep endings kept root = rerun.base.pruneStep endings kept root
        unfold Tree.pruneStep
        rw [Tree.hasSources_of_safe rerun.sound haround hfinal
          (hsafe raw List.mem_cons_self root hexpand)]
    rw [List.foldlM_cons, List.foldlM_cons, hstep]
    refine bind_congr fun more => ?_
    exact ih (fun other hm => hsafe other (List.mem_cons_of_mem raw hm)) more

end Rerun

/-! ## 2. The run -/

namespace Work

theorem keepsSurvey_report (records : List Record) : Keeps Desk.survey (report records) :=
  keeps_modify fun _ => rfl

/-- What the reading of the roots makes of the table. -/
theorem fit_of_reading [Platform] {desk after : Desk} {found : Catalog} {cache : Cache}
    {includes excludes : List Text} {candidates roots : List Path} (hdesk : Calm desk)
    (hcache : cache.files = [])
    (hstart : desk.survey = Survey.start found cache includes excludes)
    (h : (candidates.filterM process).Yields desk roots after) : after.survey.table.Fit := by
  have hfresh : desk.survey.cache = Cache.empty none found := by
    rw [hstart]
    unfold Survey.start
    rw [hcache]
    rfl
  have hsteady : Steady desk := by
    refine ⟨hdesk.quiet, ?_⟩
    rw [hfresh]
    exact Cache.faithful_empty none found desk.tree
  obtain ⟨sources, hreads, hsources⟩ := reads_roots hsteady h
  have htable : after.survey.table = SymbolTable.ofSources sources.flatten := by
    rw [hreads.table, hstart]
    rfl
  rw [htable]
  exact ⟨SymbolTable.EachOnce.ofSources _, fun package hm =>
    SymbolTable.isNamed_of_mem (fun _ => Cache.package_of_roots hsources) hm⟩

end Work

namespace Rerun

variable [Platform] {rerun : Rerun}

/-- What is known of a run between the reading of its roots and the writing of its pages. -/
def Ready (rerun : Rerun) (roots : List Path) (desk : Desk) : Prop :=
  (∀ root ∈ roots, rerun.Whole root ∧ rerun.Safe root.resolved) ∧ desk.survey.table.Fit

/-- The roots that are read. -/
theorem repeats_roots {found : Catalog} {cache : Cache} {includes excludes : List Text}
    (hcache : cache.files = []) (candidates : List Path) :
    rerun.Repeats
      (fun desk => (∀ root ∈ candidates, rerun.Whole root) ∧
        desk.survey = Survey.start found cache includes excludes)
      (candidates.filterM process) (rerun.Ready) := by
  refine (Repeats.filterM (fun root => rerun.Whole root)
    (fun root => rerun.Whole root ∧ rerun.Safe root.resolved) (fun _ hpre => hpre.1)
    fun root => ?_).also fun desk roots after hcalm hpre => fit_of_reading hcalm hcache hpre.2
  refine ((repeats_process root).fact (rerun.Whole root)).mono (fun _ hwhole => ⟨hwhole, hwhole⟩) ?_
  exact fun fresh _ hpost hfresh => ⟨hpost.1, hpost.2 hfresh⟩

/-- **Reading.** -/
theorem repeats_readRoots (found : Catalog) (settings : Settings) (catalog : Catalog)
    (candidates : List Path) :
    rerun.Repeats (fun _ => ∀ root ∈ candidates, rerun.Whole root)
      (readRoots found settings catalog candidates) (rerun.Ready) := by
  unfold readRoots
  have hstart := (@repeats_onSurvey rerun (fun _ => ∀ root ∈ candidates, rerun.Whole root) _
    (fun _ => Survey.start found (Cache.empty settings.inputEncoding catalog) settings.includes
      settings.excludes) fun _ hwhole => hwhole).also fun _ _ after _ _ hyields =>
        show after.survey = Survey.start found (Cache.empty settings.inputEncoding catalog)
          settings.includes settings.excludes by rw [yields_onSurvey.mp hyields]
  refine hstart.bind fun _ => ?_
  refine ((repeats_report _ fun _ hwhole => hwhole).keeping (keepsSurvey_report _)
    fun survey => survey = _).bind fun _ => ?_
  refine (repeats_roots rfl candidates).bind fun roots => ?_
  refine repeats_survey (fun survey => report survey.dump >>= fun _ => pure roots) fun survey => ?_
  have hdump := (@repeats_report rerun (fun _ => ∀ root ∈ roots, rerun.Whole root ∧
    rerun.Safe root.resolved) _ survey.dump fun _ hroots => hroots).keeping (keepsTable_report _)
      SymbolTable.Fit
  exact (hdump.mono (fun _ hpre => hpre.1) fun _ _ hpost => hpost).bind fun _ =>
    repeats_pure roots fun _ hready => hready

omit [Platform] in
/-- **What the pages are made with.** -/
theorem repeats_pageOptions (settings : Settings) (bottom : Text) (roots : List Path)
    (hapi : settings.api.enabled = true → rerun.Safe settings.apiPath) :
    rerun.Repeats (rerun.Ready roots) (pageOptions settings bottom)
      fun _ after => rerun.Ready roots after := by
  unfold pageOptions
  have hlooked := ((repeats_apiFolder settings hapi).fact (∀ root ∈ roots, rerun.Whole root ∧
    rerun.Safe root.resolved)).keeping (keepsTable_apiFolder settings) SymbolTable.Fit
  exact (hlooked.mono (fun _ hready => ⟨⟨hready.1, trivial⟩, hready.2⟩)
    fun _ _ hpost => ⟨hpost.1.1, hpost.2⟩).bind fun folder => repeats_pure _ fun _ hready => hready

/-- **The pages.** -/
theorem repeats_pages (catalog : Catalog) (options : PageOptions) (roots : List Path) :
    rerun.Repeats (rerun.Ready roots)
      (roots.mapM (transformRoot catalog rerun.destination options))
      fun _ after => after.survey.table.Fit :=
  ((Repeats.mapM (fun root => rerun.Whole root ∧ rerun.Safe root.resolved)
    (fun _ hpre => hpre) fun root _ => repeats_transformRoot catalog options root).keeping
      (Keeps.mapM (fun _ => keepsTable_transformRoot _ _ _ _) _) SymbolTable.Fit).mono
        (fun _ hready => hready) fun _ _ hpost => hpost.2

/-- **What comes after the pages.** -/
theorem repeats_finish {settings : Settings} {context : RunContext}
    (hdestination : settings.destinationFolder = rerun.destination)
    (hsheet : ∀ path ∈ settings.stylesheet, rerun.Kept path)
    (htemplates : ∀ renderer ∈ settings.ownRenderer context, rerun.KeepsTemplates renderer)
    (bottom : Text) (roots pages : List Path) :
    rerun.Repeats (fun desk => desk.survey.table.Fit)
      (finish settings context bottom roots pages) fun _ _ => True := by
  unfold finish
  rw [hdestination]
  have hcounted (records : List Record) :=
    (@repeats_report rerun (fun _ => True) True records fun _ htrue => htrue).keeping
      (keepsTable_report records) SymbolTable.Fit
  refine ((hcounted _).mono (fun _ hfit => ⟨trivial, hfit⟩) fun _ _ hpost => hpost).bind fun _ => ?_
  refine ((repeats_selectRenderer htemplates).keeping (keepsTable_selectRenderer _ _)
    SymbolTable.Fit).bind fun renderer => ?_
  have hnavigation (options : NavigationOptions) :=
    (@repeats_writeNavigation _ rerun renderer options).fact (rerun.KeepsTemplates renderer)
  refine ((hnavigation _).mono (fun _ hpre => ⟨hpre.1, hpre⟩) fun _ _ hpost => hpost).bind
    fun indexPages => ?_
  exact (repeats_copyStylesheet renderer hsheet).bind fun copied =>
    repeats_pure _ fun _ _ => trivial

/-- **Every part of a run repeats**, and so does the run. -/
theorem repeats_generate {settings : Settings} {context : RunContext}
    (hdestination : settings.destinationFolder = rerun.destination)
    (hroots : ∀ raw ∈ settings.sourceRoots, ∀ root, raw.expand = .ok root → rerun.Safe root)
    (hapi : settings.api.enabled = true → rerun.Safe settings.apiPath)
    (hsheet : ∀ path ∈ settings.stylesheet, rerun.Kept path)
    (htemplates : ∀ renderer ∈ settings.ownRenderer context, rerun.KeepsTemplates renderer) :
    rerun.Repeats (fun _ => True) (Work.generate settings context) fun _ _ => True := by
  rw [generate_eq]
  have hprune := @repeats_ask rerun (List Path) (fun _ => True)
    (·.prune (sourceEndings settings.includes (settings.catalog context.catalog))
      settings.sourceRoots) fun haround hfinal => prune_of_safe haround hfinal hroots _
  refine hprune.bind fun candidates => ?_
  split
  · exact (repeats_report _ fun _ _ => trivial).bind fun _ => repeats_pure _ fun _ _ => trivial
  have hfound : rerun.Repeats (fun _ => True ∧ rerun.base.prune (sourceEndings settings.includes
      (settings.catalog context.catalog)) settings.sourceRoots = .ok candidates)
      (Work.ofExcept (Platform.found.mapError .discovery))
      fun _ _ => ∀ root ∈ candidates, rerun.Whole root := by
    refine repeats_ofExcept fun _ _ hpre _ root hm => ?_
    obtain ⟨⟨raw, hraw, hexpand⟩, -⟩ := (Tree.mem_prune_iff hpre.2).mp hm
    exact ⟨Path.account?_of_expand hexpand, hroots raw hraw root hexpand⟩
  refine hfound.bind fun found => ?_
  rw [hdestination]
  exact (repeats_readRoots found settings _ candidates).bind fun roots =>
    (repeats_pageOptions settings _ roots hapi).bind fun options =>
      (repeats_pages _ options roots).bind fun pages =>
        repeats_finish hdestination hsheet htemplates _ roots _

end Rerun

/-! ## 3. The run, repeated -/

/-- The paths at which a run reads: the roots with their home folders, the folder of the API
documentation if there may be one, and the style sheet and templates that do not come with the
program. -/
def Settings.consulted [Platform] (settings : Settings) (context : RunContext) : List Path :=
  settings.sourceRoots.filterMap (·.expand.toOption) ++
    (if settings.api.enabled then [settings.apiPath] else []) ++
    (settings.stylesheet.toList ++
      (settings.ownRenderer context).toList.flatMap (·.folders)).filter (·.anchor != .builtIn)

/-- **A run that is repeated changes nothing.** A run succeeds, and no path that it reads is the
destination, contains it or lies below it. Where the destination or such a path passes through
something that the run has made, it goes on with a name, and with one that is not too long. What
is made of templates that do not come with the program is settled by their files and the values
that they are given. Then the same run on the tree that it leaves succeeds with the same result,
and leaves the tree as it is, whatever chance has in store for it. -/
theorem generate_idempotent [Platform] {settings : Settings} {context : RunContext}
    {listener : Option Listener} {tree : Tree} {chance chance' : Nat} {first : RunOutcome}
    {result : RunResult}
    (hlistener : listener.bind (·.file) = none) (hsound : tree.Sound) (hnamed : tree.Named)
    (hfirst : generate settings context listener tree chance = first)
    (hresult : first.result = .ok result)
    (hbeside : ∀ path ∈ settings.consulted context,
      Beside settings.destinationFolder.resolved.segments path.resolved.segments)
    (hplain : ∀ path ∈ settings.destinationFolder :: settings.consulted context,
      tree.Plain first.tree [] path.segments)
    (hsettled : ∀ renderer ∈ settings.ownRenderer context,
      ∀ name ∈ rootPages ++ packagePages, renderer.Settled tree name) :
    (generate settings context listener first.tree chance').result = .ok result ∧
      (generate settings context listener first.tree chance').tree = first.tree := by
  subst hfirst
  obtain ⟨after, hyields, hafter⟩ := generate_eq_ok_iff.mp ⟨hresult, rfl⟩
  rw [← hafter] at hplain ⊢
  let rerun : Rerun := ⟨settings.destinationFolder, tree, after.tree, hsound, hnamed,
    hplain _ List.mem_cons_self⟩
  have hsafe {path : Path} (hm : path ∈ settings.consulted context) : rerun.Safe path :=
    Path.safe_of_plain (hbeside path hm) (hplain path (List.mem_cons_of_mem _ hm))
  have hkept {path : Path} (hm : path ∈ settings.stylesheet.toList ++
      (settings.ownRenderer context).toList.flatMap (·.folders)) : rerun.Kept path := by
    refine or_iff_not_imp_left.mpr fun hanchor => hsafe (List.mem_append_right _ ?_)
    exact List.mem_filter.mpr ⟨hm, bne_iff_ne.mpr hanchor⟩
  have hrepeats : rerun.Repeats (fun _ => True) (Work.generate settings context) fun _ _ => True := by
    refine Rerun.repeats_generate rfl (fun raw hm root hexpand => ?_) (fun henabled => ?_)
      (fun path hm => ?_) fun renderer hm => ⟨fun folder hfolder => ?_, hsettled renderer hm⟩
    · refine hsafe (List.mem_append_left _ (List.mem_append_left _ ?_))
      exact List.mem_filterMap.mpr ⟨raw, hm, by rw [hexpand]; rfl⟩
    · refine hsafe (List.mem_append_left _ (List.mem_append_right _ ?_))
      rw [if_pos henabled]
      exact List.mem_cons_self
    · exact hkept (List.mem_append_left _ (Option.mem_toList.mpr hm))
    · exact hkept (List.mem_append_right _ (List.mem_flatMap.mpr
        ⟨renderer, Option.mem_toList.mpr hm, hfolder⟩))
  have hinside : rerun.Inside (firstDesk listener tree chance) := ⟨hlistener, .refl _ hsound⟩
  have hleft := (hrepeats.stays hinside trivial hyields (.refl _)).1
  have hechoes : rerun.Echoes (firstDesk listener tree chance)
      (firstDesk listener after.tree chance') :=
    ⟨rfl, hlistener, hlistener, hinside.around, hleft.around, rfl, .refl _, .refl _,
      fun _ => Or.inr rfl⟩
  obtain ⟨after', hyields', htrees⟩ := hrepeats.again hechoes trivial hyields (.refl _)
  refine generate_eq_ok_iff.mpr ⟨after', hyields', ?_⟩
  -- everything that was written twice was written alike
  refine hleft.around.sound.ext htrees.trees.locations fun location => ?_
  exact (htrees.trees.entries location).elim id id

theorem Tree.plain_of_forall {base later : Tree} {location : Location} {segments : List Text}
    (h : ∀ segment ∈ segments, segment ≠ ['.', '.'] ∧ byteSize segment ≤ nameLimit) :
    base.Plain later location segments := by
  intro above segment below hsegments _ _
  refine h segment ?_
  rw [hsegments]
  exact List.mem_append_right _ List.mem_cons_self

section Usual

attribute [local instance] Platform.usual

theorem generate_idempotent_latin :
    ∃ result left, (generate latinSettings blankContext none latinTree).result = .ok result ∧
      (generate latinSettings blankContext none latinTree).tree = left ∧
      (generate latinSettings blankContext none left 1).result = .ok result ∧
      (generate latinSettings blankContext none left 1).tree = left := by
  obtain ⟨result, after, hyields, -, -⟩ := latin_generate
  have hrun := (generate_eq_ok_iff.mpr ⟨after, hyields, rfl⟩).1
  have hsound : latinTree.Sound := ⟨by decide +kernel, by decide +kernel⟩
  have hnamed : latinTree.Named := by
    unfold Tree.Named
    decide +kernel
  have hplain : ∀ path ∈ latinSettings.destinationFolder :: latinSettings.consulted blankContext,
      ∀ segment ∈ path.segments, segment ≠ ['.', '.'] ∧ byteSize segment ≤ nameLimit := by
    decide +kernel
  have hsettled : ∀ renderer ∈ latinSettings.ownRenderer blankContext,
      ∀ name ∈ rootPages ++ packagePages, renderer.Settled latinTree name := by
    intro renderer hm name _
    cases hm
    exact Template.Renderer.settled_of_interpreter rfl _ _
  obtain ⟨hagain, hsame⟩ := generate_idempotent rfl hsound hnamed rfl hrun (by decide +kernel)
    (fun path hm => Tree.plain_of_forall (hplain path hm)) hsettled
  exact ⟨result, _, hrun, rfl, hagain, hsame⟩

/-! ## 4. A root that is found by a new path -/

theorem clash_named : clash.tree.Named := by
  unfold Tree.Named
  decide +kernel

/-- Before the run one of its roots leads nowhere. The run makes the folder that it passes
through, and the next run finds the sources there first. -/
theorem clash_not_idempotent :
    ∃ result left, (generate clash.settings blankContext none clash.tree).result = .ok result ∧
      (generate clash.settings blankContext none clash.tree).tree = left ∧
      clash.tree.Sound ∧ clash.tree.Named ∧
      (∀ path ∈ clash.settings.consulted blankContext,
        Beside clash.settings.destinationFolder.resolved.segments path.resolved.segments) ∧
      (generate clash.settings blankContext none left).result ≠ .ok result := by
  obtain ⟨page, written, _, _, after, last, -, -, hrun, -, hlast, htree⟩ :=
    clash_goes.yields_generate
  obtain ⟨hresult, hleft⟩ := generate_eq_ok_iff.mpr ⟨after, hrun, rfl⟩
  refine ⟨_, after.tree, hresult, hleft, clash_sound, clash_named, by decide +kernel, ?_⟩
  have hprunes : (clash.last? [['.']]).map (fun last => (last.tree.prune
      (sourceEndings clash.settings.includes (clash.settings.catalog blankContext.catalog))
      clash.settings.sourceRoots).toOption) = some (some clash.settings.sourceRoots) := by
    decide +kernel
  rw [hlast, Option.map_some, ← htree] at hprunes
  have hprune := eq_ok_of_toOption (Option.some.inj hprunes)
  intro hagain
  obtain ⟨after', hrun', -⟩ := generate_eq_ok_iff.mp ⟨hagain, rfl⟩
  obtain ⟨candidates, hcandidates, hcases⟩ := Work.generate_sourceRoots hrun'
  have hsame : clash.settings.sourceRoots = candidates :=
    Except.ok.inj (hprune.symm.trans hcandidates)
  subst hsame
  obtain ⟨more, hmore⟩ := hcases
  exact absurd (List.cons.inj hmore).1 (by decide)

/-! ## 5. Templates that leave something to chance -/

/-- Templates whose pages show what chance has in store. -/
def diceTemplates : FlatRenderer where
  generation := baseGeneration
  folders := []
  engine := ⟨fun chance _ _ _ _ => .ok (Text.ofNat chance)⟩
  text? chance _ _ := some (Text.ofNat chance)
  render_eq htext _ := by
    cases htext
    rfl

/-- A run with such templates. -/
def dice : OneFile := { latin with templates := diceTemplates }

/-- The run on the tree that it leaves, when chance has something else in store. -/
def diceAgain : OneFile :=
  { dice with tree := ((dice.last? [['.']]).map Desk.tree).getD .empty, chance := 1 }

theorem dice_goes : dice.Goes latinTable [['.']] where
  prune := eq_ok_of_toOption (by decide +kernel)
  resolve := rfl
  paths := latin_scan
  reads := by decide +kernel
  api := rfl
  pages := by decide +kernel
  shows := by decide +kernel
  lists := by cbv
  copies := by decide +kernel
  sheet := rfl

theorem diceAgain_paths : diceAgain.marked.survey.sourcePaths diceAgain.marked.tree latinRoot =
    .ok ["A.java".toList] := by
  have hroot : diceAgain.marked.tree.locate latinRoot = .ok ["s".toList] :=
    eq_ok_of_toOption (by decide +kernel)
  refine Survey.sourcePaths_eq_ok_iff.mpr ⟨?_, latinRoot, _, rfl, hroot, by decide +kernel⟩
  have hbelow : diceAgain.marked.tree.pathsBelow ["s".toList] = ["A.java".toList] := by
    decide +kernel
  have hselects : (latinSettings.scanned blankContext Catalog.standard).selects "A.java" = true := by
    cbv
  refine Tree.scan_of_single rfl hroot (by decide +kernel) ?_
  rw [hbelow]
  exact List.filter_eq_self.mpr fun path hm => List.mem_singleton.mp hm ▸ hselects

theorem diceAgain_goes : diceAgain.Goes latinTable [['.']] where
  prune := eq_ok_of_toOption (by decide +kernel)
  resolve := rfl
  paths := diceAgain_paths
  reads := by decide +kernel
  api := rfl
  pages := by decide +kernel
  shows := by decide +kernel
  lists := by cbv
  copies := by decide +kernel
  sheet := rfl

/-- The run on the tree that it leaves succeeds, and writes other pages. -/
theorem dice_not_idempotent :
    ∃ result left result', (generate dice.settings dice.context none dice.tree).result =
          .ok result ∧
      (generate dice.settings dice.context none dice.tree).tree = left ∧
      (generate dice.settings dice.context none left 1).result = .ok result' ∧
      (generate dice.settings dice.context none left 1).tree ≠ left := by
  obtain ⟨_, _, _, _, after, last, -, -, hrun, -, hlast, htree⟩ := dice_goes.yields_generate
  obtain ⟨_, _, _, _, after', last', -, -, hrun', -, hlast', htree'⟩ :=
    diceAgain_goes.yields_generate
  have hstart : diceAgain.tree = after.tree := by
    show ((dice.last? [['.']]).map Desk.tree).getD .empty = _
    rw [hlast, htree]
    rfl
  obtain ⟨hresult, hleft⟩ := generate_eq_ok_iff.mpr ⟨after, hrun, rfl⟩
  change (Work.generate dice.settings dice.context).Yields (firstDesk none diceAgain.tree 1) _ _
    at hrun'
  rw [hstart] at hrun'
  obtain ⟨hresult', hleft'⟩ := generate_eq_ok_iff.mpr ⟨after', hrun', rfl⟩
  refine ⟨_, after.tree, _, hresult, hleft, hresult', ?_⟩
  have hother : (dice.last? [['.']]).map (·.tree.entries) ≠
      (diceAgain.last? [['.']]).map (·.tree.entries) := by decide +kernel
  rw [hlast, hlast', Option.map_some, Option.map_some] at hother
  rw [hleft', htree, htree']
  exact fun he => hother (congrArg (some ∘ Tree.entries) he.symm)

end Usual

end CodeAtlas
