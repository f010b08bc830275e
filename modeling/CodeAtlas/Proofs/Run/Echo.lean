/-
  File:      CodeAtlas/Proofs/Run/Echo.lean
  Subject:   Steps that do the same when a run is repeated.

  A run is repeated on the tree that it leaves. Step by step the two runs are set side
  by side: they have the same survey, read the same beside the destination, and write
  the same below it. The trees differ. The first one grows, and the second one has all
  files from the start; what both have written is the same in both.

  * `Work.Growing`: a step takes nothing out of the tree.
  * `Rerun`: the tree before a run, the tree after it, and where it writes.
  * `Rerun.Inside`: a desk whose tree has grown at the destination only.
  * `Rerun.Echoes`: two desks at the same step of the run and of its repetition.
  * `Rerun.Repeats`: a step that succeeds in the run does the same in the repetition.
    There is one rule for each way of making a step.
  * `Rerun.repeats_look`: reading; `Rerun.repeats_publish`: writing.
-/
import CodeAtlas.Proofs.Run.Outputs
import CodeAtlas.Proofs.Template.Found

namespace CodeAtlas

/-! ## 1. Steps that take nothing away -/

namespace Work

variable {α β : Type}

/-- Nothing that is reported goes to a file, and the tree is sound. -/
structure Calm (desk : Desk) : Prop where
  quiet : Quiet desk
  sound : desk.tree.Sound

/-- A step that takes nothing out of the tree. -/
def Growing (step : Work α) : Prop :=
  ∀ desk value after, Calm desk → step.Yields desk value after →
    Calm after ∧ desk.tree.Grows after.tree

theorem growing_onSurvey (change : Survey → Survey) : Growing (onSurvey change) := by
  intro desk value after hdesk h
  obtain rfl := yields_onSurvey.mp h
  exact ⟨⟨hdesk.quiet, hdesk.sound⟩, .refl _⟩

theorem growing_report (records : List Record) : Growing (report records) := by
  intro desk value after hdesk h
  obtain rfl := yields_report.mp h
  have htree : Listener.note desk.listener records desk.tree = desk.tree :=
    note_of_noFile hdesk.quiet records desk.tree
  rw [htree]
  exact ⟨⟨hdesk.quiet, hdesk.sound⟩, .refl _⟩

theorem Growing.bind {step : Work α} {next : α → Work β} (hstep : Growing step)
    (hnext : ∀ value, Growing (next value)) : Growing (step >>= next) := by
  intro desk result after hdesk h
  obtain ⟨value, between, hfirst, hsecond⟩ := yields_bind.mp h
  obtain ⟨hbetween, hgrows⟩ := hstep _ _ _ hdesk hfirst
  obtain ⟨hafter, hgrows'⟩ := hnext value _ _ _ hbetween hsecond
  exact ⟨hafter, hgrows.trans hgrows'⟩

theorem growing_publish [Platform] (target : Path) (encoding page : Text) :
    Growing (onTree fun tree => tree.publish target encoding page) := by
  intro desk value after hdesk h
  obtain ⟨written, hpublish, rfl⟩ := yields_onTree.mp h
  obtain ⟨made, bytes, hmade, hwritable, rfl, -⟩ := Tree.publish_spec hdesk.sound hpublish
  exact ⟨⟨hdesk.quiet, hmade.sound.put_file hwritable bytes⟩,
    hmade.grows.trans (hwritable.grows_put bytes)⟩

end Work

open Work

/-! ## 2. A run and its repetition -/

/-- A run that is to be repeated: where it writes, the tree before it, and the tree after it.
Where the way to the destination passes through something new, it goes on down. -/
structure Rerun where
  destination : Path
  base : Tree
  final : Tree
  sound : base.Sound
  named : base.Named
  plain : base.Plain final [] destination.segments

namespace Rerun

/-- The location at which the run writes. -/
def zone (rerun : Rerun) : Location := Path.descend [] rerun.destination.segments

/-- A path that shows the same during the run and its repetition. -/
def Safe (rerun : Rerun) (path : Path) : Prop := path.Safe rerun.zone rerun.base rerun.final

/-- A path to a built-in file, or one that shows the same. -/
def Kept (rerun : Rerun) (path : Path) : Prop := path.Kept rerun.zone rerun.base rerun.final

/-- A path to a file below the destination, on a way of names. -/
def Below (rerun : Rerun) (path : Path) : Prop :=
  ∃ names name, ['.', '.'] ∉ names ∧ path.segments = rerun.destination.segments ++ names ++ [name]

/-- A desk of the run: its tree has grown at the destination only. -/
structure Inside (rerun : Rerun) (desk : Desk) : Prop where
  quiet : Quiet desk
  around : rerun.base.Around rerun.zone desk.tree

/-- The tree of the run, and that of its repetition, which has all files from the start. -/
structure Mirrors (rerun : Rerun) (tree other : Tree) : Prop where
  around : rerun.base.Around rerun.zone tree
  around' : rerun.base.Around rerun.zone other
  locations : other.locations = rerun.final.locations
  grown : rerun.final.Grows other
  grows : other.Grows rerun.final
  /-- What has not been written yet is as the run will leave it. -/
  entries : ∀ location, other.entryAt? location = tree.entryAt? location ∨
    other.entryAt? location = rerun.final.entryAt? location

/-- Two desks at the same step of the run and of its repetition. -/
structure Echoes (rerun : Rerun) (desk other : Desk) : Prop where
  survey : other.survey = desk.survey
  quiet : Quiet desk
  quiet' : Quiet other
  trees : rerun.Mirrors desk.tree other.tree

variable {rerun : Rerun} {desk other : Desk}

theorem Inside.calm (h : rerun.Inside desk) : Calm desk := ⟨h.quiet, h.around.sound⟩

theorem Echoes.inside (h : rerun.Echoes desk other) : rerun.Inside desk :=
  ⟨h.quiet, h.trees.around⟩

/-! ## 3. Steps that repeat -/

variable {α β : Type}

/-- A step that succeeds in the run succeeds in the repetition with the same value, and does the
same to the desk. It takes nothing out of the tree, so that the tree after it is one on the way to
the last. -/
structure Repeats (rerun : Rerun) (pre : Desk → Prop) (step : Work α) (post : α → Desk → Prop) :
    Prop where
  growing : Growing step
  stays : ∀ {desk value after}, rerun.Inside desk → pre desk → step.Yields desk value after →
    after.tree.Grows rerun.final → rerun.Inside after ∧ post value after
  again : ∀ {desk other value after}, rerun.Echoes desk other → pre desk →
    step.Yields desk value after → after.tree.Grows rerun.final →
      ∃ after', step.Yields other value after' ∧ rerun.Echoes after after'

variable {pre pre' : Desk → Prop} {step : Work α} {post post' : α → Desk → Prop}

theorem Repeats.mono (h : rerun.Repeats pre step post) (hpre : ∀ desk, pre' desk → pre desk)
    (hpost : ∀ value after, post value after → post' value after) :
    rerun.Repeats pre' step post' where
  growing := h.growing
  stays hinside hdesk hyields hfinal :=
    (h.stays hinside (hpre _ hdesk) hyields hfinal).imp_right (hpost _ _)
  again hechoes hdesk := h.again hechoes (hpre _ hdesk)

/-- What a step is known to do is known after it. -/
theorem Repeats.also (h : rerun.Repeats pre step post) {extra : α → Desk → Prop}
    (hextra : ∀ desk value after, Calm desk → pre desk → step.Yields desk value after →
      extra value after) :
    rerun.Repeats pre step fun value after => post value after ∧ extra value after where
  growing := h.growing
  stays hinside hdesk hyields hfinal :=
    (h.stays hinside hdesk hyields hfinal).imp_right fun hpost =>
      ⟨hpost, hextra _ _ _ hinside.calm hdesk hyields⟩
  again := h.again

/-- What has nothing to do with the desk stays known. -/
theorem Repeats.fact (h : rerun.Repeats pre step post) (fact : Prop) :
    rerun.Repeats (fun desk => fact ∧ pre desk) step
      fun value after => fact ∧ post value after where
  growing := h.growing
  stays hinside hdesk hyields hfinal :=
    (h.stays hinside hdesk.2 hyields hfinal).imp_right fun hpost => ⟨hdesk.1, hpost⟩
  again hechoes hdesk := h.again hechoes hdesk.2

/-- What a step keeps is known after it. -/
theorem Repeats.keeping {γ : Type} {view : Desk → γ} (h : rerun.Repeats pre step post)
    (hkeeps : Keeps view step) (kept : γ → Prop) :
    rerun.Repeats (fun desk => pre desk ∧ kept (view desk)) step
      fun value after => post value after ∧ kept (view after) := by
  refine (h.mono (fun _ hpre => hpre.1) fun _ _ hpost => hpost).also ?_
  intro desk value after _ hpre hyields
  rw [hkeeps.of_yields hyields]
  exact hpre.2

/-- A folder that is there stays there. -/
theorem Repeats.standing (h : rerun.Repeats pre step post) (folder : Path) :
    rerun.Repeats (fun desk => pre desk ∧ desk.tree.Made folder desk.tree) step
      fun value after => post value after ∧ after.tree.Made folder after.tree := by
  refine (h.mono (fun _ hpre => hpre.1) fun _ _ hpost => hpost).also ?_
  intro desk value after hcalm hpre hyields
  obtain ⟨hafter, hgrows⟩ := h.growing _ _ _ hcalm hyields
  exact hpre.2.of_grows hafter.sound hgrows

/-- A step that leaves the desk as it is. -/
theorem repeats_of_same (h : ∀ {desk value after}, step.Yields desk value after → desk = after)
    (hpost : ∀ {desk value}, rerun.Inside desk → pre desk → desk.tree.Grows rerun.final →
      step.Yields desk value desk → post value desk)
    (hagain : ∀ {desk other value}, rerun.Echoes desk other → pre desk →
      desk.tree.Grows rerun.final → step.Yields desk value desk →
        step.Yields other value other) :
    rerun.Repeats pre step post where
  growing desk value after hdesk hyields := by
    obtain rfl := h hyields
    exact ⟨hdesk, .refl _⟩
  stays hinside hdesk hyields hfinal := by
    obtain rfl := h hyields
    exact ⟨hinside, hpost hinside hdesk hfinal hyields⟩
  again hechoes hdesk hyields hfinal := by
    obtain rfl := h hyields
    exact ⟨_, hagain hechoes hdesk hfinal hyields, hechoes⟩

theorem repeats_pure (value : α) (h : ∀ desk, pre desk → post value desk) :
    rerun.Repeats pre (pure value) post := by
  refine repeats_of_same (fun hyields => (yields_pure.mp hyields).2) ?_ ?_
  · intro desk found _ hdesk _ hyields
    obtain ⟨rfl, -⟩ := yields_pure.mp hyields
    exact h desk hdesk
  · intro desk other found _ _ _ hyields
    obtain ⟨rfl, -⟩ := yields_pure.mp hyields
    exact yields_pure.mpr ⟨rfl, rfl⟩

theorem repeats_throw (failure : Failure) : rerun.Repeats pre (throw failure) post where
  growing _ _ _ _ h := nomatch h
  stays _ _ h := nomatch h
  again _ _ h := nomatch h

theorem repeats_ofExcept {result : Except Failure α}
    (h : ∀ desk value, pre desk → result = .ok value → post value desk) :
    rerun.Repeats pre (Work.ofExcept result) post := by
  refine repeats_of_same (fun hyields => (yields_ofExcept.mp hyields).2) ?_ ?_
  · exact fun _ hdesk _ hyields => h _ _ hdesk (yields_ofExcept.mp hyields).1
  · exact fun _ _ _ hyields => yields_ofExcept.mpr ⟨(yields_ofExcept.mp hyields).1, rfl⟩

theorem Repeats.bind {next : α → Work β} {post' : β → Desk → Prop}
    (hstep : rerun.Repeats pre step post)
    (hnext : ∀ value, rerun.Repeats (post value) (next value) post') :
    rerun.Repeats pre (step >>= next) post' where
  growing := hstep.growing.bind fun value => (hnext value).growing
  stays hinside hdesk hyields hfinal := by
    obtain ⟨value, between, hfirst, hsecond⟩ := yields_bind.mp hyields
    obtain ⟨hcalm, -⟩ := hstep.growing _ _ _ hinside.calm hfirst
    obtain ⟨-, hgrows⟩ := (hnext value).growing _ _ _ hcalm hsecond
    obtain ⟨hbetween, hvalue⟩ := hstep.stays hinside hdesk hfirst (hgrows.trans hfinal)
    exact (hnext value).stays hbetween hvalue hsecond hfinal
  again hechoes hdesk hyields hfinal := by
    obtain ⟨value, between, hfirst, hsecond⟩ := yields_bind.mp hyields
    obtain ⟨hcalm, -⟩ := hstep.growing _ _ _ hechoes.inside.calm hfirst
    obtain ⟨-, hgrows⟩ := (hnext value).growing _ _ _ hcalm hsecond
    obtain ⟨-, hvalue⟩ := hstep.stays hechoes.inside hdesk hfirst (hgrows.trans hfinal)
    obtain ⟨between', hfirst', hbetween⟩ := hstep.again hechoes hdesk hfirst (hgrows.trans hfinal)
    obtain ⟨after', hsecond', hafter⟩ := (hnext value).again hbetween hvalue hsecond hfinal
    exact ⟨after', yields_bind.mpr ⟨value, between', hfirst', hsecond'⟩, hafter⟩

/-- A list of steps. -/
theorem Repeats.mapM {step : α → Work β} {values : List α} (good : α → Prop)
    (hgood : ∀ desk, pre desk → ∀ value ∈ values, good value)
    (h : ∀ value ∈ values, rerun.Repeats (fun _ => good value) (step value) fun _ _ => True) :
    rerun.Repeats pre (values.mapM step) fun _ _ => True := by
  induction values generalizing pre with
  | nil => exact repeats_pure [] fun _ _ => trivial
  | cons value values ih =>
    obtain ⟨hvalue, hvalues⟩ := List.forall_mem_cons.mp h
    rw [List.mapM_cons]
    have hfirst : rerun.Repeats pre (step value) fun _ _ => ∀ other ∈ values, good other := by
      refine (hvalue.fact (∀ other ∈ values, good other)).mono (fun desk hdesk => ?_)
        fun _ _ hpost => hpost.1
      exact (List.forall_mem_cons.mp (hgood desk hdesk)).symm
    refine hfirst.bind fun _ => (ih (fun _ hrest => hrest) hvalues).bind fun _ => ?_
    exact repeats_pure _ fun _ _ => trivial

/-- A list of tests. -/
theorem Repeats.filterM {test : α → Work Bool} {values : List α} (good chosen : α → Prop)
    (hgood : ∀ desk, pre desk → ∀ value ∈ values, good value)
    (h : ∀ value, rerun.Repeats (fun _ => good value) (test value)
      fun keep _ => keep = true → chosen value) :
    rerun.Repeats pre (values.filterM test) fun kept _ => ∀ value ∈ kept, chosen value := by
  induction values generalizing pre with
  | nil => exact repeats_pure [] fun _ _ _ hm => absurd hm List.not_mem_nil
  | cons value values ih =>
    rw [List.filterM_cons]
    have hfirst : rerun.Repeats pre (test value)
        fun keep _ => (keep = true → chosen value) ∧ ∀ other ∈ values, good other := by
      refine ((h value).fact (∀ other ∈ values, good other)).mono (fun desk hdesk => ?_)
        fun _ _ hpost => hpost.symm
      exact (List.forall_mem_cons.mp (hgood desk hdesk)).symm
    refine hfirst.bind fun keep => ?_
    refine ((ih fun _ hrest => hrest).fact (keep = true → chosen value)).bind fun rest => ?_
    refine repeats_pure _ fun _ hpost => ?_
    cases keep with
    | false => exact hpost.2
    | true => exact List.forall_mem_cons.mpr ⟨hpost.1 rfl, hpost.2⟩

/-! ## 4. Reports, the survey, and looking -/

/-- Reports change nothing that matters, whatever they say. -/
theorem Echoes.report (h : rerun.Echoes desk other) {records : List Record} {after : Desk}
    {result : Unit} (hyields : (Work.report records).Yields desk result after)
    (records' : List Record) :
    ∃ after', (Work.report records').Yields other result after' ∧ rerun.Echoes after after' := by
  obtain rfl := yields_report.mp hyields
  have htree : Listener.note desk.listener records desk.tree = desk.tree :=
    note_of_noFile h.quiet records desk.tree
  have htree' : Listener.note other.listener records' other.tree = other.tree :=
    note_of_noFile h.quiet' records' other.tree
  refine ⟨_, yields_report.mpr rfl, h.survey, h.quiet, h.quiet', ?_⟩
  rw [htree, htree']
  exact h.trees

theorem repeats_report {fact : Prop} (records : List Record) (h : ∀ desk, pre desk → fact) :
    rerun.Repeats pre (report records) fun _ _ => fact where
  growing := growing_report records
  stays {desk} _ _ hinside hdesk hyields _ := by
    obtain rfl := yields_report.mp hyields
    have htree : Listener.note desk.listener records desk.tree = desk.tree :=
      note_of_noFile hinside.quiet records desk.tree
    rw [htree]
    exact ⟨⟨hinside.quiet, hinside.around⟩, h desk hdesk⟩
  again hechoes _ hyields _ := hechoes.report hyields records

theorem repeats_onSurvey {fact : Prop} (change : Survey → Survey) (h : ∀ desk, pre desk → fact) :
    rerun.Repeats pre (onSurvey change) fun _ _ => fact where
  growing := growing_onSurvey change
  stays {desk} _ _ hinside hdesk hyields _ := by
    obtain rfl := yields_onSurvey.mp hyields
    exact ⟨⟨hinside.quiet, hinside.around⟩, h desk hdesk⟩
  again hechoes _ hyields _ := by
    obtain rfl := yields_onSurvey.mp hyields
    exact ⟨_, yields_onSurvey.mpr rfl, congrArg change hechoes.survey, hechoes.quiet,
      hechoes.quiet', hechoes.trees⟩

/-- What is looked at is the same in the run and in its repetition, and it is as `seen` says. -/
structure Shows (rerun : Rerun) (pre : Desk → Prop) (look : Desk → Except Failure α)
    (seen : α → Prop) : Prop where
  seen : ∀ {desk value}, rerun.Inside desk → pre desk → desk.tree.Grows rerun.final →
    look desk = .ok value → seen value
  again : ∀ {desk other value}, rerun.Echoes desk other → pre desk →
    desk.tree.Grows rerun.final → look desk = .ok value → look other = .ok value

/-- **Looking.** The step after it may use what was seen, and the survey. -/
theorem repeats_look {look : Desk → Except Failure α} {seen : α → Prop} {post : β → Desk → Prop}
    (next : Survey → α → Work β) (hlook : rerun.Shows pre look seen)
    (hnext : ∀ survey value, rerun.Repeats
      (fun desk => seen value ∧ pre desk ∧ desk.survey = survey) (next survey value) post) :
    rerun.Repeats pre (do let desk ← get; Work.ofExcept (look desk) >>= next desk.survey) post := by
  have hparts {desk after : Desk} {result : β} :
      (do let desk ← get; Work.ofExcept (look desk) >>= next desk.survey : Work β).Yields desk
          result after ↔
        ∃ value, look desk = .ok value ∧ (next desk.survey value).Yields desk result after := by
    simp only [yields_bind, yields_get, yields_ofExcept]
    constructor
    · intro h
      obtain ⟨_, _, ⟨rfl, rfl⟩, value, _, ⟨hvalue, rfl⟩, hyields⟩ := h
      exact ⟨value, hvalue, hyields⟩
    · intro h
      obtain ⟨value, hvalue, hyields⟩ := h
      exact ⟨desk, desk, ⟨rfl, rfl⟩, value, desk, ⟨hvalue, rfl⟩, hyields⟩
  constructor
  · intro desk result after hdesk hyields
    obtain ⟨value, -, hyields⟩ := hparts.mp hyields
    exact (hnext _ value).growing _ _ _ hdesk hyields
  · intro desk result after hinside hdesk hyields hfinal
    obtain ⟨value, hvalue, hyields⟩ := hparts.mp hyields
    obtain ⟨-, hgrows⟩ := (hnext _ value).growing _ _ _ hinside.calm hyields
    have hseen := hlook.seen hinside hdesk (hgrows.trans hfinal) hvalue
    exact (hnext _ value).stays hinside ⟨hseen, hdesk, rfl⟩ hyields hfinal
  · intro desk other result after hechoes hdesk hyields hfinal
    obtain ⟨value, hvalue, hyields⟩ := hparts.mp hyields
    obtain ⟨-, hgrows⟩ := (hnext _ value).growing _ _ _ hechoes.inside.calm hyields
    have hseen := hlook.seen hechoes.inside hdesk (hgrows.trans hfinal) hvalue
    obtain ⟨after', hyields', hafter⟩ :=
      (hnext _ value).again hechoes ⟨hseen, hdesk, rfl⟩ hyields hfinal
    refine ⟨after', hparts.mpr ⟨value, ?_, ?_⟩, hafter⟩
    · exact hlook.again hechoes hdesk (hgrows.trans hfinal) hvalue
    · rw [hechoes.survey]
      exact hyields'

/-- The next step may use the survey. -/
theorem repeats_survey (next : Survey → Work β) {post : β → Desk → Prop}
    (h : ∀ survey, rerun.Repeats (fun desk => pre desk ∧ desk.survey = survey) (next survey) post) :
    rerun.Repeats pre (do let desk ← get; next desk.survey) post := by
  have hnothing : rerun.Shows pre (fun _ => .ok ()) fun _ => True :=
    ⟨fun _ _ _ _ => trivial, fun _ _ _ hvalue => hvalue⟩
  exact repeats_look (fun survey _ => next survey) hnothing fun survey _ =>
    (h survey).mono (fun _ hpre => hpre.2) fun _ _ hpost => hpost

/-- A question about the tree. -/
theorem repeats_ask {question : Tree → Except FileFault α}
    (h : ∀ {tree}, rerun.base.Around rerun.zone tree → tree.Grows rerun.final →
      question tree = question rerun.base) :
    rerun.Repeats pre (ask question) fun value after =>
      pre after ∧ question rerun.base = .ok value := by
  refine repeats_of_same (fun hyields => (yields_ask.mp hyields).2) ?_ ?_
  · intro desk value hinside hdesk hfinal hyields
    rw [← h hinside.around hfinal]
    exact ⟨hdesk, (yields_ask.mp hyields).1⟩
  · intro desk other value hechoes _ hfinal hyields
    refine yields_ask.mpr ⟨?_, rfl⟩
    rw [h hechoes.trees.around' hechoes.trees.grows, ← h hechoes.trees.around hfinal]
    exact (yields_ask.mp hyields).1

/-! ## 5. Writing -/

/-- A file that the last tree has may be put into every tree that grows into it. -/
theorem grows_put_of_kindAt? {tree last : Tree} {location : Location} (hne : location ≠ [])
    (hfile : last.kindAt? location = some true) (h : tree.Grows last) (bytes : Bytes) :
    (tree.put location (.file bytes)).Grows last := by
  intro place kind hkind
  unfold Tree.kindAt? at hkind
  rw [Tree.entryAt?_put tree hne] at hkind
  split at hkind
  · rename_i he
    cases hkind
    rw [he]
    exact hfile
  · exact h place kind hkind

/-- A folder that is new in the first tree is in the other one from the start. -/
theorem Mirrors.entries_made {tree other made : Tree} (h : rerun.Mirrors tree other) {path : Path}
    (hmade : tree.Made path made) (hgrows : made.Grows other) (location : Location) :
    other.entryAt? location = made.entryAt? location ∨
      other.entryAt? location = rerun.final.entryAt? location := by
  refine (h.entries location).imp_left fun hsame => ?_
  rw [hsame]
  cases hentry : tree.entryAt? location with
  | some entry => exact (hmade.entryAt?_of_some hentry).symm
  | none =>
    cases hnew : made.entryAt? location with
    | none => rfl
    | some entry =>
      have hkind := hgrows location _ (congrArg (Option.map Tree.Entry.isFile) hnew)
      rw [Tree.kindAt?_eq_none.mpr (hsame.trans hentry)] at hkind
      cases hkind

variable [Platform]

/-- **A file that is written, with the folders above it.** -/
theorem Mirrors.written {tree other made : Tree} (h : rerun.Mirrors tree other) {path : Path}
    (hbelow : rerun.Below path) (hmade : tree.Made path.parent made)
    (hwritable : made.Writable path) (bytes : Bytes)
    (hfinal : (made.put (Path.descend [] path.segments) (.file bytes)).Grows rerun.final) :
    other.makeFolders path.parent = (other, .ok ()) ∧
      other.write path bytes = .ok (other.put (Path.descend [] path.segments) (.file bytes)) ∧
      rerun.Mirrors (made.put (Path.descend [] path.segments) (.file bytes))
        (other.put (Path.descend [] path.segments) (.file bytes)) := by
  obtain ⟨names, name, hnames, hpath⟩ := hbelow
  have hgrown := hfinal.trans h.grown
  have hmadeGrows := (hwritable.grows_put bytes).trans hgrown
  have hfolders := hmade.again h.around'.sound hmadeGrows
  have hwrite := Tree.write_again hwritable bytes h.around'.sound hgrown
  have hmade' := Tree.made_of_makeFolders h.around'.sound hfolders
  have hwritable' := ((Tree.write_eq_ok_iff h.around'.sound).mp hwrite).1
  have hne := hwritable.descend_eq.1
  have hfile : rerun.final.kindAt? (Path.descend [] path.segments) = some true := by
    refine hfinal _ true ?_
    unfold Tree.kindAt?
    rw [Tree.entryAt?_put made hne, if_pos rfl]
    rfl
  have hgrows' := grows_put_of_kindAt? hne hfile h.grows bytes
  have hthere : Path.descend [] path.segments ∈ other.locations := by
    rw [h.locations, Tree.mem_locations_iff hne]
    intro hnone
    rw [Tree.kindAt?_eq_none.mpr hnone] at hfile
    cases hfile
  refine ⟨hfolders, hwrite, ?_, ?_, ?_, h.grown.trans (hwritable'.grows_put bytes), hgrows',
    fun place => ?_⟩
  · exact h.around.written rerun.sound rerun.plain hnames hpath hmade hwritable bytes hfinal
  · exact h.around'.written rerun.sound rerun.plain hnames hpath hmade' hwritable' bytes hgrows'
  · rw [Tree.locations_put, if_pos hthere, h.locations]
  · rw [Tree.entryAt?_put other hne, Tree.entryAt?_put made hne]
    by_cases he : place = Path.descend [] path.segments
    · rw [if_pos he, if_pos he]
      exact Or.inl rfl
    · rw [if_neg he, if_neg he]
      exact h.entries_made hmade hmadeGrows place

/-- **Writing a page.** After it the folder of the page is there. -/
theorem repeats_publish (target : Path) (encoding page : Text) :
    rerun.Repeats (fun _ => rerun.Below target)
      (onTree fun tree => tree.publish target encoding page)
      fun _ after => after.tree.Made target.parent after.tree where
  growing := growing_publish target encoding page
  stays hinside hbelow hyields hfinal := by
    obtain ⟨written, hpublish, rfl⟩ := yields_onTree.mp hyields
    obtain ⟨made, bytes, hmade, hwritable, rfl, -⟩ :=
      Tree.publish_spec hinside.around.sound hpublish
    obtain ⟨names, name, hnames, hpath⟩ := hbelow
    have haround := hinside.around.written rerun.sound rerun.plain hnames hpath hmade hwritable
      bytes hfinal
    exact ⟨⟨hinside.quiet, haround⟩, hmade.of_grows haround.sound (hwritable.grows_put bytes)⟩
  again {desk other} _ _ hechoes hbelow hyields hfinal := by
    obtain ⟨written, hpublish, rfl⟩ := yields_onTree.mp hyields
    obtain ⟨made, bytes, hmade, hwritable, rfl, hlater⟩ :=
      Tree.publish_spec hechoes.trees.around.sound hpublish
    obtain ⟨-, -, hmirrors⟩ := hechoes.trees.written hbelow hmade hwritable bytes hfinal
    have hpublish' := hlater other.tree hechoes.trees.around'.sound
      (hfinal.trans hechoes.trees.grown)
    exact ⟨_, yields_onTree.mpr ⟨_, hpublish', rfl⟩, hechoes.survey, hechoes.quiet,
      hechoes.quiet', hmirrors⟩

end Rerun

end CodeAtlas
