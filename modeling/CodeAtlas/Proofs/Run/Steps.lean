/-
  File:      CodeAtlas/Proofs/Run/Steps.lean
  Subject:   What steps of a run do when they are put together.

  * `ExceptT.outcome`: what a step makes of a state, as a pair.
  * `Work.Yields`: from a desk, a step succeeds with a value and leaves a desk. There
    is one equivalence for each way of making a step, so that a run is taken apart
    without opening the monad.
  * `Work.Keeps`: a step leaves a view of the desk as it was, also when it fails. It
    goes through binding and through lists of steps.
  * `Work.keepsTable_transform`, … : the steps after reading keep the symbol table.
-/
import CodeAtlas.Run
import CodeAtlas.Proofs.Tree.Changes
import Mathlib

/-! ## 1. Outcomes -/

namespace ExceptT

variable {ε σ α β : Type}

/-- What a step makes of a state: its result, and the state it leaves. -/
def outcome (step : ExceptT ε (StateM σ) α) (state : σ) : Except ε α × σ := step.run state

theorem outcome_bind (step : ExceptT ε (StateM σ) α) (next : α → ExceptT ε (StateM σ) β)
    (state : σ) :
    (step >>= next).outcome state =
      match step.outcome state with
      | (.ok value, after) => (next value).outcome after
      | (.error fault, after) => (.error fault, after) := by
  have hbind : (step >>= next).outcome state =
      (match step.outcome state with
        | (result, after) => (ExceptT.bindCont next result) after) := rfl
  rw [hbind]
  rcases step.outcome state with ⟨_ | value, after⟩ <;> rfl

theorem outcome_pure (value : α) (state : σ) :
    (pure value : ExceptT ε (StateM σ) α).outcome state = (.ok value, state) := rfl

theorem outcome_get (state : σ) :
    (get : ExceptT ε (StateM σ) σ).outcome state = (.ok state, state) := rfl

theorem outcome_modify (change : σ → σ) (state : σ) :
    (modify change : ExceptT ε (StateM σ) PUnit).outcome state = (.ok (), change state) := rfl

end ExceptT

namespace CodeAtlas

open ExceptT (outcome_bind outcome_pure outcome_get outcome_modify)

/-! ## 2. Lists of steps -/

section Lists

variable {m : Type → Type} [Monad m] [LawfulMonad m] {α : Type}

theorem List.filterAuxM_eq (test : α → m Bool) (values kept : List α) :
    List.filterAuxM test values kept =
      (do let more ← List.filterAuxM test values []; pure (more ++ kept)) := by
  induction values generalizing kept with
  | nil => simp [List.filterAuxM]
  | cons value values ih =>
    simp only [List.filterAuxM, bind_assoc]
    refine bind_congr fun keep => ?_
    rw [ih]
    cases keep with
    | false => simp
    | true => simp [ih [value]]

theorem List.filterM_cons (test : α → m Bool) (value : α) (values : List α) :
    (value :: values).filterM test = (do
      let keep ← test value
      let rest ← values.filterM test
      pure (if keep then value :: rest else rest)) := by
  simp only [List.filterM, List.filterAuxM, bind_assoc]
  refine bind_congr fun keep => ?_
  rw [List.filterAuxM_eq]
  cases keep <;> simp

end Lists

namespace Work

variable {α β : Type}

/-! ## 3. Steps that succeed -/

theorem outcome_ofExcept (result : Except Failure α) (desk : Desk) :
    (ofExcept result).outcome desk = (result, desk) := by
  cases result <;> rfl

/-- From `desk`, a step succeeds with `value` and leaves `after`. -/
def Yields (step : Work α) (desk : Desk) (value : α) (after : Desk) : Prop :=
  step.outcome desk = (.ok value, after)

/-- The desk that a step leaves. -/
def left (step : Work α) (desk : Desk) : Desk := (step.outcome desk).2

theorem exists_yields {step : Work α} {desk : Desk} (h : (step.outcome desk).1.isOk) :
    ∃ value, step.Yields desk value (step.left desk) := by
  unfold Yields left
  rcases hout : step.outcome desk with ⟨failure | value, after⟩
  · rw [hout] at h
    cases h
  · exact ⟨value, rfl⟩

theorem yields_pure {value result : α} {desk after : Desk} :
    Yields (pure value) desk result after ↔ value = result ∧ desk = after := by
  unfold Yields
  rw [outcome_pure, Prod.mk.injEq, Except.ok.injEq]

theorem yields_bind {step : Work α} {next : α → Work β} {desk after : Desk} {result : β} :
    Yields (step >>= next) desk result after ↔
      ∃ value between, step.Yields desk value between ∧
        (next value).Yields between result after := by
  unfold Yields
  rw [outcome_bind]
  rcases step.outcome desk with ⟨failure | value, between⟩
  · simp
  · constructor
    · exact fun h => ⟨value, between, rfl, h⟩
    · rintro ⟨_, _, hstep, h⟩
      cases hstep
      exact h

theorem yields_get {desk after result : Desk} :
    Yields get desk result after ↔ desk = result ∧ desk = after := by
  unfold Yields
  rw [outcome_get, Prod.mk.injEq, Except.ok.injEq]

theorem yields_modify {change : Desk → Desk} {desk after : Desk} {result : Unit} :
    Yields (modify change) desk result after ↔ after = change desk := by
  unfold Yields
  rw [outcome_modify, Prod.mk.injEq]
  exact ⟨fun h => h.2.symm, fun h => ⟨rfl, h.symm⟩⟩

theorem yields_ofExcept {outcome : Except Failure α} {desk after : Desk} {result : α} :
    Yields (ofExcept outcome) desk result after ↔ outcome = .ok result ∧ desk = after := by
  unfold Yields
  rw [outcome_ofExcept, Prod.mk.injEq]

theorem yields_onSurvey {change : Survey → Survey} {desk after : Desk} {result : Unit} :
    Yields (onSurvey change) desk result after ↔
      after = { desk with survey := change desk.survey } := yields_modify

theorem yields_report {records : List Record} {desk after : Desk} {result : Unit} :
    Yields (report records) desk result after ↔
      after = { desk with
        log := desk.log ++ records
        tree := Listener.note desk.listener records desk.tree } := yields_modify

theorem yields_ask {question : Tree → Except FileFault α} {desk after : Desk} {result : α} :
    Yields (ask question) desk result after ↔ question desk.tree = .ok result ∧ desk = after := by
  unfold ask
  rw [yields_bind]
  constructor
  · rintro ⟨_, _, hget, hanswer⟩
    obtain ⟨rfl, rfl⟩ := yields_get.mp hget
    obtain ⟨hok, rfl⟩ := yields_ofExcept.mp hanswer
    cases hask : question desk.tree with
    | error fault => rw [hask] at hok; cases hok
    | ok value => rw [hask] at hok; cases hok; exact ⟨rfl, rfl⟩
  · rintro ⟨hok, rfl⟩
    refine ⟨desk, desk, yields_get.mpr ⟨rfl, rfl⟩, yields_ofExcept.mpr ⟨?_, rfl⟩⟩
    rw [hok]
    rfl

/-- A list of steps is carried out one after another. -/
theorem yields_filterM_cons {test : α → Work Bool} {value : α} {values result : List α}
    {desk after : Desk} :
    Yields ((value :: values).filterM test) desk result after ↔
      ∃ keep between rest, Yields (test value) desk keep between ∧
        Yields (values.filterM test) between rest after ∧
        result = if keep then value :: rest else rest := by
  rw [List.filterM_cons, yields_bind]
  simp only [yields_bind, yields_pure]
  constructor
  · rintro ⟨keep, between, htest, rest, _, hrest, rfl, rfl⟩
    exact ⟨keep, between, rest, htest, hrest, rfl⟩
  · rintro ⟨keep, between, rest, htest, hrest, rfl⟩
    exact ⟨keep, between, htest, rest, after, hrest, rfl, rfl⟩

/-! ## 4. Views that steps keep -/

variable {γ : Type} {view : Desk → γ}

/-- A step leaves a view of the desk as it was, also when it fails. -/
def Keeps (view : Desk → γ) (step : Work α) : Prop :=
  ∀ desk, view (step.outcome desk).2 = view desk

theorem Keeps.of_yields {step : Work α} (h : Keeps view step) {desk after : Desk} {value : α}
    (hstep : step.Yields desk value after) : view after = view desk := by
  have hdesk := h desk
  rw [hstep] at hdesk
  exact hdesk

theorem keeps_pure (value : α) : Keeps view (pure value) := fun _ => rfl

theorem keeps_throw (failure : Failure) : Keeps view (throw failure : Work α) := fun _ => rfl

theorem keeps_get : Keeps view get := fun _ => rfl

theorem keeps_modify {change : Desk → Desk} (h : ∀ desk, view (change desk) = view desk) :
    Keeps view (modify change) := h

theorem keeps_ofExcept (outcome : Except Failure α) : Keeps view (ofExcept outcome) := by
  intro desk
  rw [outcome_ofExcept]

theorem Keeps.bind {step : Work α} {next : α → Work β} (hstep : Keeps view step)
    (hnext : ∀ value, Keeps view (next value)) : Keeps view (step >>= next) := by
  intro desk
  have hfirst := hstep desk
  rw [outcome_bind]
  rcases hout : step.outcome desk with ⟨failure | value, between⟩
  · rw [hout] at hfirst
    exact hfirst
  · rw [hout] at hfirst
    exact (hnext value between).trans hfirst

theorem Keeps.mapM {step : α → Work β} (h : ∀ value, Keeps view (step value))
    (values : List α) : Keeps view (values.mapM step) := by
  induction values with
  | nil => exact keeps_pure []
  | cons value values ih =>
    rw [List.mapM_cons]
    exact (h value).bind fun _ => ih.bind fun _ => keeps_pure _

/-! ## 5. The symbol table after reading -/

/-- A step leaves the symbol table as it was. -/
abbrev KeepsTable (step : Work α) : Prop := Keeps (fun desk => desk.survey.table) step

theorem keepsTable_report (records : List Record) : KeepsTable (report records) :=
  keeps_modify fun _ => rfl

theorem keepsTable_announce (level : Level) (message : Text) :
    KeepsTable (announce level message) := keepsTable_report _

theorem keepsTable_ask (question : Tree → Except FileFault α) : KeepsTable (ask question) :=
  keeps_get.bind fun _ => keeps_ofExcept _

theorem keepsTable_onTree (change : Tree → Tree × Except Failure α) :
    KeepsTable (onTree change) := by
  refine keeps_get.bind fun desk => ?_
  split
  refine (keeps_modify ?_).bind fun _ => keeps_ofExcept _
  exact fun _ => rfl

theorem keepsTable_apiFolder (settings : Settings) : KeepsTable (apiFolder settings) := by
  unfold apiFolder
  split
  · exact keeps_pure none
  · split
    · refine (keepsTable_ask _).bind fun found => ?_
      split
      · exact keeps_pure _
      · exact (keepsTable_announce _ _).bind fun _ => keeps_pure _
    · exact (keepsTable_ask _).bind fun _ => keeps_pure _

variable [Platform]

theorem keepsTable_fetch (path : Path) : KeepsTable (fetch path) := by
  refine keeps_get.bind fun _ => (keepsTable_report _).bind fun _ => keeps_get.bind fun _ =>
    (keeps_ofExcept _).bind fun _ => ?_
  split
  refine (keeps_modify ?_).bind fun _ => keeps_pure _
  exact fun _ => rfl

theorem keepsTable_sourcePaths (root : Path) : KeepsTable (sourcePaths root) :=
  keeps_get.bind fun _ => keeps_ofExcept _

theorem keepsTable_transform (language : Language) (path target : Path) (options : PageOptions) :
    KeepsTable (transform language path target options) :=
  (keepsTable_fetch path).bind fun _ => keeps_get.bind fun _ => (keeps_ofExcept _).bind fun _ =>
    (keepsTable_report _).bind fun _ => (keeps_ofExcept _).bind fun _ =>
      (keepsTable_onTree _).bind fun _ => keeps_pure _

/-- Writes the pages of the files below a root, without a memory. -/
abbrev transformRoot (catalog : Catalog) (destination : Path) (options : PageOptions)
    (root : Path) : Work (List Path) :=
  (scribe catalog).transformRoot destination options root

theorem keepsTable_transformRoot (catalog : Catalog) (destination : Path) (options : PageOptions)
    (root : Path) : KeepsTable (transformRoot catalog destination options root) :=
  (keepsTable_sourcePaths root).bind fun paths =>
    Keeps.mapM (fun _ => keepsTable_transform _ _ _ _) paths

theorem keepsTable_selectRenderer (settings : Settings) (context : RunContext) :
    KeepsTable (selectRenderer settings context) := by
  unfold selectRenderer
  split
  · exact keeps_pure _
  · exact (keeps_ofExcept _).bind fun _ => (keepsTable_report _).bind fun _ =>
      (keepsTable_announce _ _).bind fun _ => (keeps_ofExcept _).bind fun _ =>
        (keepsTable_report _).bind fun _ => keeps_pure _

theorem keepsTable_writePage (renderer : Template.Renderer) (encoding : Text) (folder : Path)
    (scope : Template.Scope) (name : Text) :
    KeepsTable (writePage renderer encoding folder scope name) := by
  refine keeps_get.bind fun desk => ?_
  split
  · exact keeps_throw _
  · exact (keepsTable_onTree _).bind fun _ => (keepsTable_report _).bind fun _ => keeps_pure _

theorem keepsTable_writeNavigation (renderer : Template.Renderer) (root : Path)
    (options : NavigationOptions) : KeepsTable (writeNavigation renderer root options) :=
  keeps_get.bind fun _ => (Keeps.mapM (fun _ => keepsTable_writePage _ _ _ _ _) _).bind fun _ =>
    (Keeps.mapM (fun _ => Keeps.mapM (fun _ => keepsTable_writePage _ _ _ _ _) _) _).bind fun _ =>
      (keepsTable_report _).bind fun _ => keeps_pure _

theorem keepsTable_copyStylesheet (settings : Settings) (renderer : Template.Renderer)
    (destination : Path) : KeepsTable (copyStylesheet settings renderer destination) := by
  unfold copyStylesheet
  extract_lets target copy choose
  have hcopy (found : Option Path) : KeepsTable (copy found) := by
    unfold copy
    split
    · exact (keepsTable_announce _ _).bind fun _ => keeps_pure _
    · refine keeps_get.bind fun _ => ?_
      split
      refine (keeps_modify ?_).bind fun _ => ?_
      · exact fun _ => rfl
      · split
        · exact keeps_pure _
        · exact (keepsTable_announce _ _).bind fun _ => keeps_pure _
  have hchoose (own : Option Path) : KeepsTable (choose own) := by
    unfold choose
    split
    · exact (keeps_pure _).bind hcopy
    · exact (keepsTable_ask _).bind hcopy
  split
  · refine (keepsTable_ask _).bind fun found => ?_
    split
    · exact (keeps_pure _).bind hchoose
    · exact (keepsTable_announce _ _).bind fun _ => (keeps_pure _).bind hchoose
  · exact (keeps_pure _).bind hchoose

end Work

end CodeAtlas
