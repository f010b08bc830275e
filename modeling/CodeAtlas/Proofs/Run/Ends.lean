/-
  File:      CodeAtlas/Proofs/Run/Ends.lean
  Subject:   How steps of a run end.

  * `Onward`: what every step keeps of a desk. The names in its tree are only added to,
    by fit ones, and a survey in the default encoding stays one.
  * `Ends`: where a step that begins at a desk fails for a cause that a run does not
    report as its own, that cause `passes`, given the desk that is left.
  * One rule for each way of making a step: `Ends.bind`, `ends_get`, `ends_ofExcept`,
    `ends_onTree`, `ends_mapM` and others.
-/
import CodeAtlas.Proofs.Run.Failing
import CodeAtlas.Proofs.Tree.Shown

namespace CodeAtlas

namespace Work

open ExceptT (outcome_bind outcome_get)

variable {α β : Type} {passes : Failure → Desk → Prop} {desk : Desk}

/-! ## 1. How steps end -/

/-- A desk that a run may work on. -/
structure Ready (desk : Desk) : Prop where
  shown : desk.tree.Shown
  encoding : desk.survey.cache.encoding = none

/-- A desk that steps leave. -/
structure Onward (desk after : Desk) : Prop where
  tree : desk.tree.Extends after.tree
  encoding : desk.survey.cache.encoding = none → after.survey.cache.encoding = none

theorem Onward.refl (desk : Desk) : Onward desk desk := ⟨.refl desk.tree, id⟩

theorem Onward.trans {between after : Desk} (h : Onward desk between) (h' : Onward between after) :
    Onward desk after := ⟨h.tree.trans h'.tree, fun hnone => h'.encoding (h.encoding hnone)⟩

theorem Onward.ready {after : Desk} (h : Onward desk after) (hready : Ready desk) : Ready after :=
  ⟨h.tree.shown hready.shown, h.encoding hready.encoding⟩

/-- From `desk`, a step goes on to a desk with a value, of which `post` holds; or it fails for a
cause that a run reports as its own, or for one that `passes`. -/
structure Ends (passes : Failure → Desk → Prop) (desk : Desk) (step : Work α)
    (post : α → Desk → Prop) : Prop where
  yields : ∀ value after, step.Yields desk value after → Onward desk after ∧ post value after
  fails : ∀ failure after, step.Fails desk failure after → failure.isContained = false →
    passes failure after

/-! ## 2. Rules -/

theorem ends_pure {post : α → Desk → Prop} {value : α} (h : post value desk) :
    Ends passes desk (pure value) post where
  yields result after hstep := by
    obtain ⟨rfl, rfl⟩ := yields_pure.mp hstep
    exact ⟨.refl desk, h⟩
  fails _ _ hstep := absurd hstep not_fails_pure

theorem ends_value (value : α) : Ends passes desk (pure value) fun _ _ => True := ends_pure trivial

theorem ends_throw {post : α → Desk → Prop} {failure : Failure}
    (h : failure.isContained = false → passes failure desk) :
    Ends passes desk (throw failure) post where
  yields _ _ hstep := nomatch hstep
  fails other after hstep hown := by
    cases hstep
    exact h hown

theorem Ends.imp {step : Work α} {post weaker : α → Desk → Prop} (h : Ends passes desk step post)
    (hpost : ∀ value after, post value after → weaker value after) :
    Ends passes desk step weaker where
  yields value after hstep := (h.yields value after hstep).imp_right (hpost value after)
  fails := h.fails

theorem Ends.bind {step : Work α} {next : α → Work β} {middle : α → Desk → Prop}
    {post : β → Desk → Prop} (h : Ends passes desk step middle)
    (hnext : ∀ value after, Onward desk after → middle value after →
      Ends passes after (next value) post) : Ends passes desk (step >>= next) post where
  yields result after hstep := by
    obtain ⟨value, between, hfirst, hrest⟩ := yields_bind.mp hstep
    obtain ⟨honward, hvalue⟩ := h.yields value between hfirst
    obtain ⟨hlater, hresult⟩ := (hnext value between honward hvalue).yields result after hrest
    exact ⟨honward.trans hlater, hresult⟩
  fails failure after hstep hown := by
    rcases fails_bind.mp hstep with hfirst | ⟨value, between, hfirst, hrest⟩
    · exact h.fails failure after hfirst hown
    · obtain ⟨honward, hvalue⟩ := h.yields value between hfirst
      exact (hnext value between honward hvalue).fails failure after hrest hown

/-- A step that looks at the desk first. -/
theorem ends_get {next : Desk → Work α} {post : α → Desk → Prop}
    (h : Ends passes desk (next desk) post) : Ends passes desk (get >>= next) post := by
  have houtcome : (get >>= next).outcome desk = (next desk).outcome desk := by
    rw [outcome_bind, outcome_get]
  constructor
  · intro value after hstep
    exact h.yields value after (houtcome.symm.trans hstep)
  · intro failure after hstep
    exact h.fails failure after (houtcome.symm.trans hstep)

theorem ends_modify {change : Desk → Desk} (h : Onward desk (change desk)) :
    Ends passes desk (modify change) fun _ after => after = change desk where
  yields _ after hstep := by
    rw [yields_modify.mp hstep]
    exact ⟨h, rfl⟩
  fails _ _ hstep := absurd hstep not_fails_modify

theorem ends_ofExcept {result : Except Failure α} {post : α → Desk → Prop}
    (hok : ∀ value, result = .ok value → post value desk)
    (herror : ∀ failure, result = .error failure → failure.isContained = false →
      passes failure desk) : Ends passes desk (ofExcept result) post where
  yields value after hstep := by
    obtain ⟨hvalue, rfl⟩ := yields_ofExcept.mp hstep
    exact ⟨.refl desk, hok value hvalue⟩
  fails failure after hstep hown := by
    obtain ⟨hfailure, rfl⟩ := fails_ofExcept.mp hstep
    exact herror failure hfailure hown

theorem ends_report (records : List Record) : Ends passes desk (report records) fun _ after =>
    after.tree = Listener.note after.listener records desk.tree := by
  refine (ends_modify ⟨Tree.extends_note _ _ _, id⟩).imp fun _ after hafter => ?_
  rw [hafter]

theorem ends_announce (level : Level) (message : Text) :
    Ends passes desk (announce level message) fun _ _ => True :=
  (ends_report _).imp fun _ _ _ => trivial

theorem ends_ask {question : Tree → Except FileFault α} {post : α → Desk → Prop}
    (hok : ∀ value, question desk.tree = .ok value → post value desk)
    (herror : ∀ fault, question desk.tree = .error fault → fault.isOfSystem = false →
      passes (.file fault) desk) : Ends passes desk (ask question) post := by
  refine ends_get (ends_ofExcept (fun value hvalue => ?_) fun failure hfailure hown => ?_)
  · cases hasked : question desk.tree with
    | error fault =>
      rw [hasked] at hvalue
      cases hvalue
    | ok found =>
      rw [hasked] at hvalue
      cases hvalue
      exact hok value hasked
  · cases hasked : question desk.tree with
    | error fault =>
      rw [hasked] at hfailure
      cases hfailure
      exact herror fault hasked hown
    | ok found =>
      rw [hasked] at hfailure
      cases hfailure

/-- A question that only the operating system can leave without an answer. -/
theorem ends_ask_of_isOfSystem {question : Tree → Except FileFault α}
    (herror : ∀ fault, question desk.tree = .error fault → fault.isOfSystem = true) :
    Ends passes desk (ask question) fun _ _ => True := by
  refine ends_ask (fun _ _ => trivial) fun fault hfault hown => ?_
  rw [herror fault hfault] at hown
  cases hown

theorem ends_onTree {change : Tree → Tree × Except Failure α}
    (hextends : desk.tree.Extends (change desk.tree).1)
    (herror : ∀ made failure, change desk.tree = (made, .error failure) →
      failure.isContained = false → passes failure { desk with tree := made }) :
    Ends passes desk (onTree change) fun _ _ => True := by
  refine ends_get ((ends_modify ⟨hextends, id⟩).bind fun _ after _ hafter => ?_)
  subst hafter
  exact ends_ofExcept (fun _ _ => trivial) fun failure hfailure =>
    herror _ failure (Prod.ext rfl hfailure)

theorem ends_mapM {step : α → Work β} {values : List α} {holds : Desk → Prop} (hdesk : holds desk)
    (h : ∀ value ∈ values, ∀ later, Onward desk later → holds later →
      Ends passes later (step value) fun _ after => holds after) :
    Ends passes desk (values.mapM step) fun _ after => holds after := by
  induction values generalizing desk with
  | nil => exact ends_pure hdesk
  | cons value values ih =>
    rw [List.mapM_cons]
    refine (h value List.mem_cons_self desk (.refl desk) hdesk).bind fun _ after hafter hholds => ?_
    refine (ih hholds fun other hm later hlater => ?_).bind fun _ _ _ hlast => ends_pure hlast
    exact h other (List.mem_cons_of_mem value hm) later (hafter.trans hlater)

theorem ends_filterM {test : α → Work Bool} {values : List α}
    (h : ∀ value ∈ values, ∀ later, Onward desk later →
      Ends passes later (test value) fun _ _ => True) :
    Ends passes desk (values.filterM test) fun kept _ => ∀ value ∈ kept, value ∈ values := by
  induction values generalizing desk with
  | nil => exact ends_pure fun _ hm => hm
  | cons value values ih =>
    rw [List.filterM_cons]
    refine (h value List.mem_cons_self desk (.refl desk)).bind fun keep after hafter _ => ?_
    refine (ih fun other hm later hlater => ?_).bind fun rest _ _ hrest =>
      ends_pure fun other hm => ?_
    · exact h other (List.mem_cons_of_mem value hm) later (hafter.trans hlater)
    · split at hm
      · rcases List.mem_cons.mp hm with rfl | hm
        · exact List.mem_cons_self
        · exact List.mem_cons_of_mem value (hrest other hm)
      · exact List.mem_cons_of_mem value (hrest other hm)

/-- A step that keeps a view of the desk. -/
theorem Ends.of_keeps {γ : Type} {view : Desk → γ} {step : Work α} {post : α → Desk → Prop}
    (h : Ends passes desk step post) (hkeeps : Keeps view step) :
    Ends passes desk step fun _ after => view after = view desk where
  yields value after hstep := ⟨(h.yields value after hstep).1, hkeeps.of_yields hstep⟩
  fails := h.fails

end Work

end CodeAtlas
