import WorkflowChart.Proofs.History.Scan
import WorkflowChart.Proofs.History.Walks
import WorkflowChart.Proofs.Log.Recording

/-!
# The constructs of a recorded run

In the log of a run, the event that completes a visit is resolved to the entry and the exit of this
visit. The way back crosses all that was run within the visit, so nothing of the kind that is looked
for may lie there.

* **`History.entryBehind`**: the nearest entry of a kind behind the end of a log.
* **`History.entryBehindCases`**: recording keeps it, if no step is of the kind.
* **`History.resolve_of_completion`**: a completion is resolved to its own visit.
-/

namespace WorkflowChart

namespace Step

/-- The entry into the state of a step that is recorded next. -/
def start (builder : LogBuilder) (step : Step) : Entered :=
  ⟨builder.entryEvent step.category step.visit, step.category,
    { name := step.visit.name, input := some step.visit.input.text }⟩

/-- The exit from the state of a step that is recorded next. -/
def stop (builder : LogBuilder) (step : Step) : Exited :=
  ⟨builder.exitEvent step.category step.visit, step.category,
    { name := step.visit.name, output := some step.visit.output.text }⟩

@[simp] theorem name_start (builder : LogBuilder) (step : Step) :
    (step.start builder).details.name = step.visit.name := rfl

/-- The completion of a visit belongs to its kind, or to none. -/
theorem fits_completion (step : Step) : fits step.completion.category step.category = true := by
  cases step <;> rfl

/-- What lies within a step and is of another kind does not fit the completion of the step. -/
theorem fits_completion_eq_false {step inner : Step} (hinner : inner ∈ allOfBodies step.bodies)
    (hcategory : inner.category ≠ step.category) :
    fits step.completion.category inner.category = false := by
  cases step with
  | task | pass | choice => exact absurd hinner List.not_mem_nil
  | map | parallel => exact decide_eq_false hcategory.symm

end Step

namespace History

variable (history : History)

/-- The nearest entry of a kind, from the event with an id on back. -/
def entryBehind (id? : Option EventId) (filter : Option Category) : Option Entered :=
  (id?.bind history.findById).bind (history.enteredAncestor? · filter)

variable {history} {builder : LogBuilder}

/-! ## The way back -/

/-- The way back from the next event leads on from the end of the log. -/
theorem enteredAncestor?_of_isNext {event : Event} (hnext : builder.IsNext event)
    (filter : Option Category) :
    history.enteredAncestor? event filter =
      (enteredOf filter event).or (history.entryBehind builder.cursor filter) := by
  rw [enteredAncestor?_step, before, hnext.previous_eq, entryBehind]

/-- Behind the event that has been pushed lies what lay behind the end of the log before. -/
theorem entryBehind_append (hnumbered : Numbered history.events) {event : Event}
    (hnext : builder.IsNext event)
    (hbegins : (builder.append event).events <+: history.events) (filter : Option Category) :
    history.entryBehind (builder.append event).cursor filter =
      (enteredOf filter event).or (history.entryBehind builder.cursor filter) := by
  have hget : history.events[builder.events.length]? = some event :=
    getElem?_of_isPrefix hbegins (builder.getElem?_append event)
  rw [LogBuilder.cursor_append, entryBehind, Option.bind_some, hnumbered.findById hget,
    Option.bind_some]
  exact enteredAncestor?_of_isNext hnext filter

/-- An entry is found if it is of the kind that is looked for. -/
theorem enteredOf_entryEvent (builder : LogBuilder) (step : Step) (filter : Option Category) :
    enteredOf filter (builder.entryEvent step.category step.visit) =
      if fits filter step.category then some (step.start builder) else none := by
  rw [enteredOf]
  exact Option.filter_some

/-- An exit does not change which entry lies behind. -/
theorem entryBehind_leave (hnumbered : Numbered history.events) {category : Category}
    {visit : Visit} (hbegins : (builder.leave category visit).events <+: history.events)
    (filter : Option Category) :
    history.entryBehind (builder.leave category visit).cursor filter =
      history.entryBehind builder.cursor filter := by
  rw [LogBuilder.leave_eq] at hbegins ⊢
  rw [entryBehind_append hnumbered (builder.isNext_exitEvent category visit) hbegins]
  rfl

/-- What is no entry is not found on the way back. -/
theorem enteredOf_eq_none_of_completion {event : Event} {step : Step}
    (htype : event.type = step.completion) (filter : Option Category) :
    enteredOf filter event = none := by
  have hentered : event.entered? = none := by
    unfold Event.entered?
    rw [htype]
    cases step <;> rfl
  rw [enteredOf, hentered]
  rfl

/-- The event of a success does not change which entry lies behind. -/
theorem entryBehind_succeed (hnumbered : Numbered history.events) {step : Step}
    (hbegins : (builder.succeed step.category step.visit).events <+: history.events)
    (filter : Option Category) :
    history.entryBehind (builder.succeed step.category step.visit).cursor filter =
      history.entryBehind builder.cursor filter := by
  rcases builder.succeed_cases step with ⟨event, hnext, htype, hsucceed, -⟩ | ⟨hsucceed, -⟩
  · rw [hsucceed] at hbegins ⊢
    rw [entryBehind_append hnumbered hnext hbegins, enteredOf_eq_none_of_completion htype,
      Option.none_or]
  · rw [hsucceed]

/-- Recording keeps the nearest entry of a kind, if no step is of the kind. A body begins where the
entry into the state around it is, and nothing of the kind lies between. -/
theorem entryBehindCases (hnumbered : Numbered history.events) (filter : Option Category) :
    Step.Cases
      (fun step => ∀ builder : LogBuilder, (step.record builder).events <+: history.events →
        (∀ inner ∈ step.all, fits filter inner.category = false) →
        history.entryBehind (step.record builder).cursor filter =
          history.entryBehind builder.cursor filter)
      (fun steps => ∀ builder : LogBuilder,
        (Step.recordSteps builder steps).events <+: history.events →
        (∀ inner ∈ Step.allOfSteps steps, fits filter inner.category = false) →
        history.entryBehind (Step.recordSteps builder steps).cursor filter =
          history.entryBehind builder.cursor filter)
      (fun bodies => ∀ (builder : LogBuilder) (k : Nat), k ≤ builder.events.length →
        (Step.recordBodies (.ofNat k) builder bodies).events <+: history.events →
        (∀ inner ∈ Step.allOfBodies bodies, fits filter inner.category = false) →
        history.entryBehind (some (.ofNat k)) filter = history.entryBehind builder.cursor filter →
        history.entryBehind (Step.recordBodies (.ofNat k) builder bodies).cursor filter =
          history.entryBehind builder.cursor filter) where
  step step hbodies := by
    intro builder hbegins hother
    rw [Step.all_eq, List.forall_mem_append, List.forall_mem_singleton] at hother
    rw [Step.record_eq] at hbegins ⊢
    have hsucceed := (LogBuilder.grows_leave _ _ _).begins.trans hbegins
    have hinside := (LogBuilder.grows_succeed _ _).begins.trans hsucceed
    have henter := (step.grows_inside builder).begins.trans hinside
    calc history.entryBehind _ filter
        = history.entryBehind (step.inside builder).cursor filter := by
          rw [entryBehind_leave hnumbered hbegins, entryBehind_succeed hnumbered hsucceed]
      _ = history.entryBehind (builder.enter step.category step.visit).cursor filter :=
          hbodies _ (builder.events.length + 1) (builder.succ_le_length_enter _ _) hinside
            hother.1 rfl
      _ = history.entryBehind builder.cursor filter := by
          rw [LogBuilder.enter_eq] at henter ⊢
          rw [entryBehind_append hnumbered (builder.isNext_entryEvent _ _) henter,
            enteredOf_entryEvent, hother.2]
          rfl
  noSteps builder _ _ := rfl
  addStep step rest hstep hrest := by
    intro builder hbegins hother
    rw [Step.allOfSteps, List.forall_mem_append] at hother
    rw [Step.recordSteps] at hbegins ⊢
    have hfirst := (Step.growsCases.steps_all rest _).begins.trans hbegins
    rw [hrest _ hbegins hother.2, hstep builder hfirst hother.1]
  noBodies builder _ _ _ _ _ := rfl
  addBody body rest hbody hrest := by
    intro builder k hk hbegins hother hfork
    rw [Step.allOfBodies, List.forall_mem_append] at hother
    rw [Step.recordBodies] at hbegins ⊢
    have hk' := Nat.le_trans hk (Step.grows_body hk body).length_le
    have hfirst := (Step.growsCases.bodies_all rest _ k hk').begins.trans hbegins
    -- the body starts from the fork, where the same entry is the nearest one
    have hkept : history.entryBehind (Step.recordSteps (builder.after (.ofNat k)) body).cursor
        filter = history.entryBehind (some (.ofNat k)) filter :=
      hbody (builder.after (.ofNat k)) hfirst hother.1
    rw [hrest _ k hk' hbegins hother.2 hkept.symm, hkept, hfork]

/-- **The entry of a completion**: on the way back from the event that completes a visit, the
nearest entry of its kind is the one of the visit. -/
theorem enteredAncestor?_of_completion (hnumbered : Numbered history.events) {step : Step}
    (hbegins : (step.inside builder).events <+: history.events)
    (hapart : step.Apart) {event : Event} (hnext : (step.inside builder).IsNext event)
    (htype : event.type = step.completion) :
    history.enteredAncestor? event step.completion.category = some (step.start builder) := by
  have henter := (step.grows_inside builder).begins.trans hbegins
  -- what is run within the step is of other kinds, so it hides nothing
  have hwithin : history.entryBehind (step.inside builder).cursor step.completion.category =
      history.entryBehind (builder.enter step.category step.visit).cursor
        step.completion.category :=
    (entryBehindCases hnumbered _).bodies_all step.bodies _ (builder.events.length + 1)
      (builder.succ_le_length_enter _ _) hbegins
      (fun inner hinner => Step.fits_completion_eq_false hinner (hapart inner hinner)) rfl
  rw [LogBuilder.enter_eq] at henter hwithin
  rw [enteredAncestor?_of_isNext hnext, enteredOf_eq_none_of_completion htype, Option.none_or,
    hwithin, entryBehind_append hnumbered (builder.isNext_entryEvent _ _) henter,
    enteredOf_entryEvent, step.fits_completion]
  rfl

/-! ## The way forward -/

/-- What is no exit is not found on the way forward. -/
theorem exitedOf_eq_none_of_success {event : Event}
    (htype : event.type = .lambdaSucceeded ∨ event.type = .parallelSucceeded)
    (filter : Option Category) : exitedOf filter event = none := by
  have hexited : event.exited? = none := by
    unfold Event.exited?
    rcases htype with h | h <;> rw [h]
  rw [exitedOf, hexited]
  rfl

/-- An exit is found if it is of the kind that is looked for. -/
theorem exitedOf_exitEvent (builder : LogBuilder) (step : Step) (filter : Option Category) :
    exitedOf filter (builder.exitEvent step.category step.visit) =
      if fits filter step.category then some (step.stop builder) else none := by
  rw [exitedOf]
  exact Option.filter_some

/-- The exit that follows right after a success is the first one on the way forward from it. -/
theorem exitedDescendant?_of_success (hnumbered : Numbered history.events) {step : Step}
    {event : Event} (htype : event.type = .lambdaSucceeded ∨ event.type = .parallelSucceeded)
    (hbegins : ((builder.append event).leave step.category step.visit).events <+: history.events) :
    history.exitedDescendant? event step.completion.category =
      some (step.stop (builder.append event)) := by
  have hevent : history.events[builder.events.length]? = some event :=
    getElem?_of_isPrefix ((LogBuilder.grows_leave _ _ _).begins.trans hbegins)
      (builder.getElem?_append event)
  have hexit := getElem?_of_isPrefix hbegins
    ((builder.append event).getElem?_append
      ((builder.append event).exitEvent step.category step.visit))
  rw [LogBuilder.events_append, List.length_append, List.length_singleton] at hexit
  -- no event before the exit follows the success
  have hfollowing := hnumbered.following hevent hexit rfl
  rw [exitedDescendant?_step, exitedOf_eq_none_of_success htype, Option.none_or, hfollowing,
    Option.bind_some, exitedDescendant?_step, exitedOf_exitEvent, step.fits_completion]
  rfl

/-! ## Resolving -/

/-- A completion is resolved to the entry of its visit and to the exit on the way forward. -/
theorem resolve_of_completion (hnumbered : Numbered history.events) {step : Step}
    (hbegins : (step.inside builder).events <+: history.events)
    (hapart : step.Apart) {event : Event} (hnext : (step.inside builder).IsNext event)
    (htype : event.type = step.completion) {stop : Exited}
    (hstop : history.exitedDescendant? event step.completion.category = some stop) :
    history.resolve event = .ok (step.start builder, some stop) := by
  have hclassify : classify event = step.completion.category := by rw [classify, htype]
  rw [resolve_eq_ok_iff, hclassify]
  exact ⟨enteredAncestor?_of_completion hnumbered hbegins hapart hnext htype, hstop⟩

end History

end WorkflowChart
