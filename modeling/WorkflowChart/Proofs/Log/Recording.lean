import WorkflowChart.Proofs.Log.Runs

/-!
# What recording a run does to a log

Recording only appends. It keeps a log numbered, and it leaves the events of every step where the
span of the step says.

* **`LogBuilder.Grows`**: a builder that has come from another one by pushing events that are linked
  and no failures.
* **`Step.growsCases`**: recording grows a log.
* **`Span.Logged`**: the events of a step are where its span says.
* **`Step.spansCases`**: so it is with all spans of a run, and the visits are completed in the order
  of the spans.
-/

namespace WorkflowChart

namespace LogBuilder

/-! ## The events of one step -/

/-- The event that is pushed when a state is entered. -/
def entryEvent (builder : LogBuilder) (category : Category) (visit : Visit) : Event :=
  { builder.nextEvent (.stateEntered category) with
    enteredDetails := some { name := visit.name, input := some visit.input.text } }

/-- The event that is pushed when a state is left. -/
def exitEvent (builder : LogBuilder) (category : Category) (visit : Visit) : Event :=
  { builder.nextEvent (.stateExited category) with
    exitedDetails := some { name := visit.name, output := some visit.output.text } }

/-- The event of an entry comes next, numbered and linked as such. -/
theorem isNext_entryEvent (builder : LogBuilder) (category : Category) (visit : Visit) :
    builder.IsNext (builder.entryEvent category visit) :=
  ⟨rfl, rfl⟩

/-- The event of an exit comes next, numbered and linked as such. -/
theorem isNext_exitEvent (builder : LogBuilder) (category : Category) (visit : Visit) :
    builder.IsNext (builder.exitEvent category visit) :=
  ⟨rfl, rfl⟩

/-- Entering a state pushes one event. -/
theorem enter_eq (builder : LogBuilder) (category : Category) (visit : Visit) :
    builder.enter category visit = builder.append (builder.entryEvent category visit) := rfl

/-- Leaving a state pushes one event. -/
theorem leave_eq (builder : LogBuilder) (category : Category) (visit : Visit) :
    builder.leave category visit = builder.append (builder.exitEvent category visit) := rfl

/-- The log is one event longer once a state is entered. -/
theorem length_enter (builder : LogBuilder) (category : Category) (visit : Visit) :
    (builder.enter category visit).events.length = builder.events.length + 1 := by
  rw [enter_eq, events_append, List.length_append, List.length_singleton]

/-- The entry into a state has the next number, and it is in the log from then on. -/
theorem succ_le_length_enter (builder : LogBuilder) (category : Category) (visit : Visit) :
    builder.events.length + 1 ≤ (builder.enter category visit).events.length :=
  Nat.le_of_eq (builder.length_enter category visit).symm

/-- The event that has been pushed is the last one. -/
theorem getElem?_append (builder : LogBuilder) (event : Event) :
    (builder.append event).events[builder.events.length]? = some event := by
  rw [events_append]
  exact List.getElem?_concat_length

/-- A step is completed by an event of its own before the exit, or by the exit. -/
theorem succeed_cases (builder : LogBuilder) (step : Step) :
    (∃ event, builder.IsNext event ∧ event.type = step.completion ∧
      builder.succeed step.category step.visit = builder.append event ∧
      (step.completion = .lambdaSucceeded ∨ step.completion = .parallelSucceeded)) ∨
    (builder.succeed step.category step.visit = builder ∧
      step.completion = .stateExited step.category) := by
  cases step with
  | task visit => exact Or.inl ⟨_, ⟨rfl, rfl⟩, rfl, rfl, Or.inl rfl⟩
  | parallel visit bodies => exact Or.inl ⟨_, ⟨rfl, rfl⟩, rfl, rfl, Or.inr rfl⟩
  | pass | choice | map => exact Or.inr ⟨rfl, rfl⟩

/-! ## Growing -/

/-- The log is linked, and no function has failed in it. -/
structure Regular (builder : LogBuilder) : Prop where
  linked : builder.Linked
  noFailure : ∀ event ∈ builder.events, event.type.isFailure = false

/-- One log is the beginning of the other, which is regular if the first is. -/
structure Grows (a b : LogBuilder) : Prop where
  begins : a.events <+: b.events
  regular : a.Regular → b.Regular

/-- A log grows by nothing. -/
theorem Grows.refl (builder : LogBuilder) : builder.Grows builder :=
  ⟨List.prefix_rfl, id⟩

/-- A log that has grown goes on growing. -/
theorem Grows.trans {a b c : LogBuilder} (hab : a.Grows b) (hbc : b.Grows c) : a.Grows c :=
  ⟨hab.begins.trans hbc.begins, fun h => hbc.regular (hab.regular h)⟩

/-- A log that grows does not get shorter. -/
theorem Grows.length_le {a b : LogBuilder} (h : a.Grows b) : a.events.length ≤ b.events.length :=
  h.begins.length_le

/-- A log grows by the next event, unless that is a failure. -/
theorem grows_append {builder : LogBuilder} {event : Event} (hnext : builder.IsNext event)
    (hevent : event.type.isFailure = false) : builder.Grows (builder.append event) where
  begins := List.prefix_append _ _
  regular h := by
    refine ⟨h.linked.append hnext, ?_⟩
    rw [events_append, List.forall_mem_append]
    exact ⟨h.noFailure, List.forall_mem_singleton.2 hevent⟩

/-- Telling the next event to follow another one keeps the log. -/
theorem grows_after {builder : LogBuilder} {k : Nat} (hk : k ≤ builder.events.length) :
    builder.Grows (builder.after (.ofNat k)) where
  begins := List.prefix_rfl
  regular h := ⟨h.linked.after hk, h.noFailure⟩

/-- A log grows by an entry. -/
theorem grows_enter (builder : LogBuilder) (category : Category) (visit : Visit) :
    builder.Grows (builder.enter category visit) :=
  grows_append (builder.isNext_entryEvent category visit) rfl

/-- A log grows by an exit. -/
theorem grows_leave (builder : LogBuilder) (category : Category) (visit : Visit) :
    builder.Grows (builder.leave category visit) :=
  grows_append (builder.isNext_exitEvent category visit) rfl

/-- A log grows by the event of a success, or stays as it is where a step has none. -/
theorem grows_succeed (builder : LogBuilder) (step : Step) :
    builder.Grows (builder.succeed step.category step.visit) := by
  rcases builder.succeed_cases step with
    ⟨event, hnext, htype, hsucceed, hcompletion⟩ | ⟨hsucceed, -⟩
  · rw [hsucceed]
    refine grows_append hnext ?_
    rcases hcompletion with h | h <;> rw [htype, h] <;> rfl
  · rw [hsucceed]
    exact Grows.refl builder

end LogBuilder

namespace Step

/-- Recording grows a log. -/
theorem growsCases :
    Cases (fun step => ∀ builder : LogBuilder, builder.Grows (step.record builder))
      (fun steps => ∀ builder : LogBuilder, builder.Grows (recordSteps builder steps))
      (fun bodies => ∀ (builder : LogBuilder) (k : Nat), k ≤ builder.events.length →
        builder.Grows (recordBodies (.ofNat k) builder bodies)) where
  step step hbodies := by
    intro builder
    rw [record_eq]
    have henter := builder.grows_enter step.category step.visit
    -- the bodies follow the entry, which is in the log by then
    have hinside : (builder.enter step.category step.visit).Grows (step.inside builder) :=
      hbodies _ _ (builder.succ_le_length_enter _ _)
    exact ((henter.trans hinside).trans ((step.inside builder).grows_succeed step)).trans
      (LogBuilder.grows_leave _ _ _)
  noSteps := LogBuilder.Grows.refl
  addStep step rest hstep hrest := by
    intro builder
    rw [recordSteps]
    exact (hstep builder).trans (hrest _)
  noBodies builder _ _ := LogBuilder.Grows.refl builder
  addBody body rest hbody hrest := by
    intro builder k hk
    rw [recordBodies]
    have hfirst : builder.Grows (recordSteps (builder.after (.ofNat k)) body) :=
      (LogBuilder.grows_after hk).trans (hbody _)
    exact hfirst.trans (hrest _ _ (Nat.le_trans hk hfirst.length_le))

/-- What is run within a step makes the log grow. -/
theorem grows_inside (builder : LogBuilder) (step : Step) :
    (builder.enter step.category step.visit).Grows (step.inside builder) :=
  growsCases.bodies_all step.bodies _ _ (builder.succ_le_length_enter _ _)

/-- The events that end a step make the log grow. -/
theorem grows_closing (builder : LogBuilder) (step : Step) :
    (step.inside builder).Grows (step.record builder) := by
  rw [record_eq]
  exact ((step.inside builder).grows_succeed step).trans (LogBuilder.grows_leave _ _ _)

/-- A body that follows an event of the log makes the log grow. -/
theorem grows_body {builder : LogBuilder} {k : Nat} (hk : k ≤ builder.events.length)
    (body : List Step) : builder.Grows (recordSteps (builder.after (.ofNat k)) body) :=
  (LogBuilder.grows_after hk).trans (growsCases.steps_all body _)

end Step

/-! ## Spans -/

/-- The events of a step are where its span says. -/
structure Span.Logged (span : Span) (events : List Event) : Prop where
  entered : ∃ event, events[span.entered]? = some event ∧
    event.entered? = some ⟨event, span.step.category,
      { name := span.step.visit.name, input := some span.step.visit.input.text }⟩
  completed : ∃ event, events[span.completed]? = some event ∧ event.type = span.step.completion
  exited : ∃ event, events[span.exited]? = some event ∧
    event.exited? = some ⟨event, span.step.category,
      { name := span.step.visit.name, output := some span.step.visit.output.text }⟩

/-- A longer log has the events of a span as well. -/
theorem Span.Logged.mono {span : Span} {a b : List Event} (h : span.Logged a) (hab : a <+: b) :
    span.Logged b where
  entered := h.entered.imp fun _ hevent => hevent.imp_left (getElem?_of_isPrefix hab)
  completed := h.completed.imp fun _ hevent => hevent.imp_left (getElem?_of_isPrefix hab)
  exited := h.exited.imp fun _ hevent => hevent.imp_left (getElem?_of_isPrefix hab)

/-- The spans are in the log from the position `first` on, and the visits are completed in their
order. -/
structure SpansFrom (first : Nat) (builder : LogBuilder) (spans : List Span) : Prop where
  logged : ∀ span ∈ spans, span.Logged builder.events
  bounds : ∀ span ∈ spans, first ≤ span.completed ∧ span.completed < builder.events.length
  ordered : spans.Pairwise fun a b => a.completed < b.completed

/-- No spans are in a log from any position on. -/
theorem SpansFrom.nil (first : Nat) (builder : LogBuilder) : SpansFrom first builder [] :=
  ⟨nofun, nofun, List.Pairwise.nil⟩

/-- Spans that are there from a position on are there from an earlier one on. -/
theorem SpansFrom.weaken {first middle : Nat} {builder : LogBuilder} {spans : List Span}
    (h : SpansFrom middle builder spans) (hfirst : first ≤ middle) :
    SpansFrom first builder spans where
  logged := h.logged
  bounds span hspan := ⟨Nat.le_trans hfirst (h.bounds span hspan).1, (h.bounds span hspan).2⟩
  ordered := h.ordered

/-- Spans that come after others in the log come after them in the list. -/
theorem SpansFrom.append {first middle : Nat} {a b : LogBuilder} {xs ys : List Span}
    (hxs : SpansFrom first a xs) (hys : SpansFrom middle b ys) (hgrows : a.Grows b)
    (hfirst : first ≤ middle) (hmiddle : a.events.length ≤ middle) :
    SpansFrom first b (xs ++ ys) where
  logged := by
    rw [List.forall_mem_append]
    exact ⟨fun span hspan => (hxs.logged span hspan).mono hgrows.begins, hys.logged⟩
  bounds := by
    rw [List.forall_mem_append]
    refine ⟨fun span hspan => ?_, fun span hspan => ?_⟩
    · have hbounds := hxs.bounds span hspan
      exact ⟨hbounds.1, Nat.lt_of_lt_of_le hbounds.2 hgrows.length_le⟩
    · have hbounds := hys.bounds span hspan
      exact ⟨Nat.le_trans hfirst hbounds.1, hbounds.2⟩
  ordered := by
    refine List.pairwise_append.2 ⟨hxs.ordered, hys.ordered, fun x hx y hy => ?_⟩
    -- the first spans are completed within the first log, and the others after it
    have hxlt := (hxs.bounds x hx).2
    have hyge := (hys.bounds y hy).1
    omega

namespace Step

/-- The events of a step are where its span says. -/
theorem logged_span (builder : LogBuilder) (step : Step) :
    (step.span builder (step.inside builder)).Logged (step.record builder).events := by
  -- the logs after the entry, what is within, the success and the exit, each beginning the next
  have hinside := step.grows_inside builder
  have hsucceed := (step.inside builder).grows_succeed step
  have hleave := ((step.inside builder).succeed step.category step.visit).grows_leave step.category
    step.visit
  rw [record_eq]
  constructor
  · refine ⟨builder.entryEvent step.category step.visit, ?_, rfl⟩
    exact getElem?_of_isPrefix ((hinside.trans hsucceed).trans hleave).begins
      (builder.getElem?_append _)
  · -- the event after what is within is the success, if there is one, and else the exit
    rcases (step.inside builder).succeed_cases step with
      ⟨event, -, htype, heq, -⟩ | ⟨heq, hcompletion⟩
    · refine ⟨event, getElem?_of_isPrefix hleave.begins ?_, htype⟩
      rw [heq]
      exact LogBuilder.getElem?_append _ event
    · refine ⟨(step.inside builder).exitEvent step.category step.visit, ?_, hcompletion.symm⟩
      rw [heq]
      exact LogBuilder.getElem?_append _ _
  · exact ⟨_, LogBuilder.getElem?_append _ _, rfl⟩

/-- A visit is completed after what is within it, and before the log of its step ends. -/
theorem spansFrom_span (builder : LogBuilder) (step : Step) :
    SpansFrom (step.inside builder).events.length (step.record builder)
      [step.span builder (step.inside builder)] where
  logged := List.forall_mem_singleton.2 (step.logged_span builder)
  bounds := by
    refine List.forall_mem_singleton.2 ⟨Nat.le_refl _, ?_⟩
    have hsucceed := ((step.inside builder).grows_succeed step).length_le
    rw [record_eq, LogBuilder.leave_eq, LogBuilder.events_append, List.length_append]
    exact Nat.lt_succ_of_le hsucceed
  ordered := List.pairwise_singleton _ _

/-- The events of all steps are where their spans say, and the visits are completed in the order of
the spans. -/
theorem spansCases :
    Cases (fun step => ∀ builder : LogBuilder,
        SpansFrom builder.events.length (step.record builder) (step.spans builder))
      (fun steps => ∀ builder : LogBuilder,
        SpansFrom builder.events.length (recordSteps builder steps) (spansOfSteps builder steps))
      (fun bodies => ∀ (builder : LogBuilder) (k : Nat), k ≤ builder.events.length →
        SpansFrom builder.events.length (recordBodies (.ofNat k) builder bodies)
          (spansOfBodies (.ofNat k) builder bodies)) where
  step step hbodies := by
    intro builder
    rw [spans_eq]
    have henter := (builder.grows_enter step.category step.visit).length_le
    have hinside := (step.grows_inside builder).length_le
    -- what is within is recorded after the entry, and the visit is completed after it
    have hwithin := hbodies (builder.enter step.category step.visit) (builder.events.length + 1)
      (builder.succ_le_length_enter _ _)
    exact (hwithin.weaken henter).append (step.spansFrom_span builder) (step.grows_closing builder)
      (Nat.le_trans henter hinside) (Nat.le_refl _)
  noSteps builder := SpansFrom.nil _ _
  addStep step rest hstep hrest := by
    intro builder
    rw [recordSteps, spansOfSteps]
    exact (hstep builder).append (hrest _) (growsCases.steps_all rest _)
      (growsCases.step_all step builder).length_le (Nat.le_refl _)
  noBodies builder _ _ := SpansFrom.nil _ _
  addBody body rest hbody hrest := by
    intro builder k hk
    rw [recordBodies, spansOfBodies]
    have hfirst := (grows_body hk body).length_le
    have hk' := Nat.le_trans hk hfirst
    exact (hbody (builder.after (.ofNat k))).append (hrest _ _ hk')
      (growsCases.bodies_all rest _ _ hk') hfirst (Nat.le_refl _)

end Step

namespace Run

/-- A run starts with a regular log. -/
theorem regular_start (run : Run) : run.start.Regular := by
  have hempty : ((({} : LogBuilder).startingAt run.clock).withTick run.tick).Regular :=
    ⟨LogBuilder.linked_start run.clock run.tick, fun _ h => absurd h List.not_mem_nil⟩
  unfold start LogBuilder.executionStarted
  exact (LogBuilder.grows_append ⟨rfl, rfl⟩ rfl).regular hempty

/-- The log of a run is regular. -/
theorem regular_end (run : Run) : (Step.recordSteps run.start run.steps).Regular :=
  (Step.growsCases.steps_all run.steps run.start).regular run.regular_start

end Run

end WorkflowChart
