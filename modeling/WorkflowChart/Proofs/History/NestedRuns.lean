import WorkflowChart.Proofs.History.Resolving

/-!
# What the log of a run says

A state that is visited several times in a run is reported with the visit that was completed last.

* **`Span.details`**: what the events of a visit say.
* **`History.saidCases`**: recording a run makes the details of a state those of the visit completed
  last, and leaves them as they are where the state is not visited.
* **`Run.exists_span_detailsOf`**: so it is with the whole log of a run.
-/

namespace WorkflowChart

/-! ## The visit that is completed last -/

namespace Span

/-- What the events of a visit say about the state. -/
def details (span : Span) (events : List Event) : Details where
  status := .success
  input := some span.step.visit.input.value
  output := some span.step.visit.output.value
  enteredAt := events[span.entered]?.map Event.timestamp
  exitedAt := events[span.exited]?.map Event.timestamp

/-- What the details of the state `name` become by a visit that is completed. -/
def update (name : String) (events : List Event) (details : Details) (span : Span) : Details :=
  if span.step.visit.name = name then span.details events else details

/-- A step says all there is to say about its own state. -/
theorem update_of_eq {span : Span} {name : String} (h : span.step.visit.name = name)
    (events : List Event) (details : Details) :
    span.update name events details = span.details events :=
  if_pos h

/-- A step says nothing about other states. -/
theorem update_of_ne {span : Span} {name : String} (h : span.step.visit.name ≠ name)
    (events : List Event) (details : Details) : span.update name events details = details :=
  if_neg h

/-- Visits to other states change nothing. -/
theorem foldl_update_of_ne {name : String} {events : List Event} {details : Details}
    {spans : List Span} (h : ∀ span ∈ spans, span.step.visit.name ≠ name) :
    spans.foldl (update name events) details = details := by
  induction spans with
  | nil => rfl
  | cons span spans ih =>
    rw [List.forall_mem_cons] at h
    rw [List.foldl_cons, update_of_ne h.1, ih h.2]

/-- Where the visits are completed in their order, the last one to the state gives its details. -/
theorem exists_foldl_update {name : String} {spans : List Span}
    (hordered : spans.Pairwise fun a b => a.completed < b.completed)
    (hname : ∃ span ∈ spans, span.step.visit.name = name) (events : List Event)
    (details : Details) :
    ∃ span ∈ spans, span.step.visit.name = name ∧
      (∀ other ∈ spans, other.step.visit.name = name → other.completed ≤ span.completed) ∧
      spans.foldl (update name events) details = span.details events := by
  induction spans generalizing details with
  | nil =>
    obtain ⟨span, hspan, -⟩ := hname
    exact absurd hspan List.not_mem_nil
  | cons first spans ih =>
    rw [List.pairwise_cons] at hordered
    rw [List.foldl_cons]
    -- a later visit to the state, if there is one, replaces what the first one gives
    by_cases hlater : ∃ span ∈ spans, span.step.visit.name = name
    · obtain ⟨span, hspan, hown, hlast, hfold⟩ := ih hordered.2 hlater _
      refine ⟨span, List.mem_cons_of_mem _ hspan, hown, ?_, hfold⟩
      rw [List.forall_mem_cons]
      exact ⟨fun _ => Nat.le_of_lt (hordered.1 span hspan), hlast⟩
    · -- no later visit is to the state, so the first one is
      have hne : ∀ span ∈ spans, span.step.visit.name ≠ name := fun span hspan hown =>
        hlater ⟨span, hspan, hown⟩
      obtain ⟨span, hspan, hown⟩ := hname
      obtain rfl : span = first := by
        rcases List.mem_cons.1 hspan with rfl | hrest
        · rfl
        · exact absurd hown (hne span hrest)
      refine ⟨span, List.mem_cons_self, hown, ?_, ?_⟩
      · rw [List.forall_mem_cons]
        exact ⟨fun _ => Nat.le_refl _, fun other hother h => absurd h (hne other hother)⟩
      · rw [foldl_update_of_ne hne, update_of_eq hown]

end Span

/-! ## What the events of a step say -/

namespace Step

/-- The input of a visit is read from its entry. -/
theorem payload_start (builder : LogBuilder) (step : Step) :
    (step.start builder).payload = .ok (some step.visit.input.value) := by
  have hdecode := step.visit.input.decode_text
  simp only [Entered.payload, start, decodePayload, hdecode]

/-- The output of a visit is read from its exit. -/
theorem payload_stop (builder : LogBuilder) (step : Step) :
    (step.stop builder).payload = .ok (some step.visit.output.value) := by
  have hdecode := step.visit.output.decode_text
  simp only [Exited.payload, stop, decodePayload, hdecode]

/-- A step is completed by an event that settles a state. -/
theorem isCompletion_completion (step : Step) : step.completion.isCompletion = true := by
  cases step <;> rfl

end Step

namespace History

variable {history : History} {builder : LogBuilder} {name : String}

/-- What the first events of a log say about the state `name`. -/
def said (history : History) (name : String) (events : List Event) :
    Except HistoryError Details :=
  events.foldlM (history.note name) .neverRun

/-- The event that is pushed is noted after those before it. -/
theorem said_append {event : Event} {details after : Details}
    (h : history.said name builder.events = .ok details)
    (hnote : history.note name details event = .ok after) :
    history.said name (builder.append event).events = .ok after := by
  rw [said, LogBuilder.events_append, List.foldlM_append]
  exact bind_eq_ok_iff.2 ⟨details, h, bind_eq_ok_iff.2 ⟨after, hnote, rfl⟩⟩

/-- Entering a state says nothing about other states. -/
theorem exists_said_enter {details : Details}
    (h : history.said name builder.events = .ok details) (step : Step) :
    ∃ inside, history.said name (builder.enter step.category step.visit).events = .ok inside ∧
      (step.visit.name ≠ name → inside = details) := by
  rw [LogBuilder.enter_eq]
  have hentered : (builder.entryEvent step.category step.visit).entered? =
      some (step.start builder) := rfl
  by_cases hname : step.visit.name = name
  · obtain ⟨inside, henter⟩ : ∃ inside, details.enter (step.start builder) = .ok inside :=
      ⟨_, Details.enter_eq_ok_iff.2 ⟨_, step.payload_start builder, rfl⟩⟩
    refine ⟨inside, said_append h ?_, fun hne => absurd hname hne⟩
    rw [history.note_of_entered? hentered, Step.name_start, if_pos hname, henter]
  · refine ⟨details, said_append h ?_, fun _ => rfl⟩
    rw [history.note_of_entered? hentered, Step.name_start, if_neg hname]

/-- A completion gives the state the details of its visit. -/
theorem note_of_completion {step : Step} {event : Event} {inside closing : LogBuilder}
    (htype : event.type = step.completion)
    (hresolve : history.resolve event = .ok (step.start builder, some (step.stop closing)))
    (hentry : history.events[(step.span builder inside).entered]? =
      some (step.start builder).event)
    (hexit : history.events[(step.span builder inside).exited]? = some (step.stop closing).event)
    (details : Details) :
    history.note name details event =
      .ok ((step.span builder inside).update name history.events details) := by
  have houtcome : event.outcome? = some .success :=
    Event.outcome?_of_isCompletion (by rw [htype]; exact step.isCompletion_completion)
  -- the entry gives the input and the exit gives the output, with the times of both
  have hsettle : details.settle .success (step.start builder) (some (step.stop closing)) =
      .ok ((step.span builder inside).details history.events) := by
    refine Details.settle_some_eq_ok_iff.2
      ⟨_, _, step.payload_start builder, step.payload_stop closing, ?_⟩
    rw [Span.details, hentry, hexit]
    rfl
  rw [history.note_of_outcome? houtcome hresolve, Step.name_start, hsettle]
  by_cases hname : step.visit.name = name
  · rw [if_pos hname, Span.update_of_eq hname]
  · rw [if_neg hname, Span.update_of_ne hname]

/-- The exit that comes after a success says nothing more. -/
theorem note_exitEvent_of_success {step : Step}
    (hcompletion : step.completion = .lambdaSucceeded ∨ step.completion = .parallelSucceeded)
    (details : Details) :
    history.note name details (builder.exitEvent step.category step.visit) = .ok details := by
  refine history.note_of_none rfl ?_ name details
  cases step with
  | task | parallel => rfl
  | pass | choice | map => rcases hcompletion with h | h <;> contradiction

/-- When a step that has nothing of its own kind within it is recorded, the state gets the details
of the visit, and other states are left as they are. -/
theorem said_record (hnumbered : Numbered history.events) {step : Step}
    (hbegins : (step.record builder).events <+: history.events) (hapart : step.Apart)
    {details : Details} (h : history.said name (step.inside builder).events = .ok details) :
    history.said name (step.record builder).events =
      .ok ((step.span builder (step.inside builder)).update name history.events details) := by
  rw [Step.record_eq] at hbegins ⊢
  have hsucceed := (LogBuilder.grows_leave _ _ _).begins.trans hbegins
  have hinside := (LogBuilder.grows_succeed _ _).begins.trans hsucceed
  have hentry : history.events[builder.events.length]? = some (step.start builder).event :=
    getElem?_of_isPrefix ((step.grows_inside builder).begins.trans hinside)
      (builder.getElem?_append _)
  have hexit := getElem?_of_isPrefix hbegins (LogBuilder.getElem?_append _ _)
  rcases (step.inside builder).succeed_cases step with
    ⟨event, hnext, htype, heq, hcompletion⟩ | ⟨heq, hcompletion⟩
  · -- the success settles the state, and the exit follows
    have hfound := hbegins
    rw [heq] at hfound ⊢
    have hstop := exitedDescendant?_of_success hnumbered (htype ▸ hcompletion) hfound
    have hresolve := resolve_of_completion hnumbered hinside hapart hnext htype hstop
    rw [← heq] at hresolve
    exact said_append
      (said_append h (note_of_completion htype hresolve hentry hexit details))
      (note_exitEvent_of_success hcompletion _)
  · -- the exit itself settles the state
    rw [heq] at hexit ⊢
    have htype : ((step.inside builder).exitEvent step.category step.visit).type =
        step.completion := hcompletion.symm
    have hstop : history.exitedDescendant?
        ((step.inside builder).exitEvent step.category step.visit) step.completion.category =
          some (step.stop (step.inside builder)) := by
      rw [hcompletion]
      exact history.exitedDescendant?_of_exit rfl rfl
    have hresolve := resolve_of_completion hnumbered hinside hapart
      (LogBuilder.isNext_exitEvent _ _ _) htype hstop
    refine said_append h (note_of_completion htype hresolve hentry ?_ details)
    rw [Step.span, heq]
    exact hexit

/-- Recording a run of steps makes the details of the state `name` those of the visits to it, one
after another. -/
theorem saidCases (hnumbered : Numbered history.events) (name : String) :
    Step.Cases
      (fun step => ∀ (builder : LogBuilder) (details : Details),
        (step.record builder).events <+: history.events → (∀ outer ∈ step.all, outer.Apart) →
        history.said name builder.events = .ok details →
        history.said name (step.record builder).events =
          .ok ((step.spans builder).foldl (Span.update name history.events) details))
      (fun steps => ∀ (builder : LogBuilder) (details : Details),
        (Step.recordSteps builder steps).events <+: history.events → Step.Unnested steps →
        history.said name builder.events = .ok details →
        history.said name (Step.recordSteps builder steps).events =
          .ok ((Step.spansOfSteps builder steps).foldl (Span.update name history.events) details))
      (fun bodies => ∀ (builder : LogBuilder) (k : Nat) (details : Details),
        k ≤ builder.events.length →
        (Step.recordBodies (.ofNat k) builder bodies).events <+: history.events →
        (∀ outer ∈ Step.allOfBodies bodies, outer.Apart) →
        history.said name builder.events = .ok details →
        history.said name (Step.recordBodies (.ofNat k) builder bodies).events =
          .ok ((Step.spansOfBodies (.ofNat k) builder bodies).foldl
            (Span.update name history.events) details)) where
  step step hbodies := by
    intro builder details hbegins hapart h
    rw [Step.all_eq, List.forall_mem_append, List.forall_mem_singleton] at hapart
    have hinside := (step.grows_closing builder).begins.trans hbegins
    obtain ⟨entered, henter, hsame⟩ := exists_said_enter h step
    have hwithin := hbodies _ (builder.events.length + 1) entered
      (builder.succ_le_length_enter _ _) hinside hapart.1 henter
    rw [said_record hnumbered hbegins hapart.2 hwithin, Step.spans_eq, List.foldl_append,
      List.foldl_cons, List.foldl_nil]
    -- either the visit of the step counts, or its entry has said nothing about the state
    by_cases hname : step.visit.name = name
    · rw [Span.update_of_eq hname, Span.update_of_eq hname]
    · rw [hsame hname]
      rfl
  noSteps builder details _ _ h := h
  addStep step rest hstep hrest := by
    intro builder details hbegins hapart h
    rw [Step.Unnested, Step.allOfSteps, List.forall_mem_append] at hapart
    rw [Step.recordSteps] at hbegins ⊢
    have hfirst := (Step.growsCases.steps_all rest _).begins.trans hbegins
    rw [Step.spansOfSteps, List.foldl_append]
    exact hrest _ _ hbegins hapart.2 (hstep _ _ hfirst hapart.1 h)
  noBodies builder k details _ _ _ h := h
  addBody body rest hbody hrest := by
    intro builder k details hk hbegins hapart h
    rw [Step.allOfBodies, List.forall_mem_append] at hapart
    rw [Step.recordBodies] at hbegins ⊢
    have hk' := Nat.le_trans hk (Step.grows_body hk body).length_le
    have hfirst := (Step.growsCases.bodies_all rest _ k hk').begins.trans hbegins
    rw [Step.spansOfBodies, List.foldl_append]
    exact hrest _ k _ hk' hbegins hapart.2 (hbody (builder.after (.ofNat k)) _ hfirst hapart.1 h)

end History

/-! ## The log of a run -/

namespace Run

/-- The start of an execution says nothing about any state. -/
theorem said_start (run : Run) (history : History) (name : String) :
    history.said name run.start.events = .ok .neverRun := by
  rfl

/-- The spans of a run are those of its steps. -/
theorem map_step_spans (run : Run) : run.spans.map Span.step = Step.allOfSteps run.steps := by
  have hcases : Step.Cases
      (fun step => ∀ builder : LogBuilder, (step.spans builder).map Span.step = step.all)
      (fun steps => ∀ builder : LogBuilder,
        (Step.spansOfSteps builder steps).map Span.step = Step.allOfSteps steps)
      (fun bodies => ∀ (fork : EventId) (builder : LogBuilder),
        (Step.spansOfBodies fork builder bodies).map Span.step = Step.allOfBodies bodies) := by
    constructor
    · intro step hbodies builder
      rw [Step.spans_eq, Step.all_eq, List.map_append, hbodies]
      rfl
    · intro builder
      rfl
    · intro step rest hstep hrest builder
      rw [Step.spansOfSteps, Step.allOfSteps, List.map_append, hstep, hrest]
    · intro fork builder
      rfl
    · intro body rest hbody hrest fork builder
      rw [Step.spansOfBodies, Step.allOfBodies, List.map_append, hbody, hrest]
  exact hcases.steps_all run.steps run.start

/-- **What the log of a run says**: where no step of a run lies within one of its own kind, a state
that is visited is reported as successful, with the payloads and the times of the visit to it that
is completed last. -/
theorem exists_span_detailsOf (run : Run) (hunnested : Step.Unnested run.steps) {name : String}
    (hname : ∃ step ∈ Step.allOfSteps run.steps, step.visit.name = name) :
    ∃ span ∈ run.spans, span.step.visit.name = name ∧
      (∀ other ∈ run.spans, other.step.visit.name = name → other.completed ≤ span.completed) ∧
      span.Logged run.log.events ∧
      (History.ofLog run.log).detailsOf name = .ok (span.details run.log.events) := by
  have hregular := run.regular_end
  have hspans : SpansFrom run.start.events.length _ run.spans :=
    Step.spansCases.steps_all run.steps run.start
  have hvisited : ∃ span ∈ run.spans, span.step.visit.name = name := by
    obtain ⟨step, hstep, hown⟩ := hname
    rw [← run.map_step_spans] at hstep
    obtain ⟨span, hspan, rfl⟩ := List.mem_map.1 hstep
    exact ⟨span, hspan, hown⟩
  obtain ⟨span, hspan, hown, hlast, hfold⟩ :=
    Span.exists_foldl_update hspans.ordered hvisited run.log.events .neverRun
  refine ⟨span, hspan, hown, hlast, hspans.logged span hspan, ?_⟩
  have hnumbered : Numbered (History.ofLog run.log).events := hregular.linked.numbered
  have hsaid := (History.saidCases hnumbered name).steps_all run.steps run.start .neverRun
    List.prefix_rfl hunnested (run.said_start _ name)
  -- no function fails, so the whole log is read
  have hread : readEvents (History.ofLog run.log).events = run.log.events :=
    readEvents_eq_self hregular.noFailure
  rw [History.detailsOf_eq_foldlM, hread, ← hfold]
  exact hsaid

/-- A run in which a state is visited alone, in a branch of a Parallel state and in a Map state. -/
def fanOut : Run :=
  let visit (name : String) : Visit :=
    { name, input := ⟨"null", .null, rfl⟩, output := ⟨"true", .bool true, rfl⟩ }
  { input := "null"
    steps :=
      [.parallel (visit "Fan") [[.task (visit "Work")], [], [.map (visit "Each")
        [[.pass (visit "Work"), .choice (visit "Pick")], []]]], .task (visit "Work")] }

/-- The state that is visited three times is reported with the last of its visits. -/
theorem exists_span_detailsOf_fanOut :
    ∃ span ∈ fanOut.spans, span.step.visit.name = "Work" ∧
      (∀ other ∈ fanOut.spans, other.step.visit.name = "Work" → other.completed ≤ span.completed) ∧
      span.Logged fanOut.log.events ∧
      (History.ofLog fanOut.log).detailsOf "Work" = .ok (span.details fanOut.log.events) := by
  have hunnested : Step.Unnested fanOut.steps := by
    simp [fanOut, Step.Unnested, Step.Apart, Step.allOfSteps, Step.all, Step.allOfBodies,
      Step.bodies, Step.category]
  have hname : ∃ step ∈ Step.allOfSteps fanOut.steps, step.visit.name = "Work" := by
    simp [fanOut, Step.allOfSteps, Step.all, Step.allOfBodies, Step.visit]
  exact fanOut.exists_span_detailsOf hunnested hname

end Run

end WorkflowChart
