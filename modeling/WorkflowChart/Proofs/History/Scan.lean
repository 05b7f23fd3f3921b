import WorkflowChart.History.Details
import WorkflowChart.Proofs.Results

/-!
# Reading a log event by event

What a log says about a state is put together from what its events say, one after another, up to the
first failure of a task. An event either enters a state, or settles a construct, or says nothing.

* **`Event.outcome?`**: what an event says about the construct that it settles.
* **`readEvents`**: the events that are read; by `readEvents_eq` they are those before the first
  failure, and the failure.
* **`History.note`**: what the details become by one event; `History.Noted` lists what it can do.
* **`History.detailsOf_eq_foldlM`**: the details of a state are those that the events that are read
  leave behind.
-/

namespace WorkflowChart

/-! ## The events that matter -/

/-- What an event says about the construct that it settles, if it settles one. -/
def Event.outcome? (event : Event) : Option Status :=
  if event.type.isCompletion then some .success
  else if event.type.isFailure then some .fail
  else none

/-- The events that are read: all up to the first failure of a task, the failure included. -/
def readEvents : List Event → List Event
  | [] => []
  | event :: events => if event.type.isFailure then [event] else event :: readEvents events

/-- Only the failure of a function is one of a task. -/
theorem EventType.isFailure_iff {type : EventType} :
    type.isFailure = true ↔ type = .lambdaFailed := by
  cases type <;> simp [isFailure]

namespace Event

/-- A completion is no failure. -/
theorem isFailure_eq_false_of_isCompletion {event : Event}
    (h : event.type.isCompletion = true) : event.type.isFailure = false := by
  revert h
  cases event.type <;> simp [EventType.isCompletion, EventType.isFailure]

/-- An event that completes a construct has a success for its outcome. -/
theorem outcome?_of_isCompletion {event : Event} (h : event.type.isCompletion = true) :
    event.outcome? = some .success := by
  rw [outcome?, if_pos h]

/-- An event that fails has a failure for its outcome. -/
theorem outcome?_of_isFailure {event : Event} (h : event.type.isFailure = true) :
    event.outcome? = some .fail := by
  have hcompletion : ¬ event.type.isCompletion = true := fun hc => by
    rw [isFailure_eq_false_of_isCompletion hc] at h
    contradiction
  rw [outcome?, if_neg hcompletion, if_pos h]

/-- A completion is a success, a failure fails, and nothing else settles a construct. -/
theorem outcome?_eq_some_iff {event : Event} {status : Status} :
    event.outcome? = some status ↔
      event.type.isCompletion = true ∧ status = .success ∨
        event.type = .lambdaFailed ∧ status = .fail := by
  cases htype : event.type with
  | stateExited category =>
    cases category <;> simp [outcome?, htype, EventType.isCompletion, EventType.isFailure, eq_comm]
  | _ => simp [outcome?, htype, EventType.isCompletion, EventType.isFailure, eq_comm]

/-- An event that settles a construct enters no state. -/
theorem entered?_eq_none_of_outcome? {event : Event} {status : Status}
    (h : event.outcome? = some status) : event.entered? = none := by
  rw [entered?]
  split
  · next htype _ => simp [outcome?, htype, EventType.isCompletion, EventType.isFailure] at h
  · rfl

/-- An event that enters a state settles no construct. -/
theorem outcome?_eq_none_of_entered? {event : Event} {entered : Entered}
    (h : event.entered? = some entered) : event.outcome? = none := by
  cases houtcome : event.outcome? with
  | none => rfl
  | some status =>
    rw [entered?_eq_none_of_outcome? houtcome] at h
    contradiction

end Event

/-- Only events of the log are read. -/
theorem mem_of_mem_readEvents {events : List Event} {event : Event}
    (h : event ∈ readEvents events) : event ∈ events := by
  induction events with
  | nil => exact h
  | cons first events ih =>
    rw [readEvents] at h
    split at h
    · exact List.mem_cons.2 (.inl (List.mem_singleton.1 h))
    · rcases List.mem_cons.1 h with rfl | hrest
      · exact List.mem_cons_self
      · exact List.mem_cons_of_mem _ (ih hrest)

/-- Where no task fails, all events are read. -/
theorem readEvents_eq_self {events : List Event}
    (h : ∀ event ∈ events, event.type.isFailure = false) : readEvents events = events := by
  induction events with
  | nil => rfl
  | cons event events ih =>
    rw [List.forall_mem_cons] at h
    rw [readEvents, h.1, ih h.2]
    rfl

/-- The first failure is the last event that is read. -/
theorem readEvents_eq (events : List Event) :
    readEvents events = (events.takeWhile fun event => event.type ≠ .lambdaFailed) ++
      (events.find? fun event => event.type = .lambdaFailed).toList := by
  induction events with
  | nil => rfl
  | cons event events ih =>
    rw [readEvents, List.takeWhile_cons, List.find?_cons]
    by_cases hfailed : event.type = .lambdaFailed
    · simp [hfailed, EventType.isFailure]
    · have hfailure : ¬ event.type.isFailure = true := by rwa [EventType.isFailure_iff]
      simp [hfailed, hfailure, ih]

/-- What is read is the beginning of the log. -/
theorem readEvents_isPrefix (events : List Event) : readEvents events <+: events := by
  induction events with
  | nil => exact List.prefix_rfl
  | cons event events ih =>
    rw [readEvents]
    split
    · exact List.cons_prefix_cons.2 ⟨rfl, List.nil_prefix⟩
    · exact List.cons_prefix_cons.2 ⟨rfl, ih⟩

/-! ## What settling a state leaves behind -/

namespace Details

/-- Entering a state takes the input from the entry. -/
theorem enter_eq_ok_iff {details entered' : Details} {entered : Entered} :
    details.enter entered = .ok entered' ↔
      ∃ input, entered.payload = .ok input ∧
        entered' = { details with
          status := .indeterminate, input, enteredAt := some entered.event.timestamp } := by
  rw [enter, bind_eq_ok_iff]
  simp only [pure, Except.pure, Except.ok.injEq, @eq_comm _ entered']

/-- Settling a state that has not been left takes the input from the entry and keeps the output of
an earlier visit. -/
theorem settle_none_eq_ok_iff {details settled : Details} {status : Status} {start : Entered} :
    details.settle status start none = .ok settled ↔
      ∃ input, start.payload = .ok input ∧
        settled = { details with status, input, enteredAt := some start.event.timestamp } := by
  rw [settle, bind_eq_ok_iff]
  simp only [pure, Except.pure, Except.ok.injEq, @eq_comm _ settled]

/-- Settling a state that has been left takes the input from the entry and the output from the
exit. -/
theorem settle_some_eq_ok_iff {details settled : Details} {status : Status} {start : Entered}
    {stop : Exited} :
    details.settle status start (some stop) = .ok settled ↔
      ∃ input output, start.payload = .ok input ∧ stop.payload = .ok output ∧
        settled = { status, input, output, enteredAt := some start.event.timestamp,
                    exitedAt := some stop.event.timestamp } := by
  rw [settle, bind_eq_ok_iff]
  simp only [bind_eq_ok_iff, pure, Except.pure, Except.ok.injEq, exists_and_left,
    @eq_comm _ settled]

end Details

/-! ## One event after another -/

namespace History

/-- A construct starts at the nearest entry of its kind on the way back, and stops at the first exit
of its kind on the way forward, if there is one. -/
theorem resolve_eq_ok_iff (history : History) {event : Event} {start : Entered}
    {stop? : Option Exited} :
    history.resolve event = .ok (start, stop?) ↔
      history.enteredAncestor? event (classify event) = some start ∧
        history.exitedDescendant? event (classify event) = stop? := by
  unfold resolve
  cases hstart : history.enteredAncestor? event (classify event) with
  | none => simp [hstart]
  | some first => simp [hstart]

/-- What the details of the state `name` become by one event. -/
def note (history : History) (name : String) (details : Details) (event : Event) :
    Except HistoryError Details :=
  match event.outcome? with
  | some status => history.noteOutcome name status details event
  | none => noteEntry name details event

/-- An event that enters no state says nothing about one as an entry. -/
theorem noteEntry_of_entered?_eq_none {event : Event} (h : event.entered? = none) (name : String)
    (details : Details) : noteEntry name details event = .ok details := by
  rw [noteEntry, h]

/-- An event that neither enters a state nor settles a construct says nothing. -/
theorem note_of_none (history : History) {event : Event} (hentered : event.entered? = none)
    (houtcome : event.outcome? = none) (name : String) (details : Details) :
    history.note name details event = .ok details := by
  rw [note, houtcome]
  exact noteEntry_of_entered?_eq_none hentered name details

/-- An entry makes the state that it names indeterminate. -/
theorem note_of_entered? (history : History) {event : Event} {entered : Entered}
    (h : event.entered? = some entered) (name : String) (details : Details) :
    history.note name details event =
      if entered.details.name = name then details.enter entered else .ok details := by
  rw [note, Event.outcome?_eq_none_of_entered? h, noteEntry, h]

/-- An event that settles a construct settles the state that the entry names. -/
theorem note_of_outcome? (history : History) {event : Event} {status : Status} {start : Entered}
    {stop? : Option Exited} (houtcome : event.outcome? = some status)
    (hresolve : history.resolve event = .ok (start, stop?)) (name : String) (details : Details) :
    history.note name details event =
      if start.details.name = name then details.settle status start stop? else .ok details := by
  rw [note, houtcome]
  simp only [noteOutcome, hresolve]
  rfl

/-- What one event does to the details of the state `name`: it enters the state, it settles the
state, it enters or settles another one, or it does none of this. -/
inductive Noted (history : History) (name : String) (details : Details) (event : Event)
    (after : Details) : Prop where
  | entry (entered : Entered) (hentered : event.entered? = some entered)
      (hname : entered.details.name = name) (henter : details.enter entered = .ok after)
  | outcome (status : Status) (start : Entered) (stop? : Option Exited)
      (houtcome : event.outcome? = some status)
      (hresolve : history.resolve event = .ok (start, stop?)) (hname : start.details.name = name)
      (hsettle : details.settle status start stop? = .ok after)
  | otherEntry (entered : Entered) (hentered : event.entered? = some entered)
      (hname : entered.details.name ≠ name) (hkept : after = details)
  | otherOutcome (status : Status) (start : Entered) (stop? : Option Exited)
      (houtcome : event.outcome? = some status)
      (hresolve : history.resolve event = .ok (start, stop?)) (hname : start.details.name ≠ name)
      (hkept : after = details)
  | silent (hentered : event.entered? = none) (houtcome : event.outcome? = none)
      (hkept : after = details)

/-- **What a step of reading can do.** -/
theorem noted_of_note {history : History} {name : String} {details after : Details} {event : Event}
    (h : history.note name details event = .ok after) : history.Noted name details event after := by
  cases hentered : event.entered? with
  | some entered =>
    rw [history.note_of_entered? hentered] at h
    by_cases hname : entered.details.name = name
    · rw [if_pos hname] at h
      exact .entry entered hentered hname h
    · rw [if_neg hname] at h
      exact .otherEntry entered hentered hname (Except.ok.inj h).symm
  | none =>
    -- an event that is no entry may still settle a construct
    cases houtcome : event.outcome? with
    | none =>
      rw [history.note_of_none hentered houtcome] at h
      exact .silent hentered houtcome (Except.ok.inj h).symm
    | some status =>
      cases hresolve : history.resolve event with
      | error cause =>
        rw [note, houtcome] at h
        simp [noteOutcome, hresolve, bind, Except.bind] at h
      | ok construct =>
        obtain ⟨start, stop?⟩ := construct
        rw [history.note_of_outcome? houtcome hresolve] at h
        by_cases hname : start.details.name = name
        · rw [if_pos hname] at h
          exact .outcome status start stop? houtcome hresolve hname h
        · rw [if_neg hname] at h
          exact .otherOutcome status start stop? houtcome hresolve hname (Except.ok.inj h).symm

/-- Reading on from an event is noting it and, if it is no failure, reading the events after it. -/
theorem scan_cons (history : History) (name : String) (details : Details) (event : Event)
    (events : List Event) :
    history.scan name details (event :: events) = (do
      let details ← history.note name details event
      if event.type.isFailure then return details else history.scan name details events) := by
  rw [scan, note]
  -- an event that settles a construct is no entry, so that only one of the three questions counts
  by_cases hcompletion : event.type.isCompletion = true
  · have houtcome := Event.outcome?_of_isCompletion hcompletion
    rw [noteEntry_of_entered?_eq_none (Event.entered?_eq_none_of_outcome? houtcome), houtcome,
      Event.isFailure_eq_false_of_isCompletion hcompletion]
    simp only [bind, Except.bind, hcompletion, if_true, Bool.false_eq_true, if_false]
  · by_cases hfailure : event.type.isFailure = true
    · have houtcome := Event.outcome?_of_isFailure hfailure
      rw [noteEntry_of_entered?_eq_none (Event.entered?_eq_none_of_outcome? houtcome), houtcome]
      simp only [bind, Except.bind, hcompletion, hfailure, if_true, Bool.false_eq_true, if_false]
      cases history.noteOutcome name .fail details event <;> rfl
    · have houtcome : event.outcome? = none := by
        rw [Event.outcome?, if_neg hcompletion, if_neg hfailure]
      simp only [houtcome, bind, Except.bind, hcompletion, hfailure, Bool.false_eq_true, if_false]

/-- Reading a log is noting the events that are read. -/
theorem scan_eq_foldlM (history : History) (name : String) (details : Details)
    (events : List Event) :
    history.scan name details events = (readEvents events).foldlM (history.note name) details := by
  induction events generalizing details with
  | nil => rfl
  | cons event events ih =>
    rw [scan_cons, readEvents]
    by_cases hfailure : event.type.isFailure = true
    · simp only [hfailure, if_true, List.foldlM_cons, List.foldlM_nil]
    · simp only [hfailure, Bool.false_eq_true, if_false, List.foldlM_cons, ih]

/-- **The details of a state** are those that the events that are read leave behind, from those of a
state that has not been entered on. -/
theorem detailsOf_eq_foldlM (history : History) (name : String) :
    history.detailsOf name =
      (readEvents history.events).foldlM (history.note name) .neverRun :=
  history.scan_eq_foldlM name .neverRun history.events

end History

end WorkflowChart
