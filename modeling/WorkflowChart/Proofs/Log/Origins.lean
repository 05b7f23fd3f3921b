import WorkflowChart.Log.Builder
import WorkflowChart.Log.Decode
import WorkflowChart.Proofs.Instant.Timestamps
import WorkflowChart.Proofs.Json.Records
import WorkflowChart.Proofs.Log.Tags

/-!
# Where logs come from

A log is read from a text or put together event by event. Either way its timestamps are those that a
clock can show, and its event types are folded from their tags.

* **`Event.Regular`**: the timestamp is proper, and the type is folded from its tag.
* **`LogBuilder.Obtained`**, **`Log.Obtained`**: what has been put together by calls, and what has
  been read or put together.
* **`LogBuilder.Stamped.append`**: a log whose clock stamps its events goes on doing so.
* **`Log.Obtained.regular`**: every event of a log that has been obtained is regular.
-/

namespace WorkflowChart

/-- The timestamp is one that a clock can show, and the type is folded from its tag. -/
structure Event.Regular (event : Event) : Prop where
  timestamp : event.timestamp.Proper
  type : event.type.IsFolded

/-! ## What is read -/

/-- An instant that is read is proper and in a year that can be written. -/
theorem Instant.proper_of_gives {t : Instant} (h : Instant.decoder.Gives t) :
    t.Proper ∧ t.InYears := by
  obtain ⟨place, draft, h⟩ := h
  rw [Instant.decoder.eq_def] at h
  split at h
  · rw [Instant.ofText] at h
    split at h
    · next hparse =>
      cases h
      exact Instant.proper_of_parse? hparse
    · cases h
  · exact absurd h (Draft.mismatch_ne_ok _ _ _)

/-- An event that is read is regular. -/
theorem Event.regular_of_gives {event : Event} (h : Event.decoder.Gives event) :
    event.Regular ∧ event.timestamp.InYears := by
  obtain ⟨⟨id, previous, timestamp, type, started, enteredDetails, exitedDetails, scheduled,
    succeeded, failed, executionFailed, _⟩, ⟨-, -, htimestamp, htype, -⟩, rfl⟩ := h.record
  obtain ⟨hproper, hyears⟩ := Instant.proper_of_gives htimestamp.gives
  obtain ⟨tag, -, rfl⟩ := htype.gives.map
  exact ⟨⟨hproper, EventType.isFolded_ofTag tag⟩, hyears⟩

/-- Every event of a log that is read is regular. -/
theorem Log.regular_of_parse {text : String} {log : Log} (h : Log.parse text = .ok log) :
    ∀ event ∈ log.events, event.Regular ∧ event.timestamp.InYears := by
  obtain ⟨⟨events, nextToken, _⟩, ⟨hevents, -⟩, rfl⟩ := (Decoder.gives_of_decode h).record
  exact fun event hevent => Event.regular_of_gives (hevents.gives.listOf event hevent)

/-! ## What is put together -/

/-- The log has been put together from nothing, call by call. A clock is set to instants that it can
show, and event types that are pushed are folded from tags. -/
inductive LogBuilder.Obtained : LogBuilder → Prop
  | new : Obtained {}
  | startingAt {builder : LogBuilder} (h : Obtained builder) {timestamp : Instant}
    (hproper : timestamp.Proper) : Obtained (builder.startingAt timestamp)
  | withTick {builder : LogBuilder} (h : Obtained builder) (nanos : Int) :
    Obtained (builder.withTickNanos nanos)
  | after {builder : LogBuilder} (h : Obtained builder) (id : EventId) : Obtained (builder.after id)
  | push {builder : LogBuilder} (h : Obtained builder) (tag : String) :
    Obtained (builder.push (.ofTag tag))
  | executionStarted {builder : LogBuilder} (h : Obtained builder) (input : String) :
    Obtained (builder.executionStarted input)
  | executionSucceeded {builder : LogBuilder} (h : Obtained builder) :
    Obtained builder.executionSucceeded
  | executionFailed {builder : LogBuilder} (h : Obtained builder) (error cause : String) :
    Obtained (builder.executionFailed error cause)
  | entered {builder : LogBuilder} (h : Obtained builder) (category : Category)
    (name input : String) : Obtained (builder.entered category name input)
  | exited {builder : LogBuilder} (h : Obtained builder) (category : Category)
    (name output : String) : Obtained (builder.exited category name output)
  | lambdaScheduled {builder : LogBuilder} (h : Obtained builder) (resource : String) :
    Obtained (builder.lambdaScheduled resource)
  | lambdaStarted {builder : LogBuilder} (h : Obtained builder) : Obtained builder.lambdaStarted
  | lambdaSucceeded {builder : LogBuilder} (h : Obtained builder) (output : String) :
    Obtained (builder.lambdaSucceeded output)
  | lambdaFailed {builder : LogBuilder} (h : Obtained builder) (error cause : String) :
    Obtained (builder.lambdaFailed error cause)
  | parallelSucceeded {builder : LogBuilder} (h : Obtained builder) :
    Obtained builder.parallelSucceeded

/-- The log has been read from a text, or put together while its clock was in the years that have
timestamps. -/
inductive Log.Obtained : Log → Prop
  | parsed {text : String} {log : Log} (h : Log.parse text = .ok log) : Obtained log
  | built {builder : LogBuilder} (h : builder.Obtained)
    (hyears : ∀ event ∈ builder.events, event.timestamp.InYears) : Obtained builder.build

namespace LogBuilder

/-- The clock is proper, and all events so far are regular. -/
structure Stamped (builder : LogBuilder) : Prop where
  clock : builder.clock.Proper
  event : ∀ event ∈ builder.events, event.Regular

variable {builder : LogBuilder}

/-- **An event that is stamped by the clock may be appended**, if its type is folded. -/
theorem Stamped.append (h : builder.Stamped) {event : Event}
    (htimestamp : event.timestamp = builder.clock) (htype : event.type.IsFolded) :
    (builder.append event).Stamped where
  clock := h.clock.addNanos builder.tick
  event := by
    rw [events_append, List.forall_mem_append, List.forall_mem_singleton]
    exact ⟨h.event, ⟨htimestamp ▸ h.clock, htype⟩⟩

/-- What has been put together is stamped by a proper clock. -/
theorem Obtained.stamped (h : builder.Obtained) : builder.Stamped := by
  induction h with
  | new => exact ⟨Instant.proper_epoch, List.forall_mem_nil _⟩
  | startingAt _ hproper ih => exact ⟨hproper, ih.event⟩
  | withTick _ _ ih => exact ⟨ih.clock, ih.event⟩
  | after _ _ ih => exact ⟨ih.clock, ih.event⟩
  | push _ tag ih => exact ih.append rfl (EventType.isFolded_ofTag tag)
  | entered _ _ _ _ ih | exited _ _ _ _ ih | executionStarted _ _ ih | executionSucceeded _ ih
  | executionFailed _ _ _ ih | lambdaScheduled _ _ ih | lambdaStarted _ ih | lambdaSucceeded _ _ ih
  | lambdaFailed _ _ _ ih | parallelSucceeded _ ih =>
    exact ih.append rfl (EventType.isFolded_of_forall_ne_other nofun)

end LogBuilder

/-- **Every event of a log that has been obtained is regular**, with a timestamp in the years that
have timestamps. -/
theorem Log.Obtained.regular {log : Log} (h : log.Obtained) :
    ∀ event ∈ log.events, event.Regular ∧ event.timestamp.InYears := by
  cases h with
  | parsed h => exact Log.regular_of_parse h
  | built h hyears => exact fun event hevent => ⟨h.stamped.event event hevent, hyears event hevent⟩

end WorkflowChart
