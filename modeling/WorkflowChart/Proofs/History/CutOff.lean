import WorkflowChart.Log.Builder
import WorkflowChart.Proofs.History.Visits

/-!
# Nothing after the first failure counts

The reading of a log ends at the first failure of a task, but its walks go on: the way back from an
event that is read could lead into the part that is not, and the way forward does. Where no event up
to some point links to an id that only later events have, the way back stays within the part up to
that point. The way forward can leave it, and then an exit is found that was missing before; the
visit that is reported does not depend on exits.

* **`FoundAt.mono`**: a first match stays the first match where links are only added.
* **`History.LinksWithin`**: no event links to an id that only later events have.
* **`History.exists_note_visit_eq`**: what one event says about a visit is said without the later
  events as well.
* **`History.visit_eq_of_append`**: the visit that is reported does not depend on what comes after a
  part of the log with a failure in it.
-/

namespace WorkflowChart

/-- Where the part up to some point has a failure in it, no event after that point is read. -/
theorem readEvents_append {events : List Event}
    (hfailed : ∃ event ∈ events, event.type = .lambdaFailed) (later : List Event) :
    readEvents (events ++ later) = readEvents events := by
  induction events with
  | nil =>
    obtain ⟨event, hmem, -⟩ := hfailed
    exact absurd hmem List.not_mem_nil
  | cons first events ih =>
    rw [List.cons_append, readEvents, readEvents]
    by_cases hfirst : first.type.isFailure = true
    · rw [if_pos hfirst, if_pos hfirst]
    · rw [if_neg hfirst, if_neg hfirst]
      obtain ⟨event, hmem, htype⟩ := hfailed
      -- the first event is no failure, so there is one further on
      have hne : event ≠ first := by
        rintro rfl
        exact hfirst (by rw [htype]; rfl)
      rw [ih ⟨event, List.mem_of_ne_of_mem hne hmem, htype⟩]

/-- A first match stays the first match where the links between some events are kept. -/
theorem FoundAt.mono {α : Type} {next next' : Event → Option Event} {pick : Event → Option α}
    {events : List Event}
    (hnext : ∀ a ∈ events, ∀ b, next a = some b → next' a = some b ∧ b ∈ events)
    {event : Event} (hmem : event ∈ events) {steps : Nat} {found : α}
    (h : FoundAt next pick event steps found) : FoundAt next' pick event steps found := by
  induction steps generalizing event with
  | zero => exact foundAt_zero.2 (foundAt_zero.1 h)
  | succ steps ih =>
    obtain ⟨hnone, other, hother, hrest⟩ := foundAt_succ.1 h
    obtain ⟨hother', hmem'⟩ := hnext event hmem other hother
    exact foundAt_succ.2 ⟨hnone, other, hother', ih hmem' hrest⟩

/-- Settling a state shows the same visit where an exit is missing, or with other details before. -/
theorem Details.exists_settle_visit_eq {details after : Details} {status : Status} {start : Entered}
    {stop? : Option Exited} (h : details.settle status start stop? = .ok after) (other : Details)
    {found? : Option Exited} (hfound : ∀ stop, found? = some stop → stop? = some stop) :
    ∃ after', other.settle status start found? = .ok after' ∧ after'.visit = after.visit := by
  -- the input is that of the entry on both sides, and an exit that is there is the same
  have hinput : ∃ input, start.payload = .ok input ∧
      after.visit = (status, input, some start.event.timestamp) := by
    cases stop? with
    | none =>
      obtain ⟨input, hinput, rfl⟩ := settle_none_eq_ok_iff.1 h
      exact ⟨input, hinput, rfl⟩
    | some stop =>
      obtain ⟨input, output, hinput, -, rfl⟩ := settle_some_eq_ok_iff.1 h
      exact ⟨input, hinput, rfl⟩
  obtain ⟨input, hinput, hvisit⟩ := hinput
  cases found? with
  | none =>
    refine ⟨_, settle_none_eq_ok_iff.2 ⟨input, hinput, rfl⟩, ?_⟩
    exact hvisit.symm
  | some stop =>
    rw [hfound stop rfl] at h
    obtain ⟨_, output, -, houtput, -⟩ := settle_some_eq_ok_iff.1 h
    refine ⟨_, settle_some_eq_ok_iff.2 ⟨input, output, hinput, houtput, rfl⟩, ?_⟩
    exact hvisit.symm

namespace History

/-- Where an event links to an id that a later event has, one of the events has it as well. -/
def LinksWithin (events later : List Event) : Prop :=
  ∀ event ∈ events, ∀ other ∈ later, event.previous = some other.id →
    ∃ earlier ∈ events, earlier.id = other.id

section Append

variable {whole part : History} {later : List Event}

/-! ## Walks in a part of a log -/

/-- A step back in a part of the log is one in the whole log. -/
theorem before_append (happend : whole.events = part.events ++ later) {event other : Event}
    (h : part.before event = some other) : whole.before event = some other := by
  obtain ⟨id, hid, hfind⟩ := Option.bind_eq_some_iff.1 h
  rw [findById_eq_find?] at hfind
  rw [before, hid, Option.bind_some, findById_eq_find?, happend, List.find?_append, hfind,
    Option.some_or]

/-- A step back in the whole log, from an event of a part that links within it, stays there. -/
theorem before_of_append (happend : whole.events = part.events ++ later)
    (hlinks : LinksWithin part.events later) {event other : Event} (hmem : event ∈ part.events)
    (h : whole.before event = some other) : part.before event = some other := by
  obtain ⟨id, hid, hfind⟩ := Option.bind_eq_some_iff.1 h
  rw [findById_eq_find?, happend, List.find?_append] at hfind
  rw [before, hid, Option.bind_some, findById_eq_find?]
  cases hpart : part.events.find? fun event => event.id = id with
  | some first =>
    rw [hpart, Option.some_or] at hfind
    exact hfind
  | none =>
    -- then only a later event could have the id that the link goes to
    rw [hpart, Option.none_or] at hfind
    have hotherId : other.id = id := by simpa using List.find?_some hfind
    obtain ⟨earlier, hearlier, hearlierId⟩ :=
      hlinks event hmem other (List.mem_of_find?_eq_some hfind) (by rw [hid, hotherId])
    have hne := List.find?_eq_none.1 hpart earlier hearlier
    simp [hearlierId, hotherId] at hne

/-- A step forward in a part of the log is one in the whole log. -/
theorem following_append (happend : whole.events = part.events ++ later) {event other : Event}
    (h : part.following event = some other) : whole.following event = some other := by
  rw [following, findByPrevious_eq_find?] at h
  rw [following, findByPrevious_eq_find?, happend, List.find?_append, h, Option.some_or]

/-- The walk back from an event of the part does not leave it, and finds the same entry. -/
theorem enteredAncestor?_append (happend : whole.events = part.events ++ later)
    (hlinks : LinksWithin part.events later) {event : Event} (hmem : event ∈ part.events)
    (filter : Option Category) :
    part.enteredAncestor? event filter = whole.enteredAncestor? event filter := by
  ext entered
  rw [enteredAncestor?_eq_some_iff, enteredAncestor?_eq_some_iff]
  constructor
  · rintro ⟨steps, hfound⟩
    exact ⟨steps, hfound.mono (fun a _ b hstep =>
      ⟨before_append happend hstep, part.mem_of_before hstep⟩) hmem⟩
  · rintro ⟨steps, hfound⟩
    refine ⟨steps, hfound.mono (fun a ha b hstep => ?_) hmem⟩
    have hstep' := before_of_append happend hlinks ha hstep
    exact ⟨hstep', part.mem_of_before hstep'⟩

/-- The exit that is found in the part is found in the whole log. There an exit can be found where
the part has none. -/
theorem exitedDescendant?_append (happend : whole.events = part.events ++ later) {event : Event}
    (hmem : event ∈ part.events) {filter : Option Category} {exited : Exited}
    (h : part.exitedDescendant? event filter = some exited) :
    whole.exitedDescendant? event filter = some exited := by
  obtain ⟨steps, hfound⟩ := part.exitedDescendant?_eq_some_iff.1 h
  exact whole.exitedDescendant?_eq_some_iff.2 ⟨steps, hfound.mono (fun a _ b hstep =>
    ⟨following_append happend hstep, part.mem_of_following hstep⟩) hmem⟩

/-! ## Reading a part of a log -/

/-- **What one event says**: an event of the part that says something in the whole log says the same
about the visit in the part. -/
theorem exists_note_visit_eq (happend : whole.events = part.events ++ later)
    (hlinks : LinksWithin part.events later) {event : Event} (hmem : event ∈ part.events)
    {name : String} {details after other : Details} (hvisit : other.visit = details.visit)
    (h : whole.note name details event = .ok after) :
    ∃ after', part.note name other event = .ok after' ∧ after'.visit = after.visit := by
  -- an event that settles a construct settles one with the same entry in the part
  have hresolve : ∀ start stop?, whole.resolve event = .ok (start, stop?) →
      ∃ found?, part.resolve event = .ok (start, found?) ∧
        ∀ stop, found? = some stop → stop? = some stop := by
    intro start stop? hwhole
    obtain ⟨hstart, hstop⟩ := whole.resolve_eq_ok_iff.1 hwhole
    refine ⟨_, part.resolve_eq_ok_iff.2 ⟨?_, rfl⟩, ?_⟩
    · rw [enteredAncestor?_append happend hlinks hmem, hstart]
    · intro stop hfound
      rw [← hstop, exitedDescendant?_append happend hmem hfound]
  cases noted_of_note h with
  | entry entered hentered hname henter =>
    obtain ⟨input, hinput, rfl⟩ := Details.enter_eq_ok_iff.1 henter
    rw [part.note_of_entered? hentered, if_pos hname]
    exact ⟨_, Details.enter_eq_ok_iff.2 ⟨input, hinput, rfl⟩, rfl⟩
  | outcome status start stop? houtcome hwhole hname hsettle =>
    obtain ⟨found?, hpart, hfound⟩ := hresolve start stop? hwhole
    rw [part.note_of_outcome? houtcome hpart, if_pos hname]
    exact Details.exists_settle_visit_eq hsettle other hfound
  | otherEntry entered hentered hname hkept =>
    rw [part.note_of_entered? hentered, if_neg hname, hkept]
    exact ⟨other, rfl, hvisit⟩
  | otherOutcome status start stop? houtcome hwhole hname hkept =>
    obtain ⟨found?, hpart, -⟩ := hresolve start stop? hwhole
    rw [part.note_of_outcome? houtcome hpart, if_neg hname, hkept]
    exact ⟨other, rfl, hvisit⟩
  | silent hentered houtcome hkept =>
    rw [part.note_of_none hentered houtcome, hkept]
    exact ⟨other, rfl, hvisit⟩

/-- Events of the part that say something in the whole log say the same about the visit in the part. -/
theorem exists_foldlM_note_visit_eq (happend : whole.events = part.events ++ later)
    (hlinks : LinksWithin part.events later) {events : List Event} (hmem : events ⊆ part.events)
    {name : String} {details after other : Details} (hvisit : other.visit = details.visit)
    (h : events.foldlM (whole.note name) details = .ok after) :
    ∃ after', events.foldlM (part.note name) other = .ok after' ∧ after'.visit = after.visit := by
  induction events generalizing details other with
  | nil =>
    cases h
    exact ⟨other, rfl, hvisit⟩
  | cons event events ih =>
    obtain ⟨hevent, hrest⟩ := List.cons_subset.1 hmem
    rw [List.foldlM_cons, bind_eq_ok_iff] at h
    obtain ⟨between, hfirst, hothers⟩ := h
    obtain ⟨between', hfirst', hbetween⟩ :=
      exists_note_visit_eq happend hlinks hevent hvisit hfirst
    obtain ⟨after', hothers', hafter⟩ := ih hrest hbetween hothers
    refine ⟨after', ?_, hafter⟩
    rw [List.foldlM_cons, bind_eq_ok_iff]
    exact ⟨between', hfirst', hothers'⟩

end Append

/-- **Nothing after the first failure counts.** Let a part of a log up to some point have a failure
in it and link to no id that only later events have. Whatever the later events are, if the whole log
says what has become of a state, then the part alone does so too, with the same status, input and
time of entering. -/
theorem visit_eq_of_append (whole part : History) (later : List Event)
    (happend : whole.events = part.events ++ later)
    (hfailed : ∃ event ∈ part.events, event.type = .lambdaFailed)
    (hlinks : LinksWithin part.events later) (name : String) {details : Details}
    (h : whole.detailsOf name = .ok details) :
    ∃ details', part.detailsOf name = .ok details' ∧ details'.status = details.status ∧
      details'.input = details.input ∧ details'.enteredAt = details.enteredAt := by
  rw [detailsOf_eq_foldlM, happend, readEvents_append hfailed] at h
  have hread : readEvents part.events ⊆ part.events := fun _ => mem_of_mem_readEvents
  obtain ⟨details', hdetails', hvisit⟩ :=
    exists_foldlM_note_visit_eq happend hlinks hread rfl h
  refine ⟨details', ?_, ?_⟩
  · rw [detailsOf_eq_foldlM, hdetails']
  · simpa [Details.visit] using hvisit

/-- A run whose task fails. -/
def failedTask : Log :=
  ({} : LogBuilder).executionStarted "null"
    |>.entered .task "Work" "true"
    |>.lambdaFailed "Error" "cause"
    |>.build

/-- The same run with an exit after the failure, and with the state entered once more. -/
def failedTaskThenMore : Log :=
  ({} : LogBuilder).executionStarted "null"
    |>.entered .task "Work" "true"
    |>.lambdaFailed "Error" "cause"
    |>.exited .task "Work" "false"
    |>.entered .task "Work" "null"
    |>.lambdaSucceeded "null"
    |>.build

/-- What the whole log says about the state. -/
theorem detailsOf_failedTaskThenMore :
    (ofLog failedTaskThenMore).detailsOf "Work" = .ok
      { status := .fail, input := some (.bool true), output := some (.bool false),
        enteredAt := some ⟨0, 1, 0⟩, exitedAt := some ⟨0, 3, 0⟩ } := by rfl

/-- Only the whole log shows the exit, and both logs show the same visit. -/
theorem visit_eq_of_append_failedTask :
    failedTaskThenMore.events = failedTask.events ++ failedTaskThenMore.events.drop 3 ∧
      (∃ event ∈ failedTask.events, event.type = .lambdaFailed) ∧
      LinksWithin failedTask.events (failedTaskThenMore.events.drop 3) ∧
      ∃ details, (ofLog failedTask).detailsOf "Work" = .ok details ∧ details.status = .fail ∧
        details.input = some (.bool true) ∧ details.enteredAt = some ⟨0, 1, 0⟩ := by
  have happend : failedTaskThenMore.events =
      failedTask.events ++ failedTaskThenMore.events.drop 3 := by decide
  have hfailed : ∃ event ∈ failedTask.events, event.type = .lambdaFailed := by decide
  have hlinks : LinksWithin failedTask.events (failedTaskThenMore.events.drop 3) := by
    unfold LinksWithin
    decide
  exact ⟨happend, hfailed, hlinks, (ofLog failedTaskThenMore).visit_eq_of_append (ofLog failedTask)
    _ happend hfailed hlinks "Work" detailsOf_failedTaskThenMore⟩

end History

end WorkflowChart
