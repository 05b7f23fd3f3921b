import WorkflowChart.Log.Builder
import WorkflowChart.Proofs.History.Walks

/-!
# A bound on visits loses nothing

The links of a log make an arbitrary graph: ids may repeat or be missing, and chains may run into
each other or go round in circles. A walk goes along such a chain and stops after one visit more
than the log has events. Here a chain is followed without a bound, and by a search of the log in
place of a look into its index; what lies on it is what a walk finds.

* **`predecessorIn`**, **`successorIn`**: the two links of an event, by a search of the events.
* **`FirstMatch`**: a result that is the first match on the whole chain, and is missing just where
  there is no match on it.
* **`firstAlong_eq_of_le`**: further visits change nothing.
* **`History.firstMatch_walks`**: both walks give the first match, with any number of visits from
  their bound on.
-/

namespace WorkflowChart

/-! ## The links of a log -/

/-- The first of some events with the id that an event gives as the one before it. -/
def predecessorIn (events : List Event) (event : Event) : Option Event :=
  event.previous.bind fun id => events.find? fun other => other.id = id

/-- The first of some events that gives an event as the one before it. -/
def successorIn (events : List Event) (event : Event) : Option Event :=
  events.find? fun other => other.previous = some event.id

namespace History

variable (history : History)

/-- A step back leads to the predecessor in the log. -/
theorem before_eq_predecessorIn : history.before = predecessorIn history.events := by
  funext event
  rw [before, predecessorIn]
  congr 1
  funext id
  exact history.findById_eq_find? id

/-- A step forward leads to the successor in the log. -/
theorem following_eq_successorIn : history.following = successorIn history.events := by
  funext event
  rw [following, successorIn, findByPrevious_eq_find?]

end History

/-! ## First matches, without a bound -/

variable {α : Type} {next : Event → Option Event} {pick : Event → Option α}

/-- The result is what `pick` makes of the first event on the chain of which it makes anything. It
is missing just where `pick` makes nothing of any event on the chain. -/
structure FirstMatch (next : Event → Option Event) (pick : Event → Option α) (event : Event)
    (result : Option α) : Prop where
  eq_some_iff : ∀ found, result = some found ↔ ∃ steps, FoundAt next pick event steps found
  eq_none_iff : result = none ↔
    ∀ steps other, eventAlong next steps event = some other → pick other = none

/-- A result that is there just where a first match is, is the first match. -/
theorem firstMatch_of_eq_some_iff {event : Event} {result : Option α}
    (h : ∀ found, result = some found ↔ ∃ steps, FoundAt next pick event steps found) :
    FirstMatch next pick event result := by
  refine ⟨h, ?_⟩
  constructor
  · intro hnone steps other hother
    cases hpick : pick other with
    | none => rfl
    | some found =>
      -- a match anywhere on the chain makes a first one, which the result would show
      obtain ⟨k, -, first, hfirst⟩ := exists_foundAt hother hpick
      have hresult := (h first).2 ⟨k, hfirst⟩
      rw [hnone] at hresult
      contradiction
  · intro hchain
    cases hresult : result with
    | none => rfl
    | some found =>
      obtain ⟨steps, hfound⟩ := (h found).1 hresult
      obtain ⟨other, hother, hpick⟩ := hfound.reached
      have hnone := hchain steps other hother
      rw [hpick] at hnone
      contradiction

/-- **Further visits change nothing**: a walk that may visit one event more than the links lead to
has seen all that it can see. -/
theorem firstAlong_eq_of_le {events : List Event} (hnext : ∀ a b, next a = some b → b ∈ events)
    {visits : Nat} (hvisits : events.length + 1 ≤ visits) (event : Event) :
    firstAlong next pick visits (some event)
      = firstAlong next pick (events.length + 1) (some event) := by
  have hlong : ∀ found, firstAlong next pick visits (some event) = some found ↔
      ∃ steps, FoundAt next pick event steps found := by
    intro found
    rw [firstAlong_eq_some_iff]
    constructor
    · rintro ⟨steps, -, hfound⟩
      exact ⟨steps, hfound⟩
    · rintro ⟨steps, hfound⟩
      have hsteps := hfound.steps_le hnext
      exact ⟨steps, by omega, hfound⟩
  ext found
  rw [hlong, firstAlong_eq_some_iff_of_mem hnext]

/-! ## Both walks -/

namespace History

variable (history : History)

/-- **The bounded walks lose nothing.** For every log, every event to start at, in the log or not,
and every kind that is looked for, the walk back gives the first entry of the kind on the whole
chain of predecessors, and the walk forward the first exit of the kind on the whole chain of
successors. Where there is none they give none, and a walk of more visits gives the same. -/
theorem firstMatch_walks (event : Event) (filter : Option Category) :
    FirstMatch (predecessorIn history.events) (enteredOf filter) event
        (history.enteredAncestor? event filter)
      ∧ FirstMatch (successorIn history.events) (exitedOf filter) event
        (history.exitedDescendant? event filter)
      ∧ ∀ visits ≥ history.maxVisits,
        firstAlong history.before (enteredOf filter) visits (some event)
            = history.enteredAncestor? event filter
          ∧ firstAlong history.following (exitedOf filter) visits (some event)
            = history.exitedDescendant? event filter := by
  refine ⟨?_, ?_, ?_⟩
  · apply firstMatch_of_eq_some_iff
    intro entered
    rw [← before_eq_predecessorIn]
    exact history.enteredAncestor?_eq_some_iff
  · apply firstMatch_of_eq_some_iff
    intro exited
    rw [← following_eq_successorIn]
    exact history.exitedDescendant?_eq_some_iff
  · intro visits hvisits
    exact ⟨firstAlong_eq_of_le (fun _ _ => history.mem_of_before) hvisits event,
      firstAlong_eq_of_le (fun _ _ => history.mem_of_following) hvisits event⟩

/-- The bound is sharp where the start lies outside the log: the walk visits it and then every event
of the log, and the one entry is the last of them. -/
example :
    let entry : Event := ((({} : LogBuilder).entered .task "Work" "1").build).events[0]
    let start : Event :=
      { entry with id := .ofNat 2, previous := some entry.id, type := .lambdaSucceeded }
    let history : History := { events := [entry] }
    firstAlong history.before (enteredOf none) 1 (some start) = none
      ∧ (history.enteredAncestor? start none).isSome = true := by
  exact ⟨rfl, rfl⟩

end History

end WorkflowChart
