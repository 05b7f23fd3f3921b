import WorkflowChart.History.Index

/-!
# Histories

A log made ready for questions: which event has an id, which one follows it, and which entry into a
state or exit from one is the nearest along the links.

## Main definitions

* `History`: the events of a log with their index.
* `History.findById`, `History.findByPrevious`: the two lookups.
* `History.enteredAncestor?`, `History.exitedDescendant?`: the two walks along the links.

A walk that visits an event twice goes round in a circle. It stops after one more visit than there
are events.
-/

namespace WorkflowChart

/-- The events of a log with their index. -/
structure History where
  events : List Event
  index : EventIndex := .ofEvents events
  /-- The index is the one of the events. -/
  index_eq : index = .ofEvents events := by rfl

/-- Whether a category is the one that is looked for, if one is. -/
def fits (filter : Option Category) (category : Category) : Bool :=
  filter.all (· = category)

/-- The first result of `pick` along a chain of at most `visits` events. -/
def firstAlong {α : Type} (next : Event → Option Event) (pick : Event → Option α) :
    (visits : Nat) → Option Event → Option α
  | 0, _ => none
  | _ + 1, none => none
  | visits + 1, some event =>
    match pick event with
    | some found => some found
    | none => firstAlong next pick visits (next event)

namespace History

/-- The history of a log. -/
def ofLog (log : Log) : History :=
  { events := log.events }

/-- The first event with an id. -/
def findById (history : History) (id : EventId) : Option Event :=
  (history.index.position? id).bind fun position => history.events[position]?

/-- The first event that follows the one with an id. Where the links fork, others follow it too. -/
def findByPrevious (history : History) (id : EventId) : Option Event :=
  (history.index.positionAfter? id).bind fun position => history.events[position]?

/-- The event at the first position where `p` holds is the first event for which it does. -/
theorem getElem?_findIdx? (events : List Event) (p : Event → Bool) :
    ((events.findIdx? p).bind fun position => events[position]?) = events.find? p := by
  induction events with
  | nil => rfl
  | cons event events ih =>
    rw [List.findIdx?_cons, List.find?_cons]
    cases p event with
    | true => rfl
    | false =>
      rw [← ih]
      cases events.findIdx? p <;> rfl

/-- The event with an id is the first one that a search of the log finds. -/
theorem findById_eq_find? (history : History) (id : EventId) :
    history.findById id = history.events.find? fun event => event.id = id := by
  rw [findById, history.index_eq, EventIndex.position?_ofEvents, getElem?_findIdx?]

/-- The event that follows the one with an id is the first one that a search of the log finds. -/
theorem findByPrevious_eq_find? (history : History) (id : EventId) :
    history.findByPrevious id = history.events.find? fun event => event.previous = some id := by
  rw [findByPrevious, history.index_eq, EventIndex.positionAfter?_ofEvents, getElem?_findIdx?]

/-- The event before an event. -/
def before (history : History) (event : Event) : Option Event :=
  event.previous.bind history.findById

/-- The first event after an event. -/
def following (history : History) (event : Event) : Option Event :=
  history.findByPrevious event.id

/-- The number of visits after which a walk has seen all that it can see. -/
def maxVisits (history : History) : Nat :=
  history.events.length + 1

/-- An event as the entry into a state of the kind that is looked for. -/
def enteredOf (filter : Option Category) (event : Event) : Option Entered :=
  event.entered?.filter fun entered => fits filter entered.category

/-- An event as the exit from a state of the kind that is looked for. -/
def exitedOf (filter : Option Category) (event : Event) : Option Exited :=
  event.exited?.filter fun exited => fits filter exited.category

/-- The nearest entry into a state of a kind, from an event on back along the links. -/
def enteredAncestor? (history : History) (event : Event) (filter : Option Category) :
    Option Entered :=
  firstAlong history.before (enteredOf filter) history.maxVisits (some event)

/-- The nearest exit from a state of a kind, from an event on forward along the links. -/
def exitedDescendant? (history : History) (event : Event) (filter : Option Category) :
    Option Exited :=
  firstAlong history.following (exitedOf filter) history.maxVisits (some event)

/-- The kind of construct that an event belongs to. -/
def classify (event : Event) : Option Category :=
  event.type.category

end History

end WorkflowChart
