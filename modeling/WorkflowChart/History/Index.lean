import Std.Data.TreeMap
import WorkflowChart.Log.Basic

/-!
# The index of a log

Where the events of a log are, by their ids and by the ids of the events they follow. Where several
events share a key, the first of them counts.

## Main definitions

* `EventIndex.ofEvents`: the index of a list of events, made in one pass.

## Main statements

* `EventIndex.lookup_addAll`: what recording one event does to a lookup, recording a list of events
  does with the first of them that is looked for.
* `EventIndex.position?_ofEvents`, `EventIndex.positionAfter?_ofEvents`: a look into the index finds
  what a search of the list from its front finds.
-/

namespace WorkflowChart

/-- Positions of events by their ids and by the ids of the events they follow. -/
structure EventIndex where
  byId : Std.TreeMap String Nat := {}
  byPrevious : Std.TreeMap String Nat := {}

namespace EventIndex

/-- Records an event at a position, unless its keys are taken. -/
def add (index : EventIndex) (position : Nat) (event : Event) : EventIndex where
  byId := index.byId.insertIfNew event.id.text position
  byPrevious :=
    match event.previous with
    | some previous => index.byPrevious.insertIfNew previous.text position
    | none => index.byPrevious

/-- Records events at the positions from the given one on. -/
def addAll (index : EventIndex) (position : Nat) : List Event → EventIndex
  | [] => index
  | event :: events => (index.add position event).addAll (position + 1) events

/-- The index of a list of events. -/
def ofEvents (events : List Event) : EventIndex :=
  addAll {} 0 events

/-- The position of the first event with an id. -/
def position? (index : EventIndex) (id : EventId) : Option Nat :=
  index.byId[id.text]?

/-- The position of the first event that follows the one with an id. -/
def positionAfter? (index : EventIndex) (id : EventId) : Option Nat :=
  index.byPrevious[id.text]?

/-! ## Lookups are searches -/

/-- An entry for a key that is taken changes nothing. -/
theorem getElem?_insertIfNew (table : Std.TreeMap String Nat) (key id : EventId)
    (position : Nat) :
    (table.insertIfNew key.text position)[id.text]? =
      table[id.text]?.or (if key = id then some position else none) := by
  simp only [Std.TreeMap.getElem?_insertIfNew, Std.LawfulEqCmp.compare_eq_iff_eq]
  by_cases h : key = id
  · subst h
    by_cases hm : key.text ∈ table <;> simp [hm]
  · have ht : key.text ≠ id.text := fun ht => h (EventId.ext ht)
    simp [h, ht]

/-- An event gets its position under its id, unless an earlier event has the id. -/
theorem position?_add (index : EventIndex) (position : Nat) (event : Event) (id : EventId) :
    (index.add position event).position? id =
      (index.position? id).or (if event.id = id then some position else none) :=
  getElem?_insertIfNew index.byId event.id id position

/-- An event gets its position under the id it follows, unless an earlier event follows it. -/
theorem positionAfter?_add (index : EventIndex) (position : Nat) (event : Event) (id : EventId) :
    (index.add position event).positionAfter? id =
      (index.positionAfter? id).or
        (if event.previous = some id then some position else none) := by
  cases hp : event.previous with
  | none => simp [positionAfter?, add, hp]
  | some previous =>
    simp only [positionAfter?, add, hp, Option.some.injEq]
    exact getElem?_insertIfNew index.byPrevious previous id position

/-- **The first event counts.** If recording an event gives a position to a lookup just where it
had none and the event is the one that is looked for, then recording events one after another gives
it the position of the first such event. -/
theorem lookup_addAll (lookup : EventIndex → Option Nat) (p : Event → Bool)
    (hadd : ∀ index position event, lookup (index.add position event) =
      (lookup index).or (if p event then some position else none))
    (events : List Event) (index : EventIndex) (position : Nat) :
    lookup (index.addAll position events) =
      (lookup index).or ((events.findIdx? p).map (· + position)) := by
  induction events generalizing index position with
  | nil => simp [addAll]
  | cons event events ih =>
    rw [addAll, ih, hadd, List.findIdx?_cons]
    by_cases h : p event
    · simp [h]
    · cases lookup index <;>
        simp [h, Option.map_map, Function.comp_def, Nat.add_comm, Nat.add_left_comm]

/-- The index finds the first event with an id. -/
theorem position?_ofEvents (events : List Event) (id : EventId) :
    (ofEvents events).position? id = events.findIdx? fun event => event.id = id := by
  have hall := lookup_addAll (fun index => index.position? id) (fun event => event.id = id)
    (fun index position event => by simp [position?_add]) events {} 0
  simpa [ofEvents, position?] using hall

/-- The index finds the first event that follows the one with an id. -/
theorem positionAfter?_ofEvents (events : List Event) (id : EventId) :
    (ofEvents events).positionAfter? id =
      events.findIdx? fun event => event.previous = some id := by
  have hall := lookup_addAll (fun index => index.positionAfter? id)
    (fun event => event.previous = some id)
    (fun index position event => by simp [positionAfter?_add]) events {} 0
  simpa [ofEvents, positionAfter?] using hall

end EventIndex

end WorkflowChart
