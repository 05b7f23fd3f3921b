import WorkflowChart.History.Basic
import WorkflowChart.Log.Builder

/-!
# Looking events up

A lookup asks a table for a position and takes the event that stands there in the log. The tables
are filled in one pass, and nothing is known of the log: ids can repeat, several events can follow
the same one, an event can follow none or one that the log does not have. The lookups still find
what a search of the log from its front finds, and no table has a position beyond the end of the
log.

* **`FirstAt`**: an event stands at a position, has a key, and is the first one that has it.
* **`findIdx?_eq_some_iff_firstAt`**: where a search from the front stops.
* **`AgreesWithSearch`**: a position from a table and the event found with it, compared with a
  search of the log.
* **`History.agreesWithSearch_lookups`**: both lookups agree with a search.
-/

namespace WorkflowChart

variable {key : Event → Option EventId} {id : EventId} {events : List Event}

/-- The event stands at the position and has the key, and no event before it has the key. An event
may lack a key. -/
structure FirstAt (key : Event → Option EventId) (id : EventId) (events : List Event)
    (position : Nat) (event : Event) : Prop where
  getElem?_eq : events[position]? = some event
  key_eq : key event = some id
  key_ne : ∀ earlier < position, ∀ other, events[earlier]? = some other → key other ≠ some id

/-- A search from the front stops at the first event with the key. -/
theorem findIdx?_eq_some_iff_firstAt {position : Nat} :
    (events.findIdx? fun event => key event = some id) = some position ↔
      ∃ event, FirstAt key id events position event := by
  rw [List.findIdx?_eq_some_iff_getElem]
  constructor
  · rintro ⟨hlt, hkey, hearlier⟩
    refine ⟨events[position], List.getElem?_eq_getElem hlt, by simpa using hkey, ?_⟩
    intro earlier hbefore other hother
    obtain ⟨_, rfl⟩ := List.getElem?_eq_some_iff.1 hother
    simpa using hearlier earlier hbefore
  · rintro ⟨event, hevent, hkey, hne⟩
    obtain ⟨hlt, rfl⟩ := List.getElem?_eq_some_iff.1 hevent
    refine ⟨hlt, by simpa using hkey, ?_⟩
    intro earlier hbefore
    have hother := List.getElem?_eq_getElem (Nat.lt_trans hbefore hlt)
    simpa using hne earlier hbefore _ hother

/-- What such a search finds is the event that it stops at. -/
theorem find?_eq_some_iff_firstAt {event : Event} :
    (events.find? fun other => key other = some id) = some event ↔
      ∃ position, FirstAt key id events position event := by
  rw [← History.getElem?_findIdx?, Option.bind_eq_some_iff]
  constructor
  · rintro ⟨position, hstop, hget⟩
    obtain ⟨first, hfirst⟩ := findIdx?_eq_some_iff_firstAt.1 hstop
    -- one event stands at the position
    rw [hfirst.getElem?_eq, Option.some.injEq] at hget
    exact ⟨position, hget ▸ hfirst⟩
  · rintro ⟨position, hfirst⟩
    exact ⟨position, findIdx?_eq_some_iff_firstAt.2 ⟨event, hfirst⟩, hfirst.getElem?_eq⟩

/-- The position that a table has for a key and the event that is found with it agree with a search
of the events from their front. -/
structure AgreesWithSearch (key : Event → Option EventId) (id : EventId) (events : List Event)
    (position? : Option Nat) (found? : Option Event) : Prop where
  /-- What is found is what the search finds. -/
  eq_find? : found? = events.find? fun event => key event = some id
  /-- The first event with the key is found. -/
  eq_some_iff : ∀ event, found? = some event ↔ ∃ position, FirstAt key id events position event
  /-- Nothing is found just where no event has the key. -/
  eq_none_iff : found? = none ↔ ∀ event ∈ events, key event ≠ some id
  /-- The table has the position of the first event with the key. -/
  position_iff : ∀ position, position? = some position ↔
    ∃ event, FirstAt key id events position event
  /-- There is an event at the position, and it is the one found. -/
  within : ∀ position, position? = some position →
    ∃ h : position < events.length, found? = some events[position]

/-- **Taking the event at the position where a search stops is searching.** -/
theorem agreesWithSearch_of_findIdx? {position? : Option Nat}
    (hposition : position? = events.findIdx? fun event => key event = some id) :
    AgreesWithSearch key id events position?
      (position?.bind fun position => events[position]?) := by
  subst hposition
  rw [History.getElem?_findIdx?]
  refine ⟨rfl, fun _ => find?_eq_some_iff_firstAt, ?_, fun _ => findIdx?_eq_some_iff_firstAt, ?_⟩
  · rw [List.find?_eq_none]
    simp
  · intro position hstop
    obtain ⟨event, hfirst⟩ := findIdx?_eq_some_iff_firstAt.1 hstop
    obtain ⟨hlt, hget⟩ := List.getElem?_eq_some_iff.1 hfirst.getElem?_eq
    exact ⟨hlt, hget ▸ find?_eq_some_iff_firstAt.2 ⟨position, hfirst⟩⟩

namespace History

/-- **The lookups agree with a search of the log.** Take any list of events, whatever their ids and
links are, and any id. The event found by the id is the first one that has it, the event found by
the id before is the first one that gives it as the one before, and each is missing just where no
event of the log is such. The positions in both tables are positions of the log. -/
theorem agreesWithSearch_lookups (events : List Event) (id : EventId) :
    let history : History := { events }
    AgreesWithSearch (fun event => some event.id) id events (history.index.position? id)
        (history.findById id)
      ∧ AgreesWithSearch Event.previous id events (history.index.positionAfter? id)
        (history.findByPrevious id) := by
  constructor
  · apply agreesWithSearch_of_findIdx?
    simp only [Option.some.injEq]
    exact EventIndex.position?_ofEvents events id
  · apply agreesWithSearch_of_findIdx?
    exact EventIndex.positionAfter?_ofEvents events id

/-- Of two events with one id the first is found, and an id that no event has finds nothing, though
an event follows it. -/
example :
    let event : Event := ((({} : LogBuilder).entered .task "Work" "1").build).events[0]
    let again : Event := { event with previous := some (.ofNat 7) }
    let history : History := { events := [event, again] }
    history.findById event.id = some event ∧ history.findById (.ofNat 7) = none
      ∧ history.findByPrevious (.ofNat 7) = some again := by
  exact ⟨rfl, rfl, rfl⟩

end History

end WorkflowChart
