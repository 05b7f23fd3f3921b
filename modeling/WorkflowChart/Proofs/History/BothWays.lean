import WorkflowChart.Proofs.History.Crediting
import WorkflowChart.Proofs.History.Interleaving

/-!
# Steps forward and steps back

The walk forward goes from an event to the first one in the log that follows it, the walk back from
an event to the one that it follows. Where no id repeats, a step forward can be taken back. Where no
two events follow the same one, a step back can be taken forward as well, so that both walks go
along the same links.

* **`eventAlong_reverse`**: steps that can be taken back one by one can be taken back together.
* **`History.before_of_following`**, **`History.following_of_before`**: one step.
* **`ExitAfter`**, **`NearestExit`**: an exit from which links lead back to an event, and the one
  that is the fewest links away.
* **`History.leadsBack_and_nearest`**: the walk forward finds an exit of the first sort, and where
  the links do not fork it finds the nearest one.
-/

namespace WorkflowChart

/-- **Steps that can be taken back one by one** can be taken back together, as many as there are. -/
theorem eventAlong_reverse {next back : Event → Option Event} {events : List Event}
    (hback : ∀ a ∈ events, ∀ b, next a = some b → b ∈ events ∧ back b = some a) {steps : Nat}
    {event other : Event} (hmem : event ∈ events) (h : eventAlong next steps event = some other) :
    other ∈ events ∧ eventAlong back steps other = some event := by
  induction steps generalizing event with
  | zero =>
    cases h
    exact ⟨hmem, rfl⟩
  | succ steps ih =>
    rw [eventAlong_succ, Option.bind_eq_some_iff] at h
    obtain ⟨between, hfirst, hrest⟩ := h
    obtain ⟨hbetween, hlast⟩ := hback event hmem between hfirst
    obtain ⟨hother, hway⟩ := ih hbetween hrest
    -- the first step forward is the last one back
    refine ⟨hother, ?_⟩
    rw [eventAlong_add, hway, Option.bind_some, eventAlong_succ, hlast]
    rfl

/-! ## Exits from which links lead back -/

/-- The exit is an event of the log and of the kind that is looked for, and the event lies `steps`
links back from it. -/
structure ExitAfter (events : List Event) (filter : Option Category) (event : Event) (steps : Nat)
    (exited : Exited) : Prop where
  mem : exited.event ∈ events
  exited_eq : exited.event.exited? = some exited
  fits_category : fits filter exited.category = true
  back : eventAlong (predecessorIn events) steps exited.event = some event

/-- Of all exits of the kind from which links lead back to the event, the exit is the one that is
the fewest links away. -/
structure NearestExit (events : List Event) (filter : Option Category) (event : Event)
    (steps : Nat) (exited : Exited) : Prop extends ExitAfter events filter event steps exited where
  le : ∀ far other, ExitAfter events filter event far other → steps ≤ far
  eq_of_same : ∀ other, ExitAfter events filter event steps other → other = exited

namespace History

variable {history : History} {event other : Event} {filter : Option Category} {steps : Nat}
  {exited : Exited}

/-! ## One step -/

/-- **A step forward can be taken back**, where no id repeats. -/
theorem before_of_following (hids : (history.events.map Event.id).Nodup)
    (hmem : event ∈ history.events) (h : history.following event = some other) :
    history.before other = some event := by
  rw [before, history.previous_of_following h, Option.bind_some, findById_eq_find?]
  exact (find?_id_eq_some_iff hids).2 ⟨hmem, rfl⟩

/-- **A step back can be taken forward**, where no two events follow the same one. -/
theorem following_of_before (hprevious : (history.events.filterMap Event.previous).Nodup)
    (hmem : event ∈ history.events) (h : history.before event = some other) :
    history.following other = some event := by
  rw [following, findByPrevious_eq_find?]
  exact (find?_key_eq_some_iff hprevious).2 ⟨hmem, history.previous_of_before h⟩

/-! ## Exits on the way forward -/

/-- The way forward to an exit of the kind is a way back from it. -/
theorem exitAfter_of_following (hids : (history.events.map Event.id).Nodup)
    (hmem : event ∈ history.events) (hway : eventAlong history.following steps event = some other)
    (hpick : exitedOf filter other = some exited) :
    ExitAfter history.events filter event steps exited := by
  obtain ⟨hother, hback⟩ := eventAlong_reverse
    (fun a ha b hb => ⟨history.mem_of_following hb, before_of_following hids ha hb⟩) hmem hway
  obtain ⟨hexited, rfl⟩ := event_of_exitedOf hpick
  rw [before_eq_predecessorIn] at hback
  exact ⟨hother, hexited, (Option.filter_eq_some_iff.1 hpick).2, hback⟩

/-- The way back from an exit of the kind is a way forward to it, where the links do not fork. -/
theorem following_of_exitAfter (hprevious : (history.events.filterMap Event.previous).Nodup)
    (h : ExitAfter history.events filter event steps exited) :
    eventAlong history.following steps event = some exited.event ∧
      exitedOf filter exited.event = some exited := by
  have hback := h.back
  rw [← before_eq_predecessorIn] at hback
  refine ⟨?_, Option.filter_eq_some_iff.2 ⟨h.exited_eq, h.fits_category⟩⟩
  exact (eventAlong_reverse
    (fun a ha b hb => ⟨history.mem_of_before hb, following_of_before hprevious ha hb⟩) h.mem
    hback).2

/-- From the exit that is found on the way forward, links lead back. -/
theorem exitAfter_of_foundAt (hids : (history.events.map Event.id).Nodup)
    (hmem : event ∈ history.events)
    (h : FoundAt history.following (exitedOf filter) event steps exited) :
    ExitAfter history.events filter event steps exited := by
  obtain ⟨exit, hexit, hpick⟩ := h.reached
  exact exitAfter_of_following hids hmem hexit hpick

/-- Where the links do not fork, the exit that is found first is the nearest one. -/
theorem nearestExit_of_foundAt (hids : (history.events.map Event.id).Nodup)
    (hprevious : (history.events.filterMap Event.previous).Nodup) (hmem : event ∈ history.events)
    (h : FoundAt history.following (exitedOf filter) event steps exited) :
    NearestExit history.events filter event steps exited where
  toExitAfter := exitAfter_of_foundAt hids hmem h
  le := by
    intro far other hother
    obtain ⟨hway, hpick⟩ := following_of_exitAfter hprevious hother
    obtain ⟨k, hk, first, hfirst⟩ := exists_foundAt hway hpick
    rw [(h.unique hfirst).1]
    exact hk
  eq_of_same := by
    intro other hother
    obtain ⟨hway, hpick⟩ := following_of_exitAfter hprevious hother
    obtain ⟨exit, hexit, hfound⟩ := h.reached
    -- both lie the same number of links away, and there is one event there
    rw [hway, Option.some.injEq] at hexit
    rw [hexit, hfound, Option.some.injEq] at hpick
    exact hpick.symm

/-- **The walk forward agrees with the links back.** Let no id repeat. From the exit that the walk
forward from an event finds, links lead back to the event. And let no two events follow the same
one. If then links lead back to the event from any exit of the kind, the walk finds one, and it is
the one that is the fewest links away. -/
theorem leadsBack_and_nearest (hids : (history.events.map Event.id).Nodup)
    (hmem : event ∈ history.events) (filter : Option Category) :
    (∀ exited, history.exitedDescendant? event filter = some exited →
        ∃ steps, ExitAfter history.events filter event steps exited)
      ∧ ((history.events.filterMap Event.previous).Nodup →
        ∀ far other, ExitAfter history.events filter event far other →
          ∃ steps exited, history.exitedDescendant? event filter = some exited
            ∧ NearestExit history.events filter event steps exited) := by
  constructor
  · intro exited hexited
    obtain ⟨steps, hfound⟩ := history.exitedDescendant?_eq_some_iff.1 hexited
    exact ⟨steps, exitAfter_of_foundAt hids hmem hfound⟩
  · intro hprevious far other hother
    obtain ⟨hway, hpick⟩ := following_of_exitAfter hprevious hother
    obtain ⟨steps, -, exited, hfound⟩ := exists_foundAt hway hpick
    exact ⟨steps, exited, history.exitedDescendant?_eq_some_iff.2 ⟨steps, hfound⟩,
      nearestExit_of_foundAt hids hprevious hmem hfound⟩

/-- Links lead back to the entry into the outer state from its own exit and from the one of the
inner state. The walk forward finds the latter, since it is nearer. -/
theorem leadsBack_and_nearest_nestedMaps :
    let history := ofLog nestedMaps
    let entry := nestedMaps.events[1]
    ((history.events.map Event.id).Nodup ∧ (history.events.filterMap Event.previous).Nodup
      ∧ entry ∈ history.events
      ∧ ExitAfter history.events (some .map) entry 3
          ⟨nestedMaps.events[4], .map, { name := "Outer", output := some "[4]" }⟩)
    ∧ ∃ exited, history.exitedDescendant? entry (some .map) = some exited
      ∧ exited.details.name = "Inner" ∧ NearestExit history.events (some .map) entry 2 exited := by
  have hids : ((ofLog nestedMaps).events.map Event.id).Nodup := by decide
  have hprevious : ((ofLog nestedMaps).events.filterMap Event.previous).Nodup := by decide
  have hmem : nestedMaps.events[1] ∈ (ofLog nestedMaps).events := List.getElem_mem _
  have houter : ExitAfter (ofLog nestedMaps).events (some .map) nestedMaps.events[1] 3
      ⟨nestedMaps.events[4], .map, { name := "Outer", output := some "[4]" }⟩ :=
    ⟨List.getElem_mem _, rfl, rfl, rfl⟩
  obtain ⟨steps, exited, hfound, hnearest⟩ :=
    (leadsBack_and_nearest hids hmem (some .map)).2 hprevious 3 _ houter
  have hinner : (ofLog nestedMaps).exitedDescendant? nestedMaps.events[1] (some .map) =
      some ⟨nestedMaps.events[3], .map, { name := "Inner", output := some "[3]" }⟩ := by rfl
  rw [hinner, Option.some.injEq] at hfound
  subst hfound
  have htwo : ExitAfter (ofLog nestedMaps).events (some .map) nestedMaps.events[1] 2
      ⟨nestedMaps.events[3], .map, { name := "Inner", output := some "[3]" }⟩ :=
    ⟨List.getElem_mem _, rfl, rfl, rfl⟩
  have hle : steps ≤ 2 := hnearest.le 2 _ htwo
  obtain rfl | rfl | rfl : steps = 0 ∨ steps = 1 ∨ steps = 2 := by omega
  · exact absurd hnearest.back (by decide)
  · exact absurd hnearest.back (by decide)
  · exact ⟨⟨hids, hprevious, hmem, houter⟩, _, hinner, rfl, hnearest⟩

end History

end WorkflowChart
