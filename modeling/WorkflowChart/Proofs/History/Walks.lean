import Mathlib.Data.List.Nodup
import Mathlib.Data.List.Perm.Subperm
import WorkflowChart.History.Basic

/-!
# Walks along the links of a log

A walk visits at most one event more than the log has. That is enough: a chain that has not met a
match by then goes round in a circle of events that it has already visited.

* **`eventAlong`**: the event that is a number of links away, without a bound.
* **`FoundAt`**: the first match on a chain and how many links away it is.
* **`Meets`**, **`MeetsFirst`**: a match with a name lies on a chain, or comes before all with
  another name.
* **`History.enteredAncestor?_eq_some_iff`**, **`History.exitedDescendant?_eq_some_iff`**: the
  bounded walks find the first match on the whole chain.
* **`History.mem_of_enteredAncestor?`**, **`History.mem_of_foundAt`**: what the walks find are
  events of the log.
* **`History.enteredAncestor?_step`**, **`History.exitedDescendant?_step`**: one step of a walk.
-/

namespace WorkflowChart

/-! ## Chains -/

/-- The event that is `steps` links away from an event. -/
def eventAlong (next : Event → Option Event) : (steps : Nat) → Event → Option Event
  | 0, event => some event
  | steps + 1, event => (next event).bind (eventAlong next steps)

/-- One link more is the first link, and then the others. -/
theorem eventAlong_succ (next : Event → Option Event) (steps : Nat) (event : Event) :
    eventAlong next (steps + 1) event = (next event).bind (eventAlong next steps) := rfl

/-- Going along `m + n` links is going along `m` of them and then along `n`. -/
theorem eventAlong_add (next : Event → Option Event) (m n : Nat) (event : Event) :
    eventAlong next (m + n) event = (eventAlong next m event).bind (eventAlong next n) := by
  induction m generalizing event with
  | zero => rw [Nat.zero_add]; rfl
  | succ m ih =>
    rw [Nat.succ_add, eventAlong_succ, eventAlong_succ, Option.bind_assoc]
    exact congrArg _ (funext ih)

/-- Only the start of a chain can lie outside the events that the links lead to. -/
theorem mem_of_eventAlong_succ {next : Event → Option Event} {events : List Event}
    (hnext : ∀ a b, next a = some b → b ∈ events) {steps : Nat} {event other : Event}
    (h : eventAlong next (steps + 1) event = some other) : other ∈ events := by
  rw [eventAlong_add, Option.bind_eq_some_iff] at h
  obtain ⟨last, -, hlast⟩ := h
  rw [eventAlong_succ, Option.bind_eq_some_iff] at hlast
  obtain ⟨_, hstep, hend⟩ := hlast
  cases hend
  exact hnext _ _ hstep

/-! ## The first match on a chain -/

variable {α : Type} {next : Event → Option Event} {pick : Event → Option α}

/-- `found` is what `pick` makes of the event `steps` links away, and of no nearer event does it
make anything. -/
structure FoundAt (next : Event → Option Event) (pick : Event → Option α) (event : Event)
    (steps : Nat) (found : α) : Prop where
  reached : ∃ other, eventAlong next steps event = some other ∧ pick other = some found
  nearer : ∀ k < steps, ∀ other, eventAlong next k event = some other → pick other = none

/-- A match at the start itself. -/
theorem foundAt_zero {event : Event} {found : α} :
    FoundAt next pick event 0 found ↔ pick event = some found := by
  constructor
  · rintro ⟨⟨other, hother, hpick⟩, -⟩
    cases hother
    exact hpick
  · intro h
    exact ⟨⟨event, rfl, h⟩, fun k hk => absurd hk (Nat.not_lt_zero k)⟩

/-- A match that is further away is a match from the next event on. -/
theorem foundAt_succ {event : Event} {steps : Nat} {found : α} :
    FoundAt next pick event (steps + 1) found ↔
      pick event = none ∧
        ∃ other, next event = some other ∧ FoundAt next pick other steps found := by
  constructor
  · rintro ⟨⟨last, hlast, hpick⟩, hnearer⟩
    rw [eventAlong_succ, Option.bind_eq_some_iff] at hlast
    obtain ⟨other, hother, hlast⟩ := hlast
    refine ⟨hnearer 0 (Nat.succ_pos steps) event rfl, other, hother, ⟨last, hlast, hpick⟩, ?_⟩
    intro k hk between hbetween
    refine hnearer (k + 1) (Nat.succ_lt_succ hk) between ?_
    rw [eventAlong_succ, hother]
    exact hbetween
  · rintro ⟨hnone, other, hother, ⟨last, hlast, hpick⟩, hnearer⟩
    refine ⟨⟨last, ?_, hpick⟩, ?_⟩
    · rw [eventAlong_succ, hother]
      exact hlast
    · intro k hk between hbetween
      -- an event that is nearer is the start itself or lies on the rest of the chain
      cases k with
      | zero => cases hbetween; exact hnone
      | succ k =>
        rw [eventAlong_succ, hother] at hbetween
        exact hnearer k (Nat.lt_of_succ_lt_succ hk) between hbetween

/-- There is at most one first match. -/
theorem FoundAt.unique {event : Event} {m n : Nat} {a b : α} (ha : FoundAt next pick event m a)
    (hb : FoundAt next pick event n b) : m = n ∧ a = b := by
  obtain ⟨⟨x, hx, hpx⟩, hma⟩ := ha
  obtain ⟨⟨y, hy, hpy⟩, hnb⟩ := hb
  -- the nearer of two matches would come before the other
  rcases Nat.lt_trichotomy m n with h | rfl | h
  · rw [hnb m h x hx] at hpx
    contradiction
  · rw [hx] at hy
    cases hy
    rw [hpx] at hpy
    cases hpy
    exact ⟨rfl, rfl⟩
  · rw [hma n h y hy] at hpy
    contradiction

/-- Where a chain meets a match, it meets a first one that is no further away. -/
theorem exists_foundAt {event other : Event} {steps : Nat} {found : α}
    (hother : eventAlong next steps event = some other) (hpick : pick other = some found) :
    ∃ k ≤ steps, ∃ first, FoundAt next pick event k first := by
  induction steps generalizing event with
  | zero =>
    cases hother
    exact ⟨0, Nat.le_refl 0, found, foundAt_zero.2 hpick⟩
  | succ steps ih =>
    cases hstart : pick event with
    | some first => exact ⟨0, Nat.zero_le _, first, foundAt_zero.2 hstart⟩
    | none =>
      rw [eventAlong_succ, Option.bind_eq_some_iff] at hother
      obtain ⟨second, hsecond, hrest⟩ := hother
      obtain ⟨k, hk, first, hfirst⟩ := ih hrest
      exact ⟨k + 1, Nat.succ_le_succ hk, first, foundAt_succ.2 ⟨hstart, second, hsecond, hfirst⟩⟩

/-- Where links from some events lead to these events only, a chain that starts at one of them finds
its first match among them. -/
theorem FoundAt.exists_mem {events : List Event}
    (hnext : ∀ a ∈ events, ∀ b, next a = some b → b ∈ events) {event : Event}
    (hmem : event ∈ events) {steps : Nat} {found : α} (h : FoundAt next pick event steps found) :
    ∃ other ∈ events, pick other = some found := by
  induction steps generalizing event with
  | zero => exact ⟨event, hmem, foundAt_zero.1 h⟩
  | succ steps ih =>
    obtain ⟨-, other, hother, hrest⟩ := foundAt_succ.1 h
    exact ih (hnext event hmem other hother) hrest

/-! ## Bounded walks -/

/-- A walk finds the first match if that is within its bound. -/
theorem firstAlong_eq_some_iff {visits : Nat} {event : Event} {found : α} :
    firstAlong next pick visits (some event) = some found ↔
      ∃ steps < visits, FoundAt next pick event steps found := by
  induction visits generalizing event with
  | zero => simp [firstAlong]
  | succ visits ih =>
    rw [firstAlong]
    -- the walk ends where it is, or it goes on with one visit less
    cases hpick : pick event with
    | some first =>
      constructor
      · intro h
        cases h
        exact ⟨0, Nat.succ_pos visits, foundAt_zero.2 hpick⟩
      · rintro ⟨steps, -, hfound⟩
        exact congrArg some ((foundAt_zero.2 hpick).unique hfound).2
    | none =>
      constructor
      · intro h
        cases hnext : next event with
        | none =>
          rw [hnext] at h
          cases visits <;> simp [firstAlong] at h
        | some other =>
          rw [hnext] at h
          obtain ⟨steps, hlt, hfound⟩ := ih.1 h
          exact ⟨steps + 1, Nat.succ_lt_succ hlt, foundAt_succ.2 ⟨hpick, other, hnext, hfound⟩⟩
      · rintro ⟨steps, hlt, hfound⟩
        cases steps with
        | zero =>
          rw [foundAt_zero, hpick] at hfound
          contradiction
        | succ steps =>
          obtain ⟨-, other, hnext, hrest⟩ := foundAt_succ.1 hfound
          rw [hnext]
          exact ih.2 ⟨steps, Nat.lt_of_succ_lt_succ hlt, hrest⟩

/-- The events between a start and its first match are different from each other: where one came
twice, the match would come earlier. -/
theorem FoundAt.ne_of_lt {event x y : Event} {steps i j : Nat} {found : α}
    (h : FoundAt next pick event steps found) (hij : i < j) (hj : j ≤ steps)
    (hx : eventAlong next i event = some x) (hy : eventAlong next j event = some y) : x ≠ y := by
  rintro rfl
  obtain ⟨⟨last, hlast, hpick⟩, hnearer⟩ := h
  -- the way from `j` on to the match also leads from `i` to it
  have hshort : eventAlong next (i + (steps - j)) event = some last := by
    rw [show steps = j + (steps - j) by omega, eventAlong_add, hy] at hlast
    rw [eventAlong_add, hx]
    exact hlast
  have hnone := hnearer (i + (steps - j)) (by omega) last hshort
  rw [hpick] at hnone
  contradiction

/-- The first match is no more links away than there are events that the links lead to. -/
theorem FoundAt.steps_le {events : List Event} (hnext : ∀ a b, next a = some b → b ∈ events)
    {event : Event} {steps : Nat} {found : α} (h : FoundAt next pick event steps found) :
    steps ≤ events.length := by
  obtain ⟨last, hlast, -⟩ := h.reached
  -- every event on the way to the match is there
  have hvisit : ∀ k ≤ steps, ∃ other, eventAlong next k event = some other := by
    intro k hk
    rw [show steps = k + (steps - k) by omega, eventAlong_add, Option.bind_eq_some_iff] at hlast
    obtain ⟨other, hother, -⟩ := hlast
    exact ⟨other, hother⟩
  -- the events visited after the start, one for each step
  let visited : List (Option Event) :=
    (List.range steps).map fun k => eventAlong next (k + 1) event
  have hnodup : visited.Nodup := by
    refine List.Nodup.map_on ?_ List.nodup_range
    intro i hi j hj hij
    rw [List.mem_range] at hi hj
    obtain ⟨x, hx⟩ := hvisit (i + 1) hi
    obtain ⟨y, hy⟩ := hvisit (j + 1) hj
    rw [hx, hy, Option.some.injEq] at hij
    rcases Nat.lt_trichotomy i j with hlt | heq | hlt
    · exact absurd hij (h.ne_of_lt (Nat.succ_lt_succ hlt) hj hx hy)
    · exact heq
    · exact absurd hij.symm (h.ne_of_lt (Nat.succ_lt_succ hlt) hi hy hx)
  have hsubset : visited ⊆ events.map some := by
    intro other? hmem
    obtain ⟨k, hk, rfl⟩ := List.mem_map.1 hmem
    obtain ⟨other, hother⟩ := hvisit (k + 1) (List.mem_range.1 hk)
    rw [hother]
    exact List.mem_map_of_mem (mem_of_eventAlong_succ hnext hother)
  have hlength := (hnodup.subperm hsubset).length_le
  simpa [visited] using hlength

/-- A walk that may visit one event more than the links lead to finds the first match, if there is
one. -/
theorem firstAlong_eq_some_iff_of_mem {events : List Event}
    (hnext : ∀ a b, next a = some b → b ∈ events) {event : Event} {found : α} :
    firstAlong next pick (events.length + 1) (some event) = some found ↔
      ∃ steps, FoundAt next pick event steps found := by
  rw [firstAlong_eq_some_iff]
  constructor
  · rintro ⟨steps, -, hfound⟩
    exact ⟨steps, hfound⟩
  · rintro ⟨steps, hfound⟩
    exact ⟨steps, Nat.lt_succ_of_le (hfound.steps_le hnext), hfound⟩

/-- Such a walk is at its end, or goes on from the next event as a walk of the same bound. -/
theorem firstAlong_step_of_mem {events : List Event}
    (hnext : ∀ a b, next a = some b → b ∈ events) (event : Event) :
    firstAlong next pick (events.length + 1) (some event) =
      (pick event).or ((next event).bind fun other =>
        firstAlong next pick (events.length + 1) (some other)) := by
  -- both sides find the first match of the chain, wherever that is
  ext found
  rw [firstAlong_eq_some_iff_of_mem hnext]
  cases hpick : pick event with
  | some first =>
    rw [Option.some_or]
    constructor
    · rintro ⟨steps, hfound⟩
      exact congrArg some ((foundAt_zero.2 hpick).unique hfound).2
    · intro h
      cases h
      exact ⟨0, foundAt_zero.2 hpick⟩
  | none =>
    rw [Option.none_or, Option.bind_eq_some_iff]
    constructor
    · rintro ⟨steps, hfound⟩
      cases steps with
      | zero =>
        rw [foundAt_zero, hpick] at hfound
        contradiction
      | succ steps =>
        obtain ⟨-, other, hother, hrest⟩ := foundAt_succ.1 hfound
        exact ⟨other, hother, (firstAlong_eq_some_iff_of_mem hnext).2 ⟨steps, hrest⟩⟩
    · rintro ⟨other, hother, hrest⟩
      obtain ⟨steps, hfound⟩ := (firstAlong_eq_some_iff_of_mem hnext).1 hrest
      exact ⟨steps + 1, foundAt_succ.2 ⟨hpick, other, hother, hfound⟩⟩

/-! ## Matches that carry a name -/

/-- A match with the name lies somewhere on the chain. -/
def Meets (next : Event → Option Event) (pick : Event → Option α) (nameOf : α → String)
    (event : Event) (name : String) : Prop :=
  ∃ steps other found, eventAlong next steps event = some other ∧ pick other = some found ∧
    nameOf found = name

/-- A match with the name lies on the chain, and each match that is nearer has the name as well. -/
def MeetsFirst (next : Event → Option Event) (pick : Event → Option α) (nameOf : α → String)
    (event : Event) (name : String) : Prop :=
  ∃ steps other found, eventAlong next steps event = some other ∧ pick other = some found ∧
    nameOf found = name ∧
    ∀ k < steps, ∀ between nearer, eventAlong next k event = some between →
      pick between = some nearer → nameOf nearer = name

/-- Where a chain meets a name, it has a first match. -/
theorem Meets.exists_foundAt {nameOf : α → String} {event : Event} {name : String}
    (h : Meets next pick nameOf event name) :
    ∃ steps found, FoundAt next pick event steps found := by
  obtain ⟨steps, other, found, hother, hpick, -⟩ := h
  obtain ⟨k, -, first, hfirst⟩ := WorkflowChart.exists_foundAt hother hpick
  exact ⟨k, first, hfirst⟩

/-- A chain meets a name first just where its first match has the name. -/
theorem FoundAt.meetsFirst_iff {nameOf : α → String} {event : Event} {name : String} {steps : Nat}
    {found : α} (h : FoundAt next pick event steps found) :
    MeetsFirst next pick nameOf event name ↔ nameOf found = name := by
  constructor
  · rintro ⟨far, other, last, hother, hpick, hname, hnearer⟩
    obtain ⟨k, hk, first, hfirst⟩ := WorkflowChart.exists_foundAt hother hpick
    obtain ⟨rfl, rfl⟩ := h.unique hfirst
    obtain ⟨between, hbetween, hfound⟩ := h.reached
    -- the first match is nearer than the one with the name, or it is that one
    rcases Nat.lt_or_eq_of_le hk with hlt | rfl
    · exact hnearer steps hlt between found hbetween hfound
    · rw [hother] at hbetween
      cases hbetween
      rw [hpick] at hfound
      cases hfound
      exact hname
  · intro hname
    obtain ⟨other, hother, hpick⟩ := h.reached
    refine ⟨steps, other, found, hother, hpick, hname, ?_⟩
    intro k hk between nearer hbetween hmatch
    rw [h.nearer k hk between hbetween] at hmatch
    contradiction

/-! ## The walks of a history -/

namespace History

variable (history : History)

/-- A link back leads to an event of the log. -/
theorem mem_of_before {event other : Event} (h : history.before event = some other) :
    other ∈ history.events := by
  rw [before, Option.bind_eq_some_iff] at h
  obtain ⟨id, -, hid⟩ := h
  rw [findById_eq_find?] at hid
  exact List.mem_of_find?_eq_some hid

/-- A step back leads to an event of the id that is given as the one before. -/
theorem previous_of_before {event other : Event} (h : history.before event = some other) :
    event.previous = some other.id := by
  obtain ⟨id, hid, hfind⟩ := Option.bind_eq_some_iff.1 h
  rw [findById_eq_find?] at hfind
  obtain rfl : other.id = id := by simpa using List.find?_some hfind
  exact hid

/-- A link forward leads to an event of the log. -/
theorem mem_of_following {event other : Event} (h : history.following event = some other) :
    other ∈ history.events := by
  rw [following, findByPrevious_eq_find?] at h
  exact List.mem_of_find?_eq_some h

/-- A step forward leads to an event that gives the id as the one before. -/
theorem previous_of_following {event other : Event} (h : history.following event = some other) :
    other.previous = some event.id := by
  rw [following, findByPrevious_eq_find?] at h
  simpa using List.find?_some h

/-- The walk back finds the first entry of its kind on the whole chain. -/
theorem enteredAncestor?_eq_some_iff {event : Event} {filter : Option Category}
    {entered : Entered} :
    history.enteredAncestor? event filter = some entered ↔
      ∃ steps, FoundAt history.before (enteredOf filter) event steps entered :=
  firstAlong_eq_some_iff_of_mem fun _ _ => history.mem_of_before

/-- The walk forward finds the first exit of its kind on the whole chain. -/
theorem exitedDescendant?_eq_some_iff {event : Event} {filter : Option Category}
    {exited : Exited} :
    history.exitedDescendant? event filter = some exited ↔
      ∃ steps, FoundAt history.following (exitedOf filter) event steps exited :=
  firstAlong_eq_some_iff_of_mem fun _ _ => history.mem_of_following

/-- An event seen as an entry is the event of that entry. -/
theorem event_of_entered? {event : Event} {entered : Entered}
    (h : event.entered? = some entered) : entered.event = event := by
  unfold Event.entered? at h
  split at h
  · cases h
    rfl
  · contradiction

/-- An event seen as an entry into a state of a kind is the event of that entry. -/
theorem event_of_enteredOf {filter : Option Category} {event : Event} {entered : Entered}
    (h : enteredOf filter event = some entered) :
    event.entered? = some entered ∧ entered.event = event := by
  have hentered := (Option.filter_eq_some_iff.1 h).1
  exact ⟨hentered, event_of_entered? hentered⟩

/-- An event seen as an exit is the event of that exit. -/
theorem event_of_exitedOf {filter : Option Category} {event : Event} {exited : Exited}
    (h : exitedOf filter event = some exited) :
    event.exited? = some exited ∧ exited.event = event := by
  have hexited := (Option.filter_eq_some_iff.1 h).1
  refine ⟨hexited, ?_⟩
  unfold Event.exited? at hexited
  split at hexited
  · cases hexited
    rfl
  · contradiction

/-- Where steps back from some events lead to these events only, the entry that is found for one of
them is one of them. -/
theorem mem_of_enteredAncestor? {events : List Event}
    (hbefore : ∀ a ∈ events, ∀ b, history.before a = some b → b ∈ events) {event : Event}
    (hmem : event ∈ events) {filter : Option Category} {start : Entered}
    (h : history.enteredAncestor? event filter = some start) :
    start.event ∈ events ∧ start.event.entered? = some start := by
  obtain ⟨steps, hfound⟩ := history.enteredAncestor?_eq_some_iff.1 h
  obtain ⟨entry, hentry, hpick⟩ := hfound.exists_mem hbefore hmem
  obtain ⟨hentered, heq⟩ := event_of_enteredOf hpick
  rw [heq]
  exact ⟨hentry, hentered⟩

/-- An exit on the way forward from an event of the log is in the log. -/
theorem mem_of_foundAt {event : Event} {filter : Option Category} {steps : Nat} {stop : Exited}
    (hevent : event ∈ history.events)
    (h : FoundAt history.following (exitedOf filter) event steps stop) :
    stop.event ∈ history.events ∧ stop.event.exited? = some stop := by
  obtain ⟨exit, hexit, hpick⟩ := h.exists_mem (fun _ _ _ => history.mem_of_following) hevent
  obtain ⟨hexited, heq⟩ := event_of_exitedOf hpick
  rw [heq]
  exact ⟨hexit, hexited⟩

/-- The walk back stops at an entry of its kind, and else goes on from the event before. -/
theorem enteredAncestor?_step (event : Event) (filter : Option Category) :
    history.enteredAncestor? event filter =
      (enteredOf filter event).or
        ((history.before event).bind (history.enteredAncestor? · filter)) :=
  firstAlong_step_of_mem (fun _ _ => history.mem_of_before) event

/-- The walk forward stops at an exit of its kind, and else goes on from the event that follows. -/
theorem exitedDescendant?_step (event : Event) (filter : Option Category) :
    history.exitedDescendant? event filter =
      (exitedOf filter event).or
        ((history.following event).bind (history.exitedDescendant? · filter)) :=
  firstAlong_step_of_mem (fun _ _ => history.mem_of_following) event

/-- An exit of the kind is where the walk forward from it ends. -/
theorem exitedDescendant?_of_exit {event : Event} {category : Category} {exit : ExitedDetails}
    (htype : event.type = .stateExited category) (hexit : event.exitedDetails = some exit) :
    history.exitedDescendant? event (some category) =
      some { event, category, details := exit } := by
  have hpick : exitedOf (some category) event = some { event, category, details := exit } := by
    simp [exitedOf, Event.exited?, htype, hexit, fits]
  rw [exitedDescendant?_step, hpick, Option.some_or]

end History

end WorkflowChart
