import Mathlib.Data.List.Pairwise
import WorkflowChart.Log.Builder
import WorkflowChart.Proofs.History.Visits
import WorkflowChart.Proofs.History.WholeChain

/-!
# The order in which branches are recorded

Branches that run side by side may be recorded in any order that puts each event after the one it
follows. Which event is the last one to speak of a state can depend on that order only if two of
them lie in different branches.

* **`LinksBack`**: logs in which every event comes after the one it follows.
* **`History.Concerns`**: the entries into a state and the completions that settle it.
* **`History.LeadsBack`**: the way back from one event to another.
* **`LastWord.eq_of_leadsBack`**: from the event that has the last word no later one leads back.
* **`History.visit_eq_of_perm`**: where the events that concern a state lie on one chain, it is
  reported with the same visit, whatever the order in which the log was recorded.
-/

namespace WorkflowChart

/-! ## Logs in different orders -/

/-- Where an event follows an event of the log, that one comes earlier in the log. -/
def LinksBack (events : List Event) : Prop :=
  ∀ (i : Nat) (hi : i < events.length) (j : Nat) (hj : j < events.length),
    events[i].previous = some events[j].id → j < i

/-- Where no key repeats among some events, a key belongs to one of them at most. -/
theorem eq_of_key_eq {key : Event → Option EventId} {events : List Event}
    (hkeys : (events.filterMap key).Nodup) {a b : Event} (ha : a ∈ events) (hb : b ∈ events)
    {id : EventId} (hida : key a = some id) (hidb : key b = some id) : a = b := by
  have hpairs := List.pairwise_filterMap.1 hkeys
  have hsymm : Std.Symm fun a b => ∀ id, key a = some id → ∀ id', key b = some id' → id ≠ id' :=
    ⟨fun a b h id hid id' hid' heq => h id' hid' id hid heq.symm⟩
  by_contra hne
  exact hpairs.forall ha hb hne id hida id hidb rfl

/-- Where no key repeats, a key finds the event that it belongs to. -/
theorem find?_key_eq_some_iff {key : Event → Option EventId} {events : List Event}
    (hkeys : (events.filterMap key).Nodup) {id : EventId} {event : Event} :
    (events.find? fun other => key other = some id) = some event ↔
      event ∈ events ∧ key event = some id := by
  constructor
  · intro hfind
    have hid := List.find?_some hfind
    exact ⟨List.mem_of_find?_eq_some hfind, by simpa using hid⟩
  · rintro ⟨hmem, hid⟩
    cases hfind : events.find? fun other => key other = some id with
    | none =>
      have hnone := List.find?_eq_none.1 hfind event hmem
      simp [hid] at hnone
    | some other =>
      have hother : key other = some id := by simpa using List.find?_some hfind
      rw [eq_of_key_eq hkeys (List.mem_of_find?_eq_some hfind) hmem hother hid]

/-- Where no id repeats, an id finds the event that has it. -/
theorem find?_id_eq_some_iff {events : List Event} (hids : (events.map Event.id).Nodup)
    {id : EventId} {event : Event} :
    (events.find? fun other => other.id = id) = some event ↔ event ∈ events ∧ event.id = id := by
  have hkeys : (events.filterMap fun event => some event.id).Nodup := by
    rwa [List.filterMap_eq_map']
  have hfind : (events.find? fun other => some other.id = some id) = some event ↔
      event ∈ events ∧ some event.id = some id := find?_key_eq_some_iff hkeys
  simpa only [Option.some.injEq] using hfind

/-- The event before an event does not depend on the order of the log. -/
theorem predecessorIn_eq_of_perm {events others : List Event} (hperm : events.Perm others)
    (hids : (events.map Event.id).Nodup) : predecessorIn events = predecessorIn others := by
  have hids' : (others.map Event.id).Nodup := (hperm.map Event.id).nodup_iff.1 hids
  funext event
  rw [predecessorIn, predecessorIn]
  congr 1
  funext id
  ext other
  rw [find?_id_eq_some_iff hids, find?_id_eq_some_iff hids', hperm.mem_iff]

namespace History

section Reordered

variable {history other : History}

/-- Steps back do not depend on the order of the log. -/
theorem before_eq_of_perm (hperm : history.events.Perm other.events)
    (hids : (history.events.map Event.id).Nodup) : history.before = other.before := by
  rw [before_eq_predecessorIn, before_eq_predecessorIn]
  exact predecessorIn_eq_of_perm hperm hids

/-- Nor does the nearest entry of a kind. -/
theorem enteredAncestor?_eq_of_perm (hperm : history.events.Perm other.events)
    (hids : (history.events.map Event.id).Nodup) :
    history.enteredAncestor? = other.enteredAncestor? := by
  funext event filter
  have hvisits : history.maxVisits = other.maxVisits := by
    rw [maxVisits, maxVisits, hperm.length_eq]
  rw [enteredAncestor?, enteredAncestor?, before_eq_of_perm hperm hids, hvisits]

/-- Nor does what an event says about a visit. -/
theorem visit?_eq_of_perm (hperm : history.events.Perm other.events)
    (hids : (history.events.map Event.id).Nodup) : history.visit? = other.visit? := by
  funext name event
  unfold visit?
  rw [enteredAncestor?_eq_of_perm hperm hids]

end Reordered

/-! ## The events that concern a state -/

variable (history : History)

/-- The event is an entry into the state `name`, or a completion of a construct that an entry into
the state has started. -/
def Concerns (name : String) (event : Event) : Prop :=
  (∃ entered, event.entered? = some entered ∧ entered.details.name = name) ∨
    (event.type.isCompletion = true ∧
      ∃ start, history.enteredAncestor? event (classify event) = some start ∧
        start.details.name = name)

/-- Some number of links back from the first event lies the second one. -/
def LeadsBack (event other : Event) : Prop :=
  ∃ steps, eventAlong history.before steps event = some other

/-- The events that concern a state are those that speak of a visit to it, failures apart. -/
theorem concerns_iff_visit? {name : String} {event : Event}
    (hfailure : event.type ≠ .lambdaFailed) :
    history.Concerns name event ↔ ∃ visit, history.visit? name event = some visit := by
  constructor
  · rintro (⟨entered, hentered, hname⟩ | ⟨hcompletion, start, hstart, hname⟩)
    · exact ⟨_, history.visit?_eq_some_iff.2 ⟨hname, Or.inl ⟨hentered, rfl⟩⟩⟩
    · have houtcome := Event.outcome?_of_isCompletion hcompletion
      exact ⟨_, history.visit?_eq_some_iff.2 ⟨hname, Or.inr ⟨houtcome, hstart⟩⟩⟩
  · rintro ⟨⟨status, start⟩, hvisit⟩
    obtain ⟨hname, ⟨hentered, -⟩ | ⟨houtcome, hstart⟩⟩ := history.visit?_eq_some_iff.1 hvisit
    · exact Or.inl ⟨start, hentered, hname⟩
    · rcases Event.outcome?_eq_some_iff.1 houtcome with ⟨hcompletion, -⟩ | ⟨htype, -⟩
      · exact Or.inr ⟨hcompletion, start, hstart, hname⟩
      · exact absurd htype hfailure

/-! ## The way back through a log -/

variable {history}

/-- Where links lead back, a step back leads to an earlier event of the log. -/
theorem exists_lt_of_before (hlinks : LinksBack history.events) {i : Nat}
    (hi : i < history.events.length) {other : Event}
    (h : history.before history.events[i] = some other) :
    ∃ (j : Nat) (hj : j < history.events.length), j < i ∧ history.events[j] = other := by
  obtain ⟨j, hj, rfl⟩ := List.getElem_of_mem (history.mem_of_before h)
  exact ⟨j, hj, hlinks i hi j hj (history.previous_of_before h), rfl⟩

/-- Where links lead back, any number of steps back leads to an earlier event of the log. -/
theorem exists_lt_of_eventAlong_succ (hlinks : LinksBack history.events) {steps i : Nat}
    (hi : i < history.events.length) {other : Event}
    (h : eventAlong history.before (steps + 1) history.events[i] = some other) :
    ∃ (j : Nat) (hj : j < history.events.length), j < i ∧ history.events[j] = other := by
  induction steps generalizing i with
  | zero =>
    rw [eventAlong_succ, Option.bind_eq_some_iff] at h
    obtain ⟨last, hstep, hlast⟩ := h
    cases hlast
    exact exists_lt_of_before hlinks hi hstep
  | succ steps ih =>
    rw [eventAlong_succ, Option.bind_eq_some_iff] at h
    obtain ⟨between, hstep, hrest⟩ := h
    obtain ⟨k, hk, hki, rfl⟩ := exists_lt_of_before hlinks hi hstep
    obtain ⟨j, hj, hjk, hother⟩ := ih hk hrest
    exact ⟨j, hj, Nat.lt_trans hjk hki, hother⟩

/-- An event from which the way leads back to another one is that one, or comes later in the log. -/
theorem LeadsBack.eq_or_mem_later (hids : (history.events.map Event.id).Nodup)
    (hlinks : LinksBack history.events) {event other : Event} (hmem : event ∈ history.events)
    {earlier later : List Event} (hsplit : history.events = earlier ++ other :: later)
    (h : history.LeadsBack event other) : event = other ∨ event ∈ later := by
  obtain ⟨steps, hsteps⟩ := h
  cases steps with
  | zero =>
    cases hsteps
    exact Or.inl rfl
  | succ steps =>
    obtain ⟨i, hi, rfl⟩ := List.getElem_of_mem hmem
    obtain ⟨j, hj, hji, hother⟩ := exists_lt_of_eventAlong_succ hlinks hi hsteps
    -- no event comes twice, so the other one is where the log was split
    have hplace : history.events[earlier.length]? = some other := by
      rw [hsplit]
      simp
    obtain ⟨hlt, hget⟩ := List.getElem?_eq_some_iff.1 hplace
    have hj' : j = earlier.length :=
      (List.Nodup.of_map _ hids).getElem_inj_iff.1 (hother.trans hget.symm)
    have hlater : history.events[i]? = later[i - earlier.length - 1]? := by
      rw [hsplit, List.getElem?_append_right (by omega), List.getElem?_cons, if_neg (by omega)]
    rw [List.getElem?_eq_getElem hi] at hlater
    exact Or.inr (List.mem_of_getElem? hlater.symm)

end History

namespace LastWord

variable {history other : History} {β : Type} {said : Event → Option β}

/-- An event that says something is the one that has the last word, if the way leads back from it to
that one. -/
theorem eq_of_leadsBack (hids : (history.events.map Event.id).Nodup)
    (hlinks : LinksBack history.events) {speaker event : Event} {word last : β}
    (h : LastWord said history.events speaker last) (hmem : event ∈ history.events)
    (hsaid : said event = some word) (hback : history.LeadsBack event speaker) :
    event = speaker := by
  obtain ⟨earlier, later, hsplit, hlater⟩ := h.last
  rcases hback.eq_or_mem_later hids hlinks hmem hsplit with heq | hmem'
  · exact heq
  · rw [hlater event hmem'] at hsaid
    contradiction

/-- The last word in two orders of a log is the same, if the way leads back from one of the two
events that have it to the other. -/
theorem eq_of_perm (hperm : history.events.Perm other.events)
    (hids : (history.events.map Event.id).Nodup) (hlinks : LinksBack history.events)
    (hlinks' : LinksBack other.events) {a b : Event} {word word' : β}
    (ha : LastWord said history.events a word) (hb : LastWord said other.events b word')
    (hchain : history.LeadsBack a b ∨ history.LeadsBack b a) : word = word' := by
  have hsame : a = b := by
    rcases hchain with hback | hback
    · -- the second order has the same links, and there the first event would come too late
      have hids' : (other.events.map Event.id).Nodup := (hperm.map Event.id).nodup_iff.1 hids
      have hback' : other.LeadsBack a b := by
        rw [History.LeadsBack, ← History.before_eq_of_perm hperm hids]
        exact hback
      exact hb.eq_of_leadsBack hids' hlinks' (hperm.mem_iff.1 ha.mem) ha.said_eq hback'
    · exact (ha.eq_of_leadsBack hids hlinks (hperm.mem_iff.2 hb.mem) hb.said_eq hback).symm
  have hwords := ha.said_eq
  rw [hsame, hb.said_eq] at hwords
  exact (Option.some.inj hwords).symm

end LastWord

namespace History

/-! ## The visit in both orders -/

/-- The visit that is reported is the last one that the events speak of, in a log without failures.
-/
theorem visit_of_detailsOf_of_ne_failed {history : History}
    (hfailure : ∀ event ∈ history.events, event.type ≠ .lambdaFailed) {name : String}
    {details : Details} (h : history.detailsOf name = .ok details) :
    (∃ speaker visit, LastWord (history.visit? name) history.events speaker visit ∧
        ShowsVisit visit details.visit) ∨
      ((∀ event ∈ history.events, history.visit? name event = none) ∧
        details.visit = Details.neverRun.visit) := by
  have hread : readEvents history.events = history.events := by
    apply readEvents_eq_self
    intro event hmem
    have hne := hfailure event hmem
    cases htype : event.type <;> simp_all [EventType.isFailure]
  have hvisit := history.visit_of_detailsOf h
  rwa [hread] at hvisit

/-- **The order in which branches are recorded does not matter.** Let two logs be made of the same
events, none of them a failure and no two with the same id, each of them after the one it follows. A
state is reported with the same status, input and time of entering by both, if its entries and the
completions that settle it lie on one chain of links. -/
theorem visit_eq_of_perm (history other : History) (hperm : history.events.Perm other.events)
    (hids : (history.events.map Event.id).Nodup)
    (hfailure : ∀ event ∈ history.events, event.type ≠ .lambdaFailed)
    (hlinks : LinksBack history.events) (hlinks' : LinksBack other.events) {name : String}
    (hchain : ∀ a ∈ history.events, ∀ b ∈ history.events, history.Concerns name a →
      history.Concerns name b → history.LeadsBack a b ∨ history.LeadsBack b a)
    {details details' : Details} (hdetails : history.detailsOf name = .ok details)
    (hdetails' : other.detailsOf name = .ok details') :
    details.status = details'.status ∧ details.input = details'.input ∧
      details.enteredAt = details'.enteredAt := by
  have hfailure' : ∀ event ∈ other.events, event.type ≠ .lambdaFailed := fun event hmem =>
    hfailure event (hperm.mem_iff.2 hmem)
  have hfirst := visit_of_detailsOf_of_ne_failed hfailure hdetails
  have hsecond := visit_of_detailsOf_of_ne_failed hfailure' hdetails'
  rw [← visit?_eq_of_perm hperm hids] at hsecond
  have hsame : details.visit = details'.visit := by
    rcases hfirst with ⟨a, visit, hlast, hshows⟩ | ⟨hnone, hnever⟩
    · rcases hsecond with ⟨b, visit', hlast', hshows'⟩ | ⟨hnone', -⟩
      · have hb : b ∈ history.events := hperm.mem_iff.2 hlast'.mem
        have hconcernsA := (history.concerns_iff_visit? (hfailure a hlast.mem)).2 ⟨_, hlast.said_eq⟩
        have hconcernsB := (history.concerns_iff_visit? (hfailure b hb)).2 ⟨_, hlast'.said_eq⟩
        -- both orders end with the same word, since the two events are on one chain
        have hword := hlast.eq_of_perm hperm hids hlinks hlinks' hlast'
          (hchain a hlast.mem b hb hconcernsA hconcernsB)
        subst hword
        exact hshows.unique hshows'
      · -- what speaks in one order speaks in the other
        have hsilent := hnone' a (hperm.mem_iff.1 hlast.mem)
        rw [hlast.said_eq] at hsilent
        contradiction
    · rcases hsecond with ⟨b, visit', hlast', -⟩ | ⟨-, hnever'⟩
      · have hsilent := hnone b (hperm.mem_iff.2 hlast'.mem)
        rw [hlast'.said_eq] at hsilent
        contradiction
      · rw [hnever, hnever']
  simpa [Details.visit] using hsame

/-! ## Two branches in two orders -/

/-- A run of a Parallel state with two branches, one of which is recorded after the other. -/
def oneAfterTheOther : Log :=
  ({} : LogBuilder).executionStarted "null"
    |>.entered .parallel "Fan" "null"
    |>.entered .task "Left" "1"
    |>.lambdaSucceeded "2"
    |>.exited .task "Left" "2"
    |>.after (.ofNat 2)
    |>.entered .task "Right" "3"
    |>.lambdaSucceeded "4"
    |>.exited .task "Right" "4"
    |>.parallelSucceeded
    |>.exited .parallel "Fan" "[2,4]"
    |>.build

/-- The same run with both branches recorded in turn. -/
def inTurn : Log where
  events := [0, 1, 5, 2, 6, 3, 7, 4, 8, 9].filterMap fun i => oneAfterTheOther.events[i]?

/-- The Parallel state is reported with the same visit by both. -/
theorem visit_eq_of_perm_inTurn :
    oneAfterTheOther.events.Perm inTurn.events ∧ oneAfterTheOther ≠ inTurn ∧
      ∃ details details', (ofLog oneAfterTheOther).detailsOf "Fan" = .ok details ∧
        (ofLog inTurn).detailsOf "Fan" = .ok details' ∧ details.status = details'.status ∧
        details.input = details'.input ∧ details.enteredAt = details'.enteredAt := by
  have hperm : oneAfterTheOther.events.Perm inTurn.events := by decide
  have hids : (oneAfterTheOther.events.map Event.id).Nodup := by decide
  have hfailure : ∀ event ∈ oneAfterTheOther.events, event.type ≠ .lambdaFailed := by decide
  have hlinks : LinksBack oneAfterTheOther.events := by unfold LinksBack; decide
  have hlinks' : LinksBack inTurn.events := by unfold LinksBack; decide
  -- two events concern the state, and from the later one the links lead back to the entry
  have honly : oneAfterTheOther.events.filter
      (fun event => ((ofLog oneAfterTheOther).visit? "Fan" event).isSome) =
        [oneAfterTheOther.events[1], oneAfterTheOther.events[8]] := by rfl
  have hback : (ofLog oneAfterTheOther).LeadsBack oneAfterTheOther.events[8]
      oneAfterTheOther.events[1] := ⟨4, by rfl⟩
  have hchain : ∀ a ∈ oneAfterTheOther.events, ∀ b ∈ oneAfterTheOther.events,
      (ofLog oneAfterTheOther).Concerns "Fan" a → (ofLog oneAfterTheOther).Concerns "Fan" b →
        (ofLog oneAfterTheOther).LeadsBack a b ∨ (ofLog oneAfterTheOther).LeadsBack b a := by
    have hcases : ∀ event ∈ oneAfterTheOther.events,
        (ofLog oneAfterTheOther).Concerns "Fan" event →
          event = oneAfterTheOther.events[1] ∨ event = oneAfterTheOther.events[8] := by
      intro event hmem hconcerns
      obtain ⟨visit, hvisit⟩ := ((ofLog oneAfterTheOther).concerns_iff_visit?
        (hfailure event hmem)).1 hconcerns
      have hfilter : event ∈ oneAfterTheOther.events.filter
          (fun event => ((ofLog oneAfterTheOther).visit? "Fan" event).isSome) :=
        List.mem_filter.2 ⟨hmem, by rw [hvisit]; rfl⟩
      rw [honly] at hfilter
      simpa using hfilter
    intro a ha b hb hconcernsA hconcernsB
    rcases hcases a ha hconcernsA with rfl | rfl <;> rcases hcases b hb hconcernsB with rfl | rfl
    · exact Or.inl ⟨0, rfl⟩
    · exact Or.inr hback
    · exact Or.inl hback
    · exact Or.inl ⟨0, rfl⟩
  refine ⟨hperm, by decide, _, _, rfl, rfl, ?_⟩
  exact (ofLog oneAfterTheOther).visit_eq_of_perm (ofLog inTurn) hperm hids hfailure hlinks hlinks'
    hchain rfl rfl

end History

end WorkflowChart
