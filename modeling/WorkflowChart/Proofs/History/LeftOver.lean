import WorkflowChart.Proofs.History.BothWays
import WorkflowChart.Proofs.History.ReportedExit

/-!
# Outputs that are left over

The details of a state tell an entry, by the input and the time of entering, and an exit, by the
output and the time of leaving. Every event that settles the state tells an entry, but an exit only
if one lies on the way forward from it. Where none does, the exit that an earlier event has told
stays, be it one of an earlier visit.

* **`History.leadsBack_of_exitedDescendant?`**: where ids are distinct, the way leads back from the
  exit that is found for an event.
* **`History.FromOneVisit`**: the entry and the exit that are told belong to one visit.
* **`History.leadsBack_or_leftOver`**: they do if the event that settled the state last tells an
  exit. Else the exit is left over from an earlier event.
-/

namespace WorkflowChart

namespace History

variable {history : History}

/-! ## The way back -/

/-- The way back goes on. -/
theorem LeadsBack.trans {a b c : Event} (hab : history.LeadsBack a b)
    (hbc : history.LeadsBack b c) : history.LeadsBack a c := by
  obtain ⟨m, hm⟩ := hab
  obtain ⟨n, hn⟩ := hbc
  refine ⟨m + n, ?_⟩
  rw [eventAlong_add, hm]
  exact hn

/-- The way leads back from an event to the entry that is found for it, which is in the log. -/
theorem leadsBack_of_enteredAncestor? {event : Event} {filter : Option Category} {start : Entered}
    (hmem : event ∈ history.events) (h : history.enteredAncestor? event filter = some start) :
    history.LeadsBack event start.event ∧ start.event ∈ history.events ∧
      start.event.entered? = some start := by
  obtain ⟨steps, hfound⟩ := history.enteredAncestor?_eq_some_iff.1 h
  obtain ⟨entry, hentry, hpick⟩ := hfound.reached
  have hback : history.LeadsBack event start.event := by
    rw [(event_of_enteredOf hpick).2]
    exact ⟨steps, hentry⟩
  exact ⟨hback, history.mem_of_enteredAncestor? (fun _ _ _ => history.mem_of_before) hmem h⟩

/-- The way leads back from the exit that is found for an event to the event. -/
theorem leadsBack_of_exitedDescendant? (hids : (history.events.map Event.id).Nodup)
    {event : Event} {filter : Option Category} {stop : Exited} (hmem : event ∈ history.events)
    (h : history.exitedDescendant? event filter = some stop) :
    history.LeadsBack stop.event event := by
  obtain ⟨steps, hfound⟩ := history.exitedDescendant?_eq_some_iff.1 h
  have hback := (exitAfter_of_foundAt hids hmem hfound).back
  rw [← before_eq_predecessorIn] at hback
  exact ⟨steps, hback⟩

/-! ## Visits and exits that one event tells -/

/-- An event that settles the state `name` tells the exit on its way forward, if there is one. -/
theorem reportedExit?_of_visit? {name : String} {event : Event} {status : Status} {start : Entered}
    (hvisit : history.visit? name event = some (status, start))
    (hstatus : status ≠ .indeterminate) :
    history.enteredAncestor? event (classify event) = some start ∧
      history.reportedExit? name event = history.exitedDescendant? event (classify event) := by
  obtain ⟨hname, ⟨-, rfl⟩ | ⟨houtcome, hstart⟩⟩ := history.visit?_eq_some_iff.1 hvisit
  · -- an entry leaves the state indeterminate
    exact absurd rfl hstatus
  · have hresolve := history.resolve_eq_ok_iff.2 ⟨hstart, rfl⟩
    refine ⟨hstart, ?_⟩
    rw [history.reportedExit?_of_outcome? houtcome hresolve, if_pos hname]

/-- An event that tells an exit tells an entry too. -/
theorem exists_visit?_of_reportedExit? {name : String} {event : Event} {stop : Exited}
    (h : history.reportedExit? name event = some stop) :
    ∃ visit, history.visit? name event = some visit := by
  unfold reportedExit? at h
  split at h
  · next houtcome hresolve =>
    split at h
    · next hname =>
      have hstart := (history.resolve_eq_ok_iff.1 hresolve).1
      rw [history.visit?_of_outcome? houtcome hstart, if_pos hname]
      exact ⟨_, rfl⟩
    · contradiction
  · contradiction

/-! ## The visit and the exit that the details tell -/

/-- The entry and the exit are events of the log, and the details tell their times and payloads. -/
structure Supplies (history : History) (details : Details) (entered : Entered) (exited : Exited) :
    Prop where
  entered_mem : entered.event ∈ history.events
  entered_eq : entered.event.entered? = some entered
  exited_mem : exited.event ∈ history.events
  exited_eq : exited.event.exited? = some exited
  enteredAt : details.enteredAt = some entered.event.timestamp
  input : entered.payload = .ok details.input
  exitedAt : details.exitedAt = some exited.event.timestamp
  output : exited.payload = .ok details.output

/-- What the details tell is an entry and an exit of one visit: the way leads back from the exit to
the entry. -/
def FromOneVisit (history : History) (details : Details) : Prop :=
  ∃ entered exited, history.Supplies details entered exited ∧
    history.LeadsBack exited.event entered.event

/-- Another entry and another exit, which do belong to one visit, coincide with those that the
details tell. -/
def HasTwinVisit (history : History) (details : Details) (start : Entered) (stop : Exited) : Prop :=
  ∃ entered exited, (entered, exited) ≠ (start, stop) ∧ history.Supplies details entered exited ∧
    history.LeadsBack exited.event entered.event

/-- Coincidences apart, the details are from one visit just where the way leads back from their exit
to their entry. -/
theorem Supplies.fromOneVisit_iff {details : Details} {start : Entered} {stop : Exited}
    (h : history.Supplies details start stop) :
    history.FromOneVisit details ↔
      history.LeadsBack stop.event start.event ∨ history.HasTwinVisit details start stop := by
  constructor
  · rintro ⟨entered, exited, hsupplies, hback⟩
    by_cases hsame : (entered, exited) = (start, stop)
    · cases hsame
      exact Or.inl hback
    · exact Or.inr ⟨entered, exited, hsame, hsupplies, hback⟩
  · rintro (hback | ⟨entered, exited, -, hsupplies, hback⟩)
    · exact ⟨start, stop, h, hback⟩
    · exact ⟨entered, exited, hsupplies, hback⟩

/-- A state that has succeeded or failed is shown with the last visit that the events speak of, and
that visit has been settled. -/
theorem exists_settler {name : String} {details : Details}
    (hdetails : history.detailsOf name = .ok details)
    (hsettled : details.status = .success ∨ details.status = .fail) :
    ∃ settler start,
      LastWord (history.visit? name) (readEvents history.events) settler (details.status, start) ∧
        ShowsVisit (details.status, start) details.visit := by
  rcases history.visit_of_detailsOf hdetails with ⟨settler, visit, hlast, hshows⟩ | ⟨-, hnever⟩
  · obtain ⟨status, start⟩ := visit
    obtain rfl : details.status = status := hshows.1
    exact ⟨settler, start, hlast, hshows⟩
  · have hstatus : details.status = .neverRun := congrArg Prod.fst hnever
    rw [hstatus] at hsettled
    simp at hsettled

/-- **The exit is that of the visit, or it is left over.** Let no id repeat, and let a state be
shown as succeeded or failed, with a time of leaving. Its entry is the one that the last event to
settle it has been traced to. If an exit lies on the way forward from that event, this is the one
that is shown, and it belongs to the visit. If none does, the one that is shown is left over from
the events before, where it was told last; then it may belong to another visit. -/
theorem leadsBack_or_leftOver (hids : (history.events.map Event.id).Nodup) {name : String}
    {details : Details} (hdetails : history.detailsOf name = .ok details)
    (hsettled : details.status = .success ∨ details.status = .fail)
    (hexited : details.exitedAt.isSome = true) :
    ∃ settler start stop,
      LastWord (history.visit? name) (readEvents history.events) settler (details.status, start)
      ∧ history.Supplies details start stop
      ∧ (history.FromOneVisit details ↔
          history.LeadsBack stop.event start.event ∨ history.HasTwinVisit details start stop)
      ∧ (history.exitedDescendant? settler (classify settler) = some stop
            ∧ history.LeadsBack stop.event start.event
          ∨ history.exitedDescendant? settler (classify settler) = none
            ∧ ∃ earlier later reporter, readEvents history.events = earlier ++ settler :: later
              ∧ history.LastReport earlier name reporter stop) := by
  obtain ⟨settler, start, hlast, -, hinput, htime⟩ := exists_settler hdetails hsettled
  obtain ⟨reporter, stop, hreport, hexitedAt, houtput⟩ := history.exists_lastReport hdetails hexited
  have hstatus : details.status ≠ .indeterminate := by
    rcases hsettled with h | h <;> simp [h]
  have hsettler : settler ∈ history.events := mem_of_mem_readEvents hlast.mem
  obtain ⟨hstart, htold⟩ := reportedExit?_of_visit? hlast.said_eq hstatus
  obtain ⟨hbackStart, hstartMem, hentered⟩ := leadsBack_of_enteredAncestor? hsettler hstart
  -- the exit that is shown is an event of the log, whoever has told it
  have hlastReport : LastWord (history.reportedExit? name) (readEvents history.events) reporter
      stop := ⟨hreport.reported, hreport.last⟩
  obtain ⟨steps, hfound⟩ := history.foundAt_of_reportedExit? hreport.reported
  obtain ⟨hstopMem, hexit⟩ :=
    history.mem_of_foundAt (mem_of_mem_readEvents hlastReport.mem) hfound
  have hsupplies : history.Supplies details start stop :=
    ⟨hstartMem, hentered, hstopMem, hexit, htime, hinput, hexitedAt, houtput⟩
  refine ⟨settler, start, stop, hlast, hsupplies, hsupplies.fromOneVisit_iff, ?_⟩
  -- after the settler no event speaks of the state, so none tells an exit
  obtain ⟨earlier, later, hread, hlater⟩ := hlast.last
  have hsilent : ∀ event ∈ later, history.reportedExit? name event = none := by
    intro event hmem
    cases hother : history.reportedExit? name event with
    | none => rfl
    | some other =>
      obtain ⟨visit, hvisit⟩ := exists_visit?_of_reportedExit? hother
      rw [hlater event hmem] at hvisit
      contradiction
  cases hforward : history.exitedDescendant? settler (classify settler) with
  | some own =>
    have hown : LastWord (history.reportedExit? name) (readEvents history.events) settler own :=
      ⟨htold.trans hforward, earlier, later, hread, hsilent⟩
    obtain rfl : own = stop := (hown.unique hlastReport).2
    have hbackStop := leadsBack_of_exitedDescendant? hids hsettler hforward
    exact Or.inl ⟨rfl, hbackStop.trans hbackStart⟩
  | none =>
    rw [hread] at hlastReport
    have hquiet : ∀ event ∈ settler :: later, history.reportedExit? name event = none :=
      List.forall_mem_cons.2 ⟨htold.trans hforward, hsilent⟩
    have hbefore := hlastReport.of_append hquiet
    exact Or.inr ⟨rfl, earlier, later, reporter, hread, hbefore.said_eq, hbefore.last⟩

/-! ## A loop whose last visit fails -/

/-- A run that comes back to a Task state and fails there, without an exit. -/
def failedSecondVisit : Log :=
  ({} : LogBuilder).executionStarted "null"
    |>.entered .task "Poll" "null"
    |>.lambdaSucceeded "true"
    |>.exited .task "Poll" "true"
    |>.entered .task "Poll" "false"
    |>.lambdaFailed "Error" "cause"
    |>.build

/-- What the log says about the state: it was left before it was entered. -/
theorem detailsOf_failedSecondVisit :
    (ofLog failedSecondVisit).detailsOf "Poll" = .ok
      { status := .fail, input := some (.bool false), output := some (.bool true),
        enteredAt := some ⟨0, 4, 0⟩, exitedAt := some ⟨0, 3, 0⟩ } := by rfl

/-- No id repeats in the log. -/
theorem nodup_ids_failedSecondVisit : (failedSecondVisit.events.map Event.id).Nodup := by decide

/-- Every event of the log follows an earlier one, if any. -/
theorem linksBack_failedSecondVisit : LinksBack failedSecondVisit.events := by
  unfold LinksBack
  decide

/-- The only exit of the log is the one from the first visit. -/
theorem eq_of_exited?_failedSecondVisit {exited : Exited}
    (hmem : exited.event ∈ failedSecondVisit.events)
    (hexited : exited.event.exited? = some exited) :
    exited = ⟨failedSecondVisit.events[3], .task, { name := "Poll", output := some "true" }⟩ := by
  have hexits : failedSecondVisit.events.filterMap Event.exited? =
      [⟨failedSecondVisit.events[3], .task, { name := "Poll", output := some "true" }⟩] := by rfl
  have honly : exited ∈ failedSecondVisit.events.filterMap Event.exited? :=
    List.mem_filterMap.2 ⟨_, hmem, hexited⟩
  rw [hexits] at honly
  exact List.mem_singleton.1 honly

/-- The failure of the second visit tells its entry and no exit. What is shown is the exit from the
first visit, which was told before. -/
theorem leadsBack_or_leftOver_failedSecondVisit :
    (failedSecondVisit.events.map Event.id).Nodup ∧
      ∃ earlier later reporter start stop,
        readEvents failedSecondVisit.events = earlier ++ failedSecondVisit.events[5] :: later
        ∧ (ofLog failedSecondVisit).LastReport earlier "Poll" reporter stop
        ∧ start.event = failedSecondVisit.events[4] ∧ stop.event = failedSecondVisit.events[3]
        ∧ (ofLog failedSecondVisit).Supplies
            { status := .fail, input := some (.bool false), output := some (.bool true),
              enteredAt := some ⟨0, 4, 0⟩, exitedAt := some ⟨0, 3, 0⟩ } start stop := by
  obtain ⟨settler, start, stop, hlast, hsupplies, -, hcases⟩ := leadsBack_or_leftOver
    nodup_ids_failedSecondVisit detailsOf_failedSecondVisit (Or.inr rfl) rfl
  have hfailure : LastWord ((ofLog failedSecondVisit).visit? "Poll")
      (readEvents failedSecondVisit.events) failedSecondVisit.events[5]
      (.fail, ⟨failedSecondVisit.events[4], .task, { name := "Poll", input := some "false" }⟩) :=
    ⟨by rfl, failedSecondVisit.events.take 5, [], by rfl, List.forall_mem_nil _⟩
  obtain ⟨rfl, hstart⟩ := hlast.unique hfailure
  cases hstart
  have hstop := eq_of_exited?_failedSecondVisit hsupplies.exited_mem hsupplies.exited_eq
  rcases hcases with ⟨hforward, -⟩ | ⟨-, earlier, later, reporter, hread, hreport⟩
  · -- nothing follows the failure
    have hnone : (ofLog failedSecondVisit).exitedDescendant? failedSecondVisit.events[5]
        (classify failedSecondVisit.events[5]) = none := by rfl
    rw [hnone] at hforward
    contradiction
  · exact ⟨nodup_ids_failedSecondVisit, earlier, later, reporter, _, stop, hread, hreport, rfl,
      by rw [hstop], hsupplies⟩

/-- The entry and the exit that are shown do not always belong to one visit, even where each event
comes after the one it follows: here the only exit comes before the entry that is shown. -/
theorem not_forall_fromOneVisit :
    ¬ ∀ (log : Log) (name : String) (details : Details),
      (log.events.map Event.id).Nodup → LinksBack log.events →
      (ofLog log).detailsOf name = .ok details →
      details.status = .success ∨ details.status = .fail →
      details.enteredAt.isSome = true → details.exitedAt.isSome = true →
      (ofLog log).FromOneVisit details := by
  intro hall
  obtain ⟨entered, exited, hsupplies, steps, hsteps⟩ := hall failedSecondVisit "Poll" _
    nodup_ids_failedSecondVisit linksBack_failedSecondVisit detailsOf_failedSecondVisit
    (Or.inr rfl) rfl rfl
  have htime : some (⟨0, 4, 0⟩ : Instant) = some entered.event.timestamp := hsupplies.enteredAt
  rw [eq_of_exited?_failedSecondVisit hsupplies.exited_mem hsupplies.exited_eq] at hsteps
  -- steps back lead to no later event, and the entry that is shown is one
  have hearly : ∀ event ∈ failedSecondVisit.events.take 4, event.timestamp ≠ ⟨0, 4, 0⟩ := by
    decide
  apply hearly entered.event _ (Option.some.inj htime).symm
  cases steps with
  | zero =>
    rw [← Option.some.inj hsteps]
    decide
  | succ steps =>
    have hplace : 3 < (ofLog failedSecondVisit).events.length := by decide
    obtain ⟨j, hj, hlt, hevent⟩ :=
      exists_lt_of_eventAlong_succ linksBack_failedSecondVisit hplace hsteps
    rw [← hevent]
    have hearlier : j < min 4 failedSecondVisit.events.length :=
      Nat.lt_min.2 ⟨Nat.lt_succ_of_lt hlt, hj⟩
    exact List.mem_take_iff_getElem.2 ⟨j, hearlier, rfl⟩

end History

end WorkflowChart
