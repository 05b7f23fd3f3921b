import WorkflowChart.Log.Builder
import WorkflowChart.Proofs.History.LastWord
import WorkflowChart.Proofs.History.Walks

/-!
# The exit that is reported

The output of a state and the time at which it was left come from an exit on the way forward from
the event that settled it. That exit is the first one of the kind of the event. After the success or
failure of a function any kind will do, and nobody asks which state the exit names.

* **`History.reportedExit?`**: the exit that an event reports for a state.
* **`History.LastReport`**: the last event that reports one.
* **`History.ReportsOwnExit`**, **`History.OwnExitFirst`**: the reported exit is one from the state
  itself, or lies first on the way forward.
* **`History.exists_lastReport_iff`**: what is reported comes from the last report, and is the
  state's own just where the exit from the state lies first.
-/

namespace WorkflowChart

namespace History

variable (history : History)

/-! ## The report of one event -/

/-- The exit that an event reports for the state `name`: the one that ended the construct that the
event settles, if that was started by an entry into the state. -/
def reportedExit? (name : String) (event : Event) : Option Exited :=
  match event.outcome?, history.resolve event with
  | some _, .ok (start, stop?) => if start.details.name = name then stop? else none
  | _, _ => none

/-- An event that settles no construct reports no exit. -/
theorem reportedExit?_of_none {event : Event} (houtcome : event.outcome? = none) (name : String) :
    history.reportedExit? name event = none := by
  rw [reportedExit?, houtcome]

/-- An event that settles a construct reports the exit of the construct for the state that was
entered. -/
theorem reportedExit?_of_outcome? {event : Event} {status : Status} {start : Entered}
    {stop? : Option Exited} (houtcome : event.outcome? = some status)
    (hresolve : history.resolve event = .ok (start, stop?)) (name : String) :
    history.reportedExit? name event = if start.details.name = name then stop? else none := by
  rw [reportedExit?, houtcome, hresolve]

/-- One event replaces the time of the exit and the output by those of the exit that it reports, or
leaves both as they are. -/
theorem exit_of_note {name : String} {details after : Details} {event : Event}
    (h : history.note name details event = .ok after) :
    (∃ stop, history.reportedExit? name event = some stop ∧
      after.exitedAt = some stop.event.timestamp ∧ stop.payload = .ok after.output) ∨
    (history.reportedExit? name event = none ∧ after.exitedAt = details.exitedAt ∧
      after.output = details.output) := by
  cases noted_of_note h with
  | entry entered hentered hname henter =>
    -- an entry changes the status, the input and the time of entering, and nothing else
    have houtcome := Event.outcome?_eq_none_of_entered? hentered
    obtain ⟨input, -, rfl⟩ := Details.enter_eq_ok_iff.1 henter
    exact Or.inr ⟨history.reportedExit?_of_none houtcome name, rfl, rfl⟩
  | outcome status start stop? houtcome hresolve hname hsettle =>
    rw [history.reportedExit?_of_outcome? houtcome hresolve, if_pos hname]
    cases stop? with
    | none =>
      obtain ⟨input, -, rfl⟩ := Details.settle_none_eq_ok_iff.1 hsettle
      exact Or.inr ⟨rfl, rfl, rfl⟩
    | some stop =>
      obtain ⟨input, output, -, houtput, rfl⟩ := Details.settle_some_eq_ok_iff.1 hsettle
      exact Or.inl ⟨stop, rfl, rfl, houtput⟩
  | otherEntry entered hentered hname hkept =>
    have houtcome := Event.outcome?_eq_none_of_entered? hentered
    subst hkept
    exact Or.inr ⟨history.reportedExit?_of_none houtcome name, rfl, rfl⟩
  | otherOutcome status start stop? houtcome hresolve hname hkept =>
    rw [history.reportedExit?_of_outcome? houtcome hresolve, if_neg hname]
    subst hkept
    exact Or.inr ⟨rfl, rfl, rfl⟩
  | silent hentered houtcome hkept =>
    subst hkept
    exact Or.inr ⟨history.reportedExit?_of_none houtcome name, rfl, rfl⟩

/-! ## The last report -/

/-- Among the events, `settler` is the last one that reports an exit for the state `name`. The exit
is `stop`. -/
structure LastReport (events : List Event) (name : String) (settler : Event) (stop : Exited) :
    Prop where
  reported : history.reportedExit? name settler = some stop
  last : ∃ earlier later, events = earlier ++ settler :: later ∧
    ∀ event ∈ later, history.reportedExit? name event = none

/-- A run over events leaves behind the time and the output of the last exit that is reported. Where
none is reported it leaves both as they are. -/
theorem exit_of_foldlM_note {name : String} {events : List Event} {details after : Details}
    (h : events.foldlM (history.note name) details = .ok after) :
    (∃ settler stop, history.LastReport events name settler stop ∧
      after.exitedAt = some stop.event.timestamp ∧ stop.payload = .ok after.output) ∨
    ((∀ event ∈ events, history.reportedExit? name event = none) ∧
      after.exitedAt = details.exitedAt ∧ after.output = details.output) := by
  have hstep : ∀ {start : Details} {event : Event} {stop : Details},
      history.note name start event = .ok stop →
      (∃ exited, history.reportedExit? name event = some exited ∧
        stop.exitedAt = some exited.event.timestamp ∧ exited.payload = .ok stop.output) ∨
      (history.reportedExit? name event = none ∧
        (stop.exitedAt, stop.output) = (start.exitedAt, start.output)) := by
    intro start event stop hnote
    rcases history.exit_of_note hnote with hreport | ⟨hsilent, htime, houtput⟩
    · exact Or.inl hreport
    · exact Or.inr ⟨hsilent, Prod.ext htime houtput⟩
  -- an exit is what an event says, and it is shown by its time and its output
  rcases lastWord_of_foldlM (history.reportedExit? name)
    (fun details => (details.exitedAt, details.output))
    (fun stop view => view.1 = some stop.event.timestamp ∧ stop.payload = .ok view.2) hstep h
    with ⟨settler, stop, hlast, hshown⟩ | ⟨hnone, hkept⟩
  · exact Or.inl ⟨settler, stop, ⟨hlast.said_eq, hlast.last⟩, hshown⟩
  · exact Or.inr ⟨hnone, congrArg Prod.fst hkept, congrArg Prod.snd hkept⟩

/-- If a time of leaving is known, it is the one of the exit that was reported last. -/
theorem exists_lastReport {name : String} {details : Details}
    (hdetails : history.detailsOf name = .ok details) (hexited : details.exitedAt.isSome = true) :
    ∃ settler stop, history.LastReport (readEvents history.events) name settler stop ∧
      details.exitedAt = some stop.event.timestamp ∧ stop.payload = .ok details.output := by
  rw [detailsOf_eq_foldlM] at hdetails
  rcases history.exit_of_foldlM_note hdetails with hreport | ⟨-, htime, -⟩
  · exact hreport
  · rw [htime] at hexited
    contradiction

/-! ## Whose exit it is -/

/-- The exit that an event reports is the first one of its kind on the way forward. -/
theorem foundAt_of_reportedExit? {name : String} {event : Event} {stop : Exited}
    (h : history.reportedExit? name event = some stop) :
    ∃ steps, FoundAt history.following (exitedOf (classify event)) event steps stop := by
  rw [← exitedDescendant?_eq_some_iff]
  unfold reportedExit? at h
  split at h
  · next hresolve =>
    split at h
    · rw [(history.resolve_eq_ok_iff.1 hresolve).2, h]
    · contradiction
  · contradiction

/-- The time of leaving and the output are those of an exit from the state `name`. -/
def ReportsOwnExit (name : String) (details : Details) : Prop :=
  ∃ event ∈ history.events, ∃ exited, event.exited? = some exited ∧ exited.details.name = name ∧
    details.exitedAt = some event.timestamp ∧ exited.payload = .ok details.output

/-- On the way forward from the event, no exit of its kind from another state comes before one from
the state `name`. -/
def OwnExitFirst (event : Event) (name : String) : Prop :=
  MeetsFirst history.following (exitedOf (classify event)) (fun exited => exited.details.name)
    event name

/-- An exit from another state coincides with one from the state `name` in its time and output. -/
def HasTwin (stop : Exited) (name : String) : Prop :=
  stop.details.name ≠ name ∧
    ∃ event ∈ history.events, ∃ exited, event.exited? = some exited ∧ exited.details.name = name ∧
      event.timestamp = stop.event.timestamp ∧ exited.payload = stop.payload

/-- **Whose exit is reported**: if a time of leaving is known, it and the output come from the exit
that was reported last. They are those of an exit from the state itself just where such an exit lies
first on the way forward from the event that reported it, unless the one from another state happens
to coincide with one from the state. -/
theorem exists_lastReport_iff {name : String} {details : Details}
    (hdetails : history.detailsOf name = .ok details) (hexited : details.exitedAt.isSome = true) :
    ∃ settler stop, history.LastReport (readEvents history.events) name settler stop ∧
      details.exitedAt = some stop.event.timestamp ∧ stop.payload = .ok details.output ∧
      (history.ReportsOwnExit name details ↔
        history.OwnExitFirst settler name ∨ history.HasTwin stop name) := by
  obtain ⟨settler, stop, hlast, htime, houtput⟩ := history.exists_lastReport hdetails hexited
  refine ⟨settler, stop, hlast, htime, houtput, ?_⟩
  obtain ⟨steps, hfound⟩ := history.foundAt_of_reportedExit? hlast.reported
  rw [OwnExitFirst, hfound.meetsFirst_iff]
  -- what is left is whether the reported exit names the state
  constructor
  · rintro ⟨event, hmem, exited, hview, hname, hsame, hpayload⟩
    by_cases hown : stop.details.name = name
    · exact Or.inl hown
    · refine Or.inr ⟨hown, event, hmem, exited, hview, hname, ?_, hpayload.trans houtput.symm⟩
      rw [htime, Option.some.injEq] at hsame
      exact hsame.symm
  · rintro (hown | ⟨-, event, hmem, exited, hview, hname, hsame, hpayload⟩)
    · have hsettler : settler ∈ history.events := by
        obtain ⟨earlier, later, hread, -⟩ := hlast.last
        refine mem_of_mem_readEvents ?_
        rw [hread]
        exact List.mem_append_right _ List.mem_cons_self
      obtain ⟨hmem, hview⟩ := history.mem_of_foundAt hsettler hfound
      exact ⟨stop.event, hmem, stop, hview, hown, htime, houtput⟩
    · exact ⟨event, hmem, exited, hview, hname, by rw [htime, hsame], hpayload.trans houtput⟩

/-! ## A failure inside a Parallel state -/

/-- A run of a Parallel state in whose branch the function of a Task state fails. -/
def failedBranch : Log :=
  (((({} : LogBuilder).executionStarted "null").entered .parallel "Fan" "null").entered .task "Left"
    "true" |>.lambdaFailed "Error" "cause").exited .parallel "Fan" "false" |>.build

/-- What the log says about the Task state: it was left when the Parallel state was, and with its
output. -/
theorem detailsOf_failedBranch :
    (ofLog failedBranch).detailsOf "Left" = .ok
      { status := .fail, input := some (.bool true), output := some (.bool false),
        enteredAt := some ⟨0, 2, 0⟩, exitedAt := some ⟨0, 4, 0⟩ } := by rfl

/-- The exit that is reported for the Task state is the last one that an event reports for it. -/
theorem exists_lastReport_of_failedBranch :
    ∃ settler stop,
      (ofLog failedBranch).LastReport (readEvents failedBranch.events) "Left" settler stop ∧
      some ⟨0, 4, 0⟩ = some stop.event.timestamp ∧ stop.payload = .ok (some (.bool false)) ∧
      ((ofLog failedBranch).ReportsOwnExit "Left"
          { status := .fail, input := some (.bool true), output := some (.bool false),
            enteredAt := some ⟨0, 2, 0⟩, exitedAt := some ⟨0, 4, 0⟩ } ↔
        (ofLog failedBranch).OwnExitFirst settler "Left" ∨
          (ofLog failedBranch).HasTwin stop "Left") :=
  (ofLog failedBranch).exists_lastReport_iff detailsOf_failedBranch rfl

/-- The exit that is reported is not always one from the state: here it is the only exit of the log,
and it is one from the Parallel state. -/
theorem not_forall_reportsOwnExit :
    ¬ ∀ (log : Log) (name : String) (details : Details),
      (ofLog log).detailsOf name = .ok details → details.exitedAt.isSome = true →
      (ofLog log).ReportsOwnExit name details := by
  intro hall
  obtain ⟨event, hmem, exited, hview, hname, -⟩ :=
    hall failedBranch "Left" _ detailsOf_failedBranch rfl
  have hexits : failedBranch.events.filterMap Event.exited? =
      [⟨failedBranch.events[4], .parallel, { name := "Fan", output := some "false" }⟩] := by rfl
  have honly : exited ∈ failedBranch.events.filterMap Event.exited? :=
    List.mem_filterMap.2 ⟨event, hmem, hview⟩
  rw [hexits, List.mem_singleton] at honly
  subst honly
  exact absurd hname (by decide)

end History

end WorkflowChart
