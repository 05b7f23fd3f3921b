import WorkflowChart.Log.Builder
import WorkflowChart.Proofs.History.LeftOver

/-!
# Where the details of a state come from

A state that is reported as never run is reported with nothing else. Any other one is reported with
the input and the time of an entry into it, and with the output and the time of an exit or without
both. In a log whose links lead back, what is read of it decides whether the state has run: the
entry that an event is traced to lies before the event, and so before the first failure.

* **`FollowsEarlier`**: logs in which every event comes after the one it follows.
* **`History.entered_of_visit?`**: an event speaks of a visit that has begun in the log.
* **`History.status_eq_neverRun_iff`**: a state has not run just where no event speaks of it.
* **`History.sources_of_detailsOf`**: the sources of all that is reported.
-/

namespace WorkflowChart

/-- The event is an entry into the state `name`. -/
def Event.Enters (event : Event) (name : String) : Prop :=
  ∃ entered, event.entered? = some entered ∧ entered.details.name = name

/-- Where an event follows an event of the log, that one comes earlier in the log. An id stands for
the first event that has it. -/
def FollowsEarlier (events : List Event) : Prop :=
  ∀ (i : Nat) (hi : i < events.length), ∀ id ∈ events[i].previous,
    ∀ j ∈ events.findIdx? fun other => other.id = id, j < i

/-- Steps back do not leave the beginning of a log, if each of its events follows an earlier one. -/
theorem FollowsEarlier.mem_of_before {history : History} (hlinks : FollowsEarlier history.events)
    {events : List Event} (hbegins : events <+: history.events) {a b : Event} (ha : a ∈ events)
    (h : history.before a = some b) : b ∈ events := by
  obtain ⟨i, hi, rfl⟩ := List.getElem_of_mem ha
  obtain ⟨id, hprevious, hfind⟩ := Option.bind_eq_some_iff.1 h
  rw [History.findById, history.index_eq, EventIndex.position?_ofEvents] at hfind
  obtain ⟨j, hj, hget⟩ := Option.bind_eq_some_iff.1 hfind
  rw [hbegins.getElem hi] at hprevious
  have hlt : j < i := hlinks i (Nat.lt_of_lt_of_le hi hbegins.length_le) id hprevious j hj
  obtain ⟨-, rfl⟩ := List.getElem?_eq_some_iff.1 hget
  rw [← hbegins.getElem (Nat.lt_trans hlt hi)]
  exact List.getElem_mem _

namespace History

variable {history : History} {name : String} {details : Details}

/-! ## The entries that events speak of -/

/-- **A visit that an event speaks of has begun in the log**, with an entry into the state. It has
begun in a part of the log already, if steps back do not leave the part. -/
theorem entered_of_visit? {events : List Event}
    (hbefore : ∀ a ∈ events, ∀ b, history.before a = some b → b ∈ events) {event : Event}
    (hmem : event ∈ events) {status : Status} {start : Entered}
    (h : history.visit? name event = some (status, start)) :
    start.event ∈ events ∧ start.event.entered? = some start ∧ start.details.name = name := by
  obtain ⟨hname, ⟨hentered, -⟩ | ⟨-, hstart⟩⟩ := history.visit?_eq_some_iff.1 h
  · rw [event_of_entered? hentered]
    exact ⟨hmem, hentered, hname⟩
  · obtain ⟨hmem', hentered⟩ := history.mem_of_enteredAncestor? hbefore hmem hstart
    exact ⟨hmem', hentered, hname⟩

/-- No event speaks of a state that no event enters. -/
theorem visit?_eq_none_of_not_enters {events : List Event}
    (hbefore : ∀ a ∈ events, ∀ b, history.before a = some b → b ∈ events)
    (hnever : ∀ event ∈ events, ¬ event.Enters name) {event : Event} (hmem : event ∈ events) :
    history.visit? name event = none := by
  cases hvisit : history.visit? name event with
  | none => rfl
  | some visit =>
    obtain ⟨hmem', hentered, hname⟩ := entered_of_visit? hbefore hmem hvisit
    exact absurd ⟨_, hentered, hname⟩ (hnever _ hmem')

/-! ## States that have not run -/

/-- A state that an event speaks of has run. -/
theorem status_ne_neverRun_of_visit? {event : Event} {status : Status} {start : Entered}
    (h : history.visit? name event = some (status, start)) : status ≠ .neverRun := by
  obtain ⟨-, ⟨-, rfl⟩ | ⟨houtcome, -⟩⟩ := history.visit?_eq_some_iff.1 h
  · decide
  · rcases Event.outcome?_eq_some_iff.1 houtcome with ⟨-, rfl⟩ | ⟨-, rfl⟩ <;> decide

/-- A state has not run just where no event that is read speaks of it. -/
theorem status_eq_neverRun_iff (h : history.detailsOf name = .ok details) :
    details.status = .neverRun ↔
      ∀ event ∈ readEvents history.events, history.visit? name event = none := by
  rcases history.visit_of_detailsOf h with
    ⟨speaker, ⟨status, start⟩, hlast, hshows⟩ | ⟨hnone, hview⟩
  · have hstatus : details.status = status := hshows.1
    constructor
    · intro hnever
      exact absurd (hstatus.symm.trans hnever) (status_ne_neverRun_of_visit? hlast.said_eq)
    · intro hsilent
      have hsaid := hlast.said_eq
      rw [hsilent speaker hlast.mem] at hsaid
      contradiction
  · exact iff_of_true (congrArg Prod.fst hview) hnone

/-- Where no event that is read speaks of a state, nothing is reported of it. -/
theorem eq_neverRun_of_silent (h : history.detailsOf name = .ok details)
    (hsilent : ∀ event ∈ readEvents history.events, history.visit? name event = none) :
    details = .neverRun := by
  have hvisit : details.visit = Details.neverRun.visit := by
    rcases history.visit_of_detailsOf h with ⟨speaker, visit, hlast, -⟩ | ⟨-, hview⟩
    · have hsaid := hlast.said_eq
      rw [hsilent speaker hlast.mem] at hsaid
      contradiction
    · exact hview
  have hexit : details.exitedAt = none ∧ details.output = none := by
    rw [detailsOf_eq_foldlM] at h
    rcases history.exit_of_foldlM_note h with ⟨settler, stop, hreport, -⟩ | ⟨-, htime, houtput⟩
    · -- who tells an exit speaks of a visit
      have hlast : LastWord _ _ settler stop := ⟨hreport.reported, hreport.last⟩
      obtain ⟨visit, hvisit⟩ := exists_visit?_of_reportedExit? hreport.reported
      rw [hsilent settler hlast.mem] at hvisit
      contradiction
    · exact ⟨htime, houtput⟩
  obtain ⟨status, input, output, enteredAt, exitedAt⟩ := details
  simp only [Details.visit, Details.neverRun, Prod.mk.injEq] at hvisit hexit ⊢
  obtain ⟨rfl, rfl, rfl⟩ := hvisit
  obtain ⟨rfl, rfl⟩ := hexit
  rfl

/-! ## The sources of what is reported -/

/-- The input and the time of entering are those of an entry into the state `name`. -/
def TakenFromEntry (history : History) (name : String) (details : Details) : Prop :=
  ∃ entered : Entered, entered.event ∈ history.events ∧ entered.event.entered? = some entered ∧
    entered.details.name = name ∧ details.enteredAt = some entered.event.timestamp ∧
    entered.payload = .ok details.input

/-- The output and the time of leaving are those of an exit of the log. -/
def TakenFromExit (history : History) (details : Details) : Prop :=
  ∃ exited : Exited, exited.event ∈ history.events ∧ exited.event.exited? = some exited ∧
    details.exitedAt = some exited.event.timestamp ∧ exited.payload = .ok details.output

/-- A state that has run is reported with the input and the time of an entry into it. -/
theorem takenFromEntry_of_detailsOf (h : history.detailsOf name = .ok details)
    (hrun : details.status ≠ .neverRun) : history.TakenFromEntry name details := by
  rcases history.visit_of_detailsOf h with
    ⟨speaker, ⟨status, start⟩, hlast, -, hinput, htime⟩ | ⟨-, hview⟩
  · have hmem := mem_of_mem_readEvents hlast.mem
    obtain ⟨hstart, hentered, hname⟩ :=
      entered_of_visit? (fun _ _ _ => history.mem_of_before) hmem hlast.said_eq
    exact ⟨start, hstart, hentered, hname, htime, hinput⟩
  · exact absurd (congrArg Prod.fst hview) hrun

/-- A state is reported with the output and the time of an exit, or without both. -/
theorem takenFromExit_of_detailsOf (h : history.detailsOf name = .ok details) :
    details.output = none ∧ details.exitedAt = none ∨ history.TakenFromExit details := by
  rw [detailsOf_eq_foldlM] at h
  rcases history.exit_of_foldlM_note h with
    ⟨settler, stop, hreport, htime, houtput⟩ | ⟨-, htime, houtput⟩
  · have hlast : LastWord _ _ settler stop := ⟨hreport.reported, hreport.last⟩
    obtain ⟨steps, hfound⟩ := history.foundAt_of_reportedExit? hreport.reported
    obtain ⟨hstop, hexited⟩ := history.mem_of_foundAt (mem_of_mem_readEvents hlast.mem) hfound
    exact Or.inr ⟨stop, hstop, hexited, htime, houtput⟩
  · exact Or.inl ⟨houtput, htime⟩

/-- An entry that is read comes before the first failure, since the failure is no entry. -/
theorem mem_takeWhile_of_enters {event : Event} (hmem : event ∈ readEvents history.events)
    (henters : event.Enters name) :
    event ∈ history.events.takeWhile fun event => event.type ≠ .lambdaFailed := by
  rw [readEvents_eq, List.mem_append, Option.mem_toList] at hmem
  rcases hmem with hbefore | hfailure
  · exact hbefore
  · obtain ⟨entered, hentered, -⟩ := henters
    have htype : event.type = .lambdaFailed := by simpa using List.find?_some hfailure
    rw [Event.entered?, htype] at hentered
    contradiction

/-- In a log whose links lead back, a state has not run just where no entry into it comes before the
first failure. -/
theorem status_eq_neverRun_iff_of_followsEarlier (hlinks : FollowsEarlier history.events)
    (h : history.detailsOf name = .ok details) :
    details.status = .neverRun ↔
      ∀ event ∈ history.events.takeWhile fun event => event.type ≠ .lambdaFailed,
        ¬ event.Enters name := by
  rw [status_eq_neverRun_iff h]
  constructor
  · rintro hsilent event hmem ⟨entered, hentered, hname⟩
    have hread : event ∈ readEvents history.events := by
      rw [readEvents_eq]
      exact List.mem_append_left _ hmem
    have hvisit := hsilent event hread
    rw [history.visit?_of_entered? hentered, if_pos hname] at hvisit
    contradiction
  · intro hnever event hmem
    -- the way back from what is read does not leave what is read
    have hbefore : ∀ a ∈ readEvents history.events, ∀ b, history.before a = some b →
        b ∈ readEvents history.events := fun a ha b =>
      hlinks.mem_of_before (readEvents_isPrefix _) ha
    refine visit?_eq_none_of_not_enters hbefore (fun entry hentry henters => ?_) hmem
    exact hnever entry (mem_takeWhile_of_enters hentry henters) henters

/-- **The sources of what is reported.** A state that is reported as never run is reported with
nothing else, and so is one that the log does not enter. Any other one is reported with the input
and the time of an entry into it. The output and the time of leaving are those of one exit, or both
are missing. In a log in which every event follows an earlier one, a state has not run just where no
entry into it comes before the first failure. -/
theorem sources_of_detailsOf (history : History) {name : String} {details : Details}
    (h : history.detailsOf name = .ok details) :
    (details.status = .neverRun ↔ details = .neverRun)
      ∧ ((∀ event ∈ history.events, ¬ event.Enters name) → details = .neverRun)
      ∧ (details.status ≠ .neverRun → history.TakenFromEntry name details)
      ∧ (details.output = none ∧ details.exitedAt = none ∨ history.TakenFromExit details)
      ∧ (FollowsEarlier history.events →
          (details.status = .neverRun ↔
            ∀ event ∈ history.events.takeWhile fun event => event.type ≠ .lambdaFailed,
              ¬ event.Enters name)) := by
  refine ⟨?_, ?_, takenFromEntry_of_detailsOf h, takenFromExit_of_detailsOf h, ?_⟩
  · constructor
    · intro hnever
      exact eq_neverRun_of_silent h ((status_eq_neverRun_iff h).1 hnever)
    · rintro rfl
      rfl
  · intro hnever
    refine eq_neverRun_of_silent h fun event hmem => ?_
    exact visit?_eq_none_of_not_enters (fun _ _ _ => history.mem_of_before) hnever
      (mem_of_mem_readEvents hmem)
  · intro hlinks
    exact status_eq_neverRun_iff_of_followsEarlier hlinks h

/-- Links forward are another matter: here the failure is traced to an entry that comes after it. -/
example :
    let log := ({} : LogBuilder).after (.ofNat 2)
      |>.lambdaFailed "Error" "cause"
      |>.entered .task "Work" "true"
      |>.build
    (ofLog log).statusOf "Work" = .ok .fail := by rfl

/-! ## A branch after a failure -/

/-- A run of a Parallel state with three branches, the second of which fails before the third is
entered. -/
def branchAfterFailure : Log :=
  ({} : LogBuilder).executionStarted "null"
    |>.entered .parallel "Fan" "null"
    |>.entered .task "Left" "true"
    |>.lambdaSucceeded "false"
    |>.exited .task "Left" "false"
    |>.after (.ofNat 2)
    |>.entered .task "Middle" "null"
    |>.lambdaFailed "Error" "cause"
    |>.after (.ofNat 2)
    |>.entered .task "Right" "null"
    |>.lambdaSucceeded "null"
    |>.exited .task "Right" "null"
    |>.build

/-- Every event of the log follows an earlier one, if any. -/
theorem followsEarlier_branchAfterFailure : FollowsEarlier branchAfterFailure.events := by
  unfold FollowsEarlier
  decide

/-- The first branch is reported with the input and the time of its entry, and with the output and
the time of its exit. The third one is reported as never run: the log enters it, but not before the
failure. -/
theorem sources_of_detailsOf_branchAfterFailure :
    let left : Details :=
      { status := .success, input := some (.bool true), output := some (.bool false),
        enteredAt := some ⟨0, 2, 0⟩, exitedAt := some ⟨0, 4, 0⟩ }
    ((ofLog branchAfterFailure).detailsOf "Left" = .ok left ∧
        (ofLog branchAfterFailure).TakenFromEntry "Left" left ∧
        (ofLog branchAfterFailure).TakenFromExit left) ∧
      FollowsEarlier branchAfterFailure.events ∧
      (ofLog branchAfterFailure).detailsOf "Right" = .ok .neverRun ∧
      (∃ event ∈ branchAfterFailure.events, event.Enters "Right") ∧
      ∀ event ∈ branchAfterFailure.events.takeWhile fun event => event.type ≠ .lambdaFailed,
        ¬ event.Enters "Right" := by
  intro left
  have hleft : (ofLog branchAfterFailure).detailsOf "Left" = .ok left := by rfl
  have hright : (ofLog branchAfterFailure).detailsOf "Right" = .ok .neverRun := by rfl
  obtain ⟨-, -, hentry, hexit, -⟩ := sources_of_detailsOf _ hleft
  obtain ⟨-, -, -, -, hiff⟩ := sources_of_detailsOf _ hright
  refine ⟨⟨hleft, hentry (by decide), hexit.resolve_left (by decide)⟩,
    followsEarlier_branchAfterFailure, hright, ?_,
    (hiff followsEarlier_branchAfterFailure).1 rfl⟩
  exact ⟨branchAfterFailure.events[7], List.getElem_mem _, _, rfl, rfl⟩

end History

end WorkflowChart
