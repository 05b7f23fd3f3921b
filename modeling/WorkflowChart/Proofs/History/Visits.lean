import WorkflowChart.Proofs.History.LastWord
import WorkflowChart.Proofs.History.Walks

/-!
# The visit that is reported

The status of a state, its input and the time at which it was entered belong to one visit. An entry
into the state begins one, and an event that settles the state belongs to the one that the nearest
entry of its kind began. The exit of the visit is not looked at here, so all this rests on the way
back along the links only.

* **`History.visit?`**: what an event says about a visit to a state; `History.visit?_eq_some_iff`
  lists what it can be.
* **`Details.visit`**: what the details of a state say about it.
* **`History.visit_of_note`**: one event shows what it says.
* **`History.visit_of_detailsOf`**: the details show the last visit that the events speak of.
-/

namespace WorkflowChart

/-- What the details of a state say about its visit: the status, the input and the time of entering.
-/
def Details.visit (details : Details) : Status × Option Json × Option Instant :=
  (details.status, details.input, details.enteredAt)

namespace History

variable (history : History)

/-- What an event says about a visit to the state `name`: the status that it gives, and the entry
that the visit began with. -/
def visit? (name : String) (event : Event) : Option (Status × Entered) :=
  match event.entered? with
  | some entered => if entered.details.name = name then some (.indeterminate, entered) else none
  | none =>
    match event.outcome?, history.enteredAncestor? event (classify event) with
    | some status, some start => if start.details.name = name then some (status, start) else none
    | _, _ => none

/-- An entry speaks of the visit that it begins. -/
theorem visit?_of_entered? {event : Event} {entered : Entered}
    (h : event.entered? = some entered) (name : String) :
    history.visit? name event =
      if entered.details.name = name then some (.indeterminate, entered) else none := by
  simp only [visit?, h]

/-- An event that settles a construct speaks of the visit that began it. -/
theorem visit?_of_outcome? {event : Event} {status : Status} {start : Entered}
    (houtcome : event.outcome? = some status)
    (hstart : history.enteredAncestor? event (classify event) = some start) (name : String) :
    history.visit? name event =
      if start.details.name = name then some (status, start) else none := by
  have hentered := Event.entered?_eq_none_of_outcome? houtcome
  simp only [visit?, hentered, houtcome, hstart]

/-- An event that neither enters a state nor settles a construct speaks of no visit. -/
theorem visit?_of_none {event : Event} (hentered : event.entered? = none)
    (houtcome : event.outcome? = none) (name : String) : history.visit? name event = none := by
  simp only [visit?, hentered, houtcome]

/-- **What an event can say about a visit**: it is the entry that begins the visit, or it settles
the construct that the entry has started. -/
theorem visit?_eq_some_iff {name : String} {event : Event} {status : Status} {start : Entered} :
    history.visit? name event = some (status, start) ↔
      start.details.name = name ∧
        (event.entered? = some start ∧ status = .indeterminate ∨
          event.outcome? = some status ∧
            history.enteredAncestor? event (classify event) = some start) := by
  cases hentered : event.entered? with
  | some entered =>
    have houtcome := Event.outcome?_eq_none_of_entered? hentered
    rw [history.visit?_of_entered? hentered, houtcome]
    by_cases hname : entered.details.name = name <;> grind
  | none =>
    cases houtcome : event.outcome? with
    | none => simp [history.visit?_of_none hentered houtcome]
    | some given =>
      cases hstart : history.enteredAncestor? event (classify event) with
      | none => simp [visit?, hentered, houtcome, hstart]
      | some first =>
        rw [history.visit?_of_outcome? houtcome hstart]
        by_cases hname : first.details.name = name <;> grind

/-- A visit is shown by its status, the input of its entry and the time of its entry. -/
def ShowsVisit (visit : Status × Entered) (view : Status × Option Json × Option Instant) : Prop :=
  view.1 = visit.1 ∧ visit.2.payload = .ok view.2.1 ∧ view.2.2 = some visit.2.event.timestamp

/-- What shows a visit is determined by it. -/
theorem ShowsVisit.unique {visit : Status × Entered}
    {a b : Status × Option Json × Option Instant} (ha : ShowsVisit visit a)
    (hb : ShowsVisit visit b) : a = b := by
  obtain ⟨statusA, inputA, timeA⟩ := a
  obtain ⟨statusB, inputB, timeB⟩ := b
  obtain ⟨hstatusA, hinputA, htimeA⟩ := ha
  obtain ⟨hstatusB, hinputB, htimeB⟩ := hb
  have hinput : inputA = inputB := Except.ok.inj (hinputA.symm.trans hinputB)
  have hstatus : statusA = statusB := hstatusA.trans hstatusB.symm
  have htime : timeA = timeB := htimeA.trans htimeB.symm
  rw [hstatus, hinput, htime]

/-- Entering a state shows the visit that begins. -/
theorem showsVisit_of_enter {details after : Details} {entered : Entered}
    (h : details.enter entered = .ok after) :
    ShowsVisit (.indeterminate, entered) after.visit := by
  obtain ⟨input, hinput, rfl⟩ := Details.enter_eq_ok_iff.1 h
  exact ⟨rfl, hinput, rfl⟩

/-- Settling a state shows the visit that began its construct, with or without an exit. -/
theorem showsVisit_of_settle {details after : Details} {status : Status} {start : Entered}
    {stop? : Option Exited} (h : details.settle status start stop? = .ok after) :
    ShowsVisit (status, start) after.visit := by
  cases stop? with
  | none =>
    obtain ⟨input, hinput, rfl⟩ := Details.settle_none_eq_ok_iff.1 h
    exact ⟨rfl, hinput, rfl⟩
  | some stop =>
    obtain ⟨input, output, hinput, -, rfl⟩ := Details.settle_some_eq_ok_iff.1 h
    exact ⟨rfl, hinput, rfl⟩

/-- **What one event changes**: the details show the visit that the event speaks of. If it speaks of
none, they say the same about the visit as before. -/
theorem visit_of_note {name : String} {details after : Details} {event : Event}
    (h : history.note name details event = .ok after) :
    (∃ visit, history.visit? name event = some visit ∧ ShowsVisit visit after.visit) ∨
      (history.visit? name event = none ∧ after.visit = details.visit) := by
  cases noted_of_note h with
  | entry entered hentered hname henter =>
    rw [history.visit?_of_entered? hentered, if_pos hname]
    exact Or.inl ⟨_, rfl, showsVisit_of_enter henter⟩
  | outcome status start stop? houtcome hresolve hname hsettle =>
    have hstart := (history.resolve_eq_ok_iff.1 hresolve).1
    rw [history.visit?_of_outcome? houtcome hstart, if_pos hname]
    exact Or.inl ⟨_, rfl, showsVisit_of_settle hsettle⟩
  | otherEntry entered hentered hname hkept =>
    rw [history.visit?_of_entered? hentered, if_neg hname, hkept]
    exact Or.inr ⟨rfl, rfl⟩
  | otherOutcome status start stop? houtcome hresolve hname hkept =>
    have hstart := (history.resolve_eq_ok_iff.1 hresolve).1
    rw [history.visit?_of_outcome? houtcome hstart, if_neg hname, hkept]
    exact Or.inr ⟨rfl, rfl⟩
  | silent hentered houtcome hkept =>
    rw [history.visit?_of_none hentered houtcome, hkept]
    exact Or.inr ⟨rfl, rfl⟩

/-- **The visit that is reported** is the last one that the events that are read speak of. If they
speak of none, the state has not been entered. -/
theorem visit_of_detailsOf {name : String} {details : Details}
    (h : history.detailsOf name = .ok details) :
    (∃ speaker visit,
        LastWord (history.visit? name) (readEvents history.events) speaker visit ∧
          ShowsVisit visit details.visit) ∨
      ((∀ event ∈ readEvents history.events, history.visit? name event = none) ∧
        details.visit = Details.neverRun.visit) := by
  rw [detailsOf_eq_foldlM] at h
  exact lastWord_of_foldlM (history.visit? name) Details.visit ShowsVisit history.visit_of_note h

end History

end WorkflowChart
