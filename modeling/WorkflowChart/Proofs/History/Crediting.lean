import WorkflowChart.Log.Builder
import WorkflowChart.Proofs.History.Scan
import WorkflowChart.Proofs.History.Walks

/-!
# The state that an exit settles

The exit from a Map, Choice or Pass state settles the state that its own entry names. That entry is
looked for by its kind alone: the nearest entry of the kind on the way back is taken, whichever
state it names. Inside a state of the same kind this is the entry of another state.

* **`CreditedTo`**: the one state that an event settles as a success.
* **`HasEntryBehind`**, **`OwnEntryFirst`**: where the entry into a state lies on the way back.
* **`History.creditedTo_iff_ownEntryFirst`**: an exit settles the state that it names just where no
  entry of its kind into another state comes between.
-/

namespace WorkflowChart

namespace Details

/-- Settling a state gives it the status. -/
theorem status_of_settle {details settled : Details} {status : Status} {start : Entered}
    {stop? : Option Exited} (h : details.settle status start stop? = .ok settled) :
    settled.status = status := by
  cases stop? with
  | none =>
    obtain ⟨input, -, rfl⟩ := settle_none_eq_ok_iff.1 h
    rfl
  | some stop =>
    obtain ⟨input, output, -, -, rfl⟩ := settle_some_eq_ok_iff.1 h
    rfl

end Details

namespace History

variable (history : History)

/-! ## Settling one state -/

/-- The event settles the state `name` as a success, and no other state. -/
structure CreditedTo (event : Event) (name : String) : Prop where
  /-- The construct that the event settles was started by an entry into the state. -/
  resolved : ∃ start stop?, history.resolve event = .ok (start, stop?) ∧ start.details.name = name
  success : ∀ details after, history.note name details event = .ok after → after.status = .success
  spared : ∀ other ≠ name, ∀ details, history.note other details event = .ok details

/-- A completion settles the state that the nearest entry of its kind names. -/
theorem creditedTo_of_resolve {event : Event} {start : Entered} {stop? : Option Exited}
    (hcompletion : event.type.isCompletion = true)
    (hresolve : history.resolve event = .ok (start, stop?)) :
    history.CreditedTo event start.details.name := by
  have houtcome := Event.outcome?_of_isCompletion hcompletion
  refine ⟨⟨start, stop?, hresolve, rfl⟩, ?_, ?_⟩
  · intro details after hnote
    rw [history.note_of_outcome? houtcome hresolve, if_pos rfl] at hnote
    exact Details.status_of_settle hnote
  · intro other hother details
    rw [history.note_of_outcome? houtcome hresolve, if_neg (Ne.symm hother)]

/-- At most one state is settled by an event. -/
theorem CreditedTo.unique {event : Event} {a b : String} (ha : history.CreditedTo event a)
    (hb : history.CreditedTo event b) : a = b := by
  obtain ⟨start, stop?, hstart, rfl⟩ := ha.resolved
  obtain ⟨start', stop?', hstart', rfl⟩ := hb.resolved
  rw [hstart] at hstart'
  cases hstart'
  rfl

/-! ## The entry that an exit belongs to -/

/-- An entry of the kind into the state `name` lies on the way back from the event. -/
def HasEntryBehind (event : Event) (category : Category) (name : String) : Prop :=
  Meets history.before (enteredOf (some category)) (fun entered => entered.details.name) event name

/-- On the way back from the event no entry of the kind into another state comes before one into the
state `name`. -/
def OwnEntryFirst (event : Event) (category : Category) (name : String) : Prop :=
  MeetsFirst history.before (enteredOf (some category)) (fun entered => entered.details.name)
    event name

/-- An exit from a state is resolved to the nearest entry of its kind and to itself. -/
theorem resolve_of_foundAt {event : Event} {category : Category} {exit : ExitedDetails}
    {steps : Nat} {start : Entered} (htype : event.type = .stateExited category)
    (hexit : event.exitedDetails = some exit)
    (hfound : FoundAt history.before (enteredOf (some category)) event steps start) :
    history.resolve event = .ok (start, some { event, category, details := exit }) := by
  have hclassify : classify event = some category := by
    rw [classify, htype]
    rfl
  rw [resolve_eq_ok_iff, hclassify]
  exact ⟨history.enteredAncestor?_eq_some_iff.2 ⟨steps, hfound⟩,
    history.exitedDescendant?_of_exit htype hexit⟩

/-- **The state that an exit settles**: the exit from a Map, Choice or Pass state, with an entry
into that state behind it, settles one state, which gets its output. This is the state that the exit
names just where the entry comes before all entries of the same kind into other states. -/
theorem creditedTo_iff_ownEntryFirst {event : Event} {category : Category} {exit : ExitedDetails}
    (htype : event.type = .stateExited category) (hcompletion : event.type.isCompletion = true)
    (hexit : event.exitedDetails = some exit)
    (hbehind : history.HasEntryBehind event category exit.name) :
    (∃ start, history.resolve event = .ok (start, some { event, category, details := exit }) ∧
        history.CreditedTo event start.details.name) ∧
      (history.CreditedTo event exit.name ↔ history.OwnEntryFirst event category exit.name) := by
  obtain ⟨steps, start, hfound⟩ := hbehind.exists_foundAt
  have hresolve := history.resolve_of_foundAt htype hexit hfound
  have hcredited := history.creditedTo_of_resolve hcompletion hresolve
  refine ⟨⟨start, hresolve, hcredited⟩, ?_⟩
  -- both sides say that the nearest entry of the kind names the state
  rw [OwnEntryFirst, hfound.meetsFirst_iff]
  constructor
  · intro hexit
    exact hcredited.unique history hexit
  · intro hname
    rw [← hname]
    exact hcredited

/-! ## A Map state inside another one -/

/-- A run of a Map state inside another Map state. -/
def nestedMaps : Log :=
  ((((({} : LogBuilder).executionStarted "null").entered .map "Outer" "[1]").entered .map "Inner"
    "[2]").exited .map "Inner" "[3]").exited .map "Outer" "[4]" |>.build

/-- The exit from the inner state settles it: its own entry is the nearest one. -/
theorem creditedTo_inner_of_nestedMaps :
    (ofLog nestedMaps).CreditedTo (nestedMaps.events[3]) "Inner" := by
  have hchain : eventAlong (ofLog nestedMaps).before 1 (nestedMaps.events[3]) =
      some (nestedMaps.events[2]) := by rfl
  have hentry : enteredOf (some .map) (nestedMaps.events[2]) =
      some ⟨nestedMaps.events[2], .map, { name := "Inner", input := some "[2]" }⟩ := by rfl
  have hfirst : (ofLog nestedMaps).OwnEntryFirst (nestedMaps.events[3]) .map "Inner" := by
    refine ⟨1, _, _, hchain, hentry, rfl, ?_⟩
    intro k hk between nearer hbetween hnearer
    obtain rfl : k = 0 := by omega
    cases hbetween
    cases hnearer
  have htype : (nestedMaps.events[3]).type = .stateExited .map := rfl
  have hexit : (nestedMaps.events[3]).exitedDetails =
      some { name := "Inner", output := some "[3]" } := rfl
  exact ((ofLog nestedMaps).creditedTo_iff_ownEntryFirst htype rfl hexit
    ⟨1, _, _, hchain, hentry, rfl⟩).2.2 hfirst

/-- The exit from the outer state does not settle it, although its own entry lies behind it: the
entry into the inner state is nearer. -/
theorem not_forall_creditedTo_of_hasEntryBehind :
    ¬ ∀ (log : Log) (event : Event) (category : Category) (exit : ExitedDetails),
      event ∈ log.events → event.type = .stateExited category →
      event.type.isCompletion = true → event.exitedDetails = some exit →
      (ofLog log).HasEntryBehind event category exit.name →
      (ofLog log).CreditedTo event exit.name := by
  intro hall
  -- three links back lies the entry into the outer state
  have hbehind : (ofLog nestedMaps).HasEntryBehind (nestedMaps.events[4]) .map "Outer" :=
    ⟨3, nestedMaps.events[1], _, rfl, rfl, rfl⟩
  obtain ⟨start, stop?, hstart, hname⟩ :=
    (hall nestedMaps (nestedMaps.events[4]) .map { name := "Outer", output := some "[4]" }
      (List.getElem_mem _) rfl rfl rfl hbehind).resolved
  -- but the walk has stopped at the entry into the inner one by then
  have hinner : (ofLog nestedMaps).resolve (nestedMaps.events[4]) =
      .ok (⟨nestedMaps.events[2], .map, { name := "Inner", input := some "[2]" }⟩,
        some ⟨nestedMaps.events[4], .map, { name := "Outer", output := some "[4]" }⟩) := by rfl
  rw [hinner] at hstart
  cases hstart
  exact absurd hname (by decide)

end History

end WorkflowChart
