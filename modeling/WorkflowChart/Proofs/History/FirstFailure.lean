import Mathlib.Data.List.TakeWhile
import WorkflowChart.Log.Builder
import WorkflowChart.Proofs.History.Visits
import WorkflowChart.Proofs.History.WholeChain

/-!
# One failure counts

A log can tell of many failures. Its first one ends the reading, so no other one is ever traced to a
state, and at most one state is reported as failed: the one with the nearest entry behind the first
failure, of whatever kind it is.

* **`History.FailedFirst`**: the first failure of the log lies in a state.
* **`History.visit?_of_failure`**: what a failure says about a state.
* **`History.lastWord_of_firstFailure`**: what the first one says is the last word.
* **`History.status_eq_fail_iff`**: the state in which the first failure lies is the one that is
  reported as failed.
* **`History.failed_iff_failedFirst`**: so at most one is.
-/

namespace WorkflowChart

/-- A failure that is read is the first one. -/
theorem find?_failure_of_mem_readEvents {events : List Event} {failure : Event}
    (hmem : failure ∈ readEvents events) (htype : failure.type = .lambdaFailed) :
    (events.find? fun event => event.type = .lambdaFailed) = some failure := by
  rw [readEvents_eq, List.mem_append, Option.mem_toList] at hmem
  rcases hmem with hbefore | hfirst
  · have hother := List.mem_takeWhile_imp hbefore
    simp [htype] at hother
  · exact hfirst

namespace History

variable {history : History} {name : String} {details : Details}

/-- The first failure of the log lies in the state `name`: the nearest entry behind it, of whatever
kind, is one into the state. -/
def FailedFirst (history : History) (name : String) : Prop :=
  ∃ failure steps entered,
    (history.events.find? fun event => event.type = .lambdaFailed) = some failure ∧
      FoundAt (predecessorIn history.events) Event.entered? failure steps entered ∧
      entered.details.name = name

/-- The first failure lies in one state only. -/
theorem FailedFirst.unique {other : String} (h : history.FailedFirst name)
    (hother : history.FailedFirst other) : name = other := by
  obtain ⟨failure, steps, entered, hfirst, hfound, rfl⟩ := h
  obtain ⟨failure', steps', entered', hfirst', hfound', rfl⟩ := hother
  obtain rfl : failure = failure' := Option.some.inj (hfirst.symm.trans hfirst')
  obtain ⟨-, rfl⟩ := hfound.unique hfound'
  rfl

/-- Where any kind will do, an entry is found as it is. -/
theorem enteredOf_none : enteredOf none = Event.entered? := by
  funext event
  rw [enteredOf]
  cases event.entered? <;> rfl

/-- What a failure says: it fails the state that the nearest entry behind it names. -/
theorem visit?_of_failure {failure : Event} (htype : failure.type = .lambdaFailed)
    {status : Status} {start : Entered} :
    history.visit? name failure = some (status, start) ↔
      status = .fail ∧ start.details.name = name ∧
        ∃ steps, FoundAt (predecessorIn history.events) Event.entered? failure steps start := by
  have houtcome : failure.outcome? = some .fail :=
    Event.outcome?_eq_some_iff.2 (Or.inr ⟨htype, rfl⟩)
  have hentered := Event.entered?_eq_none_of_outcome? houtcome
  have hclassify : classify failure = none := by rw [classify, htype]; rfl
  rw [visit?_eq_some_iff, hentered, houtcome, hclassify, enteredAncestor?_eq_some_iff,
    enteredOf_none, before_eq_predecessorIn]
  grind

/-- What the first failure says is the last word: nothing is read after it. -/
theorem lastWord_of_firstFailure {failure : Event}
    (hfirst : (history.events.find? fun event => event.type = .lambdaFailed) = some failure)
    {visit : Status × Entered} (hsaid : history.visit? name failure = some visit) :
    LastWord (history.visit? name) (readEvents history.events) failure visit := by
  refine ⟨hsaid, history.events.takeWhile fun event => event.type ≠ .lambdaFailed, [], ?_,
    List.forall_mem_nil _⟩
  rw [readEvents_eq, hfirst]
  rfl

/-- **The state in which the first failure lies** is the one that is reported as failed. -/
theorem status_eq_fail_iff (h : history.detailsOf name = .ok details) :
    details.status = .fail ↔ history.FailedFirst name := by
  constructor
  · intro hfail
    rcases history.visit_of_detailsOf h with
      ⟨speaker, ⟨status, start⟩, hlast, hstatus, -⟩ | ⟨-, hview⟩
    · obtain rfl : status = .fail := hstatus.symm.trans hfail
      -- an entry leaves the state indeterminate, so a failure has spoken
      obtain ⟨-, ⟨-, hother⟩ | ⟨houtcome, -⟩⟩ := history.visit?_eq_some_iff.1 hlast.said_eq
      · cases hother
      · have htype : speaker.type = .lambdaFailed := by
          simpa using Event.outcome?_eq_some_iff.1 houtcome
        obtain ⟨-, hname, steps, hfound⟩ := (visit?_of_failure htype).1 hlast.said_eq
        have hfirst := find?_failure_of_mem_readEvents hlast.mem htype
        exact ⟨speaker, steps, start, hfirst, hfound, hname⟩
    · cases hfail.symm.trans (congrArg Prod.fst hview)
  · rintro ⟨failure, steps, entered, hfirst, hfound, hname⟩
    have htype : failure.type = .lambdaFailed := by simpa using List.find?_some hfirst
    have hsaid := (visit?_of_failure htype).2 ⟨rfl, hname, steps, hfound⟩
    have hlast := lastWord_of_firstFailure hfirst hsaid
    rcases history.visit_of_detailsOf h with ⟨speaker, visit, hlast', hshows⟩ | ⟨hnone, -⟩
    · obtain ⟨-, rfl⟩ := hlast.unique hlast'
      exact hshows.1
    · rw [hnone failure hlast.mem] at hsaid
      contradiction

/-- **At most one state is reported as failed**, and it is the one that the first failure of the log
lies in, however many failures there are. -/
theorem failed_iff_failedFirst (history : History) {name : String} {details : Details}
    (h : history.detailsOf name = .ok details) :
    (details.status = .fail ↔ history.FailedFirst name) ∧
      ∀ other details', history.detailsOf other = .ok details' → details.status = .fail →
        details'.status = .fail → name = other := by
  refine ⟨status_eq_fail_iff h, ?_⟩
  intro other details' hother hfail hfail'
  exact ((status_eq_fail_iff h).1 hfail).unique ((status_eq_fail_iff hother).1 hfail')

/-! ## Two failures -/

/-- A run of a Parallel state both branches of which fail. The first of them is tried again, and
succeeds. -/
def twoFailures : Log :=
  ({} : LogBuilder).executionStarted "null"
    |>.entered .parallel "Fan" "null"
    |>.entered .task "Left" "null"
    |>.after (.ofNat 2)
    |>.entered .task "Right" "null"
    |>.after (.ofNat 3)
    |>.lambdaFailed "Error" "cause"
    |>.after (.ofNat 4)
    |>.lambdaFailed "Error" "cause"
    |>.after (.ofNat 5)
    |>.entered .task "Left" "null"
    |>.lambdaSucceeded "null"
    |>.exited .task "Left" "null"
    |>.build

/-- Only the branch that fails first is reported as failed, and it stays so. -/
theorem failed_iff_failedFirst_twoFailures :
    (∃ details, (ofLog twoFailures).detailsOf "Left" = .ok details ∧ details.status = .fail ∧
        (ofLog twoFailures).FailedFirst "Left") ∧
      ∃ details, (ofLog twoFailures).detailsOf "Right" = .ok details ∧
        details.status = .indeterminate ∧ ¬ (ofLog twoFailures).FailedFirst "Right" := by
  have hleft : (ofLog twoFailures).detailsOf "Left" = .ok
      { status := .fail, input := some .null, output := some .null,
        enteredAt := some ⟨0, 2, 0⟩, exitedAt := some ⟨0, 8, 0⟩ } := by rfl
  have hright : (ofLog twoFailures).detailsOf "Right" = .ok
      { status := .indeterminate, input := some .null, enteredAt := some ⟨0, 3, 0⟩ } := by rfl
  refine ⟨⟨_, hleft, rfl, (failed_iff_failedFirst _ hleft).1.1 rfl⟩, _, hright, rfl, ?_⟩
  intro hfailed
  exact absurd ((failed_iff_failedFirst _ hright).1.2 hfailed) (by decide)

end History

end WorkflowChart
