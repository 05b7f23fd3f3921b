/-!
# Statuses

What one execution says about a state.

## Main definitions

* `Status`: the four answers.
* `Status.name`: their names in documents and messages.
-/

namespace WorkflowChart

/-- What has become of a state in one execution. -/
inductive Status where
  | success
  | fail
  | neverRun
  /-- Entered and not settled yet. -/
  | indeterminate
deriving DecidableEq, Repr

namespace Status

/-- Every status, in the order of declaration. -/
def all : List Status :=
  [success, fail, neverRun, indeterminate]

/-- The name of a status in documents and messages. -/
def name : Status → String
  | success => "success"
  | fail => "fail"
  | neverRun => "neverrun"
  | indeterminate => "indeterminate"

/-- Whether the state has been entered at all. -/
def hasRun (status : Status) : Bool :=
  status ≠ neverRun

/-- Every status is listed. -/
theorem mem_all (status : Status) : status ∈ all := by
  cases status <;> decide

end Status

end WorkflowChart
