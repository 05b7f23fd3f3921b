import WorkflowChart.Category

/-!
# Event types

The tag of an event says what happened. Tags that are of no use here are kept as they are.

## Main definitions

* `EventType`: the tags.
* `EventType.ofTag`, `EventType.tag`: from the text of a tag and back.
* `EventType.category`: the kind of construct that a tag belongs to.
* `EventType.isCompletion`, `EventType.isFailure`: the tags that settle a state.
-/

namespace WorkflowChart

/-- What happened. -/
inductive EventType where
  | executionStarted
  | executionSucceeded
  | executionFailed
  /-- A state of the given kind was entered. -/
  | stateEntered (category : Category)
  /-- A state of the given kind was left. -/
  | stateExited (category : Category)
  | lambdaScheduled
  | lambdaStarted
  | lambdaSucceeded
  | lambdaFailed
  | parallelSucceeded
  | other (tag : String)
deriving DecidableEq

namespace EventType

/-- What follows the stem of a category in the tag of an entered event. -/
def enteredEnding : String := "StateEntered"

/-- What follows the stem of a category in the tag of an exited event. -/
def exitedEnding : String := "StateExited"

/-- The text of a tag. -/
def tag : EventType → String
  | executionStarted => "ExecutionStarted"
  | executionSucceeded => "ExecutionSucceeded"
  | executionFailed => "ExecutionFailed"
  | stateEntered category => category.stem ++ enteredEnding
  | stateExited category => category.stem ++ exitedEnding
  | lambdaScheduled => "LambdaFunctionScheduled"
  | lambdaStarted => "LambdaFunctionStarted"
  | lambdaSucceeded => "LambdaFunctionSucceeded"
  | lambdaFailed => "LambdaFunctionFailed"
  | parallelSucceeded => "ParallelStateSucceeded"
  | other tag => tag

/-- The tags that name no category of a state. -/
def fixed : List EventType :=
  [executionStarted, executionSucceeded, executionFailed, lambdaScheduled, lambdaStarted,
    lambdaSucceeded, lambdaFailed, parallelSucceeded]

/-- The tags that name the category of a state. -/
def ofStates : List EventType :=
  Category.all.flatMap fun category => [stateEntered category, stateExited category]

/-- The event type with the given tag. -/
def ofTag (text : String) : EventType :=
  ((fixed ++ ofStates).find? fun type => type.tag = text).getD (other text)

/-- The kind of construct that a tag belongs to. -/
def category : EventType → Option Category
  | stateEntered category | stateExited category => some category
  | parallelSucceeded => some .parallel
  | other tag => Category.ofTag? tag
  | executionStarted | executionSucceeded | executionFailed | lambdaScheduled | lambdaStarted
  | lambdaSucceeded | lambdaFailed => none

/-- Whether a construct has come to its end successfully. -/
def isCompletion : EventType → Bool
  | lambdaSucceeded | parallelSucceeded | stateExited .map | stateExited .choice
  | stateExited .pass => true
  | _ => false

/-- Whether a task has failed. -/
def isFailure : EventType → Bool
  | lambdaFailed => true
  | _ => false

end EventType

end WorkflowChart
