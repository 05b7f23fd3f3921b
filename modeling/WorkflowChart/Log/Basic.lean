import WorkflowChart.Instant.Basic
import WorkflowChart.Log.EventType

/-!
# Execution logs

What one execution has recorded. Events are linked to the event before them, and several events can
follow one event, so the links make a graph.

## Main definitions

* `EventId`, `Event`, `Log`: the log and its entries.
* `Entered`, `Exited`: an event seen as the entry into a state or the exit from one;
  `Event.entered?` and `Event.exited?` give these views.
-/

namespace WorkflowChart

/-- The id of an event within its log. -/
@[ext] structure EventId where
  text : String
deriving DecidableEq

namespace EventId

/-- The id of a number. -/
def ofNat (n : Nat) : EventId :=
  ⟨toString n⟩

end EventId

/-- What is said about a payload besides its text. -/
structure PayloadDetails where
  truncated : Bool := false
deriving DecidableEq

/-- What is recorded when a state is entered. The input is JSON text. -/
structure EnteredDetails where
  name : String
  input : Option String := none
  inputDetails : Option PayloadDetails := none
deriving DecidableEq

/-- What is recorded when a state is left. The output is JSON text. -/
structure ExitedDetails where
  name : String
  output : Option String := none
  outputDetails : Option PayloadDetails := none
deriving DecidableEq

/-- What is recorded when the execution starts. -/
structure StartedDetails where
  input : Option String := none
  inputDetails : Option PayloadDetails := none
  roleArn : Option String := none
deriving DecidableEq

/-- What is recorded when a function is scheduled. -/
structure ScheduledDetails where
  resource : Option String := none
  input : Option String := none
  inputDetails : Option PayloadDetails := none
  timeoutSeconds : Option UInt64 := none
deriving DecidableEq

/-- What is recorded when a function succeeds. -/
structure SucceededDetails where
  output : Option String := none
  outputDetails : Option PayloadDetails := none
deriving DecidableEq

/-- What is recorded when something fails. -/
structure FailureDetails where
  error : Option String := none
  cause : Option String := none
deriving DecidableEq

/-- An entry of a log. Of the details, those that go with the type are expected to be there. -/
structure Event where
  id : EventId
  /-- The event before this one. -/
  previous : Option EventId := none
  timestamp : Instant
  type : EventType
  started : Option StartedDetails := none
  enteredDetails : Option EnteredDetails := none
  exitedDetails : Option ExitedDetails := none
  scheduled : Option ScheduledDetails := none
  succeeded : Option SucceededDetails := none
  failed : Option FailureDetails := none
  executionFailed : Option FailureDetails := none
deriving DecidableEq

/-- The events of one execution in the order they were recorded in. -/
structure Log where
  events : List Event := []
  /-- Where the rest of the log can be asked for. -/
  nextToken : Option String := none
deriving DecidableEq

/-- An event seen as the entry into a state. -/
structure Entered where
  event : Event
  category : Category
  details : EnteredDetails
deriving DecidableEq

/-- An event seen as the exit from a state. -/
structure Exited where
  event : Event
  category : Category
  details : ExitedDetails
deriving DecidableEq

namespace Event

/-- An event as the entry into a state, if its type and its details say so. -/
def entered? (event : Event) : Option Entered :=
  match event.type, event.enteredDetails with
  | .stateEntered category, some details => some { event, category, details }
  | _, _ => none

/-- An event as the exit from a state, if its type and its details say so. -/
def exited? (event : Event) : Option Exited :=
  match event.type, event.exitedDetails with
  | .stateExited category, some details => some { event, category, details }
  | _, _ => none

end Event

namespace Log

/-- The time from the first event of a log to the last. -/
def duration? (log : Log) : Option Duration := do
  let first ← log.events.head?
  let last ← log.events.getLast?
  first.timestamp.elapsed? last.timestamp

end Log

end WorkflowChart
