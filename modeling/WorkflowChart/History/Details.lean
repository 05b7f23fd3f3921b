import WorkflowChart.Details
import WorkflowChart.History.Basic

/-!
# What has become of a state

## Main definitions

* `HistoryError`: why a log does not answer.
* `History.resolve`: the entry that started a construct and the exit that ended it.
* `History.detailsOf`, `History.statusOf`: what the log says about a state.

The log is read from its front. An entry into the state makes it indeterminate. An event that
settles a construct settles the state that its entry names. The first failure of a task ends the
reading, whichever state it belongs to.
-/

namespace WorkflowChart

/-- Why a log does not answer a question about a state. -/
inductive HistoryError where
  /-- A payload is no JSON text. -/
  | undecodable (id : EventId) (cause : DecodeError)
  /-- No entry of the right kind lies before an event that settles a construct. -/
  | unresolvedAncestor (id : EventId) (type : EventType)
deriving DecidableEq

/-- The wording of a history error. -/
def HistoryError.message : HistoryError → String
  | undecodable id cause =>
    "Event " ++ id.text ++ " carries a payload that is not valid JSON: " ++ cause.message
  | unresolvedAncestor id type =>
    "No entered event precedes " ++ type.tag ++ " event " ++ id.text

/-- The value of the payload of an event. -/
def decodePayload (event : Event) : Option String → Except HistoryError (Option Json)
  | none => .ok none
  | some text =>
    match decode Decoder.json text with
    | .ok value => .ok (some value)
    | .error cause => .error (.undecodable event.id cause)

namespace Entered

/-- The value of the input that a state was entered with. -/
def payload (entered : Entered) : Except HistoryError (Option Json) :=
  decodePayload entered.event entered.details.input

end Entered

namespace Exited

/-- The value of the output that a state was left with. -/
def payload (exited : Exited) : Except HistoryError (Option Json) :=
  decodePayload exited.event exited.details.output

end Exited

namespace Details

/-- The details once the state has been entered. What an earlier visit left behind stays. -/
def enter (details : Details) (entered : Entered) : Except HistoryError Details := do
  let input ← entered.payload
  return { details with
    status := .indeterminate, input, enteredAt := some entered.event.timestamp }

/-- The details once the state has been settled by a construct from `start` to `stop?`. -/
def settle (details : Details) (status : Status) (start : Entered) (stop? : Option Exited) :
    Except HistoryError Details := do
  let input ← start.payload
  let details :=
    { details with status, input, enteredAt := some start.event.timestamp }
  match stop? with
  | none => return details
  | some stop =>
    let output ← stop.payload
    return { details with output, exitedAt := some stop.event.timestamp }

end Details

namespace History

/-- The entry that started the construct of an event, and the exit that ended it, if any. -/
def resolve (history : History) (event : Event) :
    Except HistoryError (Entered × Option Exited) :=
  let category := classify event
  match history.enteredAncestor? event category with
  | some start => .ok (start, history.exitedDescendant? event category)
  | none => .error (.unresolvedAncestor event.id event.type)

/-- What an entry says about the state `name`. -/
def noteEntry (name : String) (details : Details) (event : Event) :
    Except HistoryError Details :=
  match event.entered? with
  | some entered => if entered.details.name = name then details.enter entered else .ok details
  | none => .ok details

/-- What an event that settles a construct says about the state `name`. -/
def noteOutcome (history : History) (name : String) (status : Status) (details : Details)
    (event : Event) : Except HistoryError Details := do
  let (start, stop?) ← history.resolve event
  if start.details.name = name then details.settle status start stop? else return details

/-- What the events of the log say about the state `name`, after what those before them said. -/
def scan (history : History) (name : String) :
    Details → List Event → Except HistoryError Details
  | details, [] => .ok details
  | details, event :: events => do
    let details ← noteEntry name details event
    let details ←
      if event.type.isCompletion then history.noteOutcome name .success details event
      else .ok details
    if event.type.isFailure then history.noteOutcome name .fail details event
    else history.scan name details events

/-- What the log says about the state `name`. -/
def detailsOf (history : History) (name : String) : Except HistoryError Details :=
  history.scan name .neverRun history.events

/-- What has become of the state `name`. -/
def statusOf (history : History) (name : String) : Except HistoryError Status :=
  (history.detailsOf name).map Details.status

end History

end WorkflowChart
