import WorkflowChart.Instant.Rfc3339
import WorkflowChart.Json.Record
import WorkflowChart.Log.Basic

/-!
# Reading logs

The decoders of logs and their parts.

## Main definitions

* `Instant.decoder`, `EventId.decoder`, `Event.decoder`, `Log.decoder`: the decoders.
* `Log.parse`: the log that a text holds.
-/

namespace WorkflowChart

namespace Instant

/-- The instant that a text stands for. -/
def ofText (text : String) : Except DecodeError Instant :=
  match parse? text with
  | some instant => .ok instant
  | none => .error .badTimestamp

/-- The decoder of an instant. -/
def decoder : Decoder Instant := fun _ draft =>
  match draft with
  | .string (.ok text) _ => ofText text
  | draft => draft.mismatch .timestamp

end Instant

namespace EventId

/-- The decoder of an event id: a number without sign, or a text. -/
def decoder : Decoder EventId := Decoder.json.andThen fun value =>
  match value with
  | .number (.whole n) => if 0 ≤ n.val then .ok ⟨toString n.val⟩ else .error .badEventId
  | .string text => .ok ⟨text⟩
  | _ => .error .badEventId

end EventId

namespace PayloadDetails

/-- The decoder of what is said about a payload. -/
def decoder : Decoder PayloadDetails :=
  .record "PayloadDetails" (.cons (.withDefault "truncated" .boolean false) .nil)
    fun (truncated, ()) => { truncated }

end PayloadDetails

namespace EnteredDetails

/-- The decoder of the details of an entered event. -/
def decoder : Decoder EnteredDetails :=
  .record "StateEnteredDetails"
    (.cons (.required "name" .text) <|
     .cons (.optional "input" .text) <|
     .cons (.optional "inputDetails" PayloadDetails.decoder) <| .nil)
    fun (name, input, inputDetails, ()) => { name, input, inputDetails }

end EnteredDetails

namespace ExitedDetails

/-- The decoder of the details of an exited event. -/
def decoder : Decoder ExitedDetails :=
  .record "StateExitedDetails"
    (.cons (.required "name" .text) <|
     .cons (.optional "output" .text) <|
     .cons (.optional "outputDetails" PayloadDetails.decoder) <| .nil)
    fun (name, output, outputDetails, ()) => { name, output, outputDetails }

end ExitedDetails

namespace StartedDetails

/-- The decoder of the details of a started execution. -/
def decoder : Decoder StartedDetails :=
  .record "ExecutionStartedDetails"
    (.cons (.optional "input" .text) <|
     .cons (.optional "inputDetails" PayloadDetails.decoder) <|
     .cons (.optional "roleArn" .text) <| .nil)
    fun (input, inputDetails, roleArn, ()) => { input, inputDetails, roleArn }

end StartedDetails

namespace ScheduledDetails

/-- The decoder of the details of a scheduled function. -/
def decoder : Decoder ScheduledDetails :=
  .record "LambdaScheduledDetails"
    (.cons (.optional "resource" .text) <|
     .cons (.optional "input" .text) <|
     .cons (.optional "inputDetails" PayloadDetails.decoder) <|
     .cons (.optional "timeoutInSeconds" .word64) <| .nil)
    fun (resource, input, inputDetails, timeoutSeconds, ()) =>
      { resource, input, inputDetails, timeoutSeconds }

end ScheduledDetails

namespace SucceededDetails

/-- The decoder of the details of a function that succeeded. -/
def decoder : Decoder SucceededDetails :=
  .record "LambdaSucceededDetails"
    (.cons (.optional "output" .text) <|
     .cons (.optional "outputDetails" PayloadDetails.decoder) <| .nil)
    fun (output, outputDetails, ()) => { output, outputDetails }

end SucceededDetails

namespace FailureDetails

/-- The decoder of the details of a failure. -/
def decoder : Decoder FailureDetails :=
  .record "FailureDetails"
    (.cons (.optional "error" .text) <|
     .cons (.optional "cause" .text) <| .nil)
    fun (error, cause, ()) => { error, cause }

end FailureDetails

namespace Event

/-- The decoder of an event. -/
def decoder : Decoder Event :=
  .record "ExecutionEvent"
    (.cons (.required "id" EventId.decoder) <|
     .cons (.lenient "previousEventId" EventId.decoder) <|
     .cons (.required "timestamp" Instant.decoder) <|
     .cons (.required "type" (Decoder.text.map EventType.ofTag)) <|
     .cons (.lenient "executionStartedEventDetails" StartedDetails.decoder) <|
     .cons (.lenient "stateEnteredEventDetails" EnteredDetails.decoder) <|
     .cons (.lenient "stateExitedEventDetails" ExitedDetails.decoder) <|
     .cons (.lenient "lambdaFunctionScheduledEventDetails" ScheduledDetails.decoder) <|
     .cons (.lenient "lambdaFunctionSucceededEventDetails" SucceededDetails.decoder) <|
     .cons (.lenient "lambdaFunctionFailedEventDetails" FailureDetails.decoder) <|
     .cons (.lenient "executionFailedEventDetails" FailureDetails.decoder) <| .nil)
    fun (id, previous, timestamp, type, started, enteredDetails, exitedDetails, scheduled,
        succeeded, failed, executionFailed, ()) =>
      { id, previous, timestamp, type, started, enteredDetails, exitedDetails, scheduled, succeeded,
        failed, executionFailed }

end Event

namespace Log

/-- The decoder of a log. -/
def decoder : Decoder Log :=
  .record "ExecutionHistory"
    (.cons (.required "events" (.listOf Event.decoder)) <|
     .cons (.lenient "nextToken" .text) <| .nil)
    fun (events, nextToken, ()) => { events, nextToken }

/-- The log that a text holds. -/
def parse (text : String) : Except DecodeError Log :=
  decode decoder text

end Log

end WorkflowChart
