import WorkflowChart.Instant.Rfc3339
import WorkflowChart.Json.Encode
import WorkflowChart.Json.Printer
import WorkflowChart.Log.Basic

/-!
# Writing logs

The documents of logs and their parts. An event without certain details lacks their member; all
other fields are written, with `null` for one that is not given.

## Main definitions

* `Event.json`, `Log.json`: the documents.
* `Log.text`: the text of a log.
-/

namespace WorkflowChart

namespace Instant

/-- The document of an instant. -/
def json (t : Instant) : Json :=
  .string t.text

end Instant

namespace EventId

/-- The document of an event id. -/
def json (id : EventId) : Json :=
  .string id.text

end EventId

namespace PayloadDetails

/-- The document of what is said about a payload. -/
def json (details : PayloadDetails) : Json :=
  .object [("truncated", .bool details.truncated)]

end PayloadDetails

namespace EnteredDetails

/-- The document of the details of an entered event. -/
def json (details : EnteredDetails) : Json :=
  .object
    [("name", .string details.name), ("input", .ofOption .string details.input),
      ("inputDetails", .ofOption PayloadDetails.json details.inputDetails)]

end EnteredDetails

namespace ExitedDetails

/-- The document of the details of an exited event. -/
def json (details : ExitedDetails) : Json :=
  .object
    [("name", .string details.name), ("output", .ofOption .string details.output),
      ("outputDetails", .ofOption PayloadDetails.json details.outputDetails)]

end ExitedDetails

namespace StartedDetails

/-- The document of the details of a started execution. -/
def json (details : StartedDetails) : Json :=
  .object
    [("input", .ofOption .string details.input),
      ("inputDetails", .ofOption PayloadDetails.json details.inputDetails),
      ("roleArn", .ofOption .string details.roleArn)]

end StartedDetails

namespace ScheduledDetails

/-- The document of the details of a scheduled function. -/
def json (details : ScheduledDetails) : Json :=
  .object
    [("resource", .ofOption .string details.resource), ("input", .ofOption .string details.input),
      ("inputDetails", .ofOption PayloadDetails.json details.inputDetails),
      ("timeoutInSeconds", .ofOption .ofWord details.timeoutSeconds)]

end ScheduledDetails

namespace SucceededDetails

/-- The document of the details of a function that succeeded. -/
def json (details : SucceededDetails) : Json :=
  .object
    [("output", .ofOption .string details.output),
      ("outputDetails", .ofOption PayloadDetails.json details.outputDetails)]

end SucceededDetails

namespace FailureDetails

/-- The document of the details of a failure. -/
def json (details : FailureDetails) : Json :=
  .object
    [("error", .ofOption .string details.error), ("cause", .ofOption .string details.cause)]

end FailureDetails

namespace EventType

/-- The document of an event type. -/
def json (type : EventType) : Json :=
  .string type.tag

end EventType

namespace Event

/-- The members of an event that its details make. -/
def detailMembers (event : Event) : List (String × Json) :=
  Json.memberIfSome "executionStartedEventDetails" StartedDetails.json event.started
    ++ Json.memberIfSome "stateEnteredEventDetails" EnteredDetails.json event.enteredDetails
    ++ Json.memberIfSome "stateExitedEventDetails" ExitedDetails.json event.exitedDetails
    ++ Json.memberIfSome "lambdaFunctionScheduledEventDetails" ScheduledDetails.json event.scheduled
    ++ Json.memberIfSome "lambdaFunctionSucceededEventDetails" SucceededDetails.json event.succeeded
    ++ Json.memberIfSome "lambdaFunctionFailedEventDetails" FailureDetails.json event.failed
    ++ Json.memberIfSome "executionFailedEventDetails" FailureDetails.json event.executionFailed

/-- The document of an event. -/
def json (event : Event) : Json :=
  .object
    (("id", event.id.json) :: ("previousEventId", .ofOption EventId.json event.previous)
      :: ("timestamp", event.timestamp.json) :: ("type", event.type.json) :: event.detailMembers)

end Event

namespace Log

/-- The document of a log. -/
def json (log : Log) : Json :=
  .object
    (("events", .array (log.events.map Event.json))
      :: Json.memberIfSome "nextToken" Json.string log.nextToken)

/-- The text of a log. -/
def text (log : Log) : String :=
  log.json.text

end Log

end WorkflowChart
