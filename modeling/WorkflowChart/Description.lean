import WorkflowChart.Definition.Decode
import WorkflowChart.Json.Encode
import WorkflowChart.Log.Decode
import WorkflowChart.Log.Encode

/-!
# Descriptions

What a workflow service tells about a state machine and about an execution. The definition and the
input are documents of their own, given as JSON text within the description.

## Main definitions

* `ParseError`: which document could not be read, and why.
* `MachineDescription`, `ExecutionDescription`: the two descriptions.
* `MachineDescription.parseDefinition`, `ExecutionDescription.parseInput`: the documents within.
-/

namespace WorkflowChart

/-- Which document could not be read, and why. -/
inductive ParseError where
  | definition (cause : DecodeError)
  | history (cause : DecodeError)
  /-- A description of `what`. -/
  | description (what : String) (cause : DecodeError)
  | executionInput (cause : DecodeError)
deriving DecidableEq

/-- The wording of a parse error. -/
def ParseError.message : ParseError → String
  | definition cause => "Invalid state machine definition: " ++ cause.message
  | history cause => "Invalid execution history: " ++ cause.message
  | description what cause => "Invalid " ++ what ++ " description: " ++ cause.message
  | executionInput cause => "Invalid execution input: " ++ cause.message

/-- The definition that a document holds. -/
def Definition.ofDocument (text : String) : Except ParseError Definition :=
  (Definition.parse text).mapError .definition

/-- The log that a document holds. -/
def Log.ofDocument (text : String) : Except ParseError Log :=
  (Log.parse text).mapError .history

/-- A state machine as the service describes it. -/
structure MachineDescription where
  arn : String
  name : String
  type : Option String := none
  creationDate : Option Instant := none
  status : Option String := none
  roleArn : Option String := none
  /-- The definition, as JSON text. -/
  definition : String
deriving DecidableEq

namespace MachineDescription

/-- The decoder of a description of a state machine. -/
def decoder : Decoder MachineDescription :=
  .record "StateMachineDescription"
    (.cons (.required "stateMachineArn" .text) <|
     .cons (.required "name" .text) <|
     .cons (.optional "type" .text) <|
     .cons (.optional "creationDate" Instant.decoder) <|
     .cons (.optional "status" .text) <|
     .cons (.optional "roleArn" .text) <|
     .cons (.required "definition" .text) <| .nil)
    fun (arn, name, type, creationDate, status, roleArn, definition, ()) =>
      { arn, name, type, creationDate, status, roleArn, definition }

/-- The description that a document holds. -/
def ofDocument (text : String) : Except ParseError MachineDescription :=
  (decode decoder text).mapError (.description "state machine")

/-- The definition in a description. -/
def parseDefinition (machine : MachineDescription) : Except ParseError Definition :=
  Definition.ofDocument machine.definition

/-- The document of a description. -/
def json (machine : MachineDescription) : Json :=
  .object
    [("stateMachineArn", .string machine.arn), ("name", .string machine.name),
      ("type", .ofOption .string machine.type),
      ("creationDate", .ofOption Instant.json machine.creationDate),
      ("status", .ofOption .string machine.status),
      ("roleArn", .ofOption .string machine.roleArn), ("definition", .string machine.definition)]

end MachineDescription

/-- What has become of an execution. -/
inductive ExecutionStatus where
  | running
  | succeeded
  | failed
  | timedOut
  | aborted
deriving DecidableEq

namespace ExecutionStatus

/-- The statuses by their names in documents. -/
def table : List (String × ExecutionStatus) :=
  [("RUNNING", running), ("SUCCEEDED", succeeded), ("FAILED", failed), ("TIMED_OUT", timedOut),
    ("ABORTED", aborted)]

/-- The name of a status in documents. -/
def name : ExecutionStatus → String
  | running => "RUNNING"
  | succeeded => "SUCCEEDED"
  | failed => "FAILED"
  | timedOut => "TIMED_OUT"
  | aborted => "ABORTED"

/-- Every status is found under its name. -/
theorem get?_table (status : ExecutionStatus) :
    Entries.get? status.name table = some status := by
  cases status <;> decide

end ExecutionStatus

/-- An execution as the service describes it. -/
structure ExecutionDescription where
  arn : String
  machineArn : String
  name : String
  status : ExecutionStatus
  startDate : Instant
  stopDate : Option Instant := none
  /-- The input, as JSON text. -/
  input : Option String := none
deriving DecidableEq

namespace ExecutionDescription

/-- The decoder of a description of an execution. -/
def decoder : Decoder ExecutionDescription :=
  .record "ExecutionDescription"
    (.cons (.required "executionArn" .text) <|
     .cons (.required "stateMachineArn" .text) <|
     .cons (.required "name" .text) <|
     .cons (.required "status" (.oneOf ExecutionStatus.table)) <|
     .cons (.required "startDate" Instant.decoder) <|
     .cons (.optional "stopDate" Instant.decoder) <|
     .cons (.optional "input" .text) <| .nil)
    fun (arn, machineArn, name, status, startDate, stopDate, input, ()) =>
      { arn, machineArn, name, status, startDate, stopDate, input }

/-- The description that a document holds. -/
def ofDocument (text : String) : Except ParseError ExecutionDescription :=
  (decode decoder text).mapError (.description "execution")

/-- The input of an execution, if it is recorded. -/
def parseInput (execution : ExecutionDescription) : Except ParseError (Option Json) :=
  match execution.input with
  | none => .ok none
  | some text => ((decode Decoder.json text).mapError .executionInput).map some

/-- The time from the start of an execution to its end. -/
def duration? (execution : ExecutionDescription) : Option Duration :=
  execution.stopDate.bind execution.startDate.elapsed?

/-- The document of a description. -/
def json (execution : ExecutionDescription) : Json :=
  .object
    [("executionArn", .string execution.arn), ("stateMachineArn", .string execution.machineArn),
      ("name", .string execution.name), ("status", .string execution.status.name),
      ("startDate", execution.startDate.json),
      ("stopDate", .ofOption Instant.json execution.stopDate),
      ("input", .ofOption .string execution.input)]

end ExecutionDescription

end WorkflowChart
