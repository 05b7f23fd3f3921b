import WorkflowChart.Log.Decode
import WorkflowChart.Status

/-!
# Details of a state

What one execution says about a state: its status, its input and output, and when it was entered and
left.

## Main definitions

* `Details`: the record; `Details.neverRun` is the one of a state that has not been entered.
* `Details.duration?`: the time spent in the state.
* `Status.parse`, `Details.parse`: what a text holds.
-/

namespace WorkflowChart

/-- What one execution says about a state. -/
structure Details where
  status : Status
  input : Option Json := none
  output : Option Json := none
  /-- When the state was entered with the input. -/
  enteredAt : Option Instant := none
  /-- When the state was left with the output. -/
  exitedAt : Option Instant := none
deriving DecidableEq

namespace Details

/-- The details of a state that has not been entered. -/
def neverRun : Details :=
  { status := .neverRun }

/-- The time from entering a state to leaving it. -/
def duration? (details : Details) : Option Duration := do
  let entered ← details.enteredAt
  let exited ← details.exitedAt
  entered.elapsed? exited

end Details

namespace Status

/-- The decoder of a status. -/
def decoder : Decoder Status :=
  .oneOf (all.map fun status => (status.name, status))

/-- The status that a text holds. -/
def parse (text : String) : Except DecodeError Status :=
  decode decoder text

/-- The document of a status. -/
def json (status : Status) : Json :=
  .string status.name

end Status

namespace Details

/-- The decoder of the details of a state. -/
def decoder : Decoder Details :=
  .record "Details"
    (.cons (.required "status" Status.decoder) <|
     .cons (.optional "input" .json) <|
     .cons (.optional "output" .json) <|
     .cons (.optional "entered_at" Instant.decoder) <|
     .cons (.optional "exited_at" Instant.decoder) <| .nil)
    fun (status, input, output, enteredAt, exitedAt, ()) =>
      { status, input, output, enteredAt, exitedAt }

/-- The details that a text holds. -/
def parse (text : String) : Except DecodeError Details :=
  decode decoder text

end Details

end WorkflowChart
