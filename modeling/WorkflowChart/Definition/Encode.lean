import WorkflowChart.Definition.Basic
import WorkflowChart.Json.Encode
import WorkflowChart.Json.Printer

/-!
# Writing definitions

The documents of definitions and their parts. Every field is written, with `null` for one that is
not given, in the order of declaration; a state begins with its kind, a rule with its target.

## Main definitions

* `State.json`, `States.json`, `Definition.json`: the documents.
* `Definition.text`: the text of a definition.
-/

namespace WorkflowChart

namespace ChoiceRule

/-- The document of a rule. -/
def json (rule : ChoiceRule) : Json :=
  .object (("Next", .string rule.next) :: rule.condition)

end ChoiceRule

namespace Flow

/-- The members that say how control goes on. -/
def members (flow : Flow) : List (String × Json) :=
  [("Next", .ofOption .string flow.next), ("End", .bool flow.isEnd)]

end Flow

namespace State

/-- The document of a state: its kind, its comment, and its other members. -/
def document (kind : Category) (comment : Option String) (members : List (String × Json)) : Json :=
  .object (("Type", .string kind.stem) :: ("Comment", .ofOption .string comment) :: members)

end State

mutual

/-- The document of a definition. -/
def Definition.json : Definition → Json
  | ⟨startAt, states, comment, timeoutSeconds, version⟩ =>
    .object
      [("StartAt", .string startAt), ("States", .object (Definition.jsonStates states)),
        ("Comment", .ofOption .string comment),
        ("TimeoutSeconds", .ofOption .ofWord timeoutSeconds),
        ("Version", .ofOption .string version)]

/-- The documents of named states. -/
def Definition.jsonStates : List (String × State) → List (String × Json)
  | [] => []
  | (name, state) :: rest => (name, state.json) :: Definition.jsonStates rest

/-- The document of a state. -/
def State.json : State → Json
  | .pass state =>
    State.document .pass state.comment
      (state.flow.members ++ [("Result", .ofOption id state.result)])
  | .task state =>
    State.document .task state.comment
      (("Resource", .ofOption .string state.resource) :: state.flow.members
        ++ [("TimeoutSeconds", .ofOption .ofWord state.timeoutSeconds)])
  | .parallel comment branches flow =>
    State.document .parallel comment
      (("Branches", .array (Definition.jsonBranches branches)) :: flow.members)
  | .map comment iterator itemsPath maxConcurrency flow =>
    State.document .map comment
      (("Iterator", iterator.json) :: ("ItemsPath", .ofOption .string itemsPath)
        :: ("MaxConcurrency", .ofOption (fun limit => .ofWord limit.toUInt64) maxConcurrency)
        :: flow.members)
  | .choice state =>
    State.document .choice state.comment
      [("Choices", .array (state.rules.map ChoiceRule.json)),
        ("Default", .ofOption .string state.otherwise)]
  | .fail state =>
    State.document .fail state.comment
      [("Error", .ofOption .string state.error), ("Cause", .ofOption .string state.cause)]
  | .succeed state => State.document .succeed state.comment []
  | .wait state =>
    State.document .wait state.comment
      (("Seconds", .ofOption .ofWord state.seconds)
        :: ("Timestamp", .ofOption .string state.timestamp) :: state.flow.members)

/-- The documents of branches. -/
def Definition.jsonBranches : List Definition → List Json
  | [] => []
  | branch :: rest => branch.json :: Definition.jsonBranches rest

end

namespace States

/-- The document of named states. -/
def json (states : List (String × State)) : Json :=
  .object (Definition.jsonStates states)

end States

namespace Definition

/-- The text of a definition. -/
def text (definition : Definition) : String :=
  definition.json.text

end Definition

end WorkflowChart
