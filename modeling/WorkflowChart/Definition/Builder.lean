import WorkflowChart.BuildError
import WorkflowChart.Definition.Basic

/-!
# Building definitions

## Main definitions

* `State.taskTo`, `State.choiceOf` and others: states in short, without comments and settings.
* `DefinitionBuilder`: the parts of a definition as they are collected.
* `DefinitionBuilder.build`: the definition, if the parts are all there.
-/

namespace WorkflowChart

namespace State

/-- A Task state that goes on to `next`, or ends its graph. -/
def taskTo (next : Option String) : State :=
  .task { flow := .toNext next }

/-- A Pass state that goes on to `next`, or ends its graph. -/
def passTo (next : Option String) : State :=
  .pass { flow := .toNext next }

/-- A Wait state that goes on to `next`, or ends its graph. -/
def waitTo (next : Option String) : State :=
  .wait { flow := .toNext next }

/-- A Succeed state. -/
def success : State :=
  .succeed {}

/-- A Fail state. -/
def failure : State :=
  .fail {}

/-- A Parallel state that runs `branches` and goes on to `next`, or ends its graph. -/
def parallelTo (branches : List Definition) (next : Option String) : State :=
  .parallel none branches (.toNext next)

/-- A Map state that runs `iterator` and goes on to `next`, or ends its graph. -/
def mapTo (iterator : Definition) (next : Option String) : State :=
  .map none iterator none none (.toNext next)

/-- A Choice state with a rule for each of `targets`, in order, and a target for all else. -/
def choiceOf (targets : List String) (otherwise : Option String) : State :=
  .choice { rules := targets.map fun next => { next }, otherwise }

end State

/-- The parts of a definition as they are collected. -/
structure DefinitionBuilder where
  startAt : Option String := none
  states : List (String × State) := []
  comment : Option String := none

namespace DefinitionBuilder

/-- Sets the state to start at. -/
def withStart (builder : DefinitionBuilder) (name : String) : DefinitionBuilder :=
  { builder with startAt := some name }

/-- Sets the comment. -/
def withComment (builder : DefinitionBuilder) (comment : String) : DefinitionBuilder :=
  { builder with comment := some comment }

/-- Adds a state, in place of an earlier one of that name. -/
def addState (builder : DefinitionBuilder) (name : String) (state : State) : DefinitionBuilder :=
  { builder with states := Entries.put name state builder.states }

/-- Adds states one after another. -/
def addStates (builder : DefinitionBuilder) (states : List (String × State)) :
    DefinitionBuilder :=
  states.foldl (fun builder (name, state) => builder.addState name state) builder

/-- The definition that has been collected. It needs a state to start at and one state at least;
whether the names in it are names of states is another question. -/
def build (builder : DefinitionBuilder) : Except BuildError Definition :=
  match builder.startAt, builder.states with
  | none, _ => .error .missingStartAt
  | some _, [] => .error .noStates
  | some startAt, states => .ok { startAt, states, comment := builder.comment }

end DefinitionBuilder

end WorkflowChart
