import WorkflowChart.Category
import WorkflowChart.Entries
import WorkflowChart.Json.Basic

/-!
# State machine definitions

A definition is a graph of named states. The branches of a Parallel state and the iterator of a Map
state are definitions again.

## Main definitions

* `Definition`, `State`: the two mutually nested types.
* `State.next`, `State.isEnd`, `State.successors`: how control goes on after a state.
* `Choice.targets`: the names that a Choice state can go on to.
* `Definition.NamesDistinct`: no graph names two states alike, at any depth.
-/

namespace WorkflowChart

/-- How control goes on after a state that is not a choice and can be left. -/
structure Flow where
  /-- The state that follows. -/
  next : Option String := none
  /-- Whether the state ends its graph. -/
  isEnd : Bool := false
deriving DecidableEq

namespace Flow

/-- Control goes on to `next`, or the graph ends. -/
def toNext (next : Option String) : Flow :=
  { next, isEnd := next.isNone }

end Flow

/-- A state that hands its input on. -/
structure Pass where
  comment : Option String := none
  flow : Flow := {}
  result : Option Json := none
deriving DecidableEq

/-- A state that does a unit of work. -/
structure Task where
  comment : Option String := none
  resource : Option String := none
  flow : Flow := {}
  timeoutSeconds : Option UInt64 := none
deriving DecidableEq

/-- One rule of a choice. Its condition is free JSON, since only its target is drawn. -/
structure ChoiceRule where
  /-- The state that the rule leads to. -/
  next : String
  /-- The other members of the rule, in ascending order of their names. -/
  condition : List (String × Json) := []
deriving DecidableEq

/-- A state that goes on to one of several others. -/
structure Choice where
  comment : Option String := none
  rules : List ChoiceRule := []
  /-- The state to go on to when no rule applies. -/
  otherwise : Option String := none
deriving DecidableEq

/-- A state that ends the execution with an error. -/
structure Fail where
  comment : Option String := none
  error : Option String := none
  cause : Option String := none
deriving DecidableEq

/-- A state that ends its graph successfully. -/
structure Succeed where
  comment : Option String := none
deriving DecidableEq

/-- A state that lets time pass. -/
structure Wait where
  comment : Option String := none
  seconds : Option UInt64 := none
  timestamp : Option String := none
  flow : Flow := {}
deriving DecidableEq

mutual

/-- A graph of named states with a state to start at. -/
structure Definition where
  /-- The name of the first state to run. -/
  startAt : String
  /-- The states in the order they are declared in. -/
  states : List (String × State)
  comment : Option String := none
  timeoutSeconds : Option UInt64 := none
  version : Option String := none

/-- A state of a definition. -/
inductive State where
  | pass (pass : Pass)
  | task (task : Task)
  /-- Runs graphs side by side. -/
  | parallel (comment : Option String) (branches : List Definition) (flow : Flow)
  /-- Runs a graph once for each item. -/
  | map (comment : Option String) (iterator : Definition) (itemsPath : Option String)
    (maxConcurrency : Option UInt32) (flow : Flow)
  | choice (choice : Choice)
  | fail (fail : Fail)
  | succeed (succeed : Succeed)
  | wait (wait : Wait)

end

namespace Choice

/-- The names that the rules lead to in order, and then the name to go on to otherwise. -/
def candidates (choice : Choice) : List String :=
  choice.rules.map ChoiceRule.next ++ choice.otherwise.toList

/-- Puts a name to the end of a list that lacks it. -/
def addNew (names : List String) (name : String) : List String :=
  if name ∈ names then names else names ++ [name]

/-- The names that a choice can go on to, each where it comes first among the candidates. -/
def targets (choice : Choice) : List String :=
  choice.candidates.foldl addNew []

end Choice

namespace State

/-- The kind of construct that a state is. -/
def category : State → Category
  | pass _ => .pass
  | task _ => .task
  | parallel .. => .parallel
  | map .. => .map
  | choice _ => .choice
  | fail _ => .fail
  | succeed _ => .succeed
  | wait _ => .wait

/-- The comment of a state. -/
def comment : State → Option String
  | pass state => state.comment
  | task state => state.comment
  | parallel comment .. => comment
  | map comment .. => comment
  | choice state => state.comment
  | fail state => state.comment
  | succeed state => state.comment
  | wait state => state.comment

/-- How control goes on after a state of a kind that leaves it open. -/
def flow? : State → Option Flow
  | pass state => some state.flow
  | task state => some state.flow
  | parallel _ _ flow => some flow
  | map _ _ _ _ flow => some flow
  | wait state => some state.flow
  | choice _ | fail _ | succeed _ => none

/-- The state that follows by declaration. -/
def next (state : State) : Option String :=
  state.flow?.bind Flow.next

/-- Whether a state ends its graph. Fail and Succeed states always do, a choice never does. -/
def isEnd : State → Bool
  | fail _ | succeed _ => true
  | state => state.flow?.any Flow.isEnd

/-- Every name that a state can hand control to, each once. -/
def successors : State → List String
  | choice state => state.targets
  | state => state.next.toList

end State

namespace Definition

/-- The state of a name. -/
def get? (definition : Definition) (name : String) : Option State :=
  Entries.get? name definition.states

/-- The state to start at, if there is one of that name. -/
def startState? (definition : Definition) : Option State :=
  definition.get? definition.startAt

mutual

/-- No graph of a definition names two states alike, at any depth. -/
def NamesDistinct : Definition → Prop
  | ⟨_, states, _, _, _⟩ => (states.map Prod.fst).Nodup ∧ StatesNamesDistinct states

/-- No graph within states names two states alike. -/
def StatesNamesDistinct : List (String × State) → Prop
  | [] => True
  | (_, state) :: rest => StateNamesDistinct state ∧ StatesNamesDistinct rest

/-- No graph within a state names two states alike. -/
def StateNamesDistinct : State → Prop
  | .parallel _ branches _ => BranchesNamesDistinct branches
  | .map _ iterator _ _ _ => NamesDistinct iterator
  | .pass _ | .task _ | .choice _ | .fail _ | .succeed _ | .wait _ => True

/-- No graph among branches names two states alike. -/
def BranchesNamesDistinct : List Definition → Prop
  | [] => True
  | branch :: rest => NamesDistinct branch ∧ BranchesNamesDistinct rest

end

end Definition

end WorkflowChart
