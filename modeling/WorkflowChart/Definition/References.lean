import WorkflowChart.Definition.Basic

/-!
# References between states

Every name that a graph uses has to be the name of one of its own states.

## Main definitions

* `ReferenceError`: a name that is none, and where it is used.
* `Definition.danglingReferences`: all of them, in the order of the document.
* `Definition.referencesValid`: whether there are none.
-/

namespace WorkflowChart

/-- A name that is not the name of a state of its graph. The graph is given by its path. -/
inductive ReferenceError where
  | unknownStart (graph target : String)
  | unknownTarget (graph state target : String)
deriving DecidableEq

/-- The wording of a reference error. -/
def ReferenceError.message : ReferenceError → String
  | unknownStart graph target => graph ++ ": StartAt names unknown state `" ++ target ++ "`"
  | unknownTarget graph state target =>
    graph ++ ": `" ++ state ++ "` transitions to unknown state `" ++ target ++ "`"

namespace Definition

/-- The path of a branch of the state `name`. -/
def branchPath (path name : String) (index : Nat) : String :=
  path ++ "." ++ name ++ ".Branches[" ++ toString index ++ "]"

/-- The path of the iterator of the state `name`. -/
def iteratorPath (path name : String) : String :=
  path ++ "." ++ name ++ ".Iterator"

/-- The path of the outermost graph. -/
def rootPath : String := "StateMachine"

/-- The names among `targets` that a state uses and that are not among `names`. -/
def unknownTargets (names : List String) (path state : String) (targets : List String) :
    List ReferenceError :=
  (targets.filter fun target => target ∉ names).map (.unknownTarget path state)

mutual

/-- The dangling references of a graph and of the graphs in it. -/
def dangling (path : String) : Definition → List ReferenceError
  | ⟨startAt, states, _, _, _⟩ =>
    let names := states.map Prod.fst
    (if startAt ∈ names then [] else [.unknownStart path startAt])
      ++ danglingStates names path states

/-- The dangling references of states of a graph with the given names. -/
def danglingStates (names : List String) (path : String) :
    List (String × State) → List ReferenceError
  | [] => []
  | (name, state) :: rest =>
    unknownTargets names path name state.successors ++ danglingInside path name state
      ++ danglingStates names path rest

/-- The dangling references of the graphs in a state. -/
def danglingInside (path name : String) : State → List ReferenceError
  | .parallel _ branches _ => danglingBranches path name 0 branches
  | .map _ iterator _ _ _ => dangling (iteratorPath path name) iterator
  | .pass _ | .task _ | .choice _ | .fail _ | .succeed _ | .wait _ => []

/-- The dangling references of branches, from the one with the given index on. -/
def danglingBranches (path name : String) (index : Nat) : List Definition → List ReferenceError
  | [] => []
  | branch :: rest =>
    dangling (branchPath path name index) branch ++ danglingBranches path name (index + 1) rest

end

/-- All dangling references of a definition. -/
def danglingReferences (definition : Definition) : List ReferenceError :=
  definition.dangling rootPath

/-- Whether every name that is used is the name of a state. -/
def referencesValid (definition : Definition) : Bool :=
  definition.danglingReferences.isEmpty

end Definition

end WorkflowChart
