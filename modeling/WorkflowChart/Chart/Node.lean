import WorkflowChart.Definition.Basic

/-!
# Nodes

The nodes of a chart and their ids. Each graph is drawn in a frame of its own, so that states of one
name in different graphs are different nodes.

## Main definitions

* `Frame`, `Node`: a frame, and a state by its frame and its name.
* `Frame.id`, `Node.id`: their ids.
* `Registry`: the frames that have been opened and the states that have been registered.
-/

namespace WorkflowChart

/-- The frame that a graph is drawn in, by its number. -/
structure Frame where
  number : Nat
deriving DecidableEq

/-- The node of a state. -/
structure Node where
  frame : Frame
  name : String
deriving DecidableEq

namespace Frame

/-- The id of a frame. -/
def id (frame : Frame) : String :=
  "s" ++ toString frame.number

/-- The node of a state of the graph that is drawn in a frame. -/
def node (frame : Frame) (name : String) : Node :=
  { frame, name }

end Frame

namespace Node

/-- Whether a character of a name stands for itself in an id. -/
def isPlain (c : Char) : Bool :=
  c.isAlphanum || c = '-'

/-- What stands for a character of a name in an id: the character, or its number in hexadecimal
between underscores. -/
def escape (c : Char) : List Char :=
  if isPlain c then [c] else '_' :: 'x' :: Nat.toDigits 16 c.toNat ++ ['_']

/-- The id of a node: the id of its frame and its escaped name. -/
def id (node : Node) : String :=
  node.frame.id ++ "-" ++ String.ofList (node.name.toList.flatMap escape)

end Node

/-- The frames that have been opened so far, and the states that have been registered under ids. -/
structure Registry where
  frames : Nat := 0
  /-- The states in ascending order of their ids. -/
  states : List (String × State) := []

namespace Registry

/-- Opens the next frame. -/
def openFrame (registry : Registry) : Frame × Registry :=
  (⟨registry.frames⟩, { registry with frames := registry.frames + 1 })

/-- Registers a state under an id, in place of one that is there. -/
def register (registry : Registry) (id : String) (state : State) : Registry :=
  { registry with states := Entries.putSorted id state registry.states }

/-- The state that is registered under an id. -/
def state? (registry : Registry) (id : String) : Option State :=
  Entries.get? id registry.states

@[simp] theorem frames_register (registry : Registry) (id : String) (state : State) :
    (registry.register id state).frames = registry.frames := rfl

/-- A state that has been registered is found under its id. -/
@[simp] theorem state?_register_self (registry : Registry) (id : String) (state : State) :
    (registry.register id state).state? id = some state :=
  Entries.get?_putSorted_self id state registry.states

end Registry

end WorkflowChart
