import WorkflowChart.Chart.Line
import WorkflowChart.Definition.References
import WorkflowChart.History.Details

/-!
# Charts

The chart of a definition. Each graph is drawn in a frame of its own: the node to start at, and then
for each state the graphs in it as blocks, its shape, its colour, its callback and its edges.

## Main definitions

* `StatusSource`: what tells the status of a state by its name.
* `Drawing`: the lines of graphs, the nodes in them, and the number of the next frame.
* `Chart.drawGraph`: the drawing of a graph.
* `Chart.compile`, `Chart.render`: the chart of a definition; `Flowchart.text` is its text.
-/

namespace WorkflowChart

/-- What tells the status of a state by its name, if it does not fail. -/
abbrev StatusSource := String → Except HistoryError Status

/-- Why there is no chart of a definition. -/
inductive CompileError where
  /-- The definition uses names that are no names of states. -/
  | invalidReferences (references : List ReferenceError)
  /-- The status of a state cannot be told. -/
  | history (cause : HistoryError)
deriving DecidableEq

/-- The wording of a compile error. -/
def CompileError.message : CompileError → String
  | invalidReferences references =>
    "Definition has " ++ toString references.length ++ " unresolved state reference(s): "
      ++ "; ".intercalate (references.map ReferenceError.message)
  | history cause => "Cannot colour states from execution history: " ++ cause.message

/-- The lines of graphs, the states that are drawn as nodes in the order in which they are met, and
the number of the frame that is opened next. -/
structure Drawing where
  lines : List Line := []
  nodes : List (Node × State) := []
  nextFrame : Nat

namespace Drawing

/-- A drawing inside a block: `before` opens the block and a line closes it. -/
def block (before : List Line) (inside : Drawing) : Drawing :=
  { inside with lines := before ++ inside.lines ++ [.closing] }

end Drawing

namespace Chart

/-- The lines that follow the shape of a state: its callback and the edge to the state after it. -/
def linksOf (options : ChartOptions) (frame : Frame) (name : String) (state : State) : List Line :=
  (if options.tooltips then [.click (frame.node name)] else [])
    ++ state.next.toList.map fun next => .edge (frame.node name) (frame.node next)

/-- The line that colours a node, where there is a source of statuses. -/
def fillOf (options : ChartOptions) (statuses? : Option StatusSource) (node : Node) :
    Except HistoryError (List Line) :=
  match statuses? with
  | none => .ok []
  | some statuses => do return [.fill node (options.fills.color (← statuses node.name))]

mutual

/-- The drawing of a graph in the frame of the given number. -/
def drawGraph (options : ChartOptions) (statuses? : Option StatusSource) (number : Nat) :
    Definition → Except HistoryError Drawing
  | ⟨startAt, states, _, _, _⟩ => do
    let frame : Frame := ⟨number⟩
    let drawing ← drawStates options statuses? frame (number + 1) states
    return { drawing with lines := .start (frame.node startAt) :: drawing.lines }

/-- The drawing of states in a frame, where `number` is the number of the next frame. -/
def drawStates (options : ChartOptions) (statuses? : Option StatusSource) (frame : Frame)
    (number : Nat) : List (String × State) → Except HistoryError Drawing
  | [] => .ok { nextFrame := number }
  | (name, state) :: rest => do
    let node := frame.node name
    let inside ← drawState options statuses? frame number name state
    let fill ← fillOf options statuses? node
    let drawing ← drawStates options statuses? frame inside.nextFrame rest
    return {
      lines := inside.lines ++ [.declaration node (.of state)] ++ fill
        ++ linksOf options frame name state ++ drawing.lines
      nodes := (node, state) :: inside.nodes ++ drawing.nodes
      nextFrame := drawing.nextFrame }

/-- The drawing of what a state is made of: a box for a simple state, the edges of a choice, and a
block with its graphs for a state that has some. -/
def drawState (options : ChartOptions) (statuses? : Option StatusSource) (frame : Frame)
    (number : Nat) (name : String) : State → Except HistoryError Drawing
  | .task _ | .pass _ | .fail _ | .succeed _ | .wait _ =>
    .ok { lines := [.declaration (frame.node name) .rectangle], nextFrame := number }
  | .choice choice =>
    .ok {
      lines := choice.targets.map fun target => .edge (frame.node name) (frame.node target)
      nextFrame := number }
  | .parallel _ branches _ => do
    let inside ← drawBranches options statuses? [] number branches
    return .block [.opening (frame.node name), .layout options.direction] inside
  | .map _ iterator _ _ _ => do
    let inside ← drawGraph options statuses? number iterator
    let node := frame.node name
    return .block [.opening node, .dashed node, .layout options.direction] inside

/-- The drawings of branches: `gap` before the first one, and a blank line before every other. -/
def drawBranches (options : ChartOptions) (statuses? : Option StatusSource) (gap : List Line)
    (number : Nat) : List Definition → Except HistoryError Drawing
  | [] => .ok { nextFrame := number }
  | branch :: rest => do
    let first ← drawGraph options statuses? number branch
    let others ← drawBranches options statuses? [.blank] first.nextFrame rest
    return {
      lines := gap ++ first.lines ++ others.lines
      nodes := first.nodes ++ others.nodes
      nextFrame := others.nextFrame }

end

end Chart

/-- The chart of a definition: its lines, and the registry with the nodes that it declares. -/
structure Flowchart where
  lines : List Line
  registry : Registry

namespace Flowchart

/-- The text of a chart. -/
def text (chart : Flowchart) : String :=
  Line.textOf chart.lines

/-- The state that is drawn as the node with an id. -/
def state? (chart : Flowchart) (id : String) : Option State :=
  chart.registry.state? id

/-- The chart of a drawing of the outermost graph. -/
def ofDrawing (direction : Direction) (drawing : Drawing) : Flowchart where
  lines := .header direction :: drawing.lines
  registry :=
    drawing.nodes.foldl (fun registry (node, state) => registry.register node.id state)
      { frames := drawing.nextFrame }

end Flowchart

namespace Chart

/-- The chart of a definition, coloured by a source of statuses if there is one. -/
def compile (definition : Definition) (statuses? : Option StatusSource) (options : ChartOptions) :
    Except CompileError Flowchart :=
  match definition.danglingReferences with
  | [] =>
    match drawGraph options statuses? 0 definition with
    | .ok drawing => .ok (.ofDrawing options.direction drawing)
    | .error cause => .error (.history cause)
  | references@(_ :: _) => .error (.invalidReferences references)

/-- The chart of a definition, coloured by a log if there is one. -/
def render (definition : Definition) (log? : Option Log) (options : ChartOptions) :
    Except CompileError Flowchart :=
  compile definition (log?.map fun log => (History.ofLog log).statusOf) options

end Chart

end WorkflowChart
