import WorkflowChart.Chart.Node
import WorkflowChart.Chart.Options

/-!
# Lines

The lines that the text of a chart is made of.

## Main definitions

* `Shape`: the brackets around the label of a node; `Shape.of` is the shape of a state.
* `Line`: the kinds of lines.
* `Line.text`: the text of a line.
-/

namespace WorkflowChart

/-- The brackets around the label of a node. -/
inductive Shape where
  | rectangle
  | rhombus
  | stadium
  | circle
  | doubleCircle
  | hexagon
deriving DecidableEq

namespace Shape

/-- The shape of a kind of state. -/
def ofCategory : Category → Shape
  | .choice => rhombus
  | .pass => stadium
  | .succeed => circle
  | .fail => doubleCircle
  | .wait => hexagon
  | .task | .parallel | .map => rectangle

/-- The shape of a state. -/
def of (state : State) : Shape :=
  ofCategory state.category

/-- The opening bracket. -/
def opening : Shape → String
  | rectangle => "["
  | rhombus => "\x7b"
  | stadium => "(["
  | circle => "(("
  | doubleCircle => "((("
  | hexagon => "\x7b\x7b"

/-- The closing bracket. -/
def closing : Shape → String
  | rectangle => "]"
  | rhombus => "\x7d"
  | stadium => "])"
  | circle => "))"
  | doubleCircle => ")))"
  | hexagon => "\x7d\x7d"

end Shape

/-- What stands for a character in a label: an entity for the quote, else the character. -/
def labelChar (c : Char) : List Char :=
  if c = '"' then "#quot;".toList else [c]

/-- A name as a label. -/
def label (name : String) : String :=
  "\"" ++ String.ofList (name.toList.flatMap labelChar) ++ "\""

/-- A line of a chart. A node stands in it by its id, or by its name as a label. -/
inductive Line where
  /-- The first line: the kind of chart and its direction. -/
  | header (direction : Direction)
  /-- The node that a graph starts at, by its id alone. -/
  | start (node : Node)
  /-- A node with its label and its shape. -/
  | declaration (node : Node) (shape : Shape)
  /-- The start of the block that a node is. -/
  | opening (node : Node)
  /-- The direction of a block. -/
  | layout (direction : Direction)
  /-- The end of a block. -/
  | closing
  /-- The dashed border of a block. -/
  | dashed (node : Node)
  /-- The colour of a node. -/
  | fill (node : Node) (color : String)
  /-- The callback of a node. -/
  | click (node : Node)
  | edge (source target : Node)
  | blank
deriving DecidableEq

namespace Line

/-- The text of a line, without the line feed at its end. -/
def text : Line → String
  | header direction => "flowchart " ++ direction.letters
  | start node => node.id
  | declaration node shape => node.id ++ shape.opening ++ label node.name ++ shape.closing
  | opening node => "subgraph " ++ node.id ++ " [" ++ label node.name ++ "]"
  | layout direction => "direction " ++ direction.letters
  | closing => "end"
  | dashed node => "style " ++ node.id ++ " stroke-dasharray: 5 5"
  | fill node color => "style " ++ node.id ++ " fill:" ++ color
  | click node => "click " ++ node.id ++ " callback " ++ label node.name
  | edge source target => source.id ++ " --> " ++ target.id
  | blank => ""

/-- The text of lines, with a line feed after each. -/
def textOf : List Line → String
  | [] => ""
  | line :: lines => line.text ++ "\n" ++ textOf lines

end Line

end WorkflowChart
