import WorkflowChart.BuildError
import WorkflowChart.Text.Blank

/-!
# Chart options

## Main definitions

* `Direction`: which way a chart runs; `Direction.parse` reads its two letters.
* `Fills`: a colour for every status.
* `ChartOptions`: what can be chosen about a chart.
* `OptionsBuilder.build`: the options that have been collected, if their fills can be used.
-/

namespace WorkflowChart

/-- Which way a chart and every block in it runs. -/
inductive Direction where
  | topToBottom
  | topDown
  | bottomToTop
  | leftToRight
  | rightToLeft
deriving DecidableEq

namespace Direction

/-- Every direction. -/
def all : List Direction :=
  [topToBottom, topDown, bottomToTop, leftToRight, rightToLeft]

/-- The two letters of a direction. -/
def letters : Direction → String
  | topToBottom => "TB"
  | topDown => "TD"
  | bottomToTop => "BT"
  | leftToRight => "LR"
  | rightToLeft => "RL"

/-- The direction that a text gives by its letters, in upper or lower case. -/
def parse (text : String) : Except BuildError Direction :=
  let upper := text.toList.map Char.toUpper
  match all.find? fun direction => direction.letters.toList = upper with
  | some direction => .ok direction
  | none => .error (.unknownDirection text)

end Direction

/-- A colour for every status. -/
structure Fills where
  success : String := "lightgreen"
  fail : String := "lightcoral"
  neverRun : String := "gainsboro"
  indeterminate : String := "grey"
deriving DecidableEq

namespace Fills

/-- The colour of a status. -/
def color (fills : Fills) : Status → String
  | .success => fills.success
  | .fail => fills.fail
  | .neverRun => fills.neverRun
  | .indeterminate => fills.indeterminate

/-- Sets the colour of a status. -/
def set (fills : Fills) (status : Status) (color : String) : Fills :=
  match status with
  | .success => { fills with success := color }
  | .fail => { fills with fail := color }
  | .neverRun => { fills with neverRun := color }
  | .indeterminate => { fills with indeterminate := color }

/-- A status has the colour that has been chosen for it. -/
@[simp] theorem color_set_self (fills : Fills) (status : Status) (color : String) :
    (fills.set status color).color status = color := by
  cases status <;> rfl

/-- The other statuses keep their colours. -/
theorem color_set_of_ne (fills : Fills) {status other : Status} (h : other ≠ status)
    (color : String) : (fills.set status color).color other = fills.color other := by
  cases status <;> cases other <;> first | rfl | exact absurd rfl h

end Fills

/-- What can be chosen about a chart. -/
structure ChartOptions where
  direction : Direction := .topToBottom
  fills : Fills := {}
  /-- Whether every node calls back when it is clicked. -/
  tooltips : Bool := false
deriving DecidableEq

/-- Whether a colour survives in a style line: it is not empty, and nothing in it ends the value. -/
def isStyleValue (color : String) : Bool :=
  color.toList ≠ [] ∧ color.toList.all fun c => !(isBlank c || c ∈ [',', ';', ':'])

namespace ChartOptions

/-- Whether every fill survives in a style line. -/
def HasStyleValues (options : ChartOptions) : Prop :=
  ∀ status, isStyleValue (options.fills.color status) = true

/-- The fills that are chosen by default survive. -/
theorem hasStyleValues_default : ({} : ChartOptions).HasStyleValues := by
  intro status
  cases status <;> decide

end ChartOptions

/-- Options as they are collected. -/
structure OptionsBuilder where
  options : ChartOptions := {}

namespace OptionsBuilder

/-- Sets the direction. -/
def withDirection (builder : OptionsBuilder) (direction : Direction) : OptionsBuilder :=
  ⟨{ builder.options with direction }⟩

/-- Sets the colour of a status. -/
def withFill (builder : OptionsBuilder) (status : Status) (color : String) : OptionsBuilder :=
  ⟨{ builder.options with fills := builder.options.fills.set status color }⟩

/-- Sets whether every node calls back when it is clicked. -/
def withTooltips (builder : OptionsBuilder) (tooltips : Bool) : OptionsBuilder :=
  ⟨{ builder.options with tooltips }⟩

/-- The options that have been collected, or the first status whose fill cannot be used. -/
def build (builder : OptionsBuilder) : Except BuildError ChartOptions :=
  let color := builder.options.fills.color
  match Status.all.find? fun status => !isStyleValue (color status) with
  | some status => .error (.invalidFill status (color status))
  | none => .ok builder.options

/-- What is built has fills that survive. -/
theorem hasStyleValues_of_build {builder : OptionsBuilder} {options : ChartOptions}
    (h : builder.build = .ok options) : options.HasStyleValues := by
  intro status
  simp only [build] at h
  split at h
  · contradiction
  · next hnone =>
    cases h
    have := List.find?_eq_none.1 hnone status (Status.mem_all status)
    simpa using this

end OptionsBuilder

end WorkflowChart
