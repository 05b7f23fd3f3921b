import WorkflowChart.Status

/-!
# Build errors

Why a definition or the options of a chart cannot be put together.
-/

namespace WorkflowChart

/-- Why something cannot be put together. -/
inductive BuildError where
  | missingStartAt
  | noStates
  /-- A fill that would not survive in a style line. -/
  | invalidFill (status : Status) (color : String)
  | unknownDirection (text : String)
deriving DecidableEq

/-- The wording of a build error. -/
def BuildError.message : BuildError → String
  | missingStartAt => "Start state not specified. Call .start_at(name) before .build()"
  | noStates => "No states defined. Add at least one state"
  | invalidFill status color =>
    "Fill `" ++ color ++ "` for " ++ status.name ++ " states is not a usable style value"
  | unknownDirection text =>
    "Unknown layout direction `" ++ text ++ "`. Expected one of TB, TD, BT, LR, RL"

end WorkflowChart
