import WorkflowChart.Definition.Basic

/-!
# Equality of definitions

Equality of definitions and of states is decidable, graph by graph.
-/

namespace WorkflowChart

mutual

/-- Equality of definitions is decidable. -/
def Definition.decEq : (a b : Definition) → Decidable (a = b)
  | ⟨start, states, comment, timeout, version⟩, ⟨start', states', comment', timeout', version'⟩ =>
    match Definition.decEqStates states states' with
    | isTrue h =>
      decidable_of_iff
        (start = start' ∧ comment = comment' ∧ timeout = timeout' ∧ version = version')
        (by simp [h])
    | isFalse h => isFalse (by simp [h])

/-- Equality of named states is decidable. -/
def Definition.decEqStates : (a b : List (String × State)) → Decidable (a = b)
  | [], [] => isTrue rfl
  | [], _ :: _ | _ :: _, [] => isFalse nofun
  | (name, a) :: as, (name', b) :: bs =>
    match State.decEq a b, Definition.decEqStates as bs with
    | isTrue h, isTrue hs => decidable_of_iff (name = name') (by simp [h, hs])
    | isFalse h, _ => isFalse (by simp [h])
    | _, isFalse hs => isFalse (by simp [hs])

/-- Equality of states is decidable. -/
def State.decEq : (a b : State) → Decidable (a = b)
  | .pass a, .pass b => decidable_of_iff (a = b) (by simp)
  | .task a, .task b => decidable_of_iff (a = b) (by simp)
  | .choice a, .choice b => decidable_of_iff (a = b) (by simp)
  | .fail a, .fail b => decidable_of_iff (a = b) (by simp)
  | .succeed a, .succeed b => decidable_of_iff (a = b) (by simp)
  | .wait a, .wait b => decidable_of_iff (a = b) (by simp)
  | .parallel comment branches flow, .parallel comment' branches' flow' =>
    match Definition.decEqBranches branches branches' with
    | isTrue h => decidable_of_iff (comment = comment' ∧ flow = flow') (by simp [h])
    | isFalse h => isFalse (by simp [h])
  | .map comment iterator path limit flow, .map comment' iterator' path' limit' flow' =>
    match Definition.decEq iterator iterator' with
    | isTrue h =>
      decidable_of_iff (comment = comment' ∧ path = path' ∧ limit = limit' ∧ flow = flow')
        (by simp [h])
    | isFalse h => isFalse (by simp [h])
  | .pass _, .task _ | .pass _, .parallel .. | .pass _, .map .. | .pass _, .choice _
  | .pass _, .fail _ | .pass _, .succeed _ | .pass _, .wait _ | .task _, .pass _
  | .task _, .parallel .. | .task _, .map .. | .task _, .choice _ | .task _, .fail _
  | .task _, .succeed _ | .task _, .wait _ | .parallel .., .pass _ | .parallel .., .task _
  | .parallel .., .map .. | .parallel .., .choice _ | .parallel .., .fail _
  | .parallel .., .succeed _ | .parallel .., .wait _ | .map .., .pass _ | .map .., .task _
  | .map .., .parallel .. | .map .., .choice _ | .map .., .fail _ | .map .., .succeed _
  | .map .., .wait _ | .choice _, .pass _ | .choice _, .task _ | .choice _, .parallel ..
  | .choice _, .map .. | .choice _, .fail _ | .choice _, .succeed _ | .choice _, .wait _
  | .fail _, .pass _ | .fail _, .task _ | .fail _, .parallel .. | .fail _, .map ..
  | .fail _, .choice _ | .fail _, .succeed _ | .fail _, .wait _ | .succeed _, .pass _
  | .succeed _, .task _ | .succeed _, .parallel .. | .succeed _, .map .. | .succeed _, .choice _
  | .succeed _, .fail _ | .succeed _, .wait _ | .wait _, .pass _ | .wait _, .task _
  | .wait _, .parallel .. | .wait _, .map .. | .wait _, .choice _ | .wait _, .fail _
  | .wait _, .succeed _ =>
    isFalse nofun

/-- Equality of branches is decidable. -/
def Definition.decEqBranches : (a b : List Definition) → Decidable (a = b)
  | [], [] => isTrue rfl
  | [], _ :: _ | _ :: _, [] => isFalse nofun
  | a :: as, b :: bs =>
    match Definition.decEq a b, Definition.decEqBranches as bs with
    | isTrue h, isTrue hs => isTrue (by rw [h, hs])
    | isFalse h, _ => isFalse (by simp [h])
    | _, isFalse hs => isFalse (by simp [hs])

end

instance : DecidableEq Definition := Definition.decEq

instance : DecidableEq State := State.decEq

end WorkflowChart
