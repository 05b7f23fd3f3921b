import WorkflowChart.Definition.Basic

/-!
# Induction on definitions

Definitions are nested in states, and states in definitions. A statement about all of them goes
together with statements about the states of a graph, about one state and about branches.

* **`Definition.Cases`**: what is to be shown for the four statements, one case for each way of
  putting a definition together.
* **`Definition.Cases.graph_all`** and its companions: then the statements hold.
-/

namespace WorkflowChart

/-- The cases of an induction on definitions. A state is plain if there are no graphs in it. -/
structure Definition.Cases (ofGraph : Definition → Prop) (ofStates : List (String × State) → Prop)
    (ofState : State → Prop) (ofBranches : List Definition → Prop) : Prop where
  graph : ∀ startAt states comment timeoutSeconds version, ofStates states →
    ofGraph ⟨startAt, states, comment, timeoutSeconds, version⟩
  noStates : ofStates []
  addState : ∀ name state rest, ofState state → ofStates rest → ofStates ((name, state) :: rest)
  plain : ∀ state : State, state.category ≠ .parallel → state.category ≠ .map → ofState state
  parallel : ∀ comment branches flow, ofBranches branches →
    ofState (.parallel comment branches flow)
  map : ∀ comment iterator itemsPath maxConcurrency flow, ofGraph iterator →
    ofState (.map comment iterator itemsPath maxConcurrency flow)
  noBranches : ofBranches []
  addBranch : ∀ branch rest, ofGraph branch → ofBranches rest → ofBranches (branch :: rest)

namespace Definition.Cases

variable {ofGraph : Definition → Prop} {ofStates : List (String × State) → Prop}
  {ofState : State → Prop} {ofBranches : List Definition → Prop}

mutual

/-- The statement about graphs holds of every graph. -/
theorem graph_all (h : Cases ofGraph ofStates ofState ofBranches) :
    (definition : Definition) → ofGraph definition
  | ⟨startAt, states, comment, timeoutSeconds, version⟩ =>
    h.graph startAt states comment timeoutSeconds version (states_all h states)

/-- The statement about states of a graph holds of all of them. -/
theorem states_all (h : Cases ofGraph ofStates ofState ofBranches) :
    (states : List (String × State)) → ofStates states
  | [] => h.noStates
  | (name, state) :: rest => h.addState name state rest (state_all h state) (states_all h rest)

/-- The statement about one state holds of every state. -/
theorem state_all (h : Cases ofGraph ofStates ofState ofBranches) : (state : State) → ofState state
  | .parallel comment branches flow => h.parallel comment branches flow (branches_all h branches)
  | .map comment iterator itemsPath maxConcurrency flow =>
    h.map comment iterator itemsPath maxConcurrency flow (graph_all h iterator)
  | .task task => h.plain (.task task) nofun nofun
  | .pass pass => h.plain (.pass pass) nofun nofun
  | .choice choice => h.plain (.choice choice) nofun nofun
  | .fail fail => h.plain (.fail fail) nofun nofun
  | .succeed succeed => h.plain (.succeed succeed) nofun nofun
  | .wait wait => h.plain (.wait wait) nofun nofun

/-- The statement about branches holds of all branches. -/
theorem branches_all (h : Cases ofGraph ofStates ofState ofBranches) :
    (branches : List Definition) → ofBranches branches
  | [] => h.noBranches
  | branch :: rest => h.addBranch branch rest (graph_all h branch) (branches_all h rest)

end

end Definition.Cases

end WorkflowChart
