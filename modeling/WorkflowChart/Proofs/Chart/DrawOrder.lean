import WorkflowChart.Proofs.Definition.Graphs

/-!
# The order in which states are drawn

The states of a graph are drawn as they are declared. A state with graphs in it is finished after
the states of these graphs, so a container comes after all that it contains.

* **`Definition.drawOrder`**: the names of the states of all graphs, in the order in which the
  states are finished.
* **`Definition.perm_drawOrder`**: every state of every graph comes once.
-/

namespace WorkflowChart

mutual

/-- The names of the states of a graph and of the graphs in it, in the order in which the states are
finished: as they are declared, and each one after the states of the graphs in it. -/
def Definition.drawOrder : Definition → List String
  | ⟨_, states, _, _, _⟩ => Definition.drawOrderOfStates states

/-- The names of states, each one after those of the states in it. -/
def Definition.drawOrderOfStates : List (String × State) → List String
  | [] => []
  | (name, state) :: rest => state.drawOrder ++ name :: Definition.drawOrderOfStates rest

/-- The names of the states in a state: those of its branches or of its iterator. -/
def State.drawOrder : State → List String
  | .parallel _ branches _ => Definition.drawOrderOfBranches branches
  | .map _ iterator _ _ _ => iterator.drawOrder
  | .task _ | .pass _ | .choice _ | .fail _ | .succeed _ | .wait _ => []

/-- The names of the states of branches, one branch after another. -/
def Definition.drawOrderOfBranches : List Definition → List String
  | [] => []
  | branch :: rest => branch.drawOrder ++ Definition.drawOrderOfBranches rest

end

/-- There are no states in a plain state. -/
theorem State.drawOrder_of_plain {state : State} (hparallel : state.category ≠ .parallel)
    (hmap : state.category ≠ .map) : state.drawOrder = [] := by
  cases state with
  | parallel => exact absurd rfl hparallel
  | map => exact absurd rfl hmap
  | task | pass | choice | fail | succeed | wait => rw [drawOrder]

namespace Definition

/-- The names of the states of graphs, without those of the graphs in them. -/
def namesOfGraphs (graphs : List Definition) : List String :=
  graphs.flatMap fun graph => graph.states.map Prod.fst

/-- Every state of every graph comes once in the order. -/
theorem permCases :
    Cases (fun graph => graph.drawOrder.Perm (namesOfGraphs graph.graphs))
      (fun states => (drawOrderOfStates states).Perm
        (states.map Prod.fst ++ namesOfGraphs (graphsOfStates states)))
      (fun state => state.drawOrder.Perm (namesOfGraphs state.graphs))
      (fun branches => (drawOrderOfBranches branches).Perm
        (namesOfGraphs (graphsOfBranches branches))) where
  graph startAt states comment timeoutSeconds version hstates := by
    rw [drawOrder, graphs, namesOfGraphs, List.flatMap_cons]
    exact hstates
  noStates := by
    rw [drawOrderOfStates, graphsOfStates]
    exact .refl _
  addState name state rest hstate hrest := by
    rw [drawOrderOfStates, graphsOfStates, namesOfGraphs, List.flatMap_append, List.map_cons,
      List.cons_append]
    -- the name comes before the names in the state, and these after the other names of the graph
    refine List.perm_middle.trans (.cons name ?_)
    exact (hstate.append hrest).trans (List.perm_append_comm_assoc _ _ _)
  plain state hparallel hmap := by
    rw [State.drawOrder_of_plain hparallel hmap, State.graphs_of_plain hparallel hmap]
    exact .refl _
  parallel comment branches flow hbranches := by
    rw [State.drawOrder, State.graphs]
    exact hbranches
  map comment iterator itemsPath maxConcurrency flow hiterator := by
    rw [State.drawOrder, State.graphs]
    exact hiterator
  noBranches := by
    rw [drawOrderOfBranches, graphsOfBranches]
    exact .refl _
  addBranch branch rest hbranch hrest := by
    rw [drawOrderOfBranches, graphsOfBranches, namesOfGraphs, List.flatMap_append]
    exact hbranch.append hrest

/-- **Every state of every graph** of a definition is drawn once. -/
theorem perm_drawOrder (definition : Definition) :
    definition.drawOrder.Perm (namesOfGraphs definition.graphs) :=
  permCases.graph_all definition

/-- The names that come are those of the states of all graphs. -/
theorem mem_drawOrder_iff {definition : Definition} {name : String} :
    name ∈ definition.drawOrder ↔
      ∃ graph ∈ definition.graphs, name ∈ graph.states.map Prod.fst := by
  rw [definition.perm_drawOrder.mem_iff, namesOfGraphs, List.mem_flatMap]

end Definition

end WorkflowChart
