import WorkflowChart.Definition.References
import WorkflowChart.Proofs.Definition.Induction

/-!
# The graphs of a definition

The graphs that a definition is made of, in one list. What holds of a definition at any depth holds
of every graph in the list.

* **`Definition.graphs`**: the graphs, each before the graphs in it.
* **`Definition.Closed`**: a graph that uses names of its own states only.
* **`Definition.namesDistinct_iff`**: names are distinct just where they are in every graph.
* **`Definition.closed_of_referencesValid`**: every graph is closed, if the references are valid.
-/

namespace WorkflowChart

mutual

/-- The graphs of a definition in the order in which they are met: the outermost one, and then those
in its states. -/
def Definition.graphs : Definition → List Definition
  | ⟨startAt, states, comment, timeoutSeconds, version⟩ =>
    ⟨startAt, states, comment, timeoutSeconds, version⟩ :: Definition.graphsOfStates states

/-- The graphs in states, in the order in which the states are declared. -/
def Definition.graphsOfStates : List (String × State) → List Definition
  | [] => []
  | (_, state) :: rest => state.graphs ++ Definition.graphsOfStates rest

/-- The graphs in a state: those of its branches or of its iterator. -/
def State.graphs : State → List Definition
  | .parallel _ branches _ => Definition.graphsOfBranches branches
  | .map _ iterator _ _ _ => iterator.graphs
  | .task _ | .pass _ | .choice _ | .fail _ | .succeed _ | .wait _ => []

/-- The graphs in branches, one branch after another. -/
def Definition.graphsOfBranches : List Definition → List Definition
  | [] => []
  | branch :: rest => branch.graphs ++ Definition.graphsOfBranches rest

end

namespace State

/-- There are no graphs in a plain state. -/
theorem graphs_of_plain {state : State} (hparallel : state.category ≠ .parallel)
    (hmap : state.category ≠ .map) : state.graphs = [] := by
  cases state with
  | parallel => exact absurd rfl hparallel
  | map => exact absurd rfl hmap
  | task | pass | choice | fail | succeed | wait => rw [graphs]

end State

namespace Definition

/-! ## Graphs in parts of a definition -/

/-- The graphs of a definition are the outermost one and those within its states. -/
theorem graphs_eq (graph : Definition) :
    graph.graphs = graph :: graphsOfStates graph.states := by
  obtain ⟨startAt, states, comment, timeoutSeconds, version⟩ := graph
  rw [graphs]

/-- The graphs within states are those within one of them. -/
theorem mem_graphsOfStates_iff {states : List (String × State)} {graph : Definition} :
    graph ∈ graphsOfStates states ↔ ∃ entry ∈ states, graph ∈ entry.2.graphs := by
  induction states with
  | nil => simp [graphsOfStates]
  | cons entry rest ih =>
    rw [graphsOfStates, List.mem_append, ih]
    simp

/-- A definition is one of its graphs. -/
theorem mem_graphs_self (graph : Definition) : graph ∈ graph.graphs := by
  rw [graphs_eq]
  exact List.mem_cons_self

/-- The graphs in a state are graphs of the definition. -/
theorem mem_graphs_of_state {graph inner : Definition} {entry : String × State}
    (hentry : entry ∈ graph.states) (hinner : inner ∈ entry.2.graphs) : inner ∈ graph.graphs := by
  rw [graphs_eq, List.mem_cons, mem_graphsOfStates_iff]
  exact .inr ⟨entry, hentry, hinner⟩

/-- The graphs of branches are those of one of them. -/
theorem mem_graphsOfBranches_iff {branches : List Definition} {graph : Definition} :
    graph ∈ graphsOfBranches branches ↔ ∃ branch ∈ branches, graph ∈ branch.graphs := by
  induction branches with
  | nil => simp [graphsOfBranches]
  | cons branch rest ih =>
    rw [graphsOfBranches, List.mem_append, ih]
    simp

/-! ## Names -/

/-- Names are distinct just where they are in every graph of the list. -/
theorem namesCases :
    Cases (fun graph => graph.NamesDistinct ↔
        ∀ inner ∈ graph.graphs, (inner.states.map Prod.fst).Nodup)
      (fun states => StatesNamesDistinct states ↔
        ∀ inner ∈ graphsOfStates states, (inner.states.map Prod.fst).Nodup)
      (fun state => StateNamesDistinct state ↔
        ∀ inner ∈ state.graphs, (inner.states.map Prod.fst).Nodup)
      (fun branches => BranchesNamesDistinct branches ↔
        ∀ inner ∈ graphsOfBranches branches, (inner.states.map Prod.fst).Nodup) where
  graph startAt states comment timeoutSeconds version hstates := by
    rw [NamesDistinct, graphs, List.forall_mem_cons, hstates]
  noStates := by
    rw [StatesNamesDistinct, graphsOfStates]
    exact iff_of_true trivial (List.forall_mem_nil _)
  addState name state rest hstate hrest := by
    rw [StatesNamesDistinct, graphsOfStates, List.forall_mem_append, hstate, hrest]
  plain state hparallel hmap := by
    rw [State.graphs_of_plain hparallel hmap]
    refine iff_of_true ?_ (List.forall_mem_nil _)
    cases state with
    | parallel => exact absurd rfl hparallel
    | map => exact absurd rfl hmap
    | task | pass | choice | fail | succeed | wait => exact trivial
  parallel comment branches flow hbranches := by
    rw [StateNamesDistinct, State.graphs, hbranches]
  map comment iterator itemsPath maxConcurrency flow hiterator := by
    rw [StateNamesDistinct, State.graphs, hiterator]
  noBranches := by
    rw [BranchesNamesDistinct, graphsOfBranches]
    exact iff_of_true trivial (List.forall_mem_nil _)
  addBranch branch rest hbranch hrest := by
    rw [BranchesNamesDistinct, graphsOfBranches, List.forall_mem_append, hbranch, hrest]

/-- **Names are distinct** at every depth just where they are in every graph of the list. -/
theorem namesDistinct_iff {definition : Definition} :
    definition.NamesDistinct ↔ ∀ graph ∈ definition.graphs, (graph.states.map Prod.fst).Nodup :=
  namesCases.graph_all definition

/-- No graph within a state names two states alike just where each graph in it does not. -/
theorem stateNamesDistinct_iff {state : State} :
    StateNamesDistinct state ↔ ∀ graph ∈ state.graphs, (graph.states.map Prod.fst).Nodup :=
  namesCases.state_all state

/-- Every graph of a definition has names that are distinct. -/
theorem nodup_of_mem_graphs {definition graph : Definition} (hdistinct : definition.NamesDistinct)
    (hgraph : graph ∈ definition.graphs) : (graph.states.map Prod.fst).Nodup :=
  namesDistinct_iff.1 hdistinct graph hgraph

/-! ## References -/

/-- A graph uses no names but those of its own states. -/
structure Closed (graph : Definition) : Prop where
  start_mem : graph.startAt ∈ graph.states.map Prod.fst
  successor_mem : ∀ name state, (name, state) ∈ graph.states →
    ∀ target ∈ state.successors, target ∈ graph.states.map Prod.fst

/-- A state has no unknown targets just where its targets are names of the graph. -/
theorem unknownTargets_eq_nil_iff {names targets : List String} {path state : String} :
    unknownTargets names path state targets = [] ↔ ∀ target ∈ targets, target ∈ names := by
  simp [unknownTargets, List.filter_eq_nil_iff]

/-- Every graph in the list is closed, if no graph of the definition has dangling references. -/
theorem closedCases :
    Cases (fun graph => ∀ path, graph.dangling path = [] → ∀ inner ∈ graph.graphs, inner.Closed)
      (fun states => ∀ names path, danglingStates names path states = [] →
        (∀ name state, (name, state) ∈ states → ∀ target ∈ state.successors, target ∈ names) ∧
          ∀ inner ∈ graphsOfStates states, inner.Closed)
      (fun state => ∀ path name, danglingInside path name state = [] →
        ∀ inner ∈ state.graphs, inner.Closed)
      (fun branches => ∀ path name index, danglingBranches path name index branches = [] →
        ∀ inner ∈ graphsOfBranches branches, inner.Closed) where
  graph startAt states comment timeoutSeconds version hstates := by
    intro path hnone
    rw [dangling, List.append_eq_nil_iff] at hnone
    obtain ⟨hsuccessors, hinner⟩ := hstates _ path hnone.2
    -- the report would begin with the start of the graph, if that were unknown
    have hstart : startAt ∈ states.map Prod.fst := by
      have hknown := hnone.1
      split at hknown
      · assumption
      · contradiction
    rw [graphs, List.forall_mem_cons]
    exact ⟨⟨hstart, hsuccessors⟩, hinner⟩
  noStates := by
    intro names path _
    rw [graphsOfStates]
    exact ⟨fun _ _ hmem => absurd hmem List.not_mem_nil, List.forall_mem_nil _⟩
  addState name state rest hstate hrest := by
    intro names path hnone
    rw [danglingStates, List.append_eq_nil_iff, List.append_eq_nil_iff] at hnone
    obtain ⟨⟨hown, hinside⟩, hothers⟩ := hnone
    obtain ⟨hsuccessors, hinner⟩ := hrest names path hothers
    rw [graphsOfStates, List.forall_mem_append]
    refine ⟨?_, hstate path name hinside, hinner⟩
    intro other otherState hmem
    rcases List.mem_cons.1 hmem with heq | hmem
    · cases heq
      exact unknownTargets_eq_nil_iff.1 hown
    · exact hsuccessors other otherState hmem
  plain state hparallel hmap := by
    intro path name _
    rw [State.graphs_of_plain hparallel hmap]
    exact List.forall_mem_nil _
  parallel comment branches flow hbranches := by
    intro path name hnone
    rw [danglingInside] at hnone
    rw [State.graphs]
    exact hbranches path name 0 hnone
  map comment iterator itemsPath maxConcurrency flow hiterator := by
    intro path name hnone
    rw [danglingInside] at hnone
    rw [State.graphs]
    exact hiterator _ hnone
  noBranches := by
    intro path name index _
    rw [graphsOfBranches]
    exact List.forall_mem_nil _
  addBranch branch rest hbranch hrest := by
    intro path name index hnone
    rw [danglingBranches, List.append_eq_nil_iff] at hnone
    rw [graphsOfBranches, List.forall_mem_append]
    exact ⟨hbranch _ hnone.1, hrest path name _ hnone.2⟩

/-- Every graph of a definition with valid references is closed. -/
theorem closed_of_referencesValid {definition graph : Definition}
    (hvalid : definition.referencesValid = true) (hgraph : graph ∈ definition.graphs) :
    graph.Closed := by
  have hnone : definition.danglingReferences = [] := by
    simpa [referencesValid] using hvalid
  exact closedCases.graph_all definition rootPath hnone graph hgraph

end Definition

end WorkflowChart
