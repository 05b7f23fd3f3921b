import WorkflowChart.Definition.Builder
import WorkflowChart.Proofs.Chart.Census
import WorkflowChart.Proofs.Chart.NodeIds

/-!
# The registry of a chart

The registry has an entry for every state of every graph. No state takes the place of another one,
since states of one graph differ in their names and graphs differ in their frames.

* **`Registry.perm_registerAll`**: registering under ids that are all different keeps every state.
* **`Chart.perm_registry`**: the entries of the registry are the states of all graphs.
* **`Chart.state?_eq_some_iff`**: the state under an id is the one that its node stands for.
* **`Chart.registry_of_compile`**: a registry is in bijection with the states of all graphs.
-/

namespace WorkflowChart

/-! ## Registering nodes -/

namespace Registry

/-- The entry of a node. -/
def entry : Node × State → String × State
  | (node, state) => (node.id, state)

/-- Registers nodes one after another. -/
def registerAll (registry : Registry) (nodes : List (Node × State)) : Registry :=
  nodes.foldl (fun registry (node, state) => registry.register node.id state) registry

/-- Registering nodes opens no frames. -/
theorem frames_registerAll (registry : Registry) (nodes : List (Node × State)) :
    (registry.registerAll nodes).frames = registry.frames := by
  induction nodes generalizing registry with
  | nil => rfl
  | cons head nodes ih => exact ih _

/-- **No state takes the place of another one** where ids are all different, so that in the end the
entries of the nodes are added to those that were there. -/
theorem perm_registerAll {registry : Registry} {nodes : List (Node × State)}
    (hdistinct : (Entries.names (registry.states ++ nodes.map entry)).Nodup) :
    (registry.registerAll nodes).states.Perm (registry.states ++ nodes.map entry) := by
  induction nodes generalizing registry with
  | nil =>
    rw [List.map_nil, List.append_nil]
    exact .refl _
  | cons head nodes ih =>
    obtain ⟨node, state⟩ := head
    have hmiddle : (registry.states ++ (node.id, state) :: nodes.map entry).Perm
        ((node.id, state) :: (registry.states ++ nodes.map entry)) := List.perm_middle
    have hcons := (hmiddle.map Prod.fst).nodup_iff.1 hdistinct
    -- the id is new, so its entry pushes none out, and all ids are still different
    have hnew : node.id ∉ Entries.names registry.states := by
      intro hmem
      refine (List.nodup_cons.1 hcons).1 ?_
      rw [List.map_append]
      exact List.mem_append_left _ hmem
    have hone : ((registry.register node.id state).states ++ nodes.map entry).Perm
        ((node.id, state) :: (registry.states ++ nodes.map entry)) :=
      (Entries.perm_putSorted hnew state).append_right _
    have hrest := ih ((hone.map Prod.fst).nodup_iff.2 hcons)
    exact hrest.trans (hone.trans hmiddle.symm)

end Registry

namespace Chart

/-! ## The nodes of a definition -/

variable {definition : Definition}

/-- The nodes that are drawn are those that stand for states. -/
theorem mem_inFrames_graphNodes {node : Node} {state : State} :
    (node, state) ∈ inFrames graphNodes 0 definition.graphs ↔ definition.Declares node state := by
  simp only [mem_inFrames_zero, graphNodes, nodesOf, List.mem_map, Prod.exists]
  constructor
  · rintro ⟨frame, graph, hgraph, name, state, hstate, heq⟩
    cases heq
    exact ⟨graph, hgraph, hstate⟩
  · rintro ⟨graph, hgraph, hstate⟩
    exact ⟨node.frame, graph, hgraph, node.name, state, hstate, rfl⟩

/-- No node is drawn twice. -/
theorem nodup_inFrames_graphNodes (hdistinct : definition.NamesDistinct) :
    (inFrames (fun frame graph => (graphNodes frame graph).map Prod.fst) 0
      definition.graphs).Nodup := by
  refine nodup_inFrames Node.frame ?_ ?_
  · intro frame graph node hnode
    simp only [graphNodes, nodesOf, List.map_map, List.mem_map] at hnode
    obtain ⟨_, -, rfl⟩ := hnode
    rfl
  · intro frame graph hgraph
    have hnames : (graph.states.map Prod.fst).Nodup :=
      Definition.nodup_of_mem_graphs hdistinct hgraph
    have hnode : Function.Injective frame.node := by
      intro a b h
      exact congrArg Node.name h
    have hnodes := hnames.map hnode
    rw [List.map_map] at hnodes
    rw [graphNodes, nodesOf, List.map_map]
    exact hnodes

/-- The ids of the nodes are all different. -/
theorem nodup_names_entries (hdistinct : definition.NamesDistinct) :
    (Entries.names ((inFrames graphNodes 0 definition.graphs).map Registry.entry)).Nodup := by
  have hids : Entries.names ((inFrames graphNodes 0 definition.graphs).map Registry.entry) =
      ((inFrames graphNodes 0 definition.graphs).map Prod.fst).map Node.id := by
    rw [Entries.names, List.map_map, List.map_map]
    rfl
  rw [hids, map_inFrames]
  exact (nodup_inFrames_graphNodes hdistinct).map fun _ _ => Node.id_injective

/-! ## The registry -/

variable {statuses? : Option StatusSource} {options : ChartOptions} {chart : Flowchart}

/-- **The entries of a registry** are the states of all graphs, each under the id of its node. -/
theorem perm_registry (hdistinct : definition.NamesDistinct)
    (h : compile definition statuses? options = .ok chart) :
    chart.registry.states.Perm ((inFrames graphNodes 0 definition.graphs).map Registry.entry) := by
  obtain ⟨drawing, rfl, hcensus⟩ := census_of_compile h
  have hentries := hcensus.nodes.map Registry.entry
  have hnodup : (Entries.names (drawing.nodes.map Registry.entry)).Nodup :=
    (hentries.map Prod.fst).nodup_iff.2 (nodup_names_entries hdistinct)
  have hregistered :
      (Registry.registerAll { frames := drawing.nextFrame } drawing.nodes).states.Perm
        (drawing.nodes.map Registry.entry) := Registry.perm_registerAll hnodup
  exact hregistered.trans hentries

/-- The ids in a registry are all different. -/
theorem nodup_registry (hdistinct : definition.NamesDistinct)
    (h : compile definition statuses? options = .ok chart) :
    (Entries.names chart.registry.states).Nodup :=
  ((perm_registry hdistinct h).map Prod.fst).nodup_iff.2 (nodup_names_entries hdistinct)

/-- As many frames have been opened as there are graphs. -/
theorem frames_registry (h : compile definition statuses? options = .ok chart) :
    chart.registry.frames = definition.graphs.length := by
  obtain ⟨drawing, rfl, hcensus⟩ := census_of_compile h
  have hframes : (Registry.registerAll { frames := drawing.nextFrame } drawing.nodes).frames
      = drawing.nextFrame := Registry.frames_registerAll _ _
  have hnext := hcensus.nextFrame
  rw [Nat.zero_add] at hnext
  exact hframes.trans hnext

/-- **The state under an id** is the one that a node of that id stands for. -/
theorem state?_eq_some_iff (hdistinct : definition.NamesDistinct)
    (h : compile definition statuses? options = .ok chart) {id : String} {state : State} :
    chart.state? id = some state ↔ ∃ node, definition.Declares node state ∧ node.id = id := by
  rw [Flowchart.state?, Registry.state?, Entries.get?_eq_some_iff (nodup_registry hdistinct h),
    (perm_registry hdistinct h).mem_iff, List.mem_map]
  constructor
  · rintro ⟨⟨node, _⟩, hmem, heq⟩
    cases heq
    exact ⟨node, mem_inFrames_graphNodes.1 hmem, rfl⟩
  · rintro ⟨node, hnode, rfl⟩
    exact ⟨(node, state), mem_inFrames_graphNodes.2 hnode, rfl⟩

/-- **The registry is in bijection with the states of all graphs.** A frame has been opened for each
graph, an id leads to a state just where a graph declares the state under the name whose node in the
frame of the graph has the id, and there are as many different ids as states in all graphs. -/
theorem registry_of_compile (hdistinct : definition.NamesDistinct)
    (h : compile definition statuses? options = .ok chart) :
    chart.registry.frames = definition.graphs.length
      ∧ (∀ id state, chart.state? id = some state ↔
          ∃ k graph name, definition.graphs[k]? = some graph ∧ (name, state) ∈ graph.states
            ∧ id = (Frame.node ⟨k⟩ name).id)
      ∧ (Entries.names chart.registry.states).Nodup
      ∧ chart.registry.states.length =
          (definition.graphs.map fun graph => graph.states.length).sum := by
  refine ⟨frames_registry h, ?_, nodup_registry hdistinct h, ?_⟩
  · intro id state
    rw [state?_eq_some_iff hdistinct h]
    constructor
    · rintro ⟨node, ⟨graph, hgraph, hstate⟩, rfl⟩
      exact ⟨node.frame.number, graph, node.name, hgraph, hstate, rfl⟩
    · rintro ⟨k, graph, name, hgraph, hstate, rfl⟩
      exact ⟨Frame.node ⟨k⟩ name, ⟨graph, hgraph, hstate⟩, rfl⟩
  · have hsize : ∀ frame (graph : Definition),
        (graphNodes frame graph).length = graph.states.length := fun frame graph =>
      List.length_map _
    rw [(perm_registry hdistinct h).length_eq, List.length_map]
    exact length_inFrames hsize 0 definition.graphs

/-- A definition of four graphs: a choice between two branches and an iterator. -/
def shipping : Definition :=
  let pack : Definition := ⟨"Pack", [("Pack", .taskTo none)], none, none, none⟩
  let weigh : Definition :=
    ⟨"Weigh", [("Weigh", .taskTo (some "Pack")), ("Pack", .passTo none)], none, none, none⟩
  ⟨"Route",
    [("Route", .choiceOf ["Express", "Parcels"] (some "Done")),
      ("Express", .parallelTo [pack, weigh] (some "Done")),
      ("Parcels", .mapTo weigh (some "Done")),
      ("Done", .success)], none, none, none⟩

/-- No graph of the definition names two states alike. -/
theorem namesDistinct_shipping : shipping.NamesDistinct := by
  simp [shipping, Definition.NamesDistinct, Definition.StatesNamesDistinct,
    Definition.StateNamesDistinct, Definition.BranchesNamesDistinct, State.parallelTo,
    State.mapTo, State.choiceOf, State.success, State.taskTo, State.passTo]

/-- There is a chart of the definition in which nothing has run. -/
theorem compile_shipping (options : ChartOptions) :
    compile shipping (some fun _ => .ok .neverRun) options =
      .ok (.ofDrawing options.direction
        (outlineGraph options (fun node => [.fill node (options.fills.color .neverRun)]) 0
          shipping)) :=
  compile_of_fill (by decide) fun _ _ _ => rfl

/-- States of one name in different graphs are found under different ids. -/
theorem registry_of_compile_shipping :
    shipping.NamesDistinct ∧ ∃ chart,
      compile shipping (some fun _ => .ok .neverRun) {} = .ok chart
        ∧ chart.registry.frames = 4 ∧ chart.registry.states.length = 9
        ∧ chart.state? "s1-Pack" = some (.taskTo none)
        ∧ chart.state? "s3-Pack" = some (.passTo none) := by
  have hchart := compile_shipping {}
  obtain ⟨hframes, hstate, -, hlength⟩ := registry_of_compile namesDistinct_shipping hchart
  refine ⟨namesDistinct_shipping, _, hchart, hframes, ?_, ?_, ?_⟩
  · rw [hlength]
    decide
  · exact (hstate _ _).2 ⟨1, _, "Pack", rfl, List.mem_cons_self .., by decide⟩
  · have hpack : ("Pack", State.passTo none) ∈ [("Weigh", .taskTo (some "Pack")),
        ("Pack", .passTo none)] := List.mem_cons_of_mem _ (List.mem_cons_self ..)
    exact (hstate _ _).2 ⟨3, _, "Pack", rfl, hpack, by decide⟩

end Chart

end WorkflowChart
