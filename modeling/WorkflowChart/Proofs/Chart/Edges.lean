import WorkflowChart.Proofs.Chart.Registered
import WorkflowChart.Proofs.Chart.TextLines
import WorkflowChart.Proofs.Definition.Targets

/-!
# The edges of a chart

The lines of a text that are arrows between ids are the edges that have been drawn, and these are
the transitions of the definition: to every successor of every state of every graph.

* **`isEdgeText`**: whether a text is an arrow between two ids; `isEdgeText_iff` says what it means.
* **`Line.edge_of_text_eq`**: only the text of an edge is of that form.
* **`Definition.transitions`**: the transitions of all graphs, between nodes.
* **`Chart.perm_edges`**: the edges of a chart are the transitions.
* **`Chart.edges_of_compile`**: the same of its text; no edge leads from or to an unknown id.
-/

namespace WorkflowChart

/-! ## Arrows -/

/-- A text of characters of ids: letters and digits, hyphens and underscores. -/
def IsIdText (text : String) : Prop :=
  ∀ c ∈ text.toList, Node.isIdChar c = true

instance (text : String) : Decidable (IsIdText text) :=
  decidable_of_iff (text.toList.all Node.isIdChar = true) List.all_eq_true

/-- The text of an edge. -/
def edgeText (source target : String) : String :=
  source ++ " --> " ++ target

/-- The text of an edge, part by part. -/
theorem toList_edgeText (source target : String) :
    (edgeText source target).toList = source.toList ++ ' ' :: ("--> ".toList ++ target.toList) := by
  simp [edgeText]

/-- Whether a text is an arrow between two texts of characters of ids. -/
def isEdgeText (text : String) : Bool :=
  let source := String.ofList (text.toList.takeWhile Node.isIdChar)
  let target := String.ofList (text.toList.drop (source.toList.length + 5))
  text = edgeText source target ∧ IsIdText target

/-- An arrow can be told apart by its text, since there is no space in an id. -/
theorem isEdgeText_iff {text : String} :
    isEdgeText text = true ↔ ∃ a b, IsIdText a ∧ IsIdText b ∧ text = edgeText a b := by
  rw [isEdgeText, decide_eq_true_eq]
  constructor
  · rintro ⟨htext, htarget⟩
    refine ⟨_, _, ?_, htarget, htext⟩
    intro c hc
    rw [String.toList_ofList] at hc
    exact List.all_eq_true.1 List.all_takeWhile c hc
  · rintro ⟨a, b, ha, hb, rfl⟩
    have hsource : (edgeText a b).toList.takeWhile Node.isIdChar = a.toList := by
      have hspace : Node.isIdChar ' ' = false := by decide
      rw [toList_edgeText, List.takeWhile_append_of_pos ha, List.takeWhile_cons, hspace]
      simp
    have htarget : (edgeText a b).toList.drop (a.toList.length + 5) = b.toList := by
      rw [toList_edgeText, List.drop_append, List.drop_eq_nil_of_le (by omega)]
      simp
    rw [hsource, String.ofList_toList, htarget, String.ofList_toList]
    exact ⟨rfl, hb⟩

namespace Line

/-- The nodes between which a line is an edge. -/
def edge? : Line → Option (Node × Node)
  | edge source target => some (source, target)
  | header _ | start _ | declaration _ _ | opening _ | layout _ | closing | dashed _ | fill _ _
  | click _ | blank => none

/-- Edges from one node are read back as such. -/
theorem filterMap_edge?_map {α : Type} (source : Node) (target : α → Node) (list : List α) :
    (list.map fun a => edge source (target a)).filterMap edge? =
      list.map fun a => (source, target a) := by
  rw [List.filterMap_map]
  exact congrFun List.filterMap_eq_map list

/-- What follows the lead of a line is an arrow for edges only. -/
theorem edge_of_afterLead_eq {line : Line} {rest : List Char}
    (h : line.afterLead = ' ' :: '-' :: rest) : ∃ source target, line = .edge source target := by
  -- where an id follows the space, it begins with a letter
  have hid : ∀ (node : Node) (after other : List Char), node.id.toList ++ after ≠ '-' :: other := by
    intro node after other
    rw [Node.toList_id]
    simp
  cases line with
  | edge source target => exact ⟨source, target, rfl⟩
  | start | closing | blank => contradiction
  | header direction | layout direction =>
    cases direction <;> simp [afterLead, Direction.letters] at h
  | declaration node shape =>
    obtain ⟨c, _, hopening, -, -, hspace⟩ := shape.exists_opening_eq_cons
    rw [afterLead, hopening] at h
    exact absurd (List.head_eq_of_cons_eq h) hspace
  | opening node | dashed node | fill node _ | click node =>
    rw [afterLead] at h
    exact absurd (List.tail_eq_of_cons_eq h) (hid node _ _)

/-- **Only edges are arrows**: a line whose text is an arrow between two texts of characters of ids
is an edge, and these are the ids of its nodes. -/
theorem edge_of_text_eq {line : Line} {a b : String} (ha : IsIdText a)
    (h : line.text = edgeText a b) :
    ∃ source target, line = .edge source target ∧ source.id = a ∧ target.id = b := by
  have hspace : ∀ c ∈ (' ' :: ("--> ".toList ++ b.toList)).head?, Node.isIdChar c = false := by
    intro c hc
    cases hc
    decide
  -- the lead of the line ends where the first text does
  obtain ⟨hlead, hafter⟩ := parts_of_text_eq ha hspace (h ▸ toList_edgeText a b)
  obtain ⟨source, target, rfl⟩ := edge_of_afterLead_eq hafter
  refine ⟨source, target, rfl, String.toList_inj.1 hlead, String.toList_inj.1 ?_⟩
  simpa [afterLead] using hafter

/-- Ids make arrows. -/
theorem isEdgeText_edge (source target : Node) :
    isEdgeText (edgeText source.id target.id) = true :=
  isEdgeText_iff.2 ⟨_, _, source.isIdChar_of_mem_id, target.isIdChar_of_mem_id, rfl⟩

/-- The text of a line is an arrow just where the line is an edge. -/
theorem isEdgeText_text (line : Line) : isEdgeText line.text = line.edge?.isSome := by
  cases hedge : isEdgeText line.text with
  | true =>
    obtain ⟨a, b, ha, -, htext⟩ := isEdgeText_iff.1 hedge
    obtain ⟨source, target, rfl, -, -⟩ := edge_of_text_eq ha htext
    rfl
  | false =>
    cases line with
    | edge source target =>
      have htext := isEdgeText_edge source target
      exact absurd (htext.symm.trans hedge) (by decide)
    | header | start | declaration | opening | layout | closing | dashed | fill | click | blank =>
      rfl

/-- The lines of a text that are arrows are the edges among the lines. -/
theorem filter_isEdgeText (lines : List Line) :
    (lines.map text).filter isEdgeText =
      (lines.filterMap edge?).map fun (source, target) => edgeText source.id target.id := by
  refine filter_map_text isEdgeText_text ?_ lines
  intro line ends hline
  cases line <;> cases hline
  rfl

end Line

/-- The ids at the ends of an arrow can be read back. -/
theorem ids_of_edgeText_eq {source target : Node} {a b : String} (ha : IsIdText a)
    (h : edgeText source.id target.id = edgeText a b) : source.id = a ∧ target.id = b := by
  have htext : (Line.edge source target).text = edgeText a b := h
  obtain ⟨_, _, heq, hsource, htarget⟩ := Line.edge_of_text_eq ha htext
  cases heq
  exact ⟨hsource, htarget⟩

/-- Arrows between different pairs of nodes are different. -/
theorem edgeText_injective :
    Function.Injective fun ends : Node × Node => edgeText ends.1.id ends.2.id := by
  intro ends ends' h
  obtain ⟨hsource, htarget⟩ := ids_of_edgeText_eq ends'.1.isIdChar_of_mem_id h
  exact Prod.ext (Node.id_injective hsource) (Node.id_injective htarget)

/-! ## Transitions -/

/-- The transitions from a state of a graph in a frame. -/
def stateTransitions (frame : Frame) (entry : String × State) : List (Node × Node) :=
  entry.2.successors.map fun target => (frame.node entry.1, frame.node target)

/-- The transitions of a graph in a frame. -/
def graphTransitions (frame : Frame) (graph : Definition) : List (Node × Node) :=
  graph.states.flatMap (stateTransitions frame)

namespace Definition

/-- The transitions of all graphs, each graph in the frame of its number. -/
def transitions (definition : Definition) : List (Node × Node) :=
  inFrames graphTransitions 0 definition.graphs

variable {definition : Definition}

/-- Transitions lead from a state to a successor of it. -/
theorem mem_transitions {source target : Node} :
    (source, target) ∈ definition.transitions ↔ definition.LeadsTo source target := by
  simp only [transitions, mem_inFrames_zero, graphTransitions, stateTransitions, List.mem_flatMap,
    List.mem_map, Prod.exists]
  constructor
  · rintro ⟨frame, graph, hgraph, name, state, hstate, next, hnext, heq⟩
    cases heq
    exact ⟨rfl, state, ⟨graph, hgraph, hstate⟩, hnext⟩
  · obtain ⟨frame, name⟩ := source
    obtain ⟨frame', next⟩ := target
    rintro ⟨rfl, state, ⟨graph, hgraph, hstate⟩, hnext⟩
    exact ⟨_, graph, hgraph, name, state, hstate, next, hnext, rfl⟩

/-- No transition repeats. -/
theorem nodup_transitions (hdistinct : definition.NamesDistinct) :
    definition.transitions.Nodup := by
  refine nodup_inFrames (fun ends => ends.1.frame) ?_ ?_
  · intro frame graph ends hends
    simp only [graphTransitions, stateTransitions, List.mem_flatMap, List.mem_map] at hends
    obtain ⟨_, -, _, -, rfl⟩ := hends
    rfl
  · intro frame graph hgraph
    have hnames := nodup_of_mem_graphs hdistinct hgraph
    refine nodup_flatMap_of_key (fun ends => ends.1.name) hnames ?_ ?_
    · intro entry _ ends hends
      obtain ⟨_, -, rfl⟩ := List.mem_map.1 hends
      rfl
    · intro entry _
      refine entry.2.nodup_successors.map ?_
      intro a b h
      exact congrArg (fun ends => ends.2.name) h

end Definition

/-! ## Edges of a drawing -/

namespace Chart

variable {options : ChartOptions} {fill : Node → List Line}

/-- There are no edges in what a state is made of, other than a choice. -/
theorem edges_bodyLines {state : State} (hchoice : state.category ≠ .choice) (node : Node) :
    (bodyLines options node state).filterMap Line.edge? = [] := by
  rw [List.filterMap_eq_nil_iff]
  refine forall_mem_bodyLines rfl (by simp [blockLines, Line.edge?]) ?_
  rintro choice rfl
  exact absurd rfl hchoice

/-- After what a state is made of, there is an edge to the state that follows by declaration. -/
theorem edges_afterBody (hfill : OnlyColors fill) (frame : Frame) (name : String) (state : State) :
    (afterBody options fill frame name state).filterMap Line.edge? =
      state.next.toList.map fun next => (frame.node name, frame.node next) := by
  have hcolors : (fill (frame.node name)).filterMap Line.edge? = [] := by
    refine List.filterMap_eq_nil_iff.2 fun line hline => ?_
    obtain ⟨color, rfl⟩ := hfill _ line hline
    rfl
  have hclick : (if options.tooltips then [Line.click (frame.node name)] else []).filterMap
      Line.edge? = [] := by
    split <;> rfl
  rw [afterBody, linksOf]
  simp only [List.filterMap_append]
  rw [hcolors, hclick, Line.filterMap_edge?_map]
  rfl

/-- **The edges of a state lead to its successors**, those of a choice as well as the one to the
state that follows by declaration. -/
theorem edges_stateLines (hfill : OnlyColors fill) (frame : Frame) (entry : String × State) :
    (stateLines options fill frame entry).filterMap Line.edge? = stateTransitions frame entry := by
  obtain ⟨name, state⟩ := entry
  rw [stateLines, List.filterMap_append, edges_afterBody hfill, stateTransitions]
  by_cases hchoice : state.category = .choice
  · cases state with
    | choice choice =>
      -- all its edges are in its body, for nothing follows it by declaration
      rw [bodyLines, Line.filterMap_edge?_map]
      exact List.append_nil _
    | pass | task | parallel | map | fail | succeed | wait => contradiction
  · rw [edges_bodyLines hchoice, State.successors_eq_of_not_choice hchoice]
    rfl

/-- The edges of a graph are its transitions. -/
theorem edges_graphLines (hfill : OnlyColors fill) (frame : Frame) (graph : Definition) :
    (graphLines options fill frame graph).filterMap Line.edge? = graphTransitions frame graph := by
  have hstart : Line.edge? (.start (frame.node graph.startAt)) = none := rfl
  rw [graphLines, List.filterMap_cons_none hstart, List.filterMap_flatMap, graphTransitions]
  exact congrArg (graph.states.flatMap ·) (funext (edges_stateLines hfill frame))

variable {definition : Definition} {statuses? : Option StatusSource} {chart : Flowchart}

/-- **The edges of a chart are the transitions** of its definition. -/
theorem perm_edges (h : compile definition statuses? options = .ok chart) :
    (chart.lines.filterMap Line.edge?).Perm definition.transitions := by
  obtain ⟨drawing, rfl, hcensus⟩ := census_of_compile h
  have hfill := onlyColors_fillLines options statuses?
  have hlines := hcensus.lines.filterMap Line.edge?
  rw [List.nil_append, filterMap_inFrames] at hlines
  have hgraphs : (fun frame graph => (graphLines options (fillLines options statuses?) frame
      graph).filterMap Line.edge?) = graphTransitions := by
    funext frame graph
    exact edges_graphLines hfill frame graph
  rw [hgraphs] at hlines
  exact hlines

/-- The node of a state is registered. -/
theorem isSome_state?_of_declares (hdistinct : definition.NamesDistinct)
    (h : compile definition statuses? options = .ok chart) {node : Node} {state : State}
    (hnode : definition.Declares node state) : (chart.state? node.id).isSome = true := by
  rw [(state?_eq_some_iff hdistinct h).2 ⟨node, hnode, rfl⟩]
  rfl

/-- Both ends of a transition are registered. -/
theorem isSome_state?_of_leadsTo (hdistinct : definition.NamesDistinct)
    (h : compile definition statuses? options = .ok chart) {source target : Node}
    (hleads : definition.LeadsTo source target) :
    (chart.state? source.id).isSome = true ∧ (chart.state? target.id).isSome = true := by
  obtain ⟨next, htarget⟩ := hleads.exists_declares (outline_of_compile h).1
  obtain ⟨-, state, hsource, -⟩ := hleads
  exact ⟨isSome_state?_of_declares hdistinct h hsource,
    isSome_state?_of_declares hdistinct h htarget⟩

/-- The start of a graph stands in the chart. -/
theorem start_mem_lines (h : compile definition statuses? options = .ok chart) {frame : Frame}
    {graph : Definition} (hgraph : definition.graphs[frame.number]? = some graph) :
    .start (frame.node graph.startAt) ∈ chart.lines := by
  obtain ⟨drawing, rfl, hcensus⟩ := census_of_compile h
  refine List.mem_cons_of_mem _ (hcensus.lines.mem_iff.2 ?_)
  exact mem_inFrames_zero.2 ⟨frame, graph, hgraph, List.mem_cons_self ..⟩

/-- **The edges drawn are exactly the transitions.** Where no name has a line feed, the lines of the
text that are arrows between ids are, without repetition, one line for each transition. Both ends of
every such line are registered, and so is the start of every graph, which stands on a line too. -/
theorem edges_of_compile (hdistinct : definition.NamesDistinct) (hnames : definition.NamesUnbroken)
    (hstyle : options.HasStyleValues) (h : compile definition statuses? options = .ok chart) :
    let edges := (linesOf chart.text).filter isEdgeText
    edges.Perm (definition.transitions.map fun (source, target) => edgeText source.id target.id)
      ∧ edges.Nodup
      ∧ (∀ a b, IsIdText a → IsIdText b → edgeText a b ∈ edges →
          (chart.state? a).isSome = true ∧ (chart.state? b).isSome = true)
      ∧ ∀ frame graph, definition.graphs[frame.number]? = some graph →
          let start := (Frame.node frame graph.startAt).id
          start ∈ linesOf chart.text ∧ (chart.state? start).isSome = true := by
  have hlines := linesOf_text hnames hstyle h
  have hvalid := (outline_of_compile h).1
  intro edges
  -- an arrow stands on the lines of edges only, and not on the empty line at the end
  have hedges : edges = (chart.lines.filterMap Line.edge?).map
      fun (source, target) => edgeText source.id target.id := by
    have hlast : [""].filter isEdgeText = [] := by decide
    show (linesOf chart.text).filter isEdgeText = _
    rw [hlines, List.filter_append, hlast, List.append_nil, Line.filter_isEdgeText]
  have hperm : edges.Perm
      (definition.transitions.map fun (source, target) => edgeText source.id target.id) :=
    hedges ▸ (perm_edges h).map _
  refine ⟨hperm, ?_, ?_, ?_⟩
  · exact hperm.nodup_iff.2 ((Definition.nodup_transitions hdistinct).map edgeText_injective)
  · intro a b ha _ hmem
    obtain ⟨⟨source, target⟩, htransition, htext⟩ := List.mem_map.1 (hperm.mem_iff.1 hmem)
    -- no id has a blank in it, so the arrow tells where the ids end
    obtain ⟨rfl, rfl⟩ := ids_of_edgeText_eq ha htext
    exact isSome_state?_of_leadsTo hdistinct h (Definition.mem_transitions.1 htransition)
  · intro frame graph hgraph
    obtain ⟨state, hstate⟩ := Definition.exists_declares_start hvalid hgraph
    refine ⟨?_, isSome_state?_of_declares hdistinct h hstate⟩
    rw [hlines]
    exact List.mem_append_left _ (List.mem_map.2 ⟨_, start_mem_lines h hgraph, rfl⟩)

/-- The edges of a choice, of a block and of states in two blocks, among nodes that call back. -/
theorem edges_of_compile_shipping :
    let builder := (({} : OptionsBuilder).withDirection .leftToRight).withTooltips true
    let options : ChartOptions := { direction := .leftToRight, tooltips := true }
    (shipping.NamesDistinct ∧ shipping.NamesUnbroken ∧ builder.build = .ok options)
      ∧ ∃ chart, compile shipping (some fun _ => .ok .neverRun) options = .ok chart
        ∧ ((linesOf chart.text).filter isEdgeText).Perm
            ["s0-Route --> s0-Express", "s0-Route --> s0-Parcels", "s0-Route --> s0-Done",
              "s0-Express --> s0-Done", "s0-Parcels --> s0-Done", "s2-Weigh --> s2-Pack",
              "s3-Weigh --> s3-Pack"]
        ∧ "s3-Weigh" ∈ linesOf chart.text ∧ (chart.state? "s3-Pack").isSome = true := by
  intro builder options
  have hnames : shipping.NamesUnbroken := by decide
  have hbuild : builder.build = .ok options := by decide
  have hchart := compile_shipping options
  obtain ⟨hperm, -, hends, hstart⟩ := edges_of_compile namesDistinct_shipping hnames
    (OptionsBuilder.hasStyleValues_of_build hbuild) hchart
  have hedges : (shipping.transitions.map fun (source, target) => edgeText source.id target.id) =
      ["s0-Route --> s0-Express", "s0-Route --> s0-Parcels", "s0-Route --> s0-Done",
        "s0-Express --> s0-Done", "s0-Parcels --> s0-Done", "s2-Weigh --> s2-Pack",
        "s3-Weigh --> s3-Pack"] := by decide
  rw [hedges] at hperm
  refine ⟨⟨namesDistinct_shipping, hnames, hbuild⟩, _, hchart, hperm, ?_, ?_⟩
  · exact (hstart ⟨3⟩ _ rfl).1
  · have hedge : edgeText "s3-Weigh" "s3-Pack" ∈ (linesOf _).filter isEdgeText :=
      hperm.mem_iff.2 (by decide)
    exact (hends _ _ (by decide) (by decide) hedge).2

end Chart

end WorkflowChart
