import WorkflowChart.Proofs.Chart.Frames
import WorkflowChart.Proofs.Chart.Outline

/-!
# What is drawn, graph by graph

The drawing of a definition has the nodes and the lines of its graphs, each in the frame of its
number. The drawings of graphs are nested in each other, so the lines do not come in the order of
the graphs, but nothing is left out and nothing is drawn twice.

* **`Chart.stateLines`**: the lines that are drawn for one state; `Chart.forall_mem_stateLines` says
  what they are.
* **`Chart.Census`**: what a drawing has of its own, and that the rest is what its graphs give.
* **`Chart.censusCases`**: the drawings of graphs, states and branches have a census.
* **`Chart.census_of_compile`**: a chart has the nodes and the lines of all graphs.
-/

namespace WorkflowChart

namespace Chart

/-! ## What a graph gives -/

/-- The nodes of states in a frame. -/
def nodesOf (frame : Frame) (states : List (String × State)) : List (Node × State) :=
  states.map fun (name, state) => (frame.node name, state)

/-- The lines between the drawings of branches: `gap` before the first one, and a blank line before
every other. -/
def gaps (gap : List Line) : List Definition → List Line
  | [] => []
  | _ :: rest => gap ++ gaps [.blank] rest

/-- The lines of what a state is made of, without those of the graphs in it. -/
def bodyLines (options : ChartOptions) (node : Node) : State → List Line
  | .task _ | .pass _ | .fail _ | .succeed _ | .wait _ => [.declaration node .rectangle]
  | .choice choice => choice.targets.map fun target => .edge node (node.frame.node target)
  | .parallel _ branches _ =>
    [.opening node, .layout options.direction] ++ gaps [] branches ++ [.closing]
  | .map .. => [.opening node, .dashed node, .layout options.direction] ++ [] ++ [.closing]

/-- The lines that follow what a state is made of. -/
def afterBody (options : ChartOptions) (fill : Node → List Line) (frame : Frame) (name : String)
    (state : State) : List Line :=
  [.declaration (frame.node name) (.of state)] ++ fill (frame.node name)
    ++ linksOf options frame name state

/-- The lines of a state, without those of the graphs in it. -/
def stateLines (options : ChartOptions) (fill : Node → List Line) (frame : Frame)
    (entry : String × State) : List Line :=
  bodyLines options (frame.node entry.1) entry.2 ++ afterBody options fill frame entry.1 entry.2

/-- The lines of a graph, without those of the graphs in it. -/
def graphLines (options : ChartOptions) (fill : Node → List Line) (frame : Frame)
    (graph : Definition) : List Line :=
  .start (frame.node graph.startAt) :: graph.states.flatMap (stateLines options fill frame)

/-- The nodes of a graph, without those of the graphs in it. -/
def graphNodes (frame : Frame) (graph : Definition) : List (Node × State) :=
  nodesOf frame graph.states

/-! ## What holds of the lines of a state -/

/-- The lines that blocks are made of, besides those of the graphs in them. -/
def blockLines (options : ChartOptions) (node : Node) : List Line :=
  [.opening node, .dashed node, .layout options.direction, .closing, .blank]

/-- Between branches there are blank lines. -/
theorem eq_blank_of_mem_gaps {gap : List Line} (hgap : ∀ line ∈ gap, line = .blank)
    (branches : List Definition) : ∀ line ∈ gaps gap branches, line = .blank := by
  induction branches generalizing gap with
  | nil => exact List.forall_mem_nil _
  | cons branch rest ih =>
    rw [gaps, List.forall_mem_append]
    exact ⟨hgap, ih (List.forall_mem_singleton.2 rfl)⟩

section

variable {options : ChartOptions} {fill : Node → List Line} {P : Line → Prop}

/-- What a state is made of is its box, its block, or the edges of a choice. -/
theorem forall_mem_bodyLines {node : Node} {state : State} (hbox : P (.declaration node .rectangle))
    (hblock : ∀ line ∈ blockLines options node, P line)
    (hedge : ∀ choice, state = .choice choice →
      ∀ target ∈ choice.targets, P (.edge node (node.frame.node target))) :
    ∀ line ∈ bodyLines options node state, P line := by
  simp only [blockLines, List.forall_mem_cons] at hblock
  obtain ⟨hopening, hdashed, hlayout, hclosing, hblank, -⟩ := hblock
  cases state with
  | choice choice =>
    rw [bodyLines, List.forall_mem_map]
    exact hedge choice rfl
  | parallel comment branches flow =>
    -- between two branches stands a blank line, as it does after the block
    have hgaps : ∀ line ∈ gaps [] branches, P line := by
      intro line hline
      rw [eq_blank_of_mem_gaps (List.forall_mem_nil _) branches line hline]
      exact hblank
    rw [bodyLines]
    simp only [List.forall_mem_append, List.forall_mem_cons]
    exact ⟨⟨⟨hopening, hlayout, List.forall_mem_nil _⟩, hgaps⟩, hclosing, List.forall_mem_nil _⟩
  | map => simp [bodyLines, hopening, hdashed, hlayout, hclosing]
  | pass | task | fail | succeed | wait =>
    rw [bodyLines, List.forall_mem_singleton]
    exact hbox

/-- The lines that follow what a state is made of are its shape, its colour, its callback and the
edge to the state after it. -/
theorem forall_mem_afterBody {frame : Frame} {name : String} {state : State}
    (hshape : P (.declaration (frame.node name) (.of state)))
    (hfill : ∀ line ∈ fill (frame.node name), P line) (hclick : P (.click (frame.node name)))
    (hnext : ∀ next ∈ state.next, P (.edge (frame.node name) (frame.node next))) :
    ∀ line ∈ afterBody options fill frame name state, P line := by
  rw [afterBody]
  simp only [List.forall_mem_append, List.forall_mem_singleton]
  exact ⟨⟨hshape, hfill⟩, forall_mem_linksOf hclick hnext⟩

/-- **The lines of a state** are its boxes, its block, its colour, its callback, and the edges to
its successors. -/
theorem forall_mem_stateLines {frame : Frame} {entry : String × State}
    (hbox : ∀ shape, P (.declaration (frame.node entry.1) shape))
    (hblock : ∀ line ∈ blockLines options (frame.node entry.1), P line)
    (hfill : ∀ line ∈ fill (frame.node entry.1), P line) (hclick : P (.click (frame.node entry.1)))
    (hedge : ∀ target ∈ entry.2.successors, P (.edge (frame.node entry.1) (frame.node target))) :
    ∀ line ∈ stateLines options fill frame entry, P line := by
  obtain ⟨name, state⟩ := entry
  have hnext : ∀ next ∈ state.next, P (.edge (frame.node name) (frame.node next)) := by
    intro next hmem
    apply hedge
    cases state with
    | choice => contradiction
    | pass | task | parallel | map | fail | succeed | wait => exact Option.mem_toList.2 hmem
  rw [stateLines, List.forall_mem_append]
  refine ⟨forall_mem_bodyLines (hbox _) hblock ?_, forall_mem_afterBody (hbox _) hfill hclick hnext⟩
  rintro choice rfl
  exact hedge

end

/-! ## Censuses -/

/-- The census of a drawing in which the first frame has the given number: besides the nodes and the
lines that are its own, it has those of the graphs, in as many frames. -/
structure Census (options : ChartOptions) (fill : Node → List Line) (drawing : Drawing)
    (number : Nat) (graphs : List Definition) (nodes : List (Node × State)) (lines : List Line) :
    Prop where
  nextFrame : drawing.nextFrame = number + graphs.length
  nodes : drawing.nodes.Perm (nodes ++ inFrames graphNodes number graphs)
  lines : drawing.lines.Perm (lines ++ inFrames (graphLines options fill) number graphs)

variable {options : ChartOptions} {fill : Node → List Line}

/-- What comes in two parts, of which each has its own and others, has its own before the others. -/
theorem perm_append_of_parts {α : Type} {all others own ownOther rest restOther : List α}
    (h : all.Perm (own ++ rest)) (hother : others.Perm (ownOther ++ restOther)) :
    (all ++ others).Perm (own ++ ownOther ++ (rest ++ restOther)) := by
  have hswap : (rest ++ (ownOther ++ restOther)).Perm (ownOther ++ (rest ++ restOther)) :=
    List.perm_append_comm_assoc _ _ _
  rw [List.append_assoc]
  refine (h.append hother).trans ?_
  rw [List.append_assoc]
  exact hswap.append_left own

namespace Census

variable {drawing others : Drawing} {number : Nat} {graphs otherGraphs : List Definition}
  {nodes otherNodes : List (Node × State)} {lines otherLines : List Line}

/-- A drawing of no graphs has its own lines only. -/
theorem plain (number : Nat) (lines : List Line) :
    Census options fill { lines, nextFrame := number } number [] [] lines where
  nextFrame := rfl
  nodes := .refl _
  lines := by simp

/-- A drawing after another one has the graphs of both. -/
theorem append (h : Census options fill drawing number graphs nodes lines)
    (hothers : Census options fill others drawing.nextFrame otherGraphs otherNodes otherLines) :
    Census options fill
      { lines := drawing.lines ++ others.lines
        nodes := drawing.nodes ++ others.nodes
        nextFrame := others.nextFrame }
      number (graphs ++ otherGraphs) (nodes ++ otherNodes) (lines ++ otherLines) where
  nextFrame := by
    have hnext := h.nextFrame
    have hlast := hothers.nextFrame
    rw [List.length_append]
    show others.nextFrame = _
    omega
  nodes := by
    -- the graphs of the second drawing are numbered on from where the first one stopped
    rw [inFrames_append, ← h.nextFrame]
    exact perm_append_of_parts h.nodes hothers.nodes
  lines := by
    rw [inFrames_append, ← h.nextFrame]
    exact perm_append_of_parts h.lines hothers.lines

/-- A drawing in a setting of its own has the same graphs. -/
theorem surround (h : Census options fill drawing number graphs nodes lines)
    (own : List (Node × State)) (before after : List Line) :
    Census options fill
      { lines := before ++ drawing.lines ++ after
        nodes := own ++ drawing.nodes
        nextFrame := drawing.nextFrame }
      number graphs (own ++ nodes) (before ++ lines ++ after) where
  nextFrame := h.nextFrame
  nodes := by
    show (own ++ drawing.nodes).Perm (own ++ nodes ++ _)
    rw [List.append_assoc]
    exact h.nodes.append_left own
  lines := by
    have hbefore : (before ++ drawing.lines).Perm
        (before ++ lines ++ inFrames (graphLines options fill) number graphs) := by
      rw [List.append_assoc]
      exact h.lines.append_left before
    -- what comes after the graphs counts with what comes before them
    have hafter := perm_append_of_parts hbefore (.refl (after ++ []))
    simpa using hafter

/-- A graph has the nodes and the lines of its states as its own. -/
theorem graph {startAt : String} {states : List (String × State)} {comment version : Option String}
    {timeoutSeconds : Option UInt64}
    (h : Census options fill drawing (number + 1) graphs (nodesOf ⟨number⟩ states)
      (states.flatMap (stateLines options fill ⟨number⟩))) :
    Census options fill
      { drawing with lines := .start (Frame.node ⟨number⟩ startAt) :: drawing.lines }
      number (⟨startAt, states, comment, timeoutSeconds, version⟩ :: graphs) [] [] where
  nextFrame := by
    have hnext := h.nextFrame
    rw [List.length_cons]
    show drawing.nextFrame = _
    omega
  nodes := by
    rw [inFrames_cons]
    exact h.nodes
  lines := by
    rw [inFrames_cons]
    exact h.lines.cons _

end Census

/-- What is drawn has a census. Graphs and branches have no nodes of their own. -/
theorem censusCases (options : ChartOptions) (fill : Node → List Line) :
    Definition.Cases
      (fun graph => ∀ number,
        Census options fill (outlineGraph options fill number graph) number graph.graphs [] [])
      (fun states => ∀ frame number,
        Census options fill (outlineStates options fill frame number states) number
          (Definition.graphsOfStates states) (nodesOf frame states)
          (states.flatMap (stateLines options fill frame)))
      (fun state => ∀ frame number name,
        Census options fill (outlineState options fill frame number name state) number
          state.graphs [] (bodyLines options (frame.node name) state))
      (fun branches => ∀ gap number,
        Census options fill (outlineBranches options fill gap number branches) number
          (Definition.graphsOfBranches branches) [] (gaps gap branches)) where
  graph startAt states comment timeoutSeconds version hstates := by
    intro number
    rw [outlineGraph, Definition.graphs]
    exact (hstates ⟨number⟩ (number + 1)).graph
  noStates := by
    intro frame number
    rw [outlineStates, Definition.graphsOfStates]
    exact .plain number []
  addState name state rest hstate hrest := by
    intro frame number
    rw [outlineStates, Definition.graphsOfStates]
    -- the body of the state has the graphs in it, and the rest of its lines follow
    have hown := (hstate frame number name).surround [(frame.node name, state)] []
      (afterBody options fill frame name state)
    have hall := hown.append (hrest frame _)
    simpa [stateLines, afterBody, nodesOf] using hall
  plain state hparallel hmap := by
    intro frame number name
    rw [State.graphs_of_plain hparallel hmap]
    cases state with
    | parallel => exact absurd rfl hparallel
    | map => exact absurd rfl hmap
    | task | pass | choice | fail | succeed | wait =>
      rw [outlineState, bodyLines]
      exact .plain number _
  parallel comment branches flow hbranches := by
    intro frame number name
    rw [outlineState, State.graphs, bodyLines]
    exact (hbranches [] number).surround [] _ _
  map comment iterator itemsPath maxConcurrency flow hiterator := by
    intro frame number name
    rw [outlineState, State.graphs, bodyLines]
    exact (hiterator number).surround [] _ _
  noBranches := by
    intro gap number
    rw [outlineBranches, Definition.graphsOfBranches, gaps]
    exact .plain number []
  addBranch branch rest hbranch hrest := by
    intro gap number
    rw [outlineBranches, Definition.graphsOfBranches, gaps]
    have hfirst := (hbranch number).surround [] gap []
    have hall := hfirst.append (hrest [.blank] _)
    simpa using hall

/-- A drawing of a graph opens as many frames as there are graphs in it. -/
theorem nextFrame_outlineGraph (options : ChartOptions) (fill : Node → List Line) (number : Nat)
    (graph : Definition) :
    (outlineGraph options fill number graph).nextFrame = number + graph.graphs.length :=
  ((censusCases options fill).graph_all graph number).nextFrame

/-- A drawing of a state opens as many frames as there are graphs in it. -/
theorem nextFrame_outlineState (options : ChartOptions) (fill : Node → List Line) (frame : Frame)
    (number : Nat) (name : String) (state : State) :
    (outlineState options fill frame number name state).nextFrame = number + state.graphs.length :=
  ((censusCases options fill).state_all state frame number name).nextFrame

/-- **Nothing is left out and nothing is drawn twice**: the drawing of a definition has the nodes
and the lines of its graphs, in the frames that are numbered from zero on. -/
theorem census_outlineGraph (options : ChartOptions) (fill : Node → List Line)
    (definition : Definition) :
    Census options fill (outlineGraph options fill 0 definition) 0 definition.graphs [] [] :=
  (censusCases options fill).graph_all definition 0

/-- A chart is that of a drawing that has such a census. -/
theorem census_of_compile {definition : Definition} {statuses? : Option StatusSource}
    {chart : Flowchart} (h : compile definition statuses? options = .ok chart) :
    ∃ drawing, chart = .ofDrawing options.direction drawing ∧
      Census options (fillLines options statuses?) drawing 0 definition.graphs [] [] :=
  ⟨_, (outline_of_compile h).2, census_outlineGraph _ _ definition⟩

end Chart

end WorkflowChart
