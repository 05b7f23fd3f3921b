import WorkflowChart.Chart.Compile
import WorkflowChart.Proofs.Chart.DrawOrder
import WorkflowChart.Proofs.Results

/-!
# Drawings as outlines

Where the colour of every node is known, a definition can be drawn without asking for statuses. Such
an outline is a function of the definition, the options and the lines that colour the nodes. Drawing
asks for the status of one state after another, and comes out as the outline unless that fails.

* **`Chart.forall_mem_linksOf`**: what holds of the lines that follow the shape of a state.
* **`Chart.outlineGraph`**: the drawing of a graph, where `fill` gives the lines that colour a node.
* **`Chart.askedCases`**: drawing is asking for the statuses of all states, and then the outline.
* **`Chart.compile_none`**: the chart of a definition without a source of statuses.
* **`Chart.outline_of_compile`**: every chart is the chart of an outline.
-/

namespace WorkflowChart

namespace Chart

/-- The lines that follow the shape of a state are its callback and the edge to the state after it.
-/
theorem forall_mem_linksOf {options : ChartOptions} {frame : Frame} {name : String} {state : State}
    {P : Line → Prop} (hclick : P (.click (frame.node name)))
    (hnext : ∀ next ∈ state.next, P (.edge (frame.node name) (frame.node next))) :
    ∀ line ∈ linksOf options frame name state, P line := by
  intro line hline
  rw [linksOf, List.mem_append, List.mem_map] at hline
  rcases hline with hmem | ⟨next, hmem, rfl⟩
  · split at hmem
    · rw [List.mem_singleton.1 hmem]
      exact hclick
    · contradiction
  · exact hnext next (Option.mem_toList.1 hmem)

mutual

/-- The drawing of a graph in the frame of the given number, coloured by `fill`. -/
def outlineGraph (options : ChartOptions) (fill : Node → List Line) (number : Nat) :
    Definition → Drawing
  | ⟨startAt, states, _, _, _⟩ =>
    let frame : Frame := ⟨number⟩
    let drawing := outlineStates options fill frame (number + 1) states
    { drawing with lines := .start (frame.node startAt) :: drawing.lines }

/-- The drawing of states in a frame, coloured by `fill`. -/
def outlineStates (options : ChartOptions) (fill : Node → List Line) (frame : Frame)
    (number : Nat) : List (String × State) → Drawing
  | [] => { nextFrame := number }
  | (name, state) :: rest =>
    let node := frame.node name
    let inside := outlineState options fill frame number name state
    let drawing := outlineStates options fill frame inside.nextFrame rest
    { lines := inside.lines ++ [.declaration node (.of state)] ++ fill node
        ++ linksOf options frame name state ++ drawing.lines
      nodes := (node, state) :: inside.nodes ++ drawing.nodes
      nextFrame := drawing.nextFrame }

/-- The drawing of what a state is made of, coloured by `fill`. -/
def outlineState (options : ChartOptions) (fill : Node → List Line) (frame : Frame) (number : Nat)
    (name : String) : State → Drawing
  | .task _ | .pass _ | .fail _ | .succeed _ | .wait _ =>
    { lines := [.declaration (frame.node name) .rectangle], nextFrame := number }
  | .choice choice =>
    { lines := choice.targets.map fun target => .edge (frame.node name) (frame.node target)
      nextFrame := number }
  | .parallel _ branches _ =>
    .block [.opening (frame.node name), .layout options.direction]
      (outlineBranches options fill [] number branches)
  | .map _ iterator _ _ _ =>
    .block [.opening (frame.node name), .dashed (frame.node name), .layout options.direction]
      (outlineGraph options fill number iterator)

/-- The drawings of branches, coloured by `fill`. -/
def outlineBranches (options : ChartOptions) (fill : Node → List Line) (gap : List Line)
    (number : Nat) : List Definition → Drawing
  | [] => { nextFrame := number }
  | branch :: rest =>
    let first := outlineGraph options fill number branch
    let others := outlineBranches options fill [.blank] first.nextFrame rest
    { lines := gap ++ first.lines ++ others.lines
      nodes := first.nodes ++ others.nodes
      nextFrame := others.nextFrame }

end

/-! ## What can be told of colours -/

/-- The lines that colour a node, none where its status cannot be told. -/
def fillLines (options : ChartOptions) (statuses? : Option StatusSource) (node : Node) :
    List Line :=
  match fillOf options statuses? node with
  | .ok lines => lines
  | .error _ => []

/-- A node is coloured by at most one line, with the colour of a status. -/
theorem mem_fillLines {options : ChartOptions} {statuses? : Option StatusSource} {node : Node}
    {line : Line} (h : line ∈ fillLines options statuses? node) :
    ∃ status, line = .fill node (options.fills.color status) := by
  cases statuses? with
  | none => exact absurd h List.not_mem_nil
  | some statuses =>
    cases hstatus : statuses node.name with
    | error cause =>
      rw [fillLines, fillOf, hstatus] at h
      exact absurd h List.not_mem_nil
    | ok status =>
      rw [fillLines, fillOf, hstatus] at h
      exact ⟨status, List.mem_singleton.1 h⟩

/-- Asks for the status of a state, where there is a source of statuses. -/
def ask (statuses? : Option StatusSource) (name : String) : Except HistoryError Unit :=
  match statuses? with
  | none => .ok ()
  | some statuses => do let _ ← statuses name

/-- Asking succeeds where there is no source, or it tells a status. -/
theorem ask_eq_ok_iff {statuses? : Option StatusSource} {name : String} :
    ask statuses? name = .ok () ↔
      ∀ statuses, statuses? = some statuses → ∃ status, statuses name = .ok status := by
  cases statuses? with
  | none => exact ⟨fun _ => nofun, fun _ => rfl⟩
  | some statuses =>
    cases hstatus : statuses name with
    | error cause => simp [ask, hstatus, bind, Except.bind]
    | ok status => simp [ask, hstatus, bind, Except.bind, pure, Except.pure]

/-- Asking a source fails for the cause that the source gives. -/
theorem ask_some_eq_error_iff {statuses : StatusSource} {name : String} {cause : HistoryError} :
    ask (some statuses) name = .error cause ↔ statuses name = .error cause := by
  cases hstatus : statuses name with
  | error other => simp [ask, hstatus, bind, Except.bind]
  | ok status => simp [ask, hstatus, bind, Except.bind, pure, Except.pure]

/-- The statuses of states have all been asked for just where the source can tell all of them. -/
theorem asked_eq_ok_iff {statuses? : Option StatusSource} {names : List String} :
    forM names (ask statuses?) = .ok () ↔ ∀ statuses, statuses? = some statuses →
      ∀ name ∈ names, ∃ status, statuses name = .ok status := by
  simp only [forM_eq_ok_iff, ask_eq_ok_iff]
  exact ⟨fun h statuses hsource name hname => h name hname statuses hsource,
    fun h name hname statuses hsource => h statuses hsource name hname⟩

section

variable {options : ChartOptions} {statuses? : Option StatusSource} {fill : Node → List Line}

/-- In every frame `fill` gives the lines that colour the nodes of the given names, except for those
whose status cannot be told. -/
def Fills (options : ChartOptions) (statuses? : Option StatusSource) (fill : Node → List Line)
    (names : List String) : Prop :=
  ∀ name ∈ names, ∀ frame : Frame, ∀ lines,
    fillOf options statuses? (frame.node name) = .ok lines → fill (frame.node name) = lines

/-- `fill` colours the nodes of two lists of names just where it does for either list. -/
theorem fills_append {names others : List String} :
    Fills options statuses? fill (names ++ others) ↔
      Fills options statuses? fill names ∧ Fills options statuses? fill others :=
  List.forall_mem_append

/-- `fillLines` colours the nodes of any names. -/
theorem fills_fillLines (options : ChartOptions) (statuses? : Option StatusSource)
    (names : List String) : Fills options statuses? (fillLines options statuses?) names := by
  intro name _ frame lines h
  rw [fillLines, h]

/-- A node is coloured after its status has been asked for. -/
theorem fillOf_eq {name : String} {frame : Frame} (h : Fills options statuses? fill [name]) :
    fillOf options statuses? (frame.node name) =
      (do ask statuses? name; return fill (frame.node name)) := by
  have hfill := List.forall_mem_singleton.1 h frame
  cases statuses? with
  | none =>
    rw [hfill [] rfl]
    rfl
  | some statuses =>
    cases hstatus : statuses name with
    | error cause => simp [fillOf, ask, Frame.node, hstatus, bind, Except.bind]
    | ok status =>
      have hone : fillOf options (some statuses) (frame.node name) =
          .ok [.fill (frame.node name) (options.fills.color status)] := by
        simp [fillOf, Frame.node, hstatus, bind, Except.bind, pure, Except.pure]
      rw [hone, hfill _ hone]
      simp [ask, hstatus, bind, Except.bind, pure, Except.pure]

/-! ## Drawing as asking -/

/-- **Drawing is asking.** A drawing asks for the status of one state after another, in the order in
which they are finished, and comes out as the outline where all of them can be told. -/
theorem askedCases (options : ChartOptions) (statuses? : Option StatusSource)
    (fill : Node → List Line) :
    Definition.Cases
      (fun graph => Fills options statuses? fill graph.drawOrder → ∀ number,
        drawGraph options statuses? number graph =
          (do forM graph.drawOrder (ask statuses?); return outlineGraph options fill number graph))
      (fun states => Fills options statuses? fill (Definition.drawOrderOfStates states) →
        ∀ frame number, drawStates options statuses? frame number states =
          (do forM (Definition.drawOrderOfStates states) (ask statuses?)
              return outlineStates options fill frame number states))
      (fun state => Fills options statuses? fill state.drawOrder → ∀ frame number name,
        drawState options statuses? frame number name state =
          (do forM state.drawOrder (ask statuses?)
              return outlineState options fill frame number name state))
      (fun branches => Fills options statuses? fill (Definition.drawOrderOfBranches branches) →
        ∀ gap number, drawBranches options statuses? gap number branches =
          (do forM (Definition.drawOrderOfBranches branches) (ask statuses?)
              return outlineBranches options fill gap number branches)) where
  graph startAt states comment timeoutSeconds version hstates := by
    intro hfills number
    rw [Definition.drawOrder] at hfills ⊢
    rw [drawGraph, hstates hfills, outlineGraph]
    simp only [bind_assoc, pure_bind]
  noStates := by
    intro _ frame number
    rw [drawStates, outlineStates, Definition.drawOrderOfStates, List.forM_nil, pure_bind]
    rfl
  addState name state rest hstate hrest := by
    intro hfills frame number
    rw [Definition.drawOrderOfStates, List.append_cons, fills_append, fills_append] at hfills
    obtain ⟨⟨hinside, hname⟩, hothers⟩ := hfills
    -- the state is asked for after those in it and before those that follow it
    rw [drawStates, hstate hinside, fillOf_eq hname, outlineStates, Definition.drawOrderOfStates,
      List.forM_append, List.forM_cons]
    simp only [bind_assoc, pure_bind, hrest hothers]
  plain state hparallel hmap := by
    intro _ frame number name
    rw [State.drawOrder_of_plain hparallel hmap, List.forM_nil, pure_bind]
    cases state with
    | parallel => exact absurd rfl hparallel
    | map => exact absurd rfl hmap
    | task | pass | choice | fail | succeed | wait =>
      rw [drawState, outlineState]
      rfl
  parallel comment branches flow hbranches := by
    intro hfills frame number name
    rw [State.drawOrder] at hfills ⊢
    rw [drawState, hbranches hfills, outlineState]
    simp only [bind_assoc, pure_bind]
  map comment iterator itemsPath maxConcurrency flow hiterator := by
    intro hfills frame number name
    rw [State.drawOrder] at hfills ⊢
    rw [drawState, hiterator hfills, outlineState]
    simp only [bind_assoc, pure_bind]
  noBranches := by
    intro _ gap number
    rw [drawBranches, outlineBranches, Definition.drawOrderOfBranches, List.forM_nil, pure_bind]
    rfl
  addBranch branch rest hbranch hrest := by
    intro hfills gap number
    rw [Definition.drawOrderOfBranches, fills_append] at hfills
    rw [drawBranches, hbranch hfills.1, outlineBranches, Definition.drawOrderOfBranches,
      List.forM_append]
    simp only [bind_assoc, pure_bind, hrest hfills.2]

end

variable {definition : Definition} {statuses? : Option StatusSource} {options : ChartOptions}

/-- There is no chart of a definition with references that are not valid. -/
theorem compile_of_invalid (hvalid : definition.referencesValid = false) :
    compile definition statuses? options
      = .error (.invalidReferences definition.danglingReferences) := by
  rw [compile]
  split
  · next hnone => simp [Definition.referencesValid, hnone] at hvalid
  · next hsome => rw [hsome]

/-- **Charts are asked for**, and then drawn, where the references are valid. -/
theorem compile_of_valid {fill : Node → List Line} (hvalid : definition.referencesValid = true)
    (hfills : Fills options statuses? fill definition.drawOrder) :
    compile definition statuses? options =
      ((forM definition.drawOrder (ask statuses?)).map fun _ => Flowchart.ofDrawing
        options.direction (outlineGraph options fill 0 definition)).mapError .history := by
  have hnone : definition.danglingReferences = [] := by
    simpa [Definition.referencesValid] using hvalid
  rw [compile, hnone]
  simp only [(askedCases options statuses? fill).graph_all definition hfills 0]
  cases forM definition.drawOrder (ask statuses?) with
  | error cause => rfl
  | ok _ => rfl

/-- **Charts with a source that does not fail**: there is one of every definition whose references
are valid. -/
theorem compile_of_fill {fill : Node → List Line} (hvalid : definition.referencesValid = true)
    (hknown : ∀ name ∈ definition.drawOrder, ∀ frame : Frame,
      fillOf options statuses? (frame.node name) = .ok (fill (frame.node name))) :
    compile definition statuses? options
      = .ok (.ofDrawing options.direction (outlineGraph options fill 0 definition)) := by
  have hfills : Fills options statuses? fill definition.drawOrder := by
    intro name hname frame lines hlines
    rw [hknown name hname frame] at hlines
    exact Except.ok.inj hlines
  have hasked : forM definition.drawOrder (ask statuses?) = .ok () := by
    refine forM_eq_ok_iff.2 fun name hname => ?_
    have hone := hknown name hname ⟨0⟩
    rw [fillOf_eq fun other hother => hfills other (List.mem_singleton.1 hother ▸ hname),
      bind_eq_ok_iff] at hone
    obtain ⟨_, hask, -⟩ := hone
    exact hask
  rw [compile_of_valid hvalid hfills, hasked]
  rfl

/-- No node is coloured. -/
def noFill : Node → List Line :=
  fun _ => []

/-- **Charts without statuses**: there is one of every definition whose references are valid. -/
theorem compile_none (hvalid : definition.referencesValid = true) (options : ChartOptions) :
    compile definition none options
      = .ok (.ofDrawing options.direction (outlineGraph options noFill 0 definition)) :=
  compile_of_fill hvalid fun _ _ _ => rfl

/-- **Charts are outlines.** Where there is a chart, the references are valid, and the chart is that
of an outline. -/
theorem outline_of_compile {chart : Flowchart}
    (h : compile definition statuses? options = .ok chart) :
    definition.referencesValid = true ∧
      chart = .ofDrawing options.direction
        (outlineGraph options (fillLines options statuses?) 0 definition) := by
  cases hvalid : definition.referencesValid with
  | false =>
    rw [compile_of_invalid hvalid] at h
    contradiction
  | true =>
    rw [compile_of_valid hvalid (fills_fillLines options statuses? _)] at h
    cases hasked : forM definition.drawOrder (ask statuses?) with
    | error cause =>
      rw [hasked] at h
      contradiction
    | ok _ =>
      rw [hasked] at h
      cases h
      exact ⟨rfl, rfl⟩

end Chart

end WorkflowChart
