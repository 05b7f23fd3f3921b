import WorkflowChart.Proofs.Chart.Directives

/-!
# Colours

A source of statuses colours the nodes of a chart and changes nothing else: without the lines that
colour a node, what is left is the chart that is drawn without the source.

* **`Chart.withoutFillsCases`**: drawings without the lines that colour nodes are the drawings in
  which no node is coloured.
* **`Chart.perm_fills`**: every node is coloured once.
* **`withoutFillLines`**: a text without its lines that colour nodes.
* **`Chart.coloring_of_compile`**: a chart with a source of statuses and the one without it.
-/

namespace WorkflowChart

/-! ## Lines that colour a node -/

namespace Line

/-- The node that a line colours, and the colour. -/
def fill? : Line → Option (Node × String)
  | fill node color => some (node, color)
  | header _ | start _ | declaration _ _ | opening _ | layout _ | closing | dashed _ | click _
  | edge _ _ | blank => none

/-- The text of a line colours a node just where the line does. -/
theorem isFillText_text (line : Line) : isFillText line.text = line.fill?.isSome := by
  cases hfill : isFillText line.text with
  | true =>
    obtain ⟨id, color, hid, htext⟩ := isFillText_iff.1 hfill
    obtain ⟨node, rfl, -⟩ := fill_of_text_eq hid htext
    rfl
  | false =>
    cases line with
    | fill node color =>
      have htext : isFillText (fillText node.id color) = true :=
        isFillText_iff.2 ⟨_, _, node.isIdChar_of_mem_id, rfl⟩
      exact absurd (htext.symm.trans hfill) (by decide)
    | header | start | declaration | opening | layout | closing | dashed | click | edge | blank =>
      rfl

/-- The texts that colour a node are those of the lines that do. -/
theorem filter_isFillText (lines : List Line) :
    (lines.map text).filter isFillText =
      (lines.filterMap fill?).map fun (node, color) => fillText node.id color := by
  refine filter_map_text isFillText_text ?_ lines
  intro line ends hline
  cases line <;> cases hline
  rfl

/-- Without the texts that colour a node, those of the other lines are left. -/
theorem filter_not_isFillText (lines : List Line) :
    ((lines.map text).filter fun line => !isFillText line) =
      (lines.filter fun line => line.fill?.isNone).map text := by
  rw [List.filter_map]
  refine congrArg (List.map text) (List.filter_congr fun line _ => ?_)
  rw [Function.comp_apply, isFillText_text, Option.not_isSome]

/-- Lines that colour no node are all left. -/
theorem filter_isNone_eq_self {lines : List Line} (h : ∀ line ∈ lines, line.fill? = none) :
    (lines.filter fun line => line.fill?.isNone) = lines :=
  List.filter_eq_self.2 fun line hline => Option.isNone_iff_eq_none.2 (h line hline)

/-- Texts of lines with a line feed after each are one text. -/
theorem intercalate_text (lines : List Line) :
    "\n".intercalate (lines.map text ++ [""]) = textOf lines := by
  induction lines with
  | nil => rfl
  | cons line lines ih =>
    have hne : lines.map text ++ [""] ≠ [] := List.append_ne_nil_of_right_ne_nil _ (by simp)
    rw [List.map_cons, List.cons_append, String.intercalate_cons_of_ne_nil hne, ih, textOf]

end Line

/-! ## Drawings without colours -/

namespace Drawing

/-- A drawing without the lines that colour nodes. -/
def withoutFills (drawing : Drawing) : Drawing :=
  { drawing with lines := drawing.lines.filter fun line => line.fill?.isNone }

@[simp] theorem nextFrame_withoutFills (drawing : Drawing) :
    drawing.withoutFills.nextFrame = drawing.nextFrame := rfl

/-- A block loses the colours in it, if none is among the lines that open it. -/
theorem withoutFills_block {before : List Line} (hbefore : ∀ line ∈ before, line.fill? = none)
    (inside : Drawing) : (block before inside).withoutFills = block before inside.withoutFills := by
  rw [block, withoutFills, List.filter_append, List.filter_append,
    Line.filter_isNone_eq_self hbefore]
  rfl

end Drawing

namespace Chart

variable {options : ChartOptions} {fill : Node → List Line}

/-- The lines that follow the shape of a state colour no node. -/
theorem fill?_of_mem_linksOf {frame : Frame} {name : String} {state : State} :
    ∀ line ∈ linksOf options frame name state, line.fill? = none :=
  forall_mem_linksOf rfl fun _ _ => rfl

/-- **Without colours** a drawing is the one in which no node is coloured. -/
theorem withoutFillsCases (options : ChartOptions) (hfill : OnlyColors fill) :
    Definition.Cases
      (fun graph => ∀ number, (outlineGraph options fill number graph).withoutFills =
        outlineGraph options noFill number graph)
      (fun states => ∀ frame number, (outlineStates options fill frame number states).withoutFills =
        outlineStates options noFill frame number states)
      (fun state => ∀ frame number name,
        (outlineState options fill frame number name state).withoutFills =
          outlineState options noFill frame number name state)
      (fun branches => ∀ gap number, (∀ line ∈ gap, line.fill? = none) →
        (outlineBranches options fill gap number branches).withoutFills =
          outlineBranches options noFill gap number branches) where
  graph startAt states comment timeoutSeconds version hstates := by
    intro number
    -- the line of the start colours nothing, so it is left
    rw [outlineGraph, outlineGraph, ← hstates]
    rfl
  noStates := by
    intro frame number
    rw [outlineStates, outlineStates]
    rfl
  addState name state rest hstate hrest := by
    intro frame number
    have hcolors : ((fill (frame.node name)).filter fun line => line.fill?.isNone) = [] := by
      refine List.filter_eq_nil_iff.2 fun line hline => ?_
      obtain ⟨color, rfl⟩ := hfill _ line hline
      exact Bool.false_ne_true
    have hlinks : ((linksOf options frame name state).filter fun line => line.fill?.isNone) =
        linksOf options frame name state := Line.filter_isNone_eq_self fill?_of_mem_linksOf
    have hdeclaration : ([Line.declaration (frame.node name) (.of state)].filter
        fun line => line.fill?.isNone) = [.declaration (frame.node name) (.of state)] := rfl
    -- what comes after the state is drawn in the same frames, since colours open none
    rw [outlineStates, outlineStates, ← hstate, Drawing.nextFrame_withoutFills, ← hrest]
    simp only [Drawing.withoutFills, List.filter_append, hcolors, hlinks, hdeclaration]
    rfl
  plain state hparallel hmap := by
    intro frame number name
    cases state with
    | parallel => exact absurd rfl hparallel
    | map => exact absurd rfl hmap
    | choice choice =>
      rw [outlineState, outlineState, Drawing.withoutFills]
      simp [Line.fill?, List.filter_map, Function.comp_def]
    | task | pass | fail | succeed | wait =>
      rw [outlineState, outlineState]
      rfl
  parallel comment branches flow hbranches := by
    intro frame number name
    rw [outlineState, outlineState, ← hbranches _ _ (List.forall_mem_nil _)]
    exact Drawing.withoutFills_block (by simp [Line.fill?]) _
  map comment iterator itemsPath maxConcurrency flow hiterator := by
    intro frame number name
    rw [outlineState, outlineState, ← hiterator]
    exact Drawing.withoutFills_block (by simp [Line.fill?]) _
  noBranches := by
    intro gap number _
    rw [outlineBranches, outlineBranches]
    rfl
  addBranch branch rest hbranch hrest := by
    intro gap number hgap
    have hblank : ∀ line ∈ [Line.blank], line.fill? = none := by simp [Line.fill?]
    rw [outlineBranches, outlineBranches, ← hbranch, Drawing.nextFrame_withoutFills,
      ← hrest _ _ hblank]
    simp only [Drawing.withoutFills, List.filter_append, Line.filter_isNone_eq_self hgap]

/-! ## One colour for each node -/

/-- What a state is made of colours no node. -/
theorem filterMap_fill?_bodyLines (node : Node) (state : State) :
    (bodyLines options node state).filterMap Line.fill? = [] := by
  rw [List.filterMap_eq_nil_iff]
  exact forall_mem_bodyLines rfl (by simp [blockLines, Line.fill?]) fun _ _ _ _ => rfl

/-- The colours of a graph are those of the nodes of its states. -/
theorem filterMap_fill?_graphLines {color : Node → String}
    (hfill : ∀ node, fill node = [.fill node (color node)]) (frame : Frame) (graph : Definition) :
    (graphLines options fill frame graph).filterMap Line.fill? =
      (graphNodes frame graph).map fun (node, _) => (node, color node) := by
  have hstate : ∀ entry : String × State,
      (stateLines options fill frame entry).filterMap Line.fill? =
        [(frame.node entry.1, color (frame.node entry.1))] := by
    intro (name, state)
    have hlinks : (linksOf options frame name state).filterMap Line.fill? = [] :=
      List.filterMap_eq_nil_iff.2 fill?_of_mem_linksOf
    rw [stateLines, afterBody, hfill]
    simp only [List.filterMap_append, filterMap_fill?_bodyLines, hlinks]
    rfl
  have hstart : Line.fill? (.start (frame.node graph.startAt)) = none := rfl
  rw [graphLines, List.filterMap_cons_none hstart, List.filterMap_flatMap, graphNodes, nodesOf,
    List.map_map, funext hstate]
  exact List.map_eq_flatMap.symm

/-- The colour of every node, where the statuses are known. -/
def fillsOf (options : ChartOptions) (answer : String → Status) (node : Node) : List Line :=
  [.fill node (options.fills.color (answer node.name))]

/-- Answers colour nodes and draw nothing else. -/
theorem onlyColors_fillsOf (options : ChartOptions) (answer : String → Status) :
    OnlyColors (fillsOf options answer) := by
  intro node line hline
  exact ⟨_, List.mem_singleton.1 hline⟩

/-- **Every node is coloured once**, with the colour of its status. -/
theorem perm_fills (options : ChartOptions) (answer : String → Status) (definition : Definition) :
    ((outlineGraph options (fillsOf options answer) 0 definition).lines.filterMap Line.fill?).Perm
      ((inFrames graphNodes 0 definition.graphs).map fun (node, _) =>
        (node, options.fills.color (answer node.name))) := by
  have hlines := (census_outlineGraph options (fillsOf options answer) definition).lines.filterMap
    Line.fill?
  have hgraphs : (fun frame graph => (graphLines options (fillsOf options answer) frame
      graph).filterMap Line.fill?) = fun frame graph => (graphNodes frame graph).map
        fun (node, _) => (node, options.fills.color (answer node.name)) := by
    funext frame graph
    exact filterMap_fill?_graphLines (fun _ => rfl) frame graph
  rw [List.nil_append, filterMap_inFrames, hgraphs, ← map_inFrames] at hlines
  exact hlines

end Chart

/-! ## The text without colours -/

/-- A text without the lines in it that colour a node. -/
def withoutFillLines (text : String) : String :=
  "\n".intercalate ((linesOf text).filter fun line => !isFillText line)

namespace Chart

variable {definition : Definition} {options : ChartOptions} {answer : String → Status}
  {statuses : StatusSource}

/-- The source tells the statuses of all states of a definition. -/
def Answers (definition : Definition) (statuses : StatusSource) (answer : String → Status) : Prop :=
  ∀ graph ∈ definition.graphs, ∀ name ∈ graph.states.map Prod.fst,
    statuses name = .ok (answer name)

/-- There is a chart with every source that tells the statuses of all states. -/
theorem compile_of_answers (hvalid : definition.referencesValid = true)
    (hanswers : Answers definition statuses answer) (options : ChartOptions) :
    compile definition (some statuses) options =
      .ok (.ofDrawing options.direction
        (outlineGraph options (fillsOf options answer) 0 definition)) := by
  refine compile_of_fill hvalid fun name hname frame => ?_
  obtain ⟨graph, hgraph, hname⟩ := Definition.mem_drawOrder_iff.1 hname
  have hstatus : statuses (frame.node name).name = .ok (answer name) :=
    hanswers graph hgraph name hname
  rw [fillOf, hstatus]
  rfl

/-- **Colouring only adds fill lines, and the right ones.** Where the source tells the statuses of
all states, there is a chart with it and one without it. Their registries are the same. Without the
lines that colour a node, the text of the first is the text of the second, in which there are none;
and these lines are one for each registered node, with the colour of the status that the source
tells for the name of the state that the node stands for. -/
theorem coloring_of_compile (hdistinct : definition.NamesDistinct)
    (hnames : definition.NamesUnbroken) (hstyle : options.HasStyleValues)
    (hvalid : definition.referencesValid = true) (hanswers : Answers definition statuses answer) :
    ∃ colored plain, compile definition (some statuses) options = .ok colored
      ∧ compile definition none options = .ok plain
      ∧ colored.registry = plain.registry
      ∧ withoutFillLines colored.text = plain.text
      ∧ (∀ line ∈ linesOf plain.text, isFillText line = false)
      ∧ ∃ nodes : List (Node × State),
          colored.registry.states.Perm (nodes.map Registry.entry)
          ∧ (∀ node state, (node, state) ∈ nodes ↔ definition.Declares node state)
          ∧ ((linesOf colored.text).filter isFillText).Perm
              (nodes.map fun (node, _) =>
                fillText node.id (options.fills.color (answer node.name))) := by
  have hcolored := compile_of_answers hvalid hanswers options
  have hplain := compile_none hvalid options
  -- dropping the lines that colour nodes from the drawing gives the one without statuses
  have hwithout : (outlineGraph options (fillsOf options answer) 0 definition).withoutFills =
      outlineGraph options noFill 0 definition :=
    (withoutFillsCases options (onlyColors_fillsOf options answer)).graph_all definition 0
  rw [← hwithout] at hplain
  have hlines := linesOf_text hnames hstyle hcolored
  -- the text ends with a line feed, after which there is an empty line
  have hlast : isFillText "" = false := by decide
  refine ⟨_, _, hcolored, hplain, rfl, ?_, ?_, ?_⟩
  · rw [withoutFillLines, hlines, List.filter_append, Line.filter_not_isFillText]
    exact Line.intercalate_text _
  · rw [linesOf_text hnames hstyle hplain, List.forall_mem_append, List.forall_mem_map,
      List.forall_mem_singleton]
    refine ⟨?_, hlast⟩
    intro line hline
    rw [Line.isFillText_text, Option.isSome_eq_false_iff]
    rcases List.mem_cons.1 hline with rfl | hline
    · rfl
    · exact (List.mem_filter.1 hline).2
  · have hdeleted := (perm_fills options answer definition).map
      fun (node, color) => fillText node.id color
    refine ⟨_, perm_registry hdistinct hcolored, fun _ _ => mem_inFrames_graphNodes, ?_⟩
    have hnone : [""].filter isFillText = [] := by decide
    rw [hlines, List.filter_append, Line.filter_isFillText, hnone, List.append_nil]
    rw [List.map_map] at hdeleted
    exact hdeleted

/-- A source that knows the states of a definition and no others, and a colour of one's own. -/
theorem coloring_of_compile_shipping :
    let builder := (({} : OptionsBuilder).withFill .success "#9f9").withTooltips true
    let options : ChartOptions := { fills := { success := "#9f9" }, tooltips := true }
    let answer : String → Status := fun name =>
      if name = "Weigh" then .success else if name = "Pack" then .fail else .neverRun
    let statuses : StatusSource := fun name =>
      if name ∈ ["Route", "Express", "Parcels", "Done", "Pack", "Weigh"] then .ok (answer name)
      else .error (.unresolvedAncestor (.ofNat 1) .lambdaFailed)
    (shipping.NamesDistinct ∧ shipping.NamesUnbroken ∧ shipping.referencesValid = true
        ∧ builder.build = .ok options ∧ Answers shipping statuses answer)
      ∧ ∃ colored plain, compile shipping (some statuses) options = .ok colored
        ∧ compile shipping none options = .ok plain
        ∧ withoutFillLines colored.text = plain.text
        ∧ "style s3-Weigh fill:#9f9" ∈ linesOf colored.text
        ∧ "style s1-Pack fill:lightcoral" ∈ linesOf colored.text := by
  intro builder options answer statuses
  have hnames : shipping.NamesUnbroken := by decide
  have hvalid : shipping.referencesValid = true := by decide
  have hbuild : builder.build = .ok options := by decide
  have hanswers : Answers shipping statuses answer := by
    have hknown : ∀ graph ∈ shipping.graphs, ∀ name ∈ graph.states.map Prod.fst,
        name ∈ ["Route", "Express", "Parcels", "Done", "Pack", "Weigh"] := by decide
    intro graph hgraph name hname
    exact if_pos (hknown graph hgraph name hname)
  have hstyle := OptionsBuilder.hasStyleValues_of_build hbuild
  obtain ⟨colored, plain, hcolored, hplain, -, htext, -, nodes, -, hdeclares, hdeleted⟩ :=
    coloring_of_compile namesDistinct_shipping hnames hstyle hvalid hanswers
  -- each node that is declared is coloured on a line of its own
  have hline : ∀ node state, shipping.Declares node state →
      fillText node.id (options.fills.color (answer node.name)) ∈ linesOf colored.text := by
    intro node state hnode
    refine (List.mem_filter.1 (hdeleted.mem_iff.2 ?_)).1
    exact List.mem_map.2 ⟨(node, state), (hdeclares node state).2 hnode, rfl⟩
  refine ⟨⟨namesDistinct_shipping, hnames, hvalid, hbuild, hanswers⟩, colored, plain, hcolored,
    hplain, htext, ?_, ?_⟩
  · exact hline (Frame.node ⟨3⟩ "Weigh") _ ⟨_, rfl, List.mem_cons_self ..⟩
  · exact hline (Frame.node ⟨1⟩ "Pack") _ ⟨_, rfl, List.mem_cons_self ..⟩

end Chart

end WorkflowChart
