import WorkflowChart.Proofs.Chart.Directives

/-!
# Blocks

The blocks in the text of a chart are nested like the graphs in the states of the definition.

* **`Definition.enclosures`**: for each graph, the nodes of the states that it is nested in.
* **`readBlocks`**: which blocks are open after some lines of a text.
* **`Placed`**: lines that open and close blocks, each line about a node in its block.
* **`Chart.placedCases`**: the lines of drawings are placed.
* **`Chart.blocks_of_compile`**: blocks are balanced, and the lines about a node are in the blocks
  of the states that its graph is nested in.
-/

namespace WorkflowChart

/-! ## Enclosing states -/

mutual

/-- For each graph of a definition, the nodes of the Parallel and Map states around it from the
outermost one on. The definition is drawn in the frame of the given number and has `outer` around
it. -/
def Definition.enclosures (outer : List Node) (number : Nat) : Definition → List (List Node)
  | ⟨_, states, _, _, _⟩ =>
    outer :: Definition.enclosuresOfStates outer ⟨number⟩ (number + 1) states

/-- The nodes around the graphs in states, which are drawn in frames from `number` on. -/
def Definition.enclosuresOfStates (outer : List Node) (frame : Frame) (number : Nat) :
    List (String × State) → List (List Node)
  | [] => []
  | (name, state) :: rest =>
    state.enclosures (outer ++ [frame.node name]) number
      ++ Definition.enclosuresOfStates outer frame (number + state.graphs.length) rest

/-- The nodes around the graphs in a state, whose own node is the last one of `outer`. -/
def State.enclosures (outer : List Node) (number : Nat) : State → List (List Node)
  | .parallel _ branches _ => Definition.enclosuresOfBranches outer number branches
  | .map _ iterator _ _ _ => iterator.enclosures outer number
  | .task _ | .pass _ | .choice _ | .fail _ | .succeed _ | .wait _ => []

/-- The nodes around the graphs in branches. -/
def Definition.enclosuresOfBranches (outer : List Node) (number : Nat) :
    List Definition → List (List Node)
  | [] => []
  | branch :: rest =>
    branch.enclosures outer number
      ++ Definition.enclosuresOfBranches outer (number + branch.graphs.length) rest

end

/-- There are enclosures for all graphs. -/
theorem Definition.lengthEnclosuresCases :
    Definition.Cases
      (fun graph => ∀ outer number, (graph.enclosures outer number).length = graph.graphs.length)
      (fun states => ∀ outer frame number,
        (enclosuresOfStates outer frame number states).length = (graphsOfStates states).length)
      (fun state => ∀ outer number,
        (state.enclosures outer number).length = state.graphs.length)
      (fun branches => ∀ outer number,
        (enclosuresOfBranches outer number branches).length
          = (graphsOfBranches branches).length) where
  graph startAt states comment timeoutSeconds version hstates := by
    intro outer number
    rw [enclosures, graphs, List.length_cons, List.length_cons, hstates]
  noStates := by
    intro outer frame number
    rw [enclosuresOfStates, graphsOfStates]
    rfl
  addState name state rest hstate hrest := by
    intro outer frame number
    rw [enclosuresOfStates, graphsOfStates, List.length_append, List.length_append, hstate, hrest]
  plain state hparallel hmap := by
    intro outer number
    cases state with
    | parallel => exact absurd rfl hparallel
    | map => exact absurd rfl hmap
    | task | pass | choice | fail | succeed | wait =>
      rw [State.enclosures, State.graphs]
      rfl
  parallel comment branches flow hbranches := by
    intro outer number
    rw [State.enclosures, State.graphs, hbranches]
  map comment iterator itemsPath maxConcurrency flow hiterator := by
    intro outer number
    rw [State.enclosures, State.graphs, hiterator]
  noBranches := by
    intro outer number
    rw [enclosuresOfBranches, graphsOfBranches]
    rfl
  addBranch branch rest hbranch hrest := by
    intro outer number
    rw [enclosuresOfBranches, graphsOfBranches, List.length_append, List.length_append, hbranch,
      hrest]

/-! ## Reading blocks -/

/-- The ids of the blocks that are open after a line, from the outermost one on. There is no going
on after an end where no block is open. -/
def readBlock (stack : List String) (text : String) : Option (List String) :=
  match openedBlock? text with
  | some id => some (stack ++ [id])
  | none =>
    if text = "end" then
      if stack = [] then none else some stack.dropLast
    else some stack

/-- The ids of the blocks that are open after some lines. -/
def readBlocks (stack : List String) (lines : List String) : Option (List String) :=
  lines.foldlM readBlock stack

/-- Lines are read one after another. -/
theorem readBlocks_cons (stack : List String) (line : String) (lines : List String) :
    readBlocks stack (line :: lines) =
      (readBlock stack line).bind fun next => readBlocks next lines :=
  List.foldlM_cons

namespace Line

/-- The line that opens the block of a node is read so. -/
theorem readBlock_opening (stack : List String) (node : Node) :
    readBlock stack (opening node).text = some (stack ++ [node.id]) := by
  have hopened : openedBlock? (opening node).text = some node.id :=
    openedBlock?_eq_some_iff.2 ⟨node.isIdChar_of_mem_id, _, rfl⟩
  rw [readBlock, hopened]

/-- The line that closes a block is read so. -/
theorem readBlock_closing (stack : List String) (id : String) :
    readBlock (stack ++ [id]) closing.text = some stack := by
  have hopened : openedBlock? closing.text = none := by decide
  have hne : stack ++ [id] ≠ [] := List.concat_ne_nil _ _
  rw [readBlock, hopened]
  simp only [text, if_true, if_neg hne, List.dropLast_concat]

/-- After any other line the same blocks are open. -/
theorem readBlock_of_lead_ne {line : Line} (hopening : line.lead ≠ .inl "subgraph")
    (hclosing : line.lead ≠ .inl "end") (stack : List String) :
    readBlock stack line.text = some stack := by
  have hopened : openedBlock? line.text = none := by
    rw [Option.eq_none_iff_forall_ne_some]
    intro id hid
    obtain ⟨hid, label, htext⟩ := openedBlock?_eq_some_iff.1 hid
    obtain ⟨node, rfl, -⟩ := opening_of_text_eq hid htext
    exact hopening rfl
  have hend : line.text ≠ "end" := by
    intro htext
    obtain rfl := closing_of_text_eq htext
    exact hclosing rfl
  rw [readBlock, hopened]
  exact if_neg hend

end Line

/-! ## Lines in their blocks -/

variable {around : Frame → List Node}

/-- A line that leaves the blocks open that are open, and is about a node that is to be drawn in
these blocks, if it is about a node. -/
def Line.LiesIn (around : Frame → List Node) (stack : List Node) (line : Line) : Prop :=
  line.lead ≠ .inl "subgraph" ∧ line.lead ≠ .inl "end" ∧
    ∀ node, line.lead = .inr node → around node.frame = stack

/-- Lines after which the blocks of `last` are open where those of `stack` were open before. Each
line about a node is in the blocks that are around its frame. -/
inductive Placed (around : Frame → List Node) : List Node → List Line → List Node → Prop where
  | nil (stack : List Node) : Placed around stack [] stack
  | opening {stack last : List Node} {lines : List Line} (node : Node)
    (h : Placed around (stack ++ [node]) lines last) :
    Placed around stack (.opening node :: lines) last
  | closing {stack last : List Node} {lines : List Line} (node : Node)
    (h : Placed around stack lines last) :
    Placed around (stack ++ [node]) (.closing :: lines) last
  | inside {stack last : List Node} {line : Line} {lines : List Line}
    (hline : line.LiesIn around stack) (h : Placed around stack lines last) :
    Placed around stack (line :: lines) last

namespace Placed

variable {stack middle last : List Node} {lines others : List Line}

/-- Lines after other lines start where these end. -/
theorem append (h : Placed around stack lines middle) (hothers : Placed around middle others last) :
    Placed around stack (lines ++ others) last := by
  induction h with
  | nil => exact hothers
  | opening node _ ih => exact .opening node (ih hothers)
  | closing node _ ih => exact .closing node (ih hothers)
  | inside hline _ ih => exact .inside hline (ih hothers)

/-- Lines can be cut in two. -/
theorem exists_of_append (h : Placed around stack (lines ++ others) last) :
    ∃ middle, Placed around stack lines middle ∧ Placed around middle others last := by
  induction lines generalizing stack with
  | nil => exact ⟨stack, .nil stack, h⟩
  | cons line lines ih =>
    rw [List.cons_append] at h
    cases h with
    | opening node h =>
      obtain ⟨middle, hlines, hothers⟩ := ih h
      exact ⟨middle, .opening node hlines, hothers⟩
    | closing node h =>
      obtain ⟨middle, hlines, hothers⟩ := ih h
      exact ⟨middle, .closing node hlines, hothers⟩
    | inside hline h =>
      obtain ⟨middle, hlines, hothers⟩ := ih h
      exact ⟨middle, .inside hline hlines, hothers⟩

/-- Lines that open and close no block. -/
theorem of_forall (h : ∀ line ∈ lines, line.LiesIn around stack) :
    Placed around stack lines stack := by
  induction lines with
  | nil => exact .nil stack
  | cons line lines ih =>
    rw [List.forall_mem_cons] at h
    exact .inside h.1 (ih h.2)

/-- A block has its lines in itself. -/
theorem block {node : Node} (h : Placed around (stack ++ [node]) lines (stack ++ [node]))
    {before : List Line} (hbefore : ∀ line ∈ before, line.LiesIn around (stack ++ [node])) :
    Placed around stack (.opening node :: before ++ lines ++ [.closing]) stack := by
  have hinside : Placed around (stack ++ [node]) (before ++ lines ++ [.closing]) stack :=
    ((of_forall hbefore).append h).append (.closing node (.nil stack))
  exact .opening node hinside

/-- **The blocks that are open** after lines can be read from their texts. -/
theorem readBlocks_eq (h : Placed around stack lines last) :
    readBlocks (stack.map Node.id) (lines.map Line.text) = some (last.map Node.id) := by
  induction h with
  | nil => rfl
  | opening node _ ih =>
    rw [List.map_append] at ih
    rw [List.map_cons, readBlocks_cons, Line.readBlock_opening]
    exact ih
  | closing node _ ih =>
    rw [List.map_append, List.map_singleton, List.map_cons, readBlocks_cons, Line.readBlock_closing]
    exact ih
  | inside hline _ ih =>
    rw [List.map_cons, readBlocks_cons, Line.readBlock_of_lead_ne hline.1 hline.2.1]
    exact ih

/-- A line about a node comes where the blocks around its frame are open. -/
theorem around_eq_of_lead {line : Line} {node : Node}
    (h : Placed around stack (line :: lines) last) (hlead : line.lead = .inr node) :
    around node.frame = stack := by
  cases h with
  | opening => contradiction
  | closing => contradiction
  | inside hline => exact hline.2.2 node hlead

end Placed

/-- The frames from `number` on have these blocks around them. -/
def Surround (around : Frame → List Node) (number : Nat) (blocks : List (List Node)) : Prop :=
  ∀ i stack, blocks[i]? = some stack → around ⟨number + i⟩ = stack

/-- A frame has the first stack around it, and the frames after it have the others. -/
theorem surround_cons {number : Nat} {stack : List Node} {blocks : List (List Node)} :
    Surround around number (stack :: blocks) ↔
      around ⟨number⟩ = stack ∧ Surround around (number + 1) blocks := by
  constructor
  · intro h
    refine ⟨h 0 stack rfl, ?_⟩
    intro i inner hinner
    rw [Nat.add_assoc, Nat.add_comm 1 i]
    exact h (i + 1) inner hinner
  · rintro ⟨hstack, h⟩ (_ | i) inner hinner
    · cases hinner
      exact hstack
    · have := h i inner hinner
      rwa [Nat.add_assoc, Nat.add_comm 1 i] at this

/-- The frames after those of some stacks have the stacks that follow. -/
theorem surround_append {number : Nat} {blocks others : List (List Node)} :
    Surround around number (blocks ++ others) ↔
      Surround around number blocks ∧ Surround around (number + blocks.length) others := by
  induction blocks generalizing number with
  | nil => simp [Surround]
  | cons stack blocks ih =>
    rw [List.cons_append, surround_cons, surround_cons, ih, List.length_cons, and_assoc,
      Nat.add_assoc, Nat.add_comm 1]

namespace Chart

variable {options : ChartOptions} {fill : Node → List Line}

/-- The lines after what a state is made of are in the blocks around its frame. -/
theorem liesIn_of_mem_afterBody (hfill : OnlyColors fill) {frame : Frame} {name : String}
    {state : State} {stack : List Node} (hframe : around frame = stack) :
    ∀ line ∈ afterBody options fill frame name state, line.LiesIn around stack := by
  have hnode : around (frame.node name).frame = stack := hframe
  apply forall_mem_afterBody
  case hfill =>
    intro line hline
    obtain ⟨color, rfl⟩ := hfill _ line hline
    simp [Line.LiesIn, Line.lead]
  all_goals simp [Line.LiesIn, Line.lead, hnode]

/-- **Drawings are placed**: all blocks that they open are closed, and the lines about a node are in
the blocks around its frame. -/
theorem placedCases (options : ChartOptions) (hfill : OnlyColors fill) :
    Definition.Cases
      (fun graph => ∀ outer number, Surround around number (graph.enclosures outer number) →
        Placed around outer (outlineGraph options fill number graph).lines outer)
      (fun states => ∀ outer frame number, around frame = outer →
        Surround around number (Definition.enclosuresOfStates outer frame number states) →
        Placed around outer (outlineStates options fill frame number states).lines outer)
      (fun state => ∀ outer frame number name, around frame = outer →
        Surround around number (state.enclosures (outer ++ [frame.node name]) number) →
        Placed around outer (outlineState options fill frame number name state).lines outer)
      (fun branches => ∀ outer gap number, (∀ line ∈ gap, line.LiesIn around outer) →
        Surround around number (Definition.enclosuresOfBranches outer number branches) →
        Placed around outer (outlineBranches options fill gap number branches).lines outer) where
  graph startAt states comment timeoutSeconds version hstates := by
    intro outer number hsurround
    rw [Definition.enclosures, surround_cons] at hsurround
    obtain ⟨hframe, hinner⟩ := hsurround
    have hstart : (Line.start (Frame.node ⟨number⟩ startAt)).LiesIn around outer := by
      have hnode : around (Frame.node ⟨number⟩ startAt).frame = outer := hframe
      simp [Line.LiesIn, Line.lead, hnode]
    rw [outlineGraph]
    exact .inside hstart (hstates outer ⟨number⟩ (number + 1) hframe hinner)
  noStates := by
    intro outer frame number _ _
    rw [outlineStates]
    exact .nil outer
  addState name state rest hstate hrest := by
    intro outer frame number hframe hsurround
    rw [Definition.enclosuresOfStates, surround_append,
      Definition.lengthEnclosuresCases.state_all] at hsurround
    have hbody := hstate outer frame number name hframe hsurround.1
    have hafter : Placed around outer (afterBody options fill frame name state) outer :=
      .of_forall (liesIn_of_mem_afterBody hfill hframe)
    -- the rest is drawn in the frames after those of the graphs in the state
    have hothers := hrest outer frame _ hframe hsurround.2
    rw [outlineStates, nextFrame_outlineState]
    have hall := (hbody.append hafter).append hothers
    simpa [afterBody] using hall
  plain state hparallel hmap := by
    intro outer frame number name hframe _
    have hnode : around (frame.node name).frame = outer := hframe
    apply Placed.of_forall
    cases state with
    | parallel => exact absurd rfl hparallel
    | map => exact absurd rfl hmap
    | task | pass | choice | fail | succeed | wait =>
      rw [outlineState]
      simp [Line.LiesIn, Line.lead, hnode]
  parallel comment branches flow hbranches := by
    intro outer frame number name hframe hsurround
    -- the branches are drawn with the node of the state as the innermost block
    rw [State.enclosures] at hsurround
    rw [outlineState]
    exact (hbranches _ [] number (List.forall_mem_nil _) hsurround).block
      (by simp [Line.LiesIn, Line.lead])
  map comment iterator itemsPath maxConcurrency flow hiterator := by
    intro outer frame number name hframe hsurround
    rw [State.enclosures] at hsurround
    rw [outlineState]
    exact (hiterator _ number hsurround).block (by simp [Line.LiesIn, Line.lead])
  noBranches := by
    intro outer gap number _ _
    rw [outlineBranches]
    exact .nil outer
  addBranch branch rest hbranch hrest := by
    intro outer gap number hgap hsurround
    rw [Definition.enclosuresOfBranches, surround_append,
      Definition.lengthEnclosuresCases.graph_all] at hsurround
    have hblank : ∀ line ∈ [Line.blank], line.LiesIn around outer := by
      simp [Line.LiesIn, Line.lead]
    rw [outlineBranches, nextFrame_outlineGraph]
    exact ((Placed.of_forall hgap).append (hbranch outer number hsurround.1)).append
      (hrest outer [.blank] _ hblank hsurround.2)

/-! ## Blocks of a text -/

/-- A text is about the node of an id: it consists of the id, it declares the node, or it draws an
edge from it. -/
inductive IsAbout (id : String) : String → Prop where
  | start : IsAbout id id
  | declaration (shape : Shape) (label : String) :
    IsAbout id (id ++ shape.opening ++ "\"" ++ label ++ "\"" ++ shape.closing)
  | edge (target : String) : IsAbout id (edgeText id target)

/-- Only a line about a node has a text about the node. -/
theorem lead_of_isAbout {line : Line} {node : Node} (h : IsAbout node.id line.text) :
    line.lead = .inr node := by
  generalize htext : line.text = text at h
  cases h with
  | start =>
    have hchars : line.text.toList = node.id.toList ++ [] := by rw [htext, List.append_nil]
    exact Line.lead_eq_inr_of_text_eq (by simp) hchars
  | declaration shape label =>
    obtain ⟨c, rest, hopening, hc, -⟩ := shape.exists_opening_eq_cons
    have hchars : line.text.toList = node.id.toList ++
        (c :: rest ++ '"' :: (label.toList ++ '"' :: shape.closing.toList)) := by
      rw [htext, ← hopening]
      simp
    exact Line.lead_eq_inr_of_text_eq (by simpa using hc) hchars
  | edge target =>
    have hchars := congrArg String.toList htext
    rw [toList_edgeText] at hchars
    have hspace : Node.isIdChar ' ' = false := by decide
    exact Line.lead_eq_inr_of_text_eq (by simpa using hspace) hchars

variable {definition : Definition} {statuses? : Option StatusSource} {chart : Flowchart}

/-- The lines of a chart are placed, and so is the empty line after the last line feed. -/
theorem placed_of_compile (h : compile definition statuses? options = .ok chart)
    (hsurround : Surround around 0 (definition.enclosures [] 0)) :
    Placed around [] (chart.lines ++ [Line.blank]) [] := by
  obtain ⟨-, rfl⟩ := outline_of_compile h
  have hdrawing := (placedCases options (onlyColors_fillLines options statuses?)).graph_all
    definition [] 0 hsurround
  have hheader : (Line.header options.direction).LiesIn around [] := by
    simp [Line.LiesIn, Line.lead]
  have hblank : Line.blank.LiesIn around [] := by simp [Line.LiesIn, Line.lead]
  exact .inside hheader (hdrawing.append (.inside hblank (.nil [])))

/-- **Blocks are balanced and mirror the nesting.** Where no name has a line feed, reading the text
line by line never comes to an end that no block has, and in the end no block is open. At every line
that consists of, declares, or draws an edge from a node, the open blocks are the nodes of the
states that the graph of the node is nested in. -/
theorem blocks_of_compile (hnames : definition.NamesUnbroken) (hstyle : options.HasStyleValues)
    (h : compile definition statuses? options = .ok chart) :
    readBlocks [] (linesOf chart.text) = some []
      ∧ ∀ frame graph, definition.graphs[frame.number]? = some graph →
          ∃ around, (definition.enclosures [] 0)[frame.number]? = some around
            ∧ ∀ name before line after, linesOf chart.text = before ++ line :: after →
                IsAbout (Frame.node frame name).id line →
                readBlocks [] before = some (around.map Node.id) := by
  let around : Frame → List Node := fun frame =>
    ((definition.enclosures [] 0)[frame.number]?).getD []
  have hsurround : Surround around 0 (definition.enclosures [] 0) := by
    intro i stack hstack
    show ((definition.enclosures [] 0)[0 + i]?).getD [] = stack
    rw [Nat.zero_add, hstack]
    rfl
  have hplaced := placed_of_compile h hsurround
  have hlines : linesOf chart.text = (chart.lines ++ [Line.blank]).map Line.text := by
    rw [linesOf_text hnames hstyle h, List.map_append]
    rfl
  refine ⟨hlines ▸ hplaced.readBlocks_eq, ?_⟩
  intro frame graph hgraph
  have hlength := Definition.lengthEnclosuresCases.graph_all definition [] 0
  have hlt : frame.number < (definition.enclosures [] 0).length := by
    rw [hlength]
    exact (List.getElem?_eq_some_iff.1 hgraph).1
  refine ⟨around frame, ?_, ?_⟩
  · show _ = some (((definition.enclosures [] 0)[frame.number]?).getD [])
    rw [List.getElem?_eq_getElem hlt]
    rfl
  · intro name before text after hsplit habout
    rw [hlines] at hsplit
    obtain ⟨lines, rest, hall, rfl, hrest⟩ := List.map_eq_append_iff.1 hsplit
    obtain ⟨line, others, rfl, rfl, rfl⟩ := List.map_eq_cons_iff.1 hrest
    rw [hall] at hplaced
    -- the line is about the node, so the blocks before it are those around the frame of the node
    obtain ⟨middle, hbefore, hafter⟩ := hplaced.exists_of_append
    have hmiddle : around frame = middle := hafter.around_eq_of_lead (lead_of_isAbout habout)
    rw [hmiddle]
    exact hbefore.readBlocks_eq

/-- An edge in a branch is in the block of the Parallel state, and the shape of that state is
outside. -/
theorem blocks_of_compile_shipping :
    (shipping.NamesUnbroken ∧ ({} : ChartOptions).HasStyleValues) ∧ ∃ chart,
      compile shipping (some fun _ => .ok .neverRun) {} = .ok chart
        ∧ readBlocks [] (linesOf chart.text) = some []
        ∧ (∃ before after, linesOf chart.text = before ++ "s2-Weigh --> s2-Pack" :: after
            ∧ readBlocks [] before = some ["s0-Express"])
        ∧ ∃ before after, linesOf chart.text = before ++ "s0-Express[\"Express\"]" :: after
            ∧ readBlocks [] before = some [] := by
  have hnames : shipping.NamesUnbroken := by decide
  have hstyle := ChartOptions.hasStyleValues_default
  let drawing := outlineGraph {} (fun node => [.fill node "gainsboro"]) 0 shipping
  have hchart : compile shipping (some fun _ => .ok .neverRun) {} =
      .ok (.ofDrawing .topToBottom drawing) := compile_shipping {}
  obtain ⟨hbalanced, hblocks⟩ := blocks_of_compile hnames hstyle hchart
  have hmem : ∀ line ∈ drawing.lines,
      line.text ∈ linesOf (Flowchart.ofDrawing .topToBottom drawing).text := by
    intro line hline
    rw [linesOf_text hnames hstyle hchart]
    exact List.mem_append_left _ (List.mem_map_of_mem (List.mem_cons_of_mem _ hline))
  refine ⟨⟨hnames, hstyle⟩, _, hchart, hbalanced, ?_, ?_⟩
  · obtain ⟨around, haround, hopen⟩ := hblocks ⟨2⟩ _ rfl
    obtain rfl : [Frame.node ⟨0⟩ "Express"] = around := Option.some.inj haround
    obtain ⟨before, after, hsplit⟩ := List.append_of_mem
      (hmem (.edge (Frame.node ⟨2⟩ "Weigh") (Frame.node ⟨2⟩ "Pack")) (by decide))
    exact ⟨before, after, hsplit, hopen "Weigh" before _ after hsplit (.edge _)⟩
  · obtain ⟨around, haround, hopen⟩ := hblocks ⟨0⟩ _ rfl
    obtain rfl : [] = around := Option.some.inj haround
    obtain ⟨before, after, hsplit⟩ := List.append_of_mem
      (hmem (.declaration (Frame.node ⟨0⟩ "Express") .rectangle) (by decide))
    exact ⟨before, after, hsplit, hopen "Express" before _ after hsplit
      (.declaration .rectangle "Express")⟩

end Chart

end WorkflowChart
