import WorkflowChart.Proofs.Chart.Census
import WorkflowChart.Proofs.Chart.ControlFlow

/-!
# The text of a chart, line by line

Where no state has a line feed in its name, what stands between two line feeds of the text is one
line of the chart.

* **`linesOf`**: what stands between the line feeds of a text.
* **`Line.filter_map_text`**: lines of one kind can be told by their texts.
* **`Line.feed_not_mem_text`**: a line has a line feed in its colour or its label, or has none.
* **`Chart.declares_of_labelled?`**: the labels in a chart are names of states.
* **`Chart.linesOf_text`**: the lines of the text of a chart are the texts of its lines.
-/

namespace WorkflowChart

/-! ## Line feeds -/

/-- The lines of a text: what stands before, between and after its line feeds. -/
def linesOf (text : String) : List String :=
  (text.toList.splitOn '\n').map String.ofList

/-- A text is cut into lines at any of its line feeds. -/
theorem linesOf_feed (text rest : String) :
    linesOf (text ++ "\n" ++ rest) = linesOf text ++ linesOf rest := by
  have hchars : (text ++ "\n" ++ rest).toList = text.toList ++ '\n' :: rest.toList := by simp
  rw [linesOf, hchars, List.splitOn_append_cons_self, List.map_append, linesOf, linesOf]

/-- A text without a line feed is one line. -/
theorem linesOf_of_not_mem {text : String} (h : '\n' ∉ text.toList) : linesOf text = [text] := by
  rw [linesOf, List.splitOn_eq_singleton h, List.map_singleton, String.ofList_toList]

/-- What stands before the first line feed of a text is a line of it. -/
theorem mem_linesOf_of_feed {text : String} {first rest : List Char} (hfirst : '\n' ∉ first)
    (htext : text.toList = first ++ '\n' :: rest) : String.ofList first ∈ linesOf text := by
  rw [linesOf, htext, List.splitOn_append_cons_self_of_not_mem hfirst, List.map_cons]
  exact List.mem_cons_self ..

namespace Line

/-- The lines of a text of lines, if each of them is one. Nothing stands after the last line feed.
-/
theorem linesOf_textOf {lines : List Line} (h : ∀ line ∈ lines, '\n' ∉ line.text.toList) :
    linesOf (textOf lines) = lines.map text ++ [""] := by
  induction lines with
  | nil => decide
  | cons line lines ih =>
    rw [List.forall_mem_cons] at h
    rw [textOf, linesOf_feed, linesOf_of_not_mem h.1, ih h.2]
    rfl

/-- The lines of the text of each line are lines of the whole text. -/
theorem mem_linesOf_textOf {line : Line} {lines : List Line} {text : String}
    (hline : line ∈ lines) (htext : text ∈ linesOf line.text) : text ∈ linesOf (textOf lines) := by
  induction lines with
  | nil => exact absurd hline List.not_mem_nil
  | cons other lines ih =>
    rw [textOf, linesOf_feed]
    rcases List.mem_cons.1 hline with rfl | hline
    · exact List.mem_append_left _ htext
    · exact List.mem_append_right _ (ih hline)

/-- **Lines of one kind** can be told by their texts, if a text of the kind is that of no other
line: `read?` tells what such a line is about, and `write` gives its text. -/
theorem filter_map_text {α : Type} {isText : String → Bool} {read? : Line → Option α}
    {write : α → String} (hread : ∀ line, isText line.text = (read? line).isSome)
    (hwrite : ∀ line a, read? line = some a → line.text = write a) (lines : List Line) :
    (lines.map text).filter isText = (lines.filterMap read?).map write := by
  induction lines with
  | nil => rfl
  | cons line lines ih =>
    have htext := hread line
    cases hline : read? line with
    | none =>
      rw [hline, Option.isSome_none] at htext
      rw [List.map_cons, List.filter_cons_of_neg (Bool.eq_false_iff.1 htext), ih,
        List.filterMap_cons_none hline]
    | some a =>
      rw [hline, Option.isSome_some] at htext
      rw [List.map_cons, List.filter_cons_of_pos htext, ih, List.filterMap_cons_some hline,
        List.map_cons, hwrite line a hline]

/-- The node whose name stands in a line as a label. -/
def labelled? : Line → Option Node
  | declaration node _ | opening node | click node => some node
  | header _ | start _ | layout _ | closing | dashed _ | fill _ _ | edge _ _ | blank => none

end Line

/-! ## Where line feeds come from -/

/-- An id has no line feed in it. -/
theorem Node.feed_not_mem_id (node : Node) : '\n' ∉ node.id.toList := by
  intro hmem
  exact absurd (node.isIdChar_of_mem_id _ hmem) (by decide)

/-- The brackets of a shape have no line feed in them. -/
theorem Shape.feed_not_mem (shape : Shape) :
    '\n' ∉ shape.opening.toList ∧ '\n' ∉ shape.closing.toList := by
  cases shape <;> decide

/-- The only line feeds in a label are those of the name. -/
theorem feed_not_mem_flatMap_labelChar {chars : List Char} (h : '\n' ∉ chars) :
    '\n' ∉ chars.flatMap labelChar := by
  intro hmem
  obtain ⟨c, hc, hfeed⟩ := List.mem_flatMap.1 hmem
  by_cases hquote : c = '"'
  · rw [labelChar, if_pos hquote] at hfeed
    exact absurd hfeed (by decide)
  · rw [labelChar, if_neg hquote, List.mem_singleton] at hfeed
    exact h (hfeed ▸ hc)

/-- A label has a line feed in it only where the name has one. -/
theorem feed_not_mem_label {name : String} (h : '\n' ∉ name.toList) :
    '\n' ∉ (label name).toList := by
  simpa [label] using feed_not_mem_flatMap_labelChar h

namespace Line

/-- A line has no line feed, if there is none in its colour and in its label. -/
theorem feed_not_mem_text {line : Line} (hcolor : line.Delimited)
    (hlabel : ∀ node ∈ line.labelled?, '\n' ∉ node.name.toList) : '\n' ∉ line.text.toList := by
  have hletters : ∀ direction : Direction, '\n' ∉ direction.letters.toList := by
    intro direction
    cases direction <;> decide
  have hlead : '\n' ∉ line.leadChars := by
    intro hmem
    exact absurd (line.isIdChar_of_mem_leadChars _ hmem) (by decide)
  -- what follows the beginning is made of ids, brackets, labels and the colour
  have hafter : '\n' ∉ line.afterLead := by
    cases line with
    | header direction | layout direction => simp [afterLead, hletters]
    | start | closing | blank => exact List.not_mem_nil
    | declaration node shape =>
      simp [afterLead, shape.feed_not_mem, feed_not_mem_label (hlabel node rfl)]
    | opening node | click node =>
      simp [afterLead, node.feed_not_mem_id, feed_not_mem_label (hlabel node rfl)]
    | dashed node | edge _ node => simp [afterLead, node.feed_not_mem_id]
    | fill node color =>
      have hplain : '\n' ∉ color.toList := hcolor
      simp [afterLead, node.feed_not_mem_id, hplain]
  rw [toList_text, List.mem_append]
  rintro (hmem | hmem)
  · exact hlead hmem
  · exact hafter hmem

end Line

/-! ## Labels of a drawing -/

namespace Chart

/-- The lines that `fill` gives colour nodes. -/
def OnlyColors (fill : Node → List Line) : Prop :=
  ∀ node, ∀ line ∈ fill node, ∃ color, line = .fill node color

/-- The lines for the status of a node colour it and draw nothing else. -/
theorem onlyColors_fillLines (options : ChartOptions) (statuses? : Option StatusSource) :
    OnlyColors (fillLines options statuses?) := by
  intro node line hline
  obtain ⟨status, rfl⟩ := mem_fillLines hline
  exact ⟨_, rfl⟩

variable {options : ChartOptions} {fill : Node → List Line}

/-- The labels of the lines of a state are its own. -/
theorem labelled?_of_mem_stateLines (hfill : OnlyColors fill) {frame : Frame}
    {entry : String × State} :
    ∀ line ∈ stateLines options fill frame entry,
      ∀ node ∈ line.labelled?, node = frame.node entry.1 := by
  apply forall_mem_stateLines
  case hfill =>
    intro line hline
    obtain ⟨color, rfl⟩ := hfill _ line hline
    simp [Line.labelled?]
  all_goals simp [blockLines, Line.labelled?]

variable {definition : Definition} {statuses? : Option StatusSource} {chart : Flowchart}

/-- The labels in a chart are names of states, each in a line for the node of the state. -/
theorem declares_of_labelled? (h : compile definition statuses? options = .ok chart) :
    ∀ line ∈ chart.lines, ∀ node ∈ line.labelled?, ∃ state, definition.Declares node state := by
  obtain ⟨drawing, rfl, hcensus⟩ := census_of_compile h
  refine List.forall_mem_cons.2 ⟨nofun, ?_⟩
  intro line hline node hnode
  obtain ⟨frame, graph, hgraph, hmem⟩ := mem_inFrames_zero.1 (hcensus.lines.mem_iff.1 hline)
  rcases List.mem_cons.1 hmem with rfl | hmem
  · -- the line of the start has no label
    contradiction
  · obtain ⟨⟨name, state⟩, hstate, hmem⟩ := List.mem_flatMap.1 hmem
    have hfill := onlyColors_fillLines options statuses?
    obtain rfl := labelled?_of_mem_stateLines hfill line hmem node hnode
    exact ⟨state, graph, hgraph, hstate⟩

/-- A colour that survives in a style line has no line feed. -/
theorem feed_not_mem_color {color : String} (h : isStyleValue color = true) :
    '\n' ∉ color.toList := by
  intro hmem
  simp only [isStyleValue, decide_eq_true_eq, List.all_eq_true] at h
  exact absurd (h.2 _ hmem) (by decide)

/-- Every line of a chart ends at its line feed, if every fill survives in a style line. -/
theorem delimited_of_compile (hstyle : options.HasStyleValues)
    (h : compile definition statuses? options = .ok chart) :
    ∀ line ∈ chart.lines, line.Delimited := by
  obtain ⟨-, rfl⟩ := outline_of_compile h
  refine List.forall_mem_cons.2 ⟨trivial, (delimitedCases ?_).graph_all definition 0⟩
  intro node line hline
  obtain ⟨status, rfl⟩ := mem_fillLines hline
  exact feed_not_mem_color (hstyle status)

end Chart

/-! ## The text of a chart -/

/-- No name of a state has a line feed, at any depth. -/
def Definition.NamesUnbroken (definition : Definition) : Prop :=
  ∀ graph ∈ definition.graphs, ∀ name ∈ graph.states.map Prod.fst, '\n' ∉ name.toList

instance (definition : Definition) : Decidable definition.NamesUnbroken :=
  inferInstanceAs (Decidable (∀ graph ∈ definition.graphs, _))

/-- **The lines of the text of a chart** are the texts of its lines, and an empty one after the last
line feed. -/
theorem Chart.linesOf_text {definition : Definition} {statuses? : Option StatusSource}
    {options : ChartOptions} {chart : Flowchart} (hnames : definition.NamesUnbroken)
    (hstyle : options.HasStyleValues) (h : compile definition statuses? options = .ok chart) :
    linesOf chart.text = chart.lines.map Line.text ++ [""] := by
  refine Line.linesOf_textOf fun line hline => ?_
  refine Line.feed_not_mem_text (delimited_of_compile hstyle h line hline) ?_
  intro node hnode
  obtain ⟨state, graph, hgraph, hstate⟩ := declares_of_labelled? h line hline node hnode
  exact hnames graph (List.mem_of_getElem? hgraph) _ (List.mem_map_of_mem hstate)

end WorkflowChart
