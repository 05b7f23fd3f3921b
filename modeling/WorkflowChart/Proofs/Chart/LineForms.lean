import WorkflowChart.Proofs.Chart.Directives

/-!
# The forms of lines

Every line in the text of a chart is of one of a few forms, as long as no name of a state has a line
feed. A name that has one breaks the line in which the shape of its state is declared.

* **`LineForm`**: the forms, where ids are registered and labels have no quote in them.
* **`LineForm.of_id_append`**: only a declaration goes on after an id with neither a space nor a
  character of ids.
* **`Chart.lineForm_of_mem_lines`**: the lines of a chart are of these forms.
* **`Chart.exists_not_lineForm`**: a name with a line feed leaves a line of no form.
* **`Chart.lineForm_iff_namesUnbroken`**: every line is of one of the forms just where no name has
  a line feed.
-/

namespace WorkflowChart

/-! ## The forms -/

/-- The forms that a line of a text can have. The ids in it are registered, and what stands between
quotes has no quote. -/
inductive LineForm (isRegistered : String → Prop) (options : ChartOptions) : String → Prop where
  | header : LineForm isRegistered options ("flowchart " ++ options.direction.letters)
  | blank : LineForm isRegistered options ""
  | start {id : String} (hid : isRegistered id) : LineForm isRegistered options id
  | declaration {id label : String} (shape : Shape) (hid : isRegistered id)
    (hlabel : '"' ∉ label.toList) :
    LineForm isRegistered options
      (id ++ shape.opening ++ "\"" ++ label ++ "\"" ++ shape.closing)
  | opening {id label : String} (hid : isRegistered id) (hlabel : '"' ∉ label.toList) :
    LineForm isRegistered options ("subgraph " ++ id ++ " [\"" ++ label ++ "\"]")
  | layout : LineForm isRegistered options ("direction " ++ options.direction.letters)
  | closing : LineForm isRegistered options "end"
  | dashed {id : String} (hid : isRegistered id) :
    LineForm isRegistered options ("style " ++ id ++ " stroke-dasharray: 5 5")
  | fill {id : String} (status : Status) (hid : isRegistered id) :
    LineForm isRegistered options (fillText id (options.fills.color status))
  | click {id label : String} (hid : isRegistered id) (hlabel : '"' ∉ label.toList) :
    LineForm isRegistered options ("click " ++ id ++ " callback \"" ++ label ++ "\"")
  | edge {source target : String} (hsource : isRegistered source) (htarget : isRegistered target) :
    LineForm isRegistered options (edgeText source target)

section

variable {isRegistered : String → Prop} {options : ChartOptions}

/-- **Only a declaration** goes on after an id with neither a space nor a character of ids. -/
theorem LineForm.of_id_append {text id : String} {c : Char} {rest : List Char}
    (h : LineForm isRegistered options text) (hids : ∀ id, isRegistered id → IsIdText id)
    (hid : IsIdText id) (hc : Node.isIdChar c = false) (hspace : c ≠ ' ')
    (htext : text.toList = id.toList ++ c :: rest) :
    ∃ (shape : Shape) (label : String), '"' ∉ label.toList ∧
      c :: rest = shape.opening.toList ++ '"' :: (label.toList ++ '"' :: shape.closing.toList) := by
  -- every other form has a space after its first word, or has no other characters than a word
  have hspaced : ∀ word : String, IsIdText word → ¬ word.toList ++ [' '] <+: text.toList := by
    rintro word hword ⟨after, hafter⟩
    rw [List.append_assoc, List.singleton_append, htext] at hafter
    obtain ⟨-, hchar, -⟩ := split_unique hword hid (by decide) hc hafter
    exact hspace hchar.symm
  have hword : ¬ IsIdText text := by
    intro hword
    have hmem : c ∈ text.toList := by
      rw [htext]
      exact List.mem_append_right _ (List.mem_cons_self ..)
    exact absurd (hword c hmem) (Bool.eq_false_iff.1 hc)
  cases h with
  | header => exact absurd (by simp) (hspaced "flowchart" (by decide))
  | opening => exact absurd (by simp) (hspaced "subgraph" (by decide))
  | layout => exact absurd (by simp) (hspaced "direction" (by decide))
  | dashed => exact absurd (by simp) (hspaced "style" (by decide))
  | fill => exact absurd (by simp [fillText]) (hspaced "style" (by decide))
  | click => exact absurd (by simp) (hspaced "click" (by decide))
  | edge hsource => exact absurd (by simp [edgeText]) (hspaced _ (hids _ hsource))
  | blank | closing => exact absurd (by decide) hword
  | start hstart => exact absurd (hids _ hstart) hword
  | @declaration other label shape hother hlabel =>
    obtain ⟨d, bracket, hopening, hd, -⟩ := shape.exists_opening_eq_cons
    have hchars : id.toList ++ c :: rest = other.toList ++
        d :: (bracket ++ '"' :: (label.toList ++ '"' :: shape.closing.toList)) := by
      rw [← htext, ← List.cons_append, ← hopening]
      simp
    obtain ⟨-, rfl, rfl⟩ := split_unique hid (hids _ hother) hc hd hchars
    refine ⟨shape, label, hlabel, ?_⟩
    rw [hopening, List.cons_append]

end

/-! ## Labels -/

/-- What stands between the quotes of a label. -/
def labelText (name : String) : String :=
  String.ofList (name.toList.flatMap labelChar)

/-- There is no quote between the quotes of a label, since an entity stands for it. -/
theorem quote_not_mem_flatMap_labelChar (chars : List Char) : '"' ∉ chars.flatMap labelChar := by
  intro hmem
  obtain ⟨c, -, hquote⟩ := List.mem_flatMap.1 hmem
  by_cases hc : c = '"'
  · rw [labelChar, if_pos hc] at hquote
    exact absurd hquote (by decide)
  · rw [labelChar, if_neg hc, List.mem_singleton] at hquote
    exact hc hquote.symm

/-- A label has no quotes in it. -/
theorem quote_not_mem_labelText (name : String) : '"' ∉ (labelText name).toList := by
  rw [labelText, String.toList_ofList]
  exact quote_not_mem_flatMap_labelChar _

/-! ## Lines of these forms -/

section

variable {isRegistered : String → Prop} {options : ChartOptions}

/-- A line that fits the options and is about registered nodes. -/
def Line.Suits (isRegistered : String → Prop) (options : ChartOptions) : Line → Prop
  | header direction | layout direction => direction = options.direction
  | start node | declaration node _ | opening node | dashed node | click node =>
    isRegistered node.id
  | fill node color => isRegistered node.id ∧ ∃ status, color = options.fills.color status
  | edge source target => isRegistered source.id ∧ isRegistered target.id
  | closing | blank => True

/-- A line that suits has a text of one of the forms. -/
theorem Line.Suits.lineForm {line : Line} (h : line.Suits isRegistered options) :
    LineForm isRegistered options line.text := by
  cases line with
  | header direction =>
    obtain rfl : direction = options.direction := h
    exact .header
  | layout direction =>
    obtain rfl : direction = options.direction := h
    exact .layout
  | start node => exact .start h
  | declaration node shape =>
    have htext : (declaration node shape).text =
        node.id ++ shape.opening ++ "\"" ++ labelText node.name ++ "\"" ++ shape.closing :=
      String.toList_inj.1 (by simp [text, label, labelText])
    rw [htext]
    exact .declaration shape h (quote_not_mem_labelText node.name)
  | opening node =>
    have htext : (opening node).text =
        "subgraph " ++ node.id ++ " [\"" ++ labelText node.name ++ "\"]" :=
      String.toList_inj.1 (by simp [text, label, labelText])
    rw [htext]
    exact .opening h (quote_not_mem_labelText node.name)
  | dashed node => exact .dashed h
  | click node =>
    have htext : (click node).text =
        "click " ++ node.id ++ " callback \"" ++ labelText node.name ++ "\"" :=
      String.toList_inj.1 (by simp [text, label, labelText])
    rw [htext]
    exact .click h (quote_not_mem_labelText node.name)
  | fill node color =>
    obtain ⟨hnode, status, rfl⟩ := h
    exact .fill status hnode
  | edge source target => exact .edge h.1 h.2
  | closing => exact .closing
  | blank => exact .blank

end

namespace Chart

section

variable {isRegistered : String → Prop} {options : ChartOptions} {fill : Node → List Line}

/-- The lines of a state suit, if it is registered and so are its successors. -/
theorem suits_of_mem_stateLines {frame : Frame} {name : String} {state : State}
    (hfill : ∀ line ∈ fill (frame.node name),
      ∃ status, line = .fill (frame.node name) (options.fills.color status))
    (hnode : isRegistered (frame.node name).id)
    (hnext : ∀ target ∈ state.successors, isRegistered (frame.node target).id) :
    ∀ line ∈ stateLines options fill frame (name, state), line.Suits isRegistered options := by
  refine forall_mem_stateLines (fun _ => hnode) (by simp [blockLines, Line.Suits, hnode]) ?_ hnode
    fun target htarget => ⟨hnode, hnext target htarget⟩
  intro line hline
  obtain ⟨status, rfl⟩ := hfill line hline
  exact ⟨hnode, status, rfl⟩

end

section

variable {definition : Definition} {statuses? : Option StatusSource} {options : ChartOptions}
  {chart : Flowchart}

/-- **The lines of a chart suit**: the nodes in them are registered. -/
theorem suits_of_mem_lines (hdistinct : definition.NamesDistinct)
    (h : compile definition statuses? options = .ok chart) :
    ∀ line ∈ chart.lines, line.Suits (fun id => (chart.state? id).isSome = true) options := by
  obtain ⟨drawing, hdrawing, hcensus⟩ := census_of_compile h
  have hlines : chart.lines = .header options.direction :: drawing.lines := by
    rw [hdrawing]
    rfl
  rw [hlines]
  refine List.forall_mem_cons.2 ⟨rfl, ?_⟩
  intro line hline
  -- a line names the start of a graph, or it is one of a state in the graph
  obtain ⟨frame, graph, hgraph, hmem⟩ := mem_inFrames_zero.1 (hcensus.lines.mem_iff.1 hline)
  rcases List.mem_cons.1 hmem with rfl | hmem
  · obtain ⟨state, hstate⟩ := Definition.exists_declares_start (outline_of_compile h).1 hgraph
    exact isSome_state?_of_declares hdistinct h hstate
  · obtain ⟨⟨name, state⟩, hentry, hmem⟩ := List.mem_flatMap.1 hmem
    have hstate : definition.Declares (frame.node name) state := ⟨graph, hgraph, hentry⟩
    refine suits_of_mem_stateLines (fun _ => mem_fillLines)
      (isSome_state?_of_declares hdistinct h hstate) ?_ line hmem
    intro target htarget
    have hleads : definition.LeadsTo (frame.node name) (frame.node target) :=
      ⟨rfl, state, hstate, htarget⟩
    exact (isSome_state?_of_leadsTo hdistinct h hleads).2

end

end Chart

/-! ## Broken lines -/

/-- The characters of a declaration before a place in the label of the node. -/
def cutDeclaration (node : Node) (shape : Shape) (before : List Char) : List Char :=
  node.id.toList ++ (shape.opening.toList ++ '"' :: before.flatMap labelChar)

/-- A declaration that is cut off in its label is of no form. -/
theorem not_lineForm_cutDeclaration {isRegistered : String → Prop} {options : ChartOptions}
    (hids : ∀ id, isRegistered id → IsIdText id) (node : Node) (shape : Shape)
    (before : List Char) :
    ¬ LineForm isRegistered options (String.ofList (cutDeclaration node shape before)) := by
  intro hform
  obtain ⟨c, bracket, hopening, hc, -, hspace⟩ := shape.exists_opening_eq_cons
  have htext : (String.ofList (cutDeclaration node shape before)).toList =
      node.id.toList ++ c :: (bracket ++ '"' :: before.flatMap labelChar) := by
    rw [String.toList_ofList, cutDeclaration, hopening, List.cons_append]
  obtain ⟨shape', label, -, hrest⟩ :=
    hform.of_id_append hids node.isIdChar_of_mem_id hc hspace htext
  rw [← List.cons_append, ← hopening] at hrest
  -- the quote after the label is missing
  obtain ⟨-, hlabel⟩ := Shape.opening_append_unique hrest
  refine quote_not_mem_flatMap_labelChar before ?_
  rw [hlabel]
  simp

/-- A line feed in the name of a node cuts its declaration. -/
theorem cutDeclaration_mem_linesOf {node : Node} {before after : List Char} (shape : Shape)
    (hname : node.name.toList = before ++ '\n' :: after) (hbefore : '\n' ∉ before) :
    String.ofList (cutDeclaration node shape before) ∈
      linesOf (Line.declaration node shape).text := by
  have hfeed : labelChar '\n' = ['\n'] := by decide
  have htext : (Line.declaration node shape).text.toList = cutDeclaration node shape before ++
      '\n' :: (after.flatMap labelChar ++ '"' :: shape.closing.toList) := by
    simp [Line.text, label, cutDeclaration, hname, hfeed]
  refine mem_linesOf_of_feed ?_ htext
  simp [cutDeclaration, node.feed_not_mem_id, shape.feed_not_mem.1,
    feed_not_mem_flatMap_labelChar hbefore]

namespace Chart

variable {definition : Definition} {statuses? : Option StatusSource} {options : ChartOptions}
  {chart : Flowchart}

/-- The ids in a registry are made of characters of ids. -/
theorem isIdText_of_isSome_state? (hdistinct : definition.NamesDistinct)
    (h : compile definition statuses? options = .ok chart) {id : String}
    (hid : (chart.state? id).isSome = true) : IsIdText id := by
  obtain ⟨state, hstate⟩ := Option.isSome_iff_exists.1 hid
  obtain ⟨node, -, rfl⟩ := (state?_eq_some_iff hdistinct h).1 hstate
  exact node.isIdChar_of_mem_id

/-- The shape of every state stands in the chart. -/
theorem declaration_mem_lines (h : compile definition statuses? options = .ok chart) {node : Node}
    {state : State} (hnode : definition.Declares node state) :
    .declaration node (.of state) ∈ chart.lines := by
  obtain ⟨drawing, rfl, hcensus⟩ := census_of_compile h
  obtain ⟨graph, hgraph, hstate⟩ := hnode
  refine List.mem_cons_of_mem _ (hcensus.lines.mem_iff.2 ?_)
  refine mem_inFrames_zero.2 ⟨node.frame, graph, hgraph, List.mem_cons_of_mem _ ?_⟩
  refine List.mem_flatMap.2 ⟨(node.name, state), hstate, List.mem_append_right _ ?_⟩
  simp [afterBody, Frame.node]

/-- **A name with a line feed breaks a line**: what stands before the line feed in the line that
declares the shape of the state is of no form. -/
theorem exists_not_lineForm (hdistinct : definition.NamesDistinct)
    (h : compile definition statuses? options = .ok chart) {node : Node} {state : State}
    (hnode : definition.Declares node state) (hfeed : '\n' ∈ node.name.toList) :
    ∃ line ∈ linesOf chart.text,
      ¬ LineForm (fun id => (chart.state? id).isSome = true) options line := by
  obtain ⟨before, after, hname, hbefore⟩ := List.eq_append_cons_of_mem hfeed
  refine ⟨String.ofList (cutDeclaration node (.of state) before), ?_, ?_⟩
  · exact Line.mem_linesOf_textOf (declaration_mem_lines h hnode)
      (cutDeclaration_mem_linesOf _ hname hbefore)
  · apply not_lineForm_cutDeclaration
    intro id hid
    exact isIdText_of_isSome_state? hdistinct h hid

/-- **Lines are of known forms just where no name has a line feed.** Quotes in names are kept inside
their labels, and all other characters in ids and colours are kept inside their lines too, but a
line feed in a name ends the line of its label. -/
theorem lineForm_iff_namesUnbroken (hdistinct : definition.NamesDistinct)
    (hstyle : options.HasStyleValues) (h : compile definition statuses? options = .ok chart) :
    (∀ line ∈ linesOf chart.text,
        LineForm (fun id => (chart.state? id).isSome = true) options line) ↔
      definition.NamesUnbroken := by
  constructor
  · intro hforms graph hgraph name hname hfeed
    obtain ⟨k, hk⟩ := List.getElem?_of_mem hgraph
    obtain ⟨⟨_, state⟩, hstate, rfl⟩ := List.mem_map.1 hname
    have hnode : definition.Declares (Frame.node ⟨k⟩ _) state := ⟨graph, hk, hstate⟩
    obtain ⟨line, hline, hnone⟩ := exists_not_lineForm hdistinct h hnode hfeed
    exact hnone (hforms line hline)
  · intro hnames
    rw [linesOf_text hnames hstyle h, List.forall_mem_append, List.forall_mem_map,
      List.forall_mem_singleton]
    exact ⟨fun line hline => (suits_of_mem_lines hdistinct h line hline).lineForm, .blank⟩

/-- The lines for quotes and brackets in names are of known forms. -/
theorem lineForm_of_compile_quoted :
    let name := "Pack \"now\"];\t--> end"
    let definition : Definition := ⟨name, [(name, .taskTo none)], none, none, none⟩
    let options : ChartOptions := { tooltips := true }
    (definition.NamesDistinct ∧ options.HasStyleValues) ∧ ∃ chart,
      compile definition none options = .ok chart
        ∧ ∀ line ∈ linesOf chart.text,
            LineForm (fun id => (chart.state? id).isSome = true) options line := by
  intro name definition options
  have hdistinct : definition.NamesDistinct := by
    simp [definition, Definition.NamesDistinct, Definition.StatesNamesDistinct,
      Definition.StateNamesDistinct, State.taskTo]
  have hstyle : options.HasStyleValues := ChartOptions.hasStyleValues_default
  have hvalid : definition.referencesValid = true := by decide
  have hchart := compile_none hvalid options
  refine ⟨⟨hdistinct, hstyle⟩, _, hchart, ?_⟩
  exact (lineForm_iff_namesUnbroken hdistinct hstyle hchart).2 (by decide)

/-- A branch with one state whose name goes over three lines, the second of which is a keyword. -/
def brokenFan : Definition :=
  let pack : Definition :=
    ⟨"Pack\nend\nShip", [("Pack\nend\nShip", .taskTo none)], none, none, none⟩
  ⟨"Fan", [("Fan", .parallelTo [pack] none)], none, none, none⟩

/-- **Names can break lines**: the first line of the name is left with its shape open. -/
theorem not_forall_lineForm :
    ¬ ∀ (definition : Definition) (builder : OptionsBuilder) (options : ChartOptions)
        (statuses? : Option StatusSource) (chart : Flowchart), definition.NamesDistinct →
      builder.build = .ok options → compile definition statuses? options = .ok chart →
      ∀ line ∈ linesOf chart.text,
        LineForm (fun id => (chart.state? id).isSome = true) options line := by
  intro hforms
  let options : ChartOptions := { tooltips := true }
  have hdistinct : brokenFan.NamesDistinct := by
    simp [brokenFan, Definition.NamesDistinct, Definition.StatesNamesDistinct,
      Definition.StateNamesDistinct, Definition.BranchesNamesDistinct, State.parallelTo,
      State.taskTo]
  have hbuild : (({} : OptionsBuilder).withTooltips true).build = .ok options := by decide
  have hvalid : brokenFan.referencesValid = true := by decide
  have hchart := compile_none hvalid options
  have hnode : brokenFan.Declares (Frame.node ⟨1⟩ "Pack\nend\nShip") (.taskTo none) :=
    ⟨_, rfl, List.mem_cons_self ..⟩
  obtain ⟨line, hline, hnone⟩ := exists_not_lineForm hdistinct hchart hnode (by decide)
  exact hnone (hforms brokenFan _ options none _ hdistinct hbuild hchart line hline)

end Chart

end WorkflowChart
