import WorkflowChart.Proofs.Chart.Registered

/-!
# Renumbering frames

The frames of a drawing are numbered on from wherever the drawing starts. Started later, it is the
same drawing with the numbers of all frames raised, so its text is made of the same tokens, in which
the frames of nodes are counted from the first frame of the drawing.

* **`Chart.renumberCases`**: outlines that start later.
* **`Chart.drawGraph_add`**: a drawing that starts later comes out renumbered, or fails as before.
* **`Token`**, **`Token.printAll`**: the pieces of a text, and the text when its first frame has a
  given number.
* **`Chart.exists_tokens_of_drawGraph`**: a graph has one list of tokens, whatever frame it starts
  at.
-/

namespace WorkflowChart

/-! ## Drawings that start later -/

/-- The frame that comes `offset` frames later. -/
def Frame.renumber (offset : Nat) (frame : Frame) : Frame :=
  ⟨offset + frame.number⟩

/-- The node of a state of the same name in the frame that comes `offset` frames later. -/
def Node.renumber (offset : Nat) (node : Node) : Node :=
  { node with frame := node.frame.renumber offset }

@[simp] theorem Node.name_renumber (offset : Nat) (node : Node) :
    (node.renumber offset).name = node.name := rfl

@[simp] theorem Frame.node_renumber (offset : Nat) (frame : Frame) (name : String) :
    (frame.renumber offset).node name = (frame.node name).renumber offset := rfl

/-- A line with all its nodes in the frames that come `offset` frames later. -/
def Line.renumber (offset : Nat) : Line → Line
  | header direction => header direction
  | start node => start (node.renumber offset)
  | declaration node shape => declaration (node.renumber offset) shape
  | opening node => opening (node.renumber offset)
  | layout direction => layout direction
  | closing => closing
  | dashed node => dashed (node.renumber offset)
  | fill node color => fill (node.renumber offset) color
  | click node => click (node.renumber offset)
  | edge source target => edge (source.renumber offset) (target.renumber offset)
  | blank => blank

/-- A drawing in the frames that come `offset` frames later. -/
def Drawing.renumber (offset : Nat) (drawing : Drawing) : Drawing where
  lines := drawing.lines.map (Line.renumber offset)
  nodes := drawing.nodes.map fun (node, state) => (node.renumber offset, state)
  nextFrame := offset + drawing.nextFrame

/-- A block comes out renumbered with what is in it. -/
theorem Drawing.renumber_block (offset : Nat) (before : List Line) (inside : Drawing) :
    (block before inside).renumber offset =
      block (before.map (Line.renumber offset)) (inside.renumber offset) := by
  simp [block, renumber, Line.renumber]

namespace Chart

variable {options : ChartOptions} {fill : Node → List Line}

/-- The links of a state in a later frame are its links, renumbered. -/
theorem linksOf_renumber (options : ChartOptions) (offset : Nat) (frame : Frame) (name : String)
    (state : State) :
    linksOf options (frame.renumber offset) name state =
      (linksOf options frame name state).map (Line.renumber offset) := by
  simp only [linksOf, List.map_append, List.map_map]
  congr 1
  split <;> rfl

/-- **Outlines that start later** are the same outlines renumbered, where `fill` colours nodes the
same in all frames. -/
theorem renumberCases (options : ChartOptions) {offset : Nat}
    (hfill : ∀ node, fill (node.renumber offset) = (fill node).map (Line.renumber offset)) :
    Definition.Cases
      (fun graph => ∀ number, outlineGraph options fill (offset + number) graph =
        (outlineGraph options fill number graph).renumber offset)
      (fun states => ∀ frame number,
        outlineStates options fill (frame.renumber offset) (offset + number) states =
          (outlineStates options fill frame number states).renumber offset)
      (fun state => ∀ frame number name,
        outlineState options fill (frame.renumber offset) (offset + number) name state =
          (outlineState options fill frame number name state).renumber offset)
      (fun branches => ∀ gap number, gap.map (Line.renumber offset) = gap →
        outlineBranches options fill gap (offset + number) branches =
          (outlineBranches options fill gap number branches).renumber offset) where
  graph startAt states comment timeoutSeconds version hstates := by
    intro number
    have hinside : outlineStates options fill ⟨offset + number⟩ (offset + number + 1) states = _ :=
      hstates ⟨number⟩ (number + 1)
    rw [outlineGraph, outlineGraph, hinside]
    rfl
  noStates := by
    intro frame number
    rw [outlineStates, outlineStates]
    rfl
  addState name state rest hstate hrest := by
    intro frame number
    rw [outlineStates, outlineStates, hstate]
    -- what comes after the state starts as much later as the state itself does
    have hothers : outlineStates options fill (frame.renumber offset)
        ((outlineState options fill frame number name state).renumber offset).nextFrame rest = _ :=
      hrest frame _
    rw [hothers, linksOf_renumber, Frame.node_renumber, hfill]
    simp only [Drawing.renumber, List.map_append, List.map_cons, List.map_nil, Line.renumber]
  plain state hparallel hmap := by
    intro frame number name
    cases state with
    | parallel => exact absurd rfl hparallel
    | map => exact absurd rfl hmap
    | choice choice =>
      rw [outlineState, outlineState, Drawing.renumber, List.map_map]
      rfl
    | task | pass | fail | succeed | wait =>
      rw [outlineState, outlineState]
      rfl
  parallel comment branches flow hbranches := by
    intro frame number name
    rw [outlineState, outlineState, hbranches _ _ rfl, Drawing.renumber_block]
    rfl
  map comment iterator itemsPath maxConcurrency flow hiterator := by
    intro frame number name
    rw [outlineState, outlineState, hiterator, Drawing.renumber_block]
    rfl
  noBranches := by
    intro gap number _
    rw [outlineBranches, outlineBranches]
    rfl
  addBranch branch rest hbranch hrest := by
    intro gap number hgap
    have hothers : outlineBranches options fill [.blank]
        ((outlineGraph options fill number branch).renumber offset).nextFrame rest = _ :=
      hrest [.blank] _ rfl
    rw [outlineBranches, outlineBranches, hbranch, hothers]
    simp only [Drawing.renumber, List.map_append, hgap]

/-- A node is coloured by its name, so the same in all frames. -/
theorem fillLines_renumber (options : ChartOptions) (statuses? : Option StatusSource) (offset : Nat)
    (node : Node) :
    fillLines options statuses? (node.renumber offset) =
      (fillLines options statuses? node).map (Line.renumber offset) := by
  cases statuses? with
  | none => rfl
  | some statuses =>
    have hname : (node.renumber offset).name = node.name := rfl
    rw [fillLines, fillLines, fillOf, fillOf, hname]
    cases statuses node.name with
    | error cause => rfl
    | ok status => rfl

/-- A graph that is drawn from a later frame on has the outline renumbered. -/
theorem outlineGraph_add (options : ChartOptions) (statuses? : Option StatusSource)
    (graph : Definition) (offset number : Nat) :
    outlineGraph options (fillLines options statuses?) (offset + number) graph =
      (outlineGraph options (fillLines options statuses?) number graph).renumber offset :=
  (renumberCases options (fillLines_renumber options statuses? offset)).graph_all graph number

/-- What is asked for while a graph is drawn, and what then comes out. -/
theorem drawGraph_eq (options : ChartOptions) (statuses? : Option StatusSource) (number : Nat)
    (graph : Definition) :
    drawGraph options statuses? number graph = (do
      forM graph.drawOrder (ask statuses?)
      return outlineGraph options (fillLines options statuses?) number graph) :=
  (askedCases options statuses? _).graph_all graph (fills_fillLines options statuses? _) number

/-- **Drawings that start later** come out renumbered, or fail for the same cause. -/
theorem drawGraph_add (options : ChartOptions) (statuses? : Option StatusSource)
    (graph : Definition) (offset number : Nat) :
    drawGraph options statuses? (offset + number) graph =
      (drawGraph options statuses? number graph).map (Drawing.renumber offset) := by
  rw [drawGraph_eq, drawGraph_eq, outlineGraph_add]
  cases forM graph.drawOrder (ask statuses?) with
  | error cause => rfl
  | ok _ => rfl

end Chart

/-! ## Tokens -/

/-- A piece of the text of a drawing. -/
inductive Token where
  | literal (text : String)
  /-- The id of a node in a frame that is counted from the first frame of the drawing. -/
  | reference (frame : Nat) (name : String)

namespace Token

/-- The token of a node. -/
def ofNode (node : Node) : Token :=
  reference node.frame.number node.name

/-- A token as it is printed in a drawing whose first frame has the given number. -/
def print (number : Nat) : Token → String
  | literal text => text
  | reference frame name => (Frame.node ⟨number + frame⟩ name).id

@[simp] theorem print_literal (number : Nat) (text : String) :
    (literal text).print number = text := rfl

@[simp] theorem print_ofNode (number : Nat) (node : Node) :
    (ofNode node).print number = (node.renumber number).id := rfl

/-- Tokens as they are printed one after another. -/
def printAll (number : Nat) : List Token → String
  | [] => ""
  | token :: tokens => token.print number ++ printAll number tokens

/-- Tokens that follow others are printed after them. -/
theorem printAll_append (number : Nat) (tokens others : List Token) :
    printAll number (tokens ++ others) = printAll number tokens ++ printAll number others := by
  induction tokens with
  | nil => rw [List.nil_append, printAll, String.empty_append]
  | cons token tokens ih => rw [List.cons_append, printAll, printAll, ih, String.append_assoc]

end Token

namespace Line

/-- The tokens of a line. -/
def tokens : Line → List Token
  | header direction => [.literal ("flowchart " ++ direction.letters)]
  | start node => [.ofNode node]
  | declaration node shape =>
    [.ofNode node, .literal (shape.opening ++ label node.name ++ shape.closing)]
  | opening node => [.literal "subgraph ", .ofNode node, .literal (" [" ++ label node.name ++ "]")]
  | layout direction => [.literal ("direction " ++ direction.letters)]
  | closing => [.literal "end"]
  | dashed node => [.literal "style ", .ofNode node, .literal " stroke-dasharray: 5 5"]
  | fill node color => [.literal "style ", .ofNode node, .literal (" fill:" ++ color)]
  | click node => [.literal "click ", .ofNode node, .literal (" callback " ++ label node.name)]
  | edge source target => [.ofNode source, .literal " --> ", .ofNode target]
  | blank => []

/-- The tokens of lines, with a line feed after each. -/
def tokensOf : List Line → List Token
  | [] => []
  | line :: lines => line.tokens ++ .literal "\n" :: tokensOf lines

/-- The text of a renumbered line is that of its tokens. -/
theorem text_renumber (offset : Nat) (line : Line) :
    (line.renumber offset).text = Token.printAll offset line.tokens := by
  cases line <;> simp [renumber, text, tokens, Token.printAll, String.append_assoc]

/-- **The text of renumbered lines** is that of their tokens. -/
theorem textOf_renumber (offset : Nat) (lines : List Line) :
    textOf (lines.map (renumber offset)) = Token.printAll offset (tokensOf lines) := by
  induction lines with
  | nil => rfl
  | cons line lines ih =>
    rw [List.map_cons, textOf, text_renumber, ih, tokensOf, Token.printAll_append, Token.printAll,
      Token.print_literal, String.append_assoc]

/-- The text of lines that follow others follows theirs. -/
theorem textOf_append (lines others : List Line) :
    textOf (lines ++ others) = textOf lines ++ textOf others := by
  induction lines with
  | nil => rw [List.nil_append, textOf, String.empty_append]
  | cons line lines ih => simp only [List.cons_append, textOf, ih, String.append_assoc]

end Line

namespace Chart

/-- A branch is drawn after those before it, from the frame on that is next after theirs. -/
theorem exists_outlineBranches_eq (options : ChartOptions) (fill : Node → List Line)
    (gap : List Line) (number : Nat) (before : List Definition) (branch : Definition)
    (after : List Definition) :
    let first := number + (Definition.graphsOfBranches before).length
    ∃ earlier, (outlineBranches options fill gap number (before ++ branch :: after)).lines =
      earlier ++ ((outlineGraph options fill first branch).lines ++
        (outlineBranches options fill [.blank] (first + branch.graphs.length) after).lines) := by
  intro first
  induction before generalizing gap number with
  | nil =>
    refine ⟨gap, ?_⟩
    rw [List.nil_append, outlineBranches, nextFrame_outlineGraph, List.append_assoc]
    rfl
  | cons head before ih =>
    obtain ⟨earlier, hearlier⟩ := ih [.blank] (number + head.graphs.length)
    -- the branch comes after the head and after what is left of those before it
    have hfirst : first =
        number + head.graphs.length + (Definition.graphsOfBranches before).length := by
      simp only [first, Definition.graphsOfBranches, List.length_append, Nat.add_assoc]
    refine ⟨gap ++ (outlineGraph options fill number head).lines ++ earlier, ?_⟩
    rw [List.cons_append, outlineBranches, nextFrame_outlineGraph, hearlier, hfirst]
    exact (List.append_assoc _ earlier _).symm

/-- The tokens of a graph. -/
def tokensOf (options : ChartOptions) (statuses? : Option StatusSource) (graph : Definition) :
    List Token :=
  Line.tokensOf (outlineGraph options (fillLines options statuses?) 0 graph).lines

/-- The text of a graph is printed from its tokens, from whatever frame on it is drawn. -/
theorem textOf_outlineGraph (options : ChartOptions) (statuses? : Option StatusSource)
    (number : Nat) (graph : Definition) :
    Line.textOf (outlineGraph options (fillLines options statuses?) number graph).lines =
      Token.printAll number (tokensOf options statuses? graph) := by
  have hlater := outlineGraph_add options statuses? graph number 0
  rw [Nat.add_zero] at hlater
  rw [hlater]
  exact Line.textOf_renumber number _

/-- What is drawn of branches is their outline. -/
theorem outline_of_drawBranches {options : ChartOptions} {statuses? : Option StatusSource}
    {gap : List Line} {number : Nat} {branches : List Definition} {drawing : Drawing}
    (h : drawBranches options statuses? gap number branches = .ok drawing) :
    drawing = outlineBranches options (fillLines options statuses?) gap number branches := by
  rw [(askedCases options statuses? _).branches_all branches (fills_fillLines options statuses? _),
    bind_eq_ok_iff] at h
  obtain ⟨_, -, h⟩ := h
  cases h
  rfl

/-- **A graph has one list of tokens**, where the source can tell the statuses of all states of the
graphs in it. From whatever frame on it is drawn, its text is printed from them, it has the nodes of
its graphs in the frames from this one on, and it opens one frame for each of them. Where it comes
twice among branches, its two texts differ in the number of the first frame only. -/
theorem exists_tokens_of_drawGraph (options : ChartOptions) (statuses? : Option StatusSource)
    (graph : Definition)
    (htold : ∀ statuses, statuses? = some statuses → ∀ inner ∈ graph.graphs,
      ∀ name ∈ inner.states.map Prod.fst, ∃ status, statuses name = .ok status) :
    ∃ tokens : List Token,
      (∀ number, ∃ drawing, drawGraph options statuses? number graph = .ok drawing
        ∧ Line.textOf drawing.lines = Token.printAll number tokens
        ∧ drawing.nodes.Perm (inFrames graphNodes number graph.graphs)
        ∧ drawing.nextFrame = number + graph.graphs.length)
      ∧ ∀ number before between after drawing,
        drawBranches options statuses? [] number
          (before ++ graph :: (between ++ graph :: after)) = .ok drawing →
        let first := number + (Definition.graphsOfBranches before).length
        let second := first + graph.graphs.length + (Definition.graphsOfBranches between).length
        ∃ earlier middle later, Line.textOf drawing.lines =
          earlier ++ Token.printAll first tokens ++ middle ++ Token.printAll second tokens
            ++ later := by
  refine ⟨tokensOf options statuses? graph, ?_, ?_⟩
  · intro number
    -- asking goes through, and what it leads to does not depend on the number
    have hasked : forM graph.drawOrder (ask statuses?) = .ok () := by
      refine asked_eq_ok_iff.2 fun statuses hsource name hname => ?_
      obtain ⟨inner, hinner, hname⟩ := Definition.mem_drawOrder_iff.1 hname
      exact htold statuses hsource inner hinner name hname
    have hcensus := (censusCases options (fillLines options statuses?)).graph_all graph number
    refine ⟨outlineGraph options (fillLines options statuses?) number graph, ?_,
      textOf_outlineGraph options statuses? number graph, hcensus.nodes, hcensus.nextFrame⟩
    rw [drawGraph_eq, hasked]
    rfl
  · intro number before between after drawing hdrawing first second
    obtain ⟨earlier, hearlier⟩ := exists_outlineBranches_eq options
      (fillLines options statuses?) [] number before graph (between ++ graph :: after)
    obtain ⟨middle, hmiddle⟩ := exists_outlineBranches_eq options
      (fillLines options statuses?) [.blank] (first + graph.graphs.length) between graph after
    -- the second place is among the branches that come after the first one
    rw [hmiddle] at hearlier
    have htext := congrArg Line.textOf hearlier
    rw [← outline_of_drawBranches hdrawing] at htext
    simp only [Line.textOf_append, textOf_outlineGraph, ← String.append_assoc] at htext
    exact ⟨_, _, _, htext⟩

/-- A definition drawn from the frames 0 and 7 on, and twice among branches. -/
theorem exists_tokens_of_drawGraph_shipping :
    let statuses : StatusSource := fun name =>
      if name ∈ ["Route", "Express", "Parcels", "Done", "Pack", "Weigh"] then .ok .success
      else .error (.unresolvedAncestor (.ofNat 1) .lambdaFailed)
    (∀ source, some statuses = some source → ∀ inner ∈ shipping.graphs,
        ∀ name ∈ inner.states.map Prod.fst, ∃ status, source name = .ok status)
      ∧ ∃ tokens first other both, drawGraph {} (some statuses) 0 shipping = .ok first
        ∧ drawGraph {} (some statuses) 7 shipping = .ok other
        ∧ Line.textOf first.lines = Token.printAll 0 tokens
        ∧ Line.textOf other.lines = Token.printAll 7 tokens
        ∧ first.nextFrame = 4 ∧ other.nextFrame = 11
        ∧ drawBranches {} (some statuses) [] 0 [shipping, shipping] = .ok both
        ∧ ∃ earlier middle later, Line.textOf both.lines =
            earlier ++ Token.printAll 0 tokens ++ middle ++ Token.printAll 4 tokens ++ later := by
  intro statuses
  have htold : ∀ source, some statuses = some source → ∀ inner ∈ shipping.graphs,
      ∀ name ∈ inner.states.map Prod.fst, ∃ status, source name = .ok status := by
    rintro _ ⟨⟩ inner hinner name hname
    have hknown : ∀ graph ∈ shipping.graphs, ∀ name ∈ graph.states.map Prod.fst,
        name ∈ ["Route", "Express", "Parcels", "Done", "Pack", "Weigh"] := by decide
    exact ⟨.success, if_pos (hknown inner hinner name hname)⟩
  obtain ⟨tokens, hdrawn, htwice⟩ := exists_tokens_of_drawGraph {} (some statuses) shipping htold
  obtain ⟨first, hfirst, htextFirst, -, hnextFirst⟩ := hdrawn 0
  obtain ⟨second, hsecond, -⟩ := hdrawn 4
  obtain ⟨other, hother, htextOther, -, hnextOther⟩ := hdrawn 7
  have hnextFirst : first.nextFrame = 4 := hnextFirst
  -- the second branch is drawn from the frame on that comes after the first one
  have hboth : ∃ both, drawBranches {} (some statuses) [] 0 [shipping, shipping] = .ok both := by
    rw [drawBranches, hfirst]
    simp only [bind, Except.bind]
    rw [hnextFirst, drawBranches, hsecond]
    exact ⟨_, rfl⟩
  obtain ⟨both, hboth⟩ := hboth
  exact ⟨htold, tokens, first, other, both, hfirst, hother, htextFirst, htextOther, hnextFirst,
    hnextOther, hboth, htwice 0 [] [] [] both hboth⟩

end Chart

end WorkflowChart
