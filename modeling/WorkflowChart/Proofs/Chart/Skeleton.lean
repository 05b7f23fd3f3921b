import WorkflowChart.Proofs.Chart.Lines
import WorkflowChart.Proofs.Chart.Outline
import WorkflowChart.Proofs.Definition.Induction

/-!
# The control flow in a chart

A chart without statuses shows the control flow of its definition, and nothing else about it can be
confused: two definitions with the same chart text have the same control flow.

* **`Skeleton`**: the control flow of a graph and of the graphs in it.
* **`Line.subject`**: the node of the state that a line belongs to. It tells where the lines of one
  state end and those of the next one begin.
* **`Chart.beginning`**: the way of drawing a state that lines begin with.
* **`Chart.GraphReadable`**: the lines of a graph determine its skeleton, also where lines follow
  that close a block.
* **`Chart.readableCases`**: the lines of every graph do.
-/

namespace WorkflowChart

mutual

/-- The control flow of a graph: where it starts, and its states in order. -/
structure Skeleton where
  startAt : String
  states : List (String × StateSkeleton)

/-- What the control flow of a graph says about one of its states. -/
structure StateSkeleton where
  category : Category
  successors : List String
  /-- The control flow of the branches or of the iterator. -/
  graphs : List Skeleton

end

mutual

/-- The control flow of a definition. -/
def Definition.skeleton : Definition → Skeleton
  | ⟨startAt, states, _, _, _⟩ => ⟨startAt, Definition.statesSkeleton states⟩

/-- The control flow of the states of a graph. -/
def Definition.statesSkeleton : List (String × State) → List (String × StateSkeleton)
  | [] => []
  | (name, state) :: rest =>
    (name, ⟨state.category, state.successors, state.graphSkeletons⟩)
      :: Definition.statesSkeleton rest

/-- The control flow of the graphs in a state. -/
def State.graphSkeletons : State → List Skeleton
  | .parallel _ branches _ => Definition.branchesSkeleton branches
  | .map _ iterator _ _ _ => [iterator.skeleton]
  | .task _ | .pass _ | .choice _ | .fail _ | .succeed _ | .wait _ => []

/-- The control flow of branches. -/
def Definition.branchesSkeleton : List Definition → List Skeleton
  | [] => []
  | branch :: rest => branch.skeleton :: Definition.branchesSkeleton rest

end

/-! ## Where the lines of a state end -/

/-- The node of the state that a line is about, where it begins the lines of that state. -/
def Line.subject : Line → Option Node
  | declaration node _ | opening node | edge node _ => some node
  | header _ | start _ | layout _ | closing | dashed _ | fill _ _ | click _ | blank => none

/-- The node of the state whose lines come first. -/
def firstSubject (lines : List Line) : Option Node :=
  lines.head?.bind Line.subject

namespace State

/-- The four ways in which a state is drawn. -/
inductive Form : State → Prop
  /-- A box and the shape of its category. -/
  | leaf {state : State} (notChoice : state.category ≠ .choice)
      (notParallel : state.category ≠ .parallel) (notMap : state.category ≠ .map) : Form state
  /-- The edges of a choice. -/
  | choice (choice : Choice) : Form (.choice choice)
  /-- A block with branches. -/
  | parallel (comment : Option String) (branches : List Definition) (flow : Flow) :
      Form (.parallel comment branches flow)
  /-- A dashed block with an iterator. -/
  | map (comment : Option String) (iterator : Definition) (itemsPath : Option String)
      (maxConcurrency : Option UInt32) (flow : Flow) :
      Form (.map comment iterator itemsPath maxConcurrency flow)

/-- Every state is drawn in one of the four ways. -/
theorem form (state : State) : Form state := by
  cases state with
  | choice choice => exact .choice choice
  | parallel comment branches flow => exact .parallel comment branches flow
  | map comment iterator itemsPath maxConcurrency flow =>
    exact .map comment iterator itemsPath maxConcurrency flow
  | task | pass | fail | succeed | wait =>
    exact .leaf (by simp [category]) (by simp [category]) (by simp [category])

/-- The category that stands for the way in which a state is drawn: a task for all states drawn as a
box. -/
def drawnAs (state : State) : Category :=
  match state.category with
  | .choice => .choice
  | .parallel => .parallel
  | .map => .map
  | .task | .pass | .fail | .succeed | .wait => .task

/-- A state with no graphs in it that is no choice is drawn as a box. -/
theorem drawnAs_of_leaf {state : State} (hchoice : state.category ≠ .choice)
    (hparallel : state.category ≠ .parallel) (hmap : state.category ≠ .map) :
    state.drawnAs = .task := by
  cases state with
  | choice => exact absurd rfl hchoice
  | parallel => exact absurd rfl hparallel
  | map => exact absurd rfl hmap
  | task | pass | fail | succeed | wait => rfl

/-- A state that is no choice goes on to the state that it declares. -/
theorem successors_eq_of_not_choice {state : State} (h : state.category ≠ .choice) :
    state.successors = state.next.toList := by
  cases state with
  | choice => exact absurd rfl h
  | task | pass | parallel | map | fail | succeed | wait => rfl

/-- Among the states that are drawn as a box, the shape tells the category. -/
theorem category_eq_of_shape_eq {a b : State} (ha : a.category ≠ .parallel)
    (ha' : a.category ≠ .map) (hb : b.category ≠ .parallel) (hb' : b.category ≠ .map)
    (h : Shape.of a = Shape.of b) : a.category = b.category := by
  rw [Shape.of, Shape.of] at h
  revert ha ha' hb hb' h
  cases a.category <;> cases b.category <;> decide

end State

namespace Chart

variable {options : ChartOptions} {fill : Node → List Line}

/-- What a leaf is drawn as. -/
theorem outlineState_leaf (options : ChartOptions) (fill : Node → List Line) {state : State}
    (hchoice : state.category ≠ .choice) (hparallel : state.category ≠ .parallel)
    (hmap : state.category ≠ .map) (frame : Frame) (number : Nat) (name : String) :
    outlineState options fill frame number name state
        = { lines := [.declaration (frame.node name) .rectangle], nextFrame := number }
      ∧ state.graphSkeletons = [] := by
  cases state with
  | choice => exact absurd rfl hchoice
  | parallel => exact absurd rfl hparallel
  | map => exact absurd rfl hmap
  | task | pass | fail | succeed | wait => rw [outlineState, State.graphSkeletons]; exact ⟨rfl, rfl⟩

/-- The lines of a state begin with a line about its node. -/
theorem firstSubject_outlineState (frame : Frame) (number : Nat) (name : String) (state : State)
    (shape : Shape) (rest : List Line) :
    firstSubject ((outlineState options fill frame number name state).lines
      ++ .declaration (frame.node name) shape :: rest) = some (frame.node name) := by
  cases state.form with
  | leaf hchoice hparallel hmap =>
    rw [(outlineState_leaf options fill hchoice hparallel hmap frame number name).1]
    rfl
  | choice choice =>
    rw [outlineState]
    cases choice.targets <;> rfl
  | parallel | map => rw [outlineState]; rfl

/-- The way of drawing a state that lines begin with. A dashed block says so in its second line, and
the shape of a choice is no rectangle. -/
def beginning : List Line → Category
  | .opening _ :: .dashed _ :: _ => .map
  | .opening _ :: _ => .parallel
  | .declaration _ .rectangle :: _ => .task
  | _ => .choice

/-- The lines of a state begin with the way in which it is drawn. -/
theorem beginning_outlineState (frame : Frame) (number : Nat) (name : String) (state : State)
    (rest : List Line) :
    beginning ((outlineState options fill frame number name state).lines
      ++ .declaration (frame.node name) (.of state) :: rest) = state.drawnAs := by
  cases state.form with
  | leaf hchoice hparallel hmap =>
    rw [(outlineState_leaf options fill hchoice hparallel hmap frame number name).1,
      State.drawnAs_of_leaf hchoice hparallel hmap]
    rfl
  | choice choice =>
    rw [outlineState]
    cases choice.targets <;> rfl
  | parallel | map => rw [outlineState]; rfl

/-- States with the same lines are drawn in the same way. -/
theorem drawnAs_eq {frame : Frame} {number : Nat} {name : String} {a b : State} {r s : List Line}
    (h : (outlineState options fill frame number name a).lines
        ++ .declaration (frame.node name) (.of a) :: r
      = (outlineState options fill frame number name b).lines
        ++ .declaration (frame.node name) (.of b) :: s) : a.drawnAs = b.drawnAs := by
  rw [← beginning_outlineState frame number name a r, h, beginning_outlineState]

/-- The lines of states begin with a line about the first of them. -/
theorem firstSubject_outlineStates (frame : Frame) (number : Nat) (states : List (String × State))
    (rest : List Line) :
    firstSubject ((outlineStates options fill frame number states).lines ++ rest) =
      match states with
      | [] => firstSubject rest
      | (name, _) :: _ => some (frame.node name) := by
  cases states with
  | nil => rw [outlineStates]; rfl
  | cons head tail =>
    obtain ⟨name, state⟩ := head
    rw [outlineStates]
    simp only [List.append_assoc, List.cons_append, List.nil_append]
    exact firstSubject_outlineState frame number name state _ _

/-- Edges from a node determine their targets, where no further edge from the node follows. -/
theorem edges_unique {node : Node} {frame : Frame} {a b : List String} {r s : List Line}
    (hr : ∀ target rest, r ≠ .edge node target :: rest)
    (hs : ∀ target rest, s ≠ .edge node target :: rest)
    (h : (a.map fun target => Line.edge node (frame.node target)) ++ r
      = (b.map fun target => Line.edge node (frame.node target)) ++ s) : a = b ∧ r = s := by
  induction a generalizing b with
  | nil =>
    cases b with
    | nil => exact ⟨rfl, h⟩
    | cons target b => exact absurd h (hr _ _)
  | cons target a ih =>
    cases b with
    | nil => exact absurd h.symm (hs _ _)
    | cons other b =>
      have hhead := List.head_eq_of_cons_eq h
      obtain ⟨rfl, hrest⟩ := ih (List.tail_eq_of_cons_eq h)
      simp only [Line.edge.injEq, Frame.node, Node.mk.injEq, true_and] at hhead
      exact ⟨by rw [hhead], hrest⟩

/-- Lines that begin with no line about a node begin with no edge from it. -/
theorem ne_edge_of_firstSubject_ne {node : Node} {lines : List Line}
    (h : firstSubject lines ≠ some node) : ∀ target rest, lines ≠ .edge node target :: rest := by
  rintro target rest rfl
  exact h rfl

/-- The lines of a graph begin with the node that it starts at. -/
theorem exists_outlineGraph_eq_cons (options : ChartOptions) (fill : Node → List Line)
    (number : Nat) (definition : Definition) :
    ∃ node rest, (outlineGraph options fill number definition).lines = .start node :: rest := by
  obtain ⟨startAt, states, _, _, _⟩ := definition
  rw [outlineGraph]
  exact ⟨_, _, rfl⟩

/-- Between two branches is a blank line, and after the last one the block is closed. -/
theorem firstSubject_outlineBranches (number : Nat) (branches : List Definition)
    (rest : List Line) :
    firstSubject ((outlineBranches options fill [.blank] number branches).lines
      ++ .closing :: rest) = none := by
  cases branches <;> rw [outlineBranches] <;> rfl

/-! ## Reading a graph back -/

/-- The links of states with the same shape determine where the states go on to, where no further
edge from their node follows. -/
theorem linksOf_unique {frame : Frame} {name : String} {a b : State} {r s : List Line}
    (hr : firstSubject r ≠ some (frame.node name)) (hs : firstSubject s ≠ some (frame.node name))
    (h : linksOf options frame name a ++ r = linksOf options frame name b ++ s) :
    a.next.toList = b.next.toList ∧ r = s := by
  rw [linksOf, linksOf, List.append_assoc, List.append_assoc] at h
  -- whether there is a click depends on the options and the name only
  exact edges_unique (ne_edge_of_firstSubject_ne hr) (ne_edge_of_firstSubject_ne hs)
    (List.append_cancel_left h)

/-- The lines of a graph determine its control flow, also where lines follow that close a block. -/
def GraphReadable (options : ChartOptions) (a : Definition) : Prop :=
  ∀ (number : Nat) (b : Definition) (r s : List Line), a.NamesDistinct → b.NamesDistinct →
    firstSubject r = none → firstSubject s = none →
    (outlineGraph options noFill number a).lines ++ r
      = (outlineGraph options noFill number b).lines ++ s →
    a.skeleton = b.skeleton
      ∧ (outlineGraph options noFill number a).nextFrame
        = (outlineGraph options noFill number b).nextFrame
      ∧ r = s

/-- The lines of the states of a graph determine what the control flow says about them. -/
def StatesReadable (options : ChartOptions) (a : List (String × State)) : Prop :=
  ∀ (frame : Frame) (number : Nat) (b : List (String × State)) (r s : List Line),
    (a.map Prod.fst).Nodup → (b.map Prod.fst).Nodup →
    Definition.StatesNamesDistinct a → Definition.StatesNamesDistinct b →
    firstSubject r = none → firstSubject s = none →
    (outlineStates options noFill frame number a).lines ++ r
      = (outlineStates options noFill frame number b).lines ++ s →
    Definition.statesSkeleton a = Definition.statesSkeleton b
      ∧ (outlineStates options noFill frame number a).nextFrame
        = (outlineStates options noFill frame number b).nextFrame
      ∧ r = s

/-- The lines of a state up to its shape determine its category and the graphs in it, and of a
choice also its targets. -/
def StateReadable (options : ChartOptions) (a : State) : Prop :=
  ∀ (frame : Frame) (number : Nat) (name : String) (b : State) (r s : List Line),
    Definition.StateNamesDistinct a → Definition.StateNamesDistinct b →
    (outlineState options noFill frame number name a).lines
        ++ .declaration (frame.node name) (.of a) :: r
      = (outlineState options noFill frame number name b).lines
        ++ .declaration (frame.node name) (.of b) :: s →
    a.category = b.category
      ∧ (a.category = .choice → a.successors = b.successors)
      ∧ a.graphSkeletons = b.graphSkeletons
      ∧ (outlineState options noFill frame number name a).nextFrame
        = (outlineState options noFill frame number name b).nextFrame
      ∧ r = s

/-- The lines of branches determine their control flow. -/
def BranchesReadable (options : ChartOptions) (a : List Definition) : Prop :=
  ∀ (gap : List Line) (number : Nat) (b : List Definition) (r s : List Line),
    gap = [] ∨ gap = [.blank] →
    Definition.BranchesNamesDistinct a → Definition.BranchesNamesDistinct b →
    (outlineBranches options noFill gap number a).lines ++ .closing :: r
      = (outlineBranches options noFill gap number b).lines ++ .closing :: s →
    Definition.branchesSkeleton a = Definition.branchesSkeleton b
      ∧ (outlineBranches options noFill gap number a).nextFrame
        = (outlineBranches options noFill gap number b).nextFrame
      ∧ r = s

/-- A graph is read back by its first line and its states. -/
theorem graphReadable (startAt : String) (states : List (String × State)) (comment : Option String)
    (timeoutSeconds : Option UInt64) (version : Option String)
    (hstates : StatesReadable options states) :
    GraphReadable options ⟨startAt, states, comment, timeoutSeconds, version⟩ := by
  rintro number ⟨startB, statesB, _, _, _⟩ r s ha hb hr hs h
  rw [Definition.NamesDistinct] at ha hb
  rw [outlineGraph, outlineGraph] at h ⊢
  -- the line that starts the graph names its first state
  have hstart := List.head_eq_of_cons_eq h
  simp only [Line.start.injEq, Frame.node, Node.mk.injEq, true_and] at hstart
  obtain ⟨hskeleton, hframe, hrest⟩ :=
    hstates ⟨number⟩ (number + 1) statesB r s ha.1 hb.1 ha.2 hb.2 hr hs (List.tail_eq_of_cons_eq h)
  exact ⟨by rw [Definition.skeleton, Definition.skeleton, hstart, hskeleton], hframe, hrest⟩

/-- Where there are no states, no line about a state comes first. -/
theorem statesReadable_nil : StatesReadable options [] := by
  intro frame number b r s _ _ _ _ hr _ h
  have hsubject := congrArg firstSubject h
  rw [firstSubject_outlineStates, firstSubject_outlineStates] at hsubject
  cases b with
  | nil =>
    rw [outlineStates] at h
    exact ⟨rfl, rfl, h⟩
  | cons head tail => simp [hr] at hsubject

/-- No edge from a state follows its links, since the states after it have other names. -/
theorem firstSubject_ne_of_not_mem {frame : Frame} {number : Nat} {name : String}
    {rest : List (String × State)} {r : List Line} (hr : firstSubject r = none)
    (hname : name ∉ rest.map Prod.fst) :
    firstSubject ((outlineStates options fill frame number rest).lines ++ r)
      ≠ some (frame.node name) := by
  rw [firstSubject_outlineStates]
  cases rest with
  | nil => simp [hr]
  | cons head tail =>
    rw [List.map_cons, List.mem_cons, not_or] at hname
    simpa [Frame.node] using Ne.symm hname.1

/-- The first of some states is read back by its own lines up to its shape and by its links, and the
others by what remains. -/
theorem statesReadable_cons (name : String) (state : State) (rest : List (String × State))
    (hstate : StateReadable options state) (hrest : StatesReadable options rest) :
    StatesReadable options ((name, state) :: rest) := by
  intro frame number b r s ha hb ha' hb' hr hs h
  have hsubject := congrArg firstSubject h
  rw [firstSubject_outlineStates, firstSubject_outlineStates] at hsubject
  cases b with
  | nil => simp [hs] at hsubject
  | cons head restB =>
    obtain ⟨nameB, stateB⟩ := head
    -- the first line is about the first state, so that both sides name the same one
    simp only [Option.some.injEq, Frame.node, Node.mk.injEq, true_and] at hsubject
    subst hsubject
    rw [List.map_cons, List.nodup_cons] at ha hb
    rw [Definition.StatesNamesDistinct] at ha' hb'
    simp only [outlineStates, noFill, List.append_assoc, List.cons_append, List.nil_append] at h ⊢
    obtain ⟨hcategory, hchoice, hgraphs, hframe, hlinks⟩ :=
      hstate frame number name stateB _ _ ha'.1 hb'.1 h
    -- no edge from this state can come later, so its links end where the next state begins
    obtain ⟨hnext, hstates⟩ := linksOf_unique (firstSubject_ne_of_not_mem hr ha.1)
      (firstSubject_ne_of_not_mem hs hb.1) hlinks
    rw [← hframe] at hstates ⊢
    obtain ⟨hskeleton, hframe', hend⟩ := hrest frame _ restB r s ha.2 hb.2 ha'.2 hb'.2 hr hs hstates
    have hsuccessors : state.successors = stateB.successors := by
      by_cases hc : state.category = .choice
      · exact hchoice hc
      · rw [State.successors_eq_of_not_choice hc,
          State.successors_eq_of_not_choice (hcategory ▸ hc), hnext]
    refine ⟨?_, hframe', hend⟩
    rw [Definition.statesSkeleton, Definition.statesSkeleton, hcategory, hsuccessors, hgraphs,
      hskeleton]

/-- A leaf is read back by its box, and its category by its shape. -/
theorem stateReadable_leaf {state : State} (hchoice : state.category ≠ .choice)
    (hparallel : state.category ≠ .parallel) (hmap : state.category ≠ .map) :
    StateReadable options state := by
  intro frame number name b r s _ _ h
  have hdrawn := drawnAs_eq h
  rw [State.drawnAs_of_leaf hchoice hparallel hmap] at hdrawn
  obtain ⟨hlines, hgraphs⟩ := outlineState_leaf options noFill hchoice hparallel hmap frame number
    name
  rw [hlines] at h ⊢
  cases b.form with
  | choice | parallel | map => cases hdrawn
  | leaf hchoiceB hparallelB hmapB =>
    obtain ⟨hlinesB, hgraphsB⟩ := outlineState_leaf options noFill hchoiceB hparallelB hmapB frame
      number name
    rw [hlinesB] at h ⊢
    simp only [List.cons_append, List.nil_append, List.cons.injEq, Line.declaration.injEq,
      true_and] at h
    exact ⟨State.category_eq_of_shape_eq hparallel hmap hparallelB hmapB h.1,
      fun hc => absurd hc hchoice, hgraphs.trans hgraphsB.symm, rfl, h.2⟩

/-- A choice is read back by its edges. -/
theorem stateReadable_choice (choice : Choice) : StateReadable options (.choice choice) := by
  intro frame number name b r s _ _ h
  have hdrawn := drawnAs_eq h
  cases b.form with
  | leaf hchoice hparallel hmap =>
    rw [State.drawnAs_of_leaf hchoice hparallel hmap] at hdrawn
    cases hdrawn
  | parallel | map => cases hdrawn
  | choice other =>
    rw [outlineState, outlineState] at h ⊢
    -- the edges end at the shape of the choice
    obtain ⟨htargets, hrest⟩ := edges_unique (by simp) (by simp) h
    exact ⟨rfl, fun _ => htargets, rfl, rfl, List.tail_eq_of_cons_eq hrest⟩

/-- A block whose border is not dashed is read back as one with branches. -/
theorem stateReadable_parallel (comment : Option String) (branches : List Definition) (flow : Flow)
    (hbranches : BranchesReadable options branches) :
    StateReadable options (.parallel comment branches flow) := by
  intro frame number name b r s ha hb h
  have hdrawn := drawnAs_eq h
  cases b.form with
  | leaf hchoice hparallel hmap =>
    rw [State.drawnAs_of_leaf hchoice hparallel hmap] at hdrawn
    cases hdrawn
  | choice | map => cases hdrawn
  | parallel commentB branchesB flowB =>
    rw [outlineState, outlineState] at h ⊢
    simp only [Drawing.block, List.cons_append, List.nil_append, List.append_assoc,
      List.cons.injEq, true_and] at h
    obtain ⟨hskeleton, hframe, hrest⟩ := hbranches [] number branchesB _ _ (.inl rfl) ha hb h
    have hchoice : (State.parallel comment branches flow).category ≠ .choice := by
      simp [State.category]
    exact ⟨rfl, fun h => absurd h hchoice, hskeleton, hframe, List.tail_eq_of_cons_eq hrest⟩

/-- A block with a dashed border is read back as one with an iterator. -/
theorem stateReadable_map (comment : Option String) (iterator : Definition)
    (itemsPath : Option String) (maxConcurrency : Option UInt32) (flow : Flow)
    (hiterator : GraphReadable options iterator) :
    StateReadable options (.map comment iterator itemsPath maxConcurrency flow) := by
  intro frame number name b r s ha hb h
  have hdrawn := drawnAs_eq h
  cases b.form with
  | leaf hchoice hparallel hmap =>
    rw [State.drawnAs_of_leaf hchoice hparallel hmap] at hdrawn
    cases hdrawn
  | choice | parallel => cases hdrawn
  | map commentB iteratorB itemsPathB maxConcurrencyB flowB =>
    rw [outlineState, outlineState] at h ⊢
    simp only [Drawing.block, List.cons_append, List.nil_append, List.append_assoc,
      List.cons.injEq, true_and] at h
    -- a line that closes the block follows the iterator, so that the iterator is read back whole
    obtain ⟨hskeleton, hframe, hrest⟩ := hiterator number iteratorB _ _ ha hb rfl rfl h
    rw [State.graphSkeletons, State.graphSkeletons, hskeleton]
    have hchoice :
        (State.map comment iterator itemsPath maxConcurrency flow).category ≠ .choice := by
      simp [State.category]
    have hafter := (List.cons.inj (List.tail_eq_of_cons_eq hrest)).2
    exact ⟨rfl, fun h => absurd h hchoice, rfl, hframe, hafter⟩

/-- Where there are no branches, the block is closed. -/
theorem branchesReadable_nil : BranchesReadable options [] := by
  intro gap number b r s hgap _ _ h
  cases b with
  | nil =>
    rw [outlineBranches] at h ⊢
    exact ⟨rfl, rfl, List.tail_eq_of_cons_eq h⟩
  | cons branch rest =>
    obtain ⟨node, lines, hstart⟩ := exists_outlineGraph_eq_cons options noFill number branch
    rw [outlineBranches, outlineBranches] at h
    rcases hgap with rfl | rfl <;> simp [hstart] at h

/-- The first of some branches ends at a blank line or where the block is closed. -/
theorem branchesReadable_cons (branch : Definition) (rest : List Definition)
    (hbranch : GraphReadable options branch) (hrest : BranchesReadable options rest) :
    BranchesReadable options (branch :: rest) := by
  intro gap number b r s hgap ha hb h
  cases b with
  | nil =>
    obtain ⟨node, lines, hstart⟩ := exists_outlineGraph_eq_cons options noFill number branch
    rw [outlineBranches, outlineBranches] at h
    rcases hgap with rfl | rfl <;> simp [hstart] at h
  | cons branchB restB =>
    rw [Definition.BranchesNamesDistinct] at ha hb
    simp only [outlineBranches, List.append_assoc] at h ⊢
    -- after the first branch comes a blank line or the end of the block, on either side
    obtain ⟨hskeleton, hframe, hothers⟩ := hbranch number branchB _ _ ha.1 hb.1
      (firstSubject_outlineBranches _ _ _) (firstSubject_outlineBranches _ _ _)
      (List.append_cancel_left h)
    rw [← hframe] at hothers ⊢
    obtain ⟨hskeletons, hframe', hend⟩ :=
      hrest [.blank] _ restB r s (.inr rfl) ha.2 hb.2 hothers
    refine ⟨?_, hframe', hend⟩
    rw [Definition.branchesSkeleton, Definition.branchesSkeleton, hskeleton, hskeletons]

/-- The cases of reading a definition back. -/
theorem readableCases (options : ChartOptions) :
    Definition.Cases (GraphReadable options) (StatesReadable options) (StateReadable options)
      (BranchesReadable options) where
  graph := graphReadable
  noStates := statesReadable_nil
  addState := statesReadable_cons
  plain state hparallel hmap := by
    cases state.form with
    | leaf hchoice => exact stateReadable_leaf hchoice hparallel hmap
    | choice choice => exact stateReadable_choice choice
    | parallel => exact absurd rfl hparallel
    | map => exact absurd rfl hmap
  parallel := stateReadable_parallel
  map := stateReadable_map
  noBranches := branchesReadable_nil
  addBranch := branchesReadable_cons

end Chart

end WorkflowChart
