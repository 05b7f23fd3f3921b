import Mathlib.Data.List.Basic
import WorkflowChart.Definition.Builder
import WorkflowChart.Definition.References
import WorkflowChart.Proofs.Definition.Induction
import WorkflowChart.Proofs.Definition.Targets

/-!
# The dangling references that are reported

A reference has a place in the document of its definition: which graph it is in, which state of that
graph, and which of its targets. The places are ordered as a reader meets them. The dangling
references are reported in this order, each one once, and nothing else is reported.

* **`InOrder`**: a list shows just what there is, in ascending order of the places.
* **`InOrder.flatMap`**: lists that are in order, one after another, are in order.
* **`Definition.DanglesAt`**: a name at a place is none of the names of the graph that it is in.
* **`Definition.dangling_eq`**: the report on a graph goes through its start and its states, and
  after each state through the graphs in it.
* **`Definition.inOrder_danglingReferences`**: the report shows just the names that dangle.
-/

namespace WorkflowChart

/-! ## Lists in the order of places -/

/-- The list shows just the items that there are at places, each once, in ascending order of the
places. Places are compared number by number. -/
def InOrder {α : Type} (items : List α) (At : List Nat → α → Prop) : Prop :=
  ∃ found : List (List Nat × α), found.map Prod.snd = items ∧
    (found.map Prod.fst).Pairwise (· < ·) ∧ ∀ place item, (place, item) ∈ found ↔ At place item

namespace InOrder

variable {α β : Type} {items others : List α} {At At' : List Nat → α → Prop}

/-- Nothing is in order. -/
theorem nil : InOrder ([] : List α) fun _ _ => False :=
  ⟨[], rfl, List.Pairwise.nil, by simp⟩

/-- One item is in order. -/
theorem singleton (place : List Nat) (item : α) :
    InOrder [item] fun other found => other = place ∧ found = item :=
  ⟨[(place, item)], rfl, List.pairwise_singleton _ _, by simp⟩

/-- Items stand in order at places that are told in another way as well. -/
theorem congr (h : InOrder items At) (hiff : ∀ place item, At place item ↔ At' place item) :
    InOrder items At' := by
  obtain ⟨found, hitems, hordered, hmem⟩ := h
  exact ⟨found, hitems, hordered, fun place item => (hmem place item).trans (hiff place item)⟩

/-- Two lists one after the other are in order if all places of the first come first. -/
theorem append (h : InOrder items At) (h' : InOrder others At')
    (hlt : ∀ place item place' item', At place item → At' place' item' → place < place') :
    InOrder (items ++ others) fun place item => At place item ∨ At' place item := by
  obtain ⟨found, hitems, hordered, hmem⟩ := h
  obtain ⟨found', hitems', hordered', hmem'⟩ := h'
  refine ⟨found ++ found', ?_, ?_, ?_⟩
  · rw [List.map_append, hitems, hitems']
  · rw [List.map_append, List.pairwise_append]
    refine ⟨hordered, hordered', ?_⟩
    intro place hplace place' hplace'
    obtain ⟨⟨_, item⟩, hitem, rfl⟩ := List.mem_map.1 hplace
    obtain ⟨⟨_, item'⟩, hitem', rfl⟩ := List.mem_map.1 hplace'
    exact hlt _ item _ item' ((hmem _ _).1 hitem) ((hmem' _ _).1 hitem')
  · intro place item
    rw [List.mem_append, hmem, hmem']

/-- A number in front of all places changes nothing of their order. -/
theorem within (h : InOrder items At) (number : Nat) :
    InOrder items fun place item => ∃ rest, place = number :: rest ∧ At rest item := by
  obtain ⟨found, hitems, hordered, hmem⟩ := h
  refine ⟨found.map fun entry => (number :: entry.1, entry.2), ?_, ?_, ?_⟩
  · rw [List.map_map]
    exact hitems
  · rw [List.map_map, List.pairwise_map]
    rw [List.pairwise_map] at hordered
    exact hordered.imp fun hlt => List.cons_lt_cons_iff.2 (Or.inr ⟨rfl, hlt⟩)
  · intro place item
    rw [List.mem_map]
    constructor
    · rintro ⟨⟨rest, item⟩, hentry, heq⟩
      cases heq
      exact ⟨rest, rfl, (hmem _ _).1 hentry⟩
    · rintro ⟨rest, rfl, hat⟩
      exact ⟨(rest, item), (hmem _ _).2 hat, rfl⟩

/-- As `flatMap`, where the elements are counted from a number on. -/
theorem flatMap_from {f : β → List α} {At : β → List Nat → α → Prop} {elements : List β}
    (h : ∀ element ∈ elements, InOrder (f element) (At element)) (start : Nat) :
    InOrder (elements.flatMap f) fun place item => ∃ i element rest,
      elements[i]? = some element ∧ place = (start + i) :: rest ∧ At element rest item := by
  induction elements generalizing start with
  | nil => exact nil.congr (by simp)
  | cons element elements ih =>
    obtain ⟨hfirst, hothers⟩ := List.forall_mem_cons.1 h
    rw [List.flatMap_cons]
    -- the first element has the first number, and the others have the numbers after it
    refine ((hfirst.within start).append (ih hothers (start + 1)) ?_).congr ?_
    · rintro _ _ _ _ ⟨rest, rfl, -⟩ ⟨i, _, rest', -, rfl, -⟩
      exact List.cons_lt_cons_iff.2 (Or.inl (by omega))
    · intro place item
      constructor
      · rintro (⟨rest, rfl, hat⟩ | ⟨i, other, rest, hother, rfl, hat⟩)
        · exact ⟨0, element, rest, rfl, rfl, hat⟩
        · refine ⟨i + 1, other, rest, by simpa using hother, ?_, hat⟩
          rw [show start + 1 + i = start + (i + 1) by omega]
      · rintro ⟨i, other, rest, hother, rfl, hat⟩
        cases i with
        | zero =>
          cases hother
          exact Or.inl ⟨rest, rfl, hat⟩
        | succ i =>
          refine Or.inr ⟨i, other, rest, by simpa using hother, ?_, hat⟩
          rw [show start + 1 + i = start + (i + 1) by omega]

/-- **Lists one after another**: where the list of each element is in order, they are in order
together, with the number of the element in front of the places in its list. -/
theorem flatMap {f : β → List α} {At : β → List Nat → α → Prop} {elements : List β}
    (h : ∀ element ∈ elements, InOrder (f element) (At element)) :
    InOrder (elements.flatMap f) fun place item => ∃ i element rest,
      elements[i]? = some element ∧ place = i :: rest ∧ At element rest item :=
  (flatMap_from h 0).congr (by simp)

/-- What is in order shows what there is. -/
theorem mem_iff (h : InOrder items At) (item : α) : item ∈ items ↔ ∃ place, At place item := by
  obtain ⟨found, rfl, -, hmem⟩ := h
  rw [List.mem_map]
  constructor
  · rintro ⟨⟨place, item⟩, hfound, rfl⟩
    exact ⟨place, (hmem _ _).1 hfound⟩
  · rintro ⟨place, hat⟩
    exact ⟨(place, item), (hmem _ _).2 hat, rfl⟩

/-- What is in order shows nothing twice just where nothing is at two places. -/
theorem nodup_iff (h : InOrder items At) :
    items.Nodup ↔ ∀ place place' item, At place item → At place' item → place = place' := by
  obtain ⟨found, rfl, hordered, hmem⟩ := h
  have hfound : found.Nodup := by
    refine .of_map Prod.fst (hordered.imp fun {place place'} hlt => ?_)
    rintro rfl
    exact List.lt_irrefl place hlt
  rw [List.nodup_map_iff_inj_on hfound]
  constructor
  · intro hinj place place' item hat hat'
    exact congrArg Prod.fst (hinj _ ((hmem _ _).2 hat) _ ((hmem _ _).2 hat') rfl)
  · rintro hplaces ⟨place, item⟩ hitem ⟨place', item'⟩ hitem' heq
    obtain rfl : item = item' := heq
    rw [hplaces place place' item ((hmem _ _).1 hitem) ((hmem _ _).1 hitem')]

end InOrder

/-! ## The graphs in a state, with their paths -/

/-- The graphs that stand in a state, each after its path. -/
def State.parts (path name : String) : State → List (String × Definition)
  | .parallel _ branches _ =>
    branches.mapIdx fun index branch => (Definition.branchPath path name index, branch)
  | .map _ iterator _ _ _ => [(Definition.iteratorPath path name, iterator)]
  | .pass _ | .task _ | .choice _ | .fail _ | .succeed _ | .wait _ => []

namespace Definition

/-- A name in a graph is none of the names of this graph's states. Its place tells the start of the
graph (`0`) from its states (`1`), numbers the state, and tells a target of the state (`0`), which
it numbers, from a graph in the state (`1`), which it numbers too and goes on in. -/
inductive DanglesAt : (path : String) → Definition → List Nat → ReferenceError → Prop
  | start {path : String} {graph : Definition}
      (hunknown : graph.startAt ∉ graph.states.map Prod.fst) :
      DanglesAt path graph [0] (.unknownStart path graph.startAt)
  | target {path : String} {graph : Definition} {i j : Nat} {name target : String} {state : State}
      (hstate : graph.states[i]? = some (name, state))
      (htarget : state.successors[j]? = some target)
      (hunknown : target ∉ graph.states.map Prod.fst) :
      DanglesAt path graph [1, i, 0, j] (.unknownTarget path name target)
  | inside {path inner : String} {graph part : Definition} {i j : Nat} {name : String}
      {state : State} {place : List Nat} {error : ReferenceError}
      (hstate : graph.states[i]? = some (name, state))
      (hpart : (state.parts path name)[j]? = some (inner, part))
      (hdangles : DanglesAt inner part place error) :
      DanglesAt path graph (1 :: i :: 1 :: j :: place) error

/-! ## The report on a graph -/

/-- The report on branches is the one on each of them under its own path. -/
theorem danglingBranches_eq (path name : String) (index : Nat) (branches : List Definition) :
    danglingBranches path name index branches =
      (branches.mapIdx fun i branch => (branchPath path name (index + i), branch)).flatMap
        fun part => part.2.dangling part.1 := by
  induction branches generalizing index with
  | nil => rfl
  | cons branch branches ih =>
    rw [danglingBranches, ih, List.mapIdx_cons, List.flatMap_cons]
    simp only [Nat.add_zero, Nat.add_comm, Nat.add_left_comm]

/-- The report on a state's inside goes through the graphs that stand in it. -/
theorem danglingInside_eq (path name : String) (state : State) :
    danglingInside path name state =
      (state.parts path name).flatMap fun part => part.2.dangling part.1 := by
  cases state with
  | parallel comment branches flow =>
    rw [danglingInside, danglingBranches_eq, State.parts]
    simp only [Nat.zero_add]
  | map => simp [danglingInside, State.parts]
  | pass | task | choice | fail | succeed | wait =>
    rw [danglingInside, State.parts, List.flatMap_nil]

/-- The report on states is the one on each of them: its targets, then the graphs in it. -/
theorem danglingStates_eq (names : List String) (path : String) (states : List (String × State)) :
    danglingStates names path states =
      states.flatMap fun entry => unknownTargets names path entry.1 entry.2.successors
        ++ (entry.2.parts path entry.1).flatMap fun part => part.2.dangling part.1 := by
  induction states with
  | nil => rfl
  | cons entry rest ih =>
    rw [danglingStates, ih, danglingInside_eq, List.flatMap_cons]

/-- **The report on a graph**: its start, then each of its states with its targets, followed by the
graphs in it. -/
theorem dangling_eq (path : String) (graph : Definition) :
    graph.dangling path =
      (if graph.startAt ∈ graph.states.map Prod.fst then []
        else [.unknownStart path graph.startAt])
      ++ graph.states.flatMap fun entry =>
        unknownTargets (graph.states.map Prod.fst) path entry.1 entry.2.successors
          ++ (entry.2.parts path entry.1).flatMap fun part => part.2.dangling part.1 := by
  obtain ⟨startAt, states, comment, timeoutSeconds, version⟩ := graph
  rw [dangling, danglingStates_eq]

/-- The targets of a state that are unknown are reported in their order. -/
theorem inOrder_unknownTargets (names : List String) (path state : String)
    (targets : List String) :
    InOrder (unknownTargets names path state targets) fun place error =>
      ∃ j target, targets[j]? = some target ∧ place = [j] ∧ target ∉ names ∧
        error = .unknownTarget path state target := by
  -- filtering the targets is putting together a list for each of them
  have hflat : unknownTargets names path state targets = targets.flatMap fun target =>
      if target ∈ names then [] else [.unknownTarget path state target] := by
    induction targets with
    | nil => rfl
    | cons target targets ih =>
      rw [unknownTargets] at ih ⊢
      rw [List.flatMap_cons, ← ih]
      by_cases hmem : target ∈ names <;> simp [hmem]
  rw [hflat]
  have htarget : ∀ target ∈ targets,
      InOrder (if target ∈ names then [] else [ReferenceError.unknownTarget path state target])
        fun place error => place = [] ∧ target ∉ names ∧
          error = .unknownTarget path state target := by
    intro target _
    by_cases hmem : target ∈ names
    · rw [if_pos hmem]
      exact InOrder.nil.congr (by simp [hmem])
    · rw [if_neg hmem]
      exact (InOrder.singleton [] _).congr (by simp [hmem])
  refine (InOrder.flatMap htarget).congr ?_
  intro place error
  constructor
  · rintro ⟨j, target, rest, htarget, rfl, rfl, hunknown, herror⟩
    exact ⟨j, target, htarget, rfl, hunknown, herror⟩
  · rintro ⟨j, target, htarget, rfl, hunknown, herror⟩
    exact ⟨j, target, [], htarget, rfl, rfl, hunknown, herror⟩

/-- The report on a graph shows just what dangles, if the reports on the graphs in it do. -/
theorem inOrder_dangling_of_parts {path : String} {graph : Definition}
    (hparts : ∀ entry ∈ graph.states, ∀ part ∈ entry.2.parts path entry.1,
      InOrder (part.2.dangling part.1) (part.2.DanglesAt part.1)) :
    InOrder (graph.dangling path) (graph.DanglesAt path) := by
  let names := graph.states.map Prod.fst
  have hstart : InOrder (if graph.startAt ∈ names then []
        else [ReferenceError.unknownStart path graph.startAt]) fun place error =>
      place = [0] ∧ graph.startAt ∉ names ∧ error = .unknownStart path graph.startAt := by
    by_cases hmem : graph.startAt ∈ names
    · rw [if_pos hmem]
      exact InOrder.nil.congr (by simp [hmem])
    · rw [if_neg hmem]
      exact (InOrder.singleton [0] _).congr (by simp [hmem])
  -- 0 stands for the targets of a state and 1 for the graphs in it
  have hstates := InOrder.flatMap fun entry hentry =>
    ((inOrder_unknownTargets names path entry.1 entry.2.successors).within 0).append
      ((InOrder.flatMap (hparts entry hentry)).within 1) (by
        rintro _ _ _ _ ⟨rest, rfl, -⟩ ⟨rest', rfl, -⟩
        exact List.cons_lt_cons_iff.2 (Or.inl Nat.zero_lt_one))
  rw [dangling_eq]
  -- 0 stands for the start of a graph and 1 for its states
  refine (hstart.append (hstates.within 1) ?_).congr ?_
  · rintro _ _ _ _ ⟨rfl, -⟩ ⟨rest, rfl, -⟩
    exact List.cons_lt_cons_iff.2 (Or.inl Nat.zero_lt_one)
  · intro place error
    constructor
    · rintro (⟨rfl, hunknown, rfl⟩ |
        ⟨_, rfl, i, ⟨name, state⟩, _, hstate, rfl,
          ⟨_, rfl, j, target, htarget, rfl, hunknown, rfl⟩ |
          ⟨_, rfl, j, ⟨inner, part⟩, rest, hpart, rfl, hdangles⟩⟩)
      · exact .start hunknown
      · exact .target hstate htarget hunknown
      · exact .inside hstate hpart hdangles
    · intro hdangles
      cases hdangles with
      | start hunknown => exact Or.inl ⟨rfl, hunknown, rfl⟩
      | target hstate htarget hunknown =>
        exact Or.inr ⟨_, rfl, _, _, _, hstate, rfl,
          Or.inl ⟨_, rfl, _, _, htarget, rfl, hunknown, rfl⟩⟩
      | inside hstate hpart hinner =>
        exact Or.inr ⟨_, rfl, _, _, _, hstate, rfl,
          Or.inr ⟨_, rfl, _, _, _, hpart, rfl, hinner⟩⟩

/-- The report on a graph at any depth has its dangling references, in order and once each. -/
theorem inOrderCases :
    Cases (fun graph => ∀ path, InOrder (graph.dangling path) (graph.DanglesAt path))
      (fun states => ∀ entry ∈ states, ∀ path, ∀ part ∈ entry.2.parts path entry.1,
        InOrder (part.2.dangling part.1) (part.2.DanglesAt part.1))
      (fun state => ∀ path name, ∀ part ∈ state.parts path name,
        InOrder (part.2.dangling part.1) (part.2.DanglesAt part.1))
      (fun branches => ∀ branch ∈ branches, ∀ path,
        InOrder (branch.dangling path) (branch.DanglesAt path)) where
  graph startAt states comment timeoutSeconds version hstates := by
    intro path
    exact inOrder_dangling_of_parts fun entry hentry => hstates entry hentry path
  noStates := List.forall_mem_nil _
  addState name state rest hstate hrest := by
    rw [List.forall_mem_cons]
    exact ⟨fun path => hstate path name, hrest⟩
  plain state hparallel hmap := by
    intro path name part hpart
    cases state with
    | parallel => exact absurd rfl hparallel
    | map => exact absurd rfl hmap
    | pass | task | choice | fail | succeed | wait => exact absurd hpart List.not_mem_nil
  parallel comment branches flow hbranches := by
    intro path name part hpart
    obtain ⟨i, hi, rfl⟩ := List.mem_mapIdx.1 hpart
    exact hbranches _ (List.getElem_mem hi) _
  map comment iterator itemsPath maxConcurrency flow hiterator := by
    intro path name part hpart
    obtain rfl := List.mem_singleton.1 hpart
    exact hiterator _
  noBranches := List.forall_mem_nil _
  addBranch branch rest hbranch hrest := List.forall_mem_cons.2 ⟨hbranch, hrest⟩

/-- A branch that uses a name of the graph around it. -/
example :
    let branch : Definition := { startAt := "Inner", states := [("Inner", .taskTo "Outer")] }
    let definition : Definition :=
      { startAt := "Fan"
        states := [("Fan", .parallelTo [branch] "Outer"), ("Outer", .success)] }
    definition.danglingReferences =
      [.unknownTarget "StateMachine.Fan.Branches[0]" "Inner" "Outer"] := by
  decide

end Definition

end WorkflowChart
