import WorkflowChart.Proofs.Definition.Dangling
import WorkflowChart.Proofs.Definition.Graphs
import WorkflowChart.Proofs.Text.Digits

/-!
# Where an error says that it is

The address of a graph lists the names on the way to it from the outermost graph, each with the
graph of that state that the way goes on in. A reference error shows the path that an address is
written as, and there the names stand as they are, with full stops between them. A name with full
stops in it can go on as the path of a graph in another state does. Then two graphs have one path.

* **`Definition.Loose`**: a reference at an address that is none of the names of its graph.
* **`Definition.danglesAt_iff`**: what dangles is reported with the path of its address.
* **`Address.Overlaps`**: a name goes on as a path in another state does, up to the same end.
* **`Address.text_eq_iff`**: two addresses are written alike just where they overlap.
* **`Definition.nodup_danglingReferences_iff`**: so an error tells its place as far as that.
-/

namespace WorkflowChart

/-! ## Addresses -/

/-- Which of the graphs in a state: one of its branches, or its iterator. -/
inductive Subgraph where
  | branch (index : Nat)
  | iterator
deriving DecidableEq

namespace Subgraph

/-- How a graph in a state is written in a path. -/
def label : Subgraph → String
  | branch index => "Branches[" ++ toString index ++ "]"
  | iterator => "Iterator"

/-- The path of a graph in the state `name`. -/
def path (path name : String) : Subgraph → String
  | branch index => Definition.branchPath path name index
  | iterator => Definition.iteratorPath path name

/-- The path of a graph in a state goes on from that of the graph with the state by the name and a
label. -/
theorem path_eq (path name : String) (sub : Subgraph) :
    sub.path path name = path ++ ("." ++ name ++ "." ++ sub.label) := by
  cases sub with
  | branch index =>
    rw [Subgraph.path, Definition.branchPath, label, ← String.toList_inj]
    simp
  | iterator =>
    rw [Subgraph.path, Definition.iteratorPath, label, ← String.toList_inj]
    simp

/-- The label of a branch has the decimal digits of its index in brackets. -/
theorem toList_label_branch (index : Nat) :
    (branch index).label.toList = "Branches[".toList ++ (Nat.toDigits 10 index ++ [']']) := by
  simp [label]

/-- Different graphs of a state have different labels. -/
theorem label_injective {sub other : Subgraph} (h : sub.label = other.label) : sub = other := by
  rw [← String.toList_inj] at h
  cases sub with
  | branch index =>
    cases other with
    | branch number =>
      rw [toList_label_branch, toList_label_branch, List.append_cancel_left_eq,
        List.append_cancel_right_eq] at h
      rw [decimalDigits_injective h]
    | iterator =>
      rw [toList_label_branch] at h
      cases h
  | iterator =>
    cases other with
    | branch number =>
      rw [toList_label_branch] at h
      cases h
    | iterator => rfl

/-- There is no full stop in a label. -/
theorem not_mem_label (sub : Subgraph) : '.' ∉ sub.label.toList := by
  cases sub with
  | branch index =>
    have hdigits : '.' ∉ Nat.toDigits 10 index := fun hmem =>
      absurd (Nat.isDigit_of_mem_toDigits (by decide) (by decide) hmem) (by decide)
    rw [toList_label_branch]
    simp [hdigits]
  | iterator => decide

end Subgraph

/-- The way to a graph: the name of a state and the graph in it, again and again. -/
abbrev Address := List (String × Subgraph)

namespace Address

/-- What stands for an address in a path. -/
def text : Address → String
  | [] => ""
  | (name, sub) :: rest => "." ++ name ++ "." ++ sub.label ++ text rest

/-- The path of the graph at an address. -/
def path (address : Address) : String :=
  Definition.rootPath ++ address.text

/-- The text of an address begins with a full stop, a name, a full stop and a label. -/
theorem toList_text_cons (name : String) (sub : Subgraph) (rest : Address) :
    (text ((name, sub) :: rest)).toList =
      '.' :: (name.toList ++ '.' :: (sub.label.toList ++ (text rest).toList)) := by
  simp [text]

/-- The name of a state goes on from the name of another one of the same graph as the path of a
graph in that state does, and both paths end alike. -/
inductive Overlaps : Address → Address → Prop
  | here {name other between : String} {sub sub' : Subgraph} {rest rest' : Address}
    (hname : other = name ++ "." ++ sub.label ++ between)
    (htext : text rest = between ++ "." ++ sub'.label ++ text rest') :
    Overlaps ((name, sub) :: rest) ((other, sub') :: rest')
  | further {address address' : Address} (step : String × Subgraph)
    (h : Overlaps address address') : Overlaps (step :: address) (step :: address')

/-- Addresses that overlap are written alike. -/
theorem Overlaps.text_eq {address address' : Address} (h : Overlaps address address') :
    address.text = address'.text := by
  induction h with
  | here hname htext =>
    rw [text, text, hname, htext]
    simp only [String.append_assoc]
  | further step _ ih =>
    obtain ⟨name, sub⟩ := step
    rw [text, text, ih]

/-- Addresses that overlap are different. -/
theorem Overlaps.ne {address address' : Address} (h : Overlaps address address') :
    address ≠ address' := by
  induction h with
  | here hname htext =>
    intro heq
    cases heq
    have hlength := congrArg String.length hname
    have hstop : String.length "." = 1 := rfl
    simp only [String.length_append, hstop] at hlength
    omega
  | further step _ ih => exact fun heq => ih (List.tail_eq_of_cons_eq heq)

/-- Where a text is cut at a full stop after a name and a label, a longer name takes in the label,
and some of what comes after it. -/
theorem exists_between {label other rest rest' added : List Char} (hlabel : '.' ∉ label)
    (h : '.' :: (label ++ rest) = added ++ '.' :: (other ++ rest')) :
    added = [] ∨ ∃ between, added = '.' :: (label ++ between) ∧
      rest = between ++ '.' :: (other ++ rest') := by
  cases added with
  | nil => exact .inl rfl
  | cons c added =>
    rw [List.cons_append, List.cons.injEq] at h
    obtain ⟨rfl, h⟩ := h
    rcases List.append_eq_append_iff.1 h with ⟨between, rfl, hrest⟩ | ⟨within, rfl, hwithin⟩
    · exact .inr ⟨between, rfl, hrest⟩
    · cases within with
      | nil => exact .inr ⟨[], by simp, hwithin.symm⟩
      | cons d within =>
        -- the full stop would be in the label
        obtain rfl : '.' = d := List.head_eq_of_cons_eq hwithin
        simp at hlabel

/-- What follows on a label begins with a full stop, so the label ends where that is. -/
theorem label_unique {label other : List Char} {rest rest' : Address} (hlabel : '.' ∉ label)
    (hother : '.' ∉ other) (h : label ++ (text rest).toList = other ++ (text rest').toList) :
    label = other ∧ text rest = text rest' := by
  have hnone : ∀ rest : Address, (text rest).toList.takeWhile (· ≠ '.') = [] := by
    intro rest
    cases rest with
    | nil => rfl
    | cons step rest =>
      obtain ⟨name, sub⟩ := step
      rw [toList_text_cons]
      rfl
  have htake := congrArg (List.takeWhile (· ≠ '.')) h
  rw [List.takeWhile_append_of_pos (by simpa using fun c hc => ne_of_mem_of_not_mem hc hlabel),
    List.takeWhile_append_of_pos (by simpa using fun c hc => ne_of_mem_of_not_mem hc hother),
    hnone, hnone, List.append_nil, List.append_nil] at htake
  subst htake
  exact ⟨rfl, String.toList_inj.1 (List.append_cancel_left h)⟩

/-- A longer name overlaps. -/
theorem overlaps_of_added {name other : String} {sub sub' : Subgraph} {rest rest' : Address}
    {added : List Char} (hother : other.toList = name.toList ++ added) (hne : name ≠ other)
    (h : '.' :: (sub.label.toList ++ (text rest).toList) =
      added ++ '.' :: (sub'.label.toList ++ (text rest').toList)) :
    Overlaps ((name, sub) :: rest) ((other, sub') :: rest') := by
  have hadded : added ≠ [] := by
    rintro rfl
    rw [List.append_nil] at hother
    exact hne (String.toList_inj.1 hother.symm)
  obtain ⟨between, rfl, hrest⟩ := (exists_between sub.not_mem_label h).resolve_left hadded
  have hname : other = name ++ "." ++ sub.label ++ String.ofList between := by
    rw [← String.toList_inj, hother]
    simp
  have htext : text rest = String.ofList between ++ "." ++ sub'.label ++ text rest' := by
    rw [← String.toList_inj, hrest]
    simp
  exact .here hname htext

/-- Where two addresses are written alike, so are their first steps, or the longer name overlaps. -/
theorem step_eq_or_overlaps {name other : String} {sub sub' : Subgraph} {rest rest' : Address}
    (h : text ((name, sub) :: rest) = text ((other, sub') :: rest')) :
    (name, sub) = (other, sub') ∧ text rest = text rest' ∨
      Overlaps ((name, sub) :: rest) ((other, sub') :: rest') ∨
      Overlaps ((other, sub') :: rest') ((name, sub) :: rest) := by
  rw [← String.toList_inj, toList_text_cons, toList_text_cons, List.cons_inj_right] at h
  by_cases hname : name = other
  · subst hname
    have hrest := List.tail_eq_of_cons_eq (List.append_cancel_left h)
    obtain ⟨hlabel, hrest⟩ := label_unique sub.not_mem_label sub'.not_mem_label hrest
    rw [Subgraph.label_injective (String.toList_inj.1 hlabel)]
    exact .inl ⟨rfl, hrest⟩
  · rcases List.append_eq_append_iff.1 h with ⟨added, hother, h⟩ | ⟨added, hother, h⟩
    · exact .inr (.inl (overlaps_of_added hother hname h))
    · exact .inr (.inr (overlaps_of_added hother (Ne.symm hname) h))

/-- **Addresses are written alike** just where they are the same or one overlaps the other. -/
theorem text_eq_iff {address address' : Address} :
    address.text = address'.text ↔
      address = address' ∨ Overlaps address address' ∨ Overlaps address' address := by
  constructor
  · intro h
    induction address generalizing address' with
    | nil =>
      cases address' with
      | nil => exact .inl rfl
      | cons step rest =>
        rw [← String.toList_inj, toList_text_cons] at h
        cases h
    | cons step rest ih =>
      cases address' with
      | nil =>
        rw [← String.toList_inj, toList_text_cons] at h
        cases h
      | cons step' rest' =>
        -- the first steps are the same, and the others are compared, or one goes on in the other
        rcases step_eq_or_overlaps h with ⟨hstep, hrest⟩ | hoverlaps
        · obtain rfl : step = step' := hstep
          rcases ih hrest with rfl | hoverlaps | hoverlaps
          · exact .inl rfl
          · exact .inr (.inl (.further step hoverlaps))
          · exact .inr (.inr (.further step hoverlaps))
        · exact .inr hoverlaps
  · rintro (rfl | h | h)
    · rfl
    · exact h.text_eq
    · exact h.text_eq.symm

/-- Paths are the same just where the texts of the addresses are. -/
theorem path_inj {address address' : Address} :
    address.path = address'.path ↔ address.text = address'.text := by
  rw [path, path, ← String.toList_inj, String.toList_append, String.toList_append,
    List.append_cancel_left_eq, String.toList_inj]

end Address

/-! ## References that are loose -/

/-- What is referred to in a graph: the state to start at, or a target of a state. -/
inductive Reference where
  | start (name : String)
  | target (state name : String)
deriving DecidableEq

namespace Reference

/-- The error that tells of a reference in the graph with the path. -/
def error (path : String) : Reference → ReferenceError
  | start name => .unknownStart path name
  | target state name => .unknownTarget path state name

/-- An error tells the path and the reference. -/
theorem error_inj {path path' : String} {reference reference' : Reference} :
    reference.error path = reference'.error path' ↔ path = path' ∧ reference = reference' := by
  cases reference <;> cases reference' <;> simp [error]

/-- Two references have one error where they are alike, at one address or at two that overlap. -/
theorem error_path_eq_iff {address address' : Address} {reference reference' : Reference} :
    reference.error address.path = reference'.error address'.path ↔ reference = reference' ∧
      (address = address' ∨ address.Overlaps address' ∨ address'.Overlaps address) := by
  rw [error_inj, Address.path_inj, Address.text_eq_iff, and_comm]

end Reference

namespace State

/-- The graphs that stand in a state. -/
def subgraphs : State → List (Subgraph × Definition)
  | .parallel _ branches _ => branches.zipIdx.map fun entry => (.branch entry.2, entry.1)
  | .map _ iterator _ _ _ => [(.iterator, iterator)]
  | .pass _ | .task _ | .choice _ | .fail _ | .succeed _ | .wait _ => []

/-- The parts of a state are the graphs in it with their paths. -/
theorem parts_eq_map (state : State) (path name : String) :
    state.parts path name =
      state.subgraphs.map fun entry => (entry.1.path path name, entry.2) := by
  cases state with
  | parallel comment branches flow =>
    rw [parts, subgraphs, List.mapIdx_eq_zipIdx_map, List.map_map]
    rfl
  | map | pass | task | choice | fail | succeed | wait => rfl

/-- The graphs in a state are told apart by what they are in it. -/
theorem nodup_subgraphs (state : State) : (state.subgraphs.map Prod.fst).Nodup := by
  cases state with
  | parallel comment branches flow =>
    have hkeys : (branches.zipIdx.map Prod.snd).Nodup := by
      rw [List.zipIdx_map_snd]
      exact List.nodup_range'
    have hbranches := hkeys.map (f := Subgraph.branch) fun _ _ => Subgraph.branch.inj
    rw [List.map_map] at hbranches
    rw [subgraphs, List.map_map]
    exact hbranches
  | map => exact List.nodup_singleton _
  | pass | task | choice | fail | succeed | wait => exact List.nodup_nil

/-- The graphs of a graph in a state are graphs in the state. -/
theorem mem_graphs_of_subgraph {state : State} {sub : Subgraph} {part graph : Definition}
    (hsub : (sub, part) ∈ state.subgraphs) (hgraph : graph ∈ part.graphs) :
    graph ∈ state.graphs := by
  cases state with
  | parallel comment branches flow =>
    obtain ⟨⟨branch, i⟩, hbranch, heq⟩ := List.mem_map.1 hsub
    cases heq
    rw [graphs, Definition.mem_graphsOfBranches_iff]
    exact ⟨branch, List.fst_mem_of_mem_zipIdx hbranch, hgraph⟩
  | map comment iterator itemsPath maxConcurrency flow =>
    cases List.mem_singleton.1 hsub
    rw [graphs]
    exact hgraph
  | pass | task | choice | fail | succeed | wait => exact absurd hsub List.not_mem_nil

end State

/-- A key that comes once is at one place, with one value. -/
theorem index_unique {κ α : Type} {entries : List (κ × α)} (hnodup : (entries.map Prod.fst).Nodup)
    {i j : Nat} {key : κ} {value value' : α} (hi : entries[i]? = some (key, value))
    (hj : entries[j]? = some (key, value')) : i = j ∧ value = value' := by
  have hlt : i < (entries.map Prod.fst).length := by
    rw [List.length_map]
    exact (List.getElem?_eq_some_iff.1 hi).1
  obtain rfl : i = j := by
    refine (List.getElem?_inj hlt hnodup).1 ?_
    rw [List.getElem?_map, List.getElem?_map, hi, hj]
    rfl
  rw [hi] at hj
  cases hj
  exact ⟨rfl, rfl⟩

namespace Definition

/-- The reference, in the graph that the address leads to, is to none of the states of this graph.
The places are those of `DanglesAt`. -/
inductive Loose : Definition → (place : List Nat) → Address → Reference → Prop
  | start {graph : Definition} (hunknown : graph.startAt ∉ graph.states.map Prod.fst) :
      Loose graph [0] [] (.start graph.startAt)
  | target {graph : Definition} {i j : Nat} {name target : String} {state : State}
      (hstate : graph.states[i]? = some (name, state))
      (htarget : state.successors[j]? = some target)
      (hunknown : target ∉ graph.states.map Prod.fst) :
      Loose graph [1, i, 0, j] [] (.target name target)
  | inside {graph part : Definition} {i j : Nat} {name : String} {state : State} {sub : Subgraph}
      {place : List Nat} {address : Address} {reference : Reference}
      (hstate : graph.states[i]? = some (name, state))
      (hsub : state.subgraphs[j]? = some (sub, part))
      (hloose : Loose part place address reference) :
      Loose graph (1 :: i :: 1 :: j :: place) ((name, sub) :: address) reference

/-- **What dangles** is a loose reference, told with the path that its address is written as. -/
theorem danglesAt_iff {path : String} {graph : Definition} {place : List Nat}
    {error : ReferenceError} :
    graph.DanglesAt path place error ↔ ∃ address reference, graph.Loose place address reference ∧
      error = reference.error (path ++ address.text) := by
  constructor
  · intro h
    induction h with
    | start hunknown => exact ⟨[], _, .start hunknown, by simp [Address.text, Reference.error]⟩
    | target hstate htarget hunknown =>
      exact ⟨[], _, .target hstate htarget hunknown, by simp [Address.text, Reference.error]⟩
    | inside hstate hpart hdangles ih =>
      rw [State.parts_eq_map, List.getElem?_map, Option.map_eq_some_iff] at hpart
      obtain ⟨⟨sub, part⟩, hsub, heq⟩ := hpart
      cases heq
      obtain ⟨address, reference, hloose, rfl⟩ := ih
      refine ⟨_, reference, .inside hstate hsub hloose, ?_⟩
      rw [Subgraph.path_eq, Address.text, String.append_assoc]
  · rintro ⟨address, reference, h, rfl⟩
    -- the path grows on the way in, so the induction is for every path
    induction h generalizing path with
    | start hunknown =>
      rw [Address.text, String.append_empty]
      exact .start hunknown
    | target hstate htarget hunknown =>
      rw [Address.text, String.append_empty]
      exact .target hstate htarget hunknown
    | @inside _ part _ j name state sub _ _ _ hstate hsub hloose ih =>
      have hpart : (state.parts path name)[j]? = some (sub.path path name, part) := by
        rw [State.parts_eq_map, List.getElem?_map, hsub]
        rfl
      rw [Address.text, ← String.append_assoc, ← Subgraph.path_eq]
      exact .inside hstate hpart ih

/-- A place tells the address and the reference. -/
theorem Loose.reference_unique {graph : Definition} {place : List Nat} {address address' : Address}
    {reference reference' : Reference} (h : graph.Loose place address reference)
    (h' : graph.Loose place address' reference') : address = address' ∧ reference = reference' := by
  induction h generalizing address' reference' with
  | start =>
    cases h'
    exact ⟨rfl, rfl⟩
  | target hstate htarget =>
    cases h' with
    | target hstate' htarget' =>
      rw [hstate] at hstate'
      cases hstate'
      rw [htarget] at htarget'
      cases htarget'
      exact ⟨rfl, rfl⟩
  | inside hstate hsub _ ih =>
    cases h' with
    | inside hstate' hsub' hloose' =>
      rw [hstate] at hstate'
      cases hstate'
      rw [hsub] at hsub'
      cases hsub'
      obtain ⟨rfl, rfl⟩ := ih hloose'
      exact ⟨rfl, rfl⟩

/-- The graphs of a graph in a state are graphs of the definition. -/
theorem mem_graphs_of_inside {graph part inner : Definition} {i j : Nat} {name : String}
    {state : State} {sub : Subgraph} (hstate : graph.states[i]? = some (name, state))
    (hsub : state.subgraphs[j]? = some (sub, part)) (hinner : inner ∈ part.graphs) :
    inner ∈ graph.graphs :=
  mem_graphs_of_state (List.mem_of_getElem? hstate)
    (State.mem_graphs_of_subgraph (List.mem_of_getElem? hsub) hinner)

/-- Where names are distinct, the address and the reference tell the place. -/
theorem Loose.place_unique {graph : Definition} {place place' : List Nat} {address : Address}
    {reference : Reference} (h : graph.Loose place address reference)
    (h' : graph.Loose place' address reference) (hdistinct : graph.NamesDistinct) :
    place = place' := by
  have hnodup := namesDistinct_iff.1 hdistinct
  clear hdistinct
  induction h generalizing place' with
  | start =>
    cases h'
    rfl
  | @target graph _ _ _ _ _ hstate htarget =>
    have hnames := hnodup graph graph.mem_graphs_self
    cases h' with
    | target hstate' htarget' =>
      -- a name has one index among the states, and a target one among the successors
      obtain ⟨rfl, rfl⟩ := index_unique hnames hstate hstate'
      have hlt := (List.getElem?_eq_some_iff.1 htarget).1
      rw [(List.getElem?_inj hlt (State.nodup_successors _)).1 (htarget.trans htarget'.symm)]
  | @inside graph _ _ _ _ _ _ _ _ _ hstate hsub _ ih =>
    have hnames := hnodup graph graph.mem_graphs_self
    cases h' with
    | inside hstate' hsub' hloose' =>
      obtain ⟨rfl, rfl⟩ := index_unique hnames hstate hstate'
      obtain ⟨rfl, rfl⟩ := index_unique (State.nodup_subgraphs _) hsub hsub'
      rw [ih hloose' fun inner hinner => hnodup inner (mem_graphs_of_inside hstate hsub hinner)]

/-- **A loose reference** is told from others by its address and by what it is to. -/
theorem Loose.place_eq_iff {graph : Definition} {place place' : List Nat}
    {address address' : Address} {reference reference' : Reference}
    (h : graph.Loose place address reference) (h' : graph.Loose place' address' reference')
    (hdistinct : graph.NamesDistinct) :
    place = place' ↔ address = address' ∧ reference = reference' := by
  constructor
  · rintro rfl
    exact h.reference_unique h'
  · rintro ⟨rfl, rfl⟩
    exact h.place_unique h' hdistinct

/-- No name of a state goes on from a name of the graph as a path does. -/
def NamesApart (graph : Definition) : Prop :=
  ∀ name ∈ graph.states.map Prod.fst, ∀ other ∈ graph.states.map Prod.fst,
    ∀ (sub : Subgraph) (between : String), other ≠ name ++ "." ++ sub.label ++ between

/-- Addresses that overlap part in a graph in which a name goes on from another one. -/
theorem Loose.exists_not_namesApart {graph : Definition} {place place' : List Nat}
    {address address' : Address} {reference reference' : Reference}
    (hoverlaps : address.Overlaps address') (h : graph.Loose place address reference)
    (h' : graph.Loose place' address' reference')
    (hnodup : ∀ inner ∈ graph.graphs, (inner.states.map Prod.fst).Nodup) :
    ∃ inner ∈ graph.graphs, ¬ inner.NamesApart := by
  induction hoverlaps generalizing graph place place' with
  | @here _ _ between sub _ _ _ hname =>
    cases h with
    | inside hstate =>
      cases h' with
      | inside hstate' =>
        -- here the two addresses part: the second name goes on from the first one
        refine ⟨graph, graph.mem_graphs_self, fun hapart => ?_⟩
        exact hapart _ (List.mem_map_of_mem (List.mem_of_getElem? hstate)) _
          (List.mem_map_of_mem (List.mem_of_getElem? hstate')) sub between hname
  | further step _ ih =>
    cases h with
    | inside hstate hsub hloose =>
      cases h' with
      | inside hstate' hsub' hloose' =>
        obtain ⟨rfl, rfl⟩ := index_unique (hnodup graph graph.mem_graphs_self) hstate hstate'
        obtain ⟨rfl, rfl⟩ := index_unique (State.nodup_subgraphs _) hsub hsub'
        obtain ⟨inner, hinner, hnot⟩ := ih hloose hloose' fun inner hinner =>
          hnodup inner (mem_graphs_of_inside hstate hsub hinner)
        exact ⟨inner, mem_graphs_of_inside hstate hsub hinner, hnot⟩

/-- The report shows the loose references, in the order of the document. -/
theorem inOrder_loose (definition : Definition) :
    InOrder definition.danglingReferences fun place error => ∃ address reference,
      definition.Loose place address reference ∧ error = reference.error address.path :=
  (inOrderCases.graph_all definition rootPath).congr fun _ _ => danglesAt_iff

/-- **An error is reported twice** just where a reference is loose at two addresses that overlap. -/
theorem nodup_iff_not_overlaps {definition : Definition} (hdistinct : definition.NamesDistinct) :
    definition.danglingReferences.Nodup ↔ ∀ place place' address address' reference,
      definition.Loose place address reference → definition.Loose place' address' reference →
        ¬ address.Overlaps address' := by
  rw [(inOrder_loose definition).nodup_iff]
  constructor
  · intro honce place place' address address' reference h h' hoverlaps
    -- addresses that overlap are written alike, so both places have one error
    have heq : reference.error address.path = reference.error address'.path :=
      Reference.error_path_eq_iff.2 ⟨rfl, .inr (.inl hoverlaps)⟩
    have hplace :=
      honce place place' _ ⟨address, reference, h, rfl⟩ ⟨address', reference, h', heq⟩
    exact hoverlaps.ne ((h.place_eq_iff h' hdistinct).1 hplace).1
  · rintro hnone place place' _ ⟨address, reference, h, rfl⟩ ⟨address', reference', h', heq⟩
    obtain ⟨rfl, rfl | hoverlaps | hoverlaps⟩ := Reference.error_path_eq_iff.1 heq
    · exact (h.place_eq_iff h' hdistinct).2 ⟨rfl, rfl⟩
    · exact absurd hoverlaps (hnone _ _ _ _ _ h h')
    · exact absurd hoverlaps (hnone _ _ _ _ _ h' h)

/-- **Errors identify their place as far as addresses do not overlap.** The errors that are reported
are those of the loose references, and a loose reference is told from others by its address and by
what it is to. Two of them have one error just where they are to the same and their addresses are
the same or overlap. So an error is reported twice just where a reference is loose at two addresses
that overlap, and none is where no name goes on from another one of its graph as a path does. -/
theorem nodup_danglingReferences_iff {definition : Definition}
    (hdistinct : definition.NamesDistinct) :
    (∀ error, error ∈ definition.danglingReferences ↔ ∃ place address reference,
      definition.Loose place address reference ∧ error = reference.error address.path) ∧
    (∀ place place' address address' reference reference',
      definition.Loose place address reference → definition.Loose place' address' reference' →
        (place = place' ↔ address = address' ∧ reference = reference')) ∧
    (∀ (address address' : Address) (reference reference' : Reference),
      reference.error address.path = reference'.error address'.path ↔ reference = reference' ∧
        (address = address' ∨ address.Overlaps address' ∨ address'.Overlaps address)) ∧
    (definition.danglingReferences.Nodup ↔ ∀ place place' address address' reference,
      definition.Loose place address reference → definition.Loose place' address' reference →
        ¬ address.Overlaps address') ∧
    ((∀ graph ∈ definition.graphs, graph.NamesApart) → definition.danglingReferences.Nodup) := by
  have hnodup := nodup_iff_not_overlaps hdistinct
  refine ⟨fun error => (inOrder_loose definition).mem_iff error,
    fun _ _ _ _ _ _ h h' => h.place_eq_iff h' hdistinct,
    fun _ _ _ _ => Reference.error_path_eq_iff, hnodup, fun hapart => hnodup.2 ?_⟩
  intro place place' address address' reference h h' hoverlaps
  obtain ⟨inner, hinner, hnot⟩ := h.exists_not_namesApart hoverlaps h'
    (namesDistinct_iff.1 hdistinct)
  exact hnot (hapart inner hinner)

/-- Two ways that are written alike: through the iterator of `A` into the one of `B`, and at once
into the one of a state with a longer name. -/
def twoWays : Definition :=
  let last : Definition := { startAt := "Gone", states := [("C", .success)] }
  let first : Definition := { startAt := "B", states := [("B", .mapTo last none)] }
  { startAt := "A", states := [("A", .mapTo first none), ("A.Iterator.B", .mapTo last none)] }

/-- No graph of the definition names two states alike. -/
theorem namesDistinct_twoWays : twoWays.NamesDistinct := by
  simp [twoWays, NamesDistinct, StatesNamesDistinct, StateNamesDistinct, State.mapTo, State.success]

/-- The start of the graph at the end is loose on both ways. -/
theorem loose_twoWays :
    twoWays.Loose [1, 0, 1, 0, 1, 0, 1, 0, 0] [("A", .iterator), ("B", .iterator)]
        (.start "Gone") ∧
      twoWays.Loose [1, 1, 1, 0, 0] [("A.Iterator.B", .iterator)] (.start "Gone") :=
  ⟨.inside rfl rfl (.inside rfl rfl (.start (by decide))), .inside rfl rfl (.start (by decide))⟩

/-- An error may be reported twice, since different addresses may be written as one path. -/
theorem not_forall_nodup_danglingReferences :
    (¬ ∀ definition : Definition, definition.NamesDistinct →
      definition.danglingReferences.Nodup) ∧
    ¬ ∀ definition : Definition, definition.NamesDistinct →
      ∀ place place' address address' reference reference',
        definition.Loose place address reference → definition.Loose place' address' reference' →
        address ≠ address' → address.path ≠ address'.path := by
  constructor
  · intro h
    exact absurd (h twoWays namesDistinct_twoWays) (by decide)
  · intro h
    exact h twoWays namesDistinct_twoWays _ _ _ _ _ _ loose_twoWays.1 loose_twoWays.2 (by decide)
      (by decide)

/-- The two addresses overlap, and what is loose at both is reported twice. -/
theorem nodup_danglingReferences_iff_twoWays :
    twoWays.NamesDistinct ∧
      Address.Overlaps [("A", .iterator), ("B", .iterator)] [("A.Iterator.B", .iterator)] ∧
      ¬ twoWays.danglingReferences.Nodup := by
  have hname : "A.Iterator.B" = "A" ++ "." ++ Subgraph.iterator.label ++ ".B" := by decide
  have htext : Address.text [("B", .iterator)] =
      ".B" ++ "." ++ Subgraph.iterator.label ++ Address.text [] := by decide
  have hoverlaps : Address.Overlaps [("A", .iterator), ("B", .iterator)]
      [("A.Iterator.B", .iterator)] := .here hname htext
  refine ⟨namesDistinct_twoWays, hoverlaps, fun hnodup => ?_⟩
  have hnone := (nodup_danglingReferences_iff namesDistinct_twoWays).2.2.2.1.1 hnodup
  exact hnone _ _ _ _ _ loose_twoWays.1 loose_twoWays.2 hoverlaps

end Definition

end WorkflowChart
