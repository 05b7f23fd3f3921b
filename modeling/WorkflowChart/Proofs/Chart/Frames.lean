import Mathlib.Algebra.GroupWithZero.Nat
import Mathlib.Data.List.Nodup
import WorkflowChart.Chart.Node
import WorkflowChart.Proofs.Definition.Graphs

/-!
# Graphs and their frames

The frames of a chart are numbered in the order in which the graphs of the definition are met, so
the node of a state tells the graph that declares the state.

* **`Definition.Declares`**: which state a node stands for.
* **`Definition.LeadsTo`**: which nodes a state hands control to.
* **`inFrames`**: what a list of graphs gives, each in the frame of its number.
* **`nodup_inFrames`**: graphs in different frames give different things, if these tell their frame.
-/

namespace WorkflowChart

/-! ## Nodes of a definition -/

namespace Definition

/-- The node stands for the state: the graph of the number of its frame declares the state under its
name. -/
def Declares (definition : Definition) (node : Node) (state : State) : Prop :=
  ∃ graph, definition.graphs[node.frame.number]? = some graph ∧ (node.name, state) ∈ graph.states

/-- The state of the source names the target, which is a node of the same graph, as a successor. -/
def LeadsTo (definition : Definition) (source target : Node) : Prop :=
  target.frame = source.frame ∧
    ∃ state, definition.Declares source state ∧ target.name ∈ state.successors

variable {definition : Definition}

/-- The start of a graph is the node of a state, if the references are valid. -/
theorem exists_declares_start (hvalid : definition.referencesValid = true) {frame : Frame}
    {graph : Definition} (hgraph : definition.graphs[frame.number]? = some graph) :
    ∃ state, definition.Declares (frame.node graph.startAt) state := by
  have hclosed := closed_of_referencesValid hvalid (List.mem_of_getElem? hgraph)
  obtain ⟨⟨name, state⟩, hstate, hname⟩ := List.mem_map.1 hclosed.start_mem
  exact ⟨state, graph, hgraph, by rwa [← hname]⟩

/-- Control is handed to the node of a state, if the references are valid. -/
theorem LeadsTo.exists_declares (hvalid : definition.referencesValid = true) {source target : Node}
    (h : definition.LeadsTo source target) : ∃ state, definition.Declares target state := by
  obtain ⟨hframe, state, ⟨graph, hgraph, hstate⟩, htarget⟩ := h
  have hclosed := closed_of_referencesValid hvalid (List.mem_of_getElem? hgraph)
  obtain ⟨⟨name, next⟩, hnext, hname⟩ :=
    List.mem_map.1 (hclosed.successor_mem _ _ hstate _ htarget)
  exact ⟨next, graph, by rwa [hframe], by rwa [← hname]⟩

end Definition

/-! ## One frame after another -/

/-- Parts of lists differ in their elements, if each element tells the key of the part that it is
from. -/
theorem nodup_flatMap_of_key {α β κ : Type} {parts : α → List β} {key : α → κ} {list : List α}
    (keyOf : β → κ) (hkeys : (list.map key).Nodup)
    (hkey : ∀ a ∈ list, ∀ b ∈ parts a, keyOf b = key a)
    (hparts : ∀ a ∈ list, (parts a).Nodup) : (list.flatMap parts).Nodup := by
  have hpairs : list.Pairwise fun a a' => key a ≠ key a' := List.pairwise_map.1 hkeys
  refine List.nodup_flatMap.2 ⟨hparts, hpairs.imp_of_mem ?_⟩
  intro a a' ha ha' hne b hb hb'
  -- an element of two parts would tell two keys
  exact hne ((hkey a ha b hb).symm.trans (hkey a' ha' b hb'))

/-- What `part` gives for graphs that are drawn in frames numbered on from `number`. -/
def inFrames {α : Type} (part : Frame → Definition → List α) (number : Nat)
    (graphs : List Definition) : List α :=
  (graphs.zipIdx number).flatMap fun (graph, k) => part ⟨k⟩ graph

section

variable {α β : Type} {part : Frame → Definition → List α}

@[simp] theorem inFrames_nil (part : Frame → Definition → List α) (number : Nat) :
    inFrames part number [] = [] := rfl

/-- The first graph is drawn in the first frame, and the others in the frames after it. -/
theorem inFrames_cons (part : Frame → Definition → List α) (number : Nat) (graph : Definition)
    (graphs : List Definition) :
    inFrames part number (graph :: graphs) = part ⟨number⟩ graph
      ++ inFrames part (number + 1) graphs := by
  rw [inFrames, List.zipIdx_cons, List.flatMap_cons, inFrames]

/-- Graphs that follow others are drawn in the frames after theirs. -/
theorem inFrames_append (part : Frame → Definition → List α) (number : Nat)
    (a b : List Definition) :
    inFrames part number (a ++ b) = inFrames part number a
      ++ inFrames part (number + a.length) b := by
  rw [inFrames, List.zipIdx_append, List.flatMap_append, inFrames, inFrames]

/-- Mapping the parts of graphs maps all that they are put together to. -/
theorem map_inFrames (f : α → β) (number : Nat) (graphs : List Definition) :
    (inFrames part number graphs).map f =
      inFrames (fun frame graph => (part frame graph).map f) number graphs :=
  List.map_flatMap

/-- Picking from the parts of graphs picks from all that they are put together to. -/
theorem filterMap_inFrames (read : α → Option β) (number : Nat) (graphs : List Definition) :
    (inFrames part number graphs).filterMap read =
      inFrames (fun frame graph => (part frame graph).filterMap read) number graphs :=
  List.filterMap_flatMap

/-- As many things are given as the graphs give together, whatever their frames. -/
theorem length_inFrames {size : Definition → Nat}
    (hsize : ∀ frame graph, (part frame graph).length = size graph) (number : Nat)
    (graphs : List Definition) :
    (inFrames part number graphs).length = (graphs.map size).sum := by
  induction graphs generalizing number with
  | nil => rfl
  | cons graph graphs ih =>
    rw [inFrames_cons, List.length_append, hsize, ih, List.map_cons, List.sum_cons]

/-- Counted from zero on, the number of a frame is the place of its graph. -/
theorem mem_inFrames_zero {graphs : List Definition} {a : α} :
    a ∈ inFrames part 0 graphs ↔
      ∃ frame graph, graphs[frame.number]? = some graph ∧ a ∈ part frame graph := by
  simp only [inFrames, List.mem_flatMap, Prod.exists, List.mem_zipIdx_iff_getElem?]
  constructor
  · rintro ⟨graph, k, hgraph, ha⟩
    exact ⟨⟨k⟩, graph, hgraph, ha⟩
  · rintro ⟨frame, graph, hgraph, ha⟩
    exact ⟨graph, frame.number, hgraph, ha⟩

/-- **Different frames give different things**, where each thing tells its frame. -/
theorem nodup_inFrames (frameOf : α → Frame) {number : Nat} {graphs : List Definition}
    (hframe : ∀ frame graph, ∀ a ∈ part frame graph, frameOf a = frame)
    (hparts : ∀ frame, ∀ graph ∈ graphs, (part frame graph).Nodup) :
    (inFrames part number graphs).Nodup := by
  have hnumbers : ((graphs.zipIdx number).map Prod.snd).Nodup := by
    rw [List.zipIdx_map_snd]
    exact List.nodup_range' 1
  refine nodup_flatMap_of_key (fun a => (frameOf a).number) hnumbers ?_ ?_
  · intro ⟨graph, k⟩ _ a ha
    show (frameOf a).number = k
    rw [hframe ⟨k⟩ graph a ha]
  · intro ⟨graph, k⟩ hmem
    exact hparts ⟨k⟩ graph (List.fst_mem_of_mem_zipIdx hmem)

end

end WorkflowChart
