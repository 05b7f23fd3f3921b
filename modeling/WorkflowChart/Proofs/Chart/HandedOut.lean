import WorkflowChart.Proofs.Chart.NodeIds

/-!
# Ids of nodes in frames that have been handed out

A registry hands out one frame after another, whatever is registered in between. The first one has
the number zero and each further one the next number, so nodes in frames handed out at different
times have different ids, whatever the names of their states are.

* **`IsWordChar`**: the characters that an identifier of a chart may have.
* **`Registry.HandedOut`**: the frames that a registry has handed out.
* **`Registry.HandedOut.map_number`**: their numbers.
* **`Registry.HandedOut.id_node_eq_iff`**: ids of nodes tell the frame and the name, and are
  identifiers.
-/

namespace WorkflowChart

/-- A character of `[A-Za-z0-9_-]`. -/
def IsWordChar (c : Char) : Prop :=
  'A' ≤ c ∧ c ≤ 'Z' ∨ 'a' ≤ c ∧ c ≤ 'z' ∨ '0' ≤ c ∧ c ≤ '9' ∨ c = '-' ∨ c = '_'

/-- The characters of ids are those of identifiers. -/
theorem Node.isIdChar_iff {c : Char} : isIdChar c = true ↔ IsWordChar c := by
  have hupper : c.isUpper = true ↔ 'A' ≤ c ∧ c ≤ 'Z' := decide_eq_true_iff
  have hlower : c.isLower = true ↔ 'a' ≤ c ∧ c ≤ 'z' :=
    Bool.and_eq_true_iff.trans (and_congr decide_eq_true_iff decide_eq_true_iff)
  have hdigit : c.isDigit = true ↔ '0' ≤ c ∧ c ≤ '9' :=
    Bool.and_eq_true_iff.trans (and_congr decide_eq_true_iff decide_eq_true_iff)
  have hletter : c.isAlpha = true ↔ c.isUpper = true ∨ c.isLower = true := Bool.or_eq_true_iff
  have hplain : c.isAlphanum = true ↔ c.isAlpha = true ∨ c.isDigit = true := Bool.or_eq_true_iff
  simp only [isIdChar, isPlain, IsWordChar, Bool.or_eq_true, decide_eq_true_eq, hplain, hletter,
    hupper, hlower, hdigit, or_assoc]

namespace Registry

/-- The registry has handed out the frames in their order, since it was empty. Between them states
may have been registered. -/
inductive HandedOut : List Frame → Registry → Prop where
  | empty : HandedOut [] {}
  | openFrame {frames : List Frame} {registry : Registry} (h : HandedOut frames registry) :
      HandedOut (frames ++ [registry.openFrame.1]) registry.openFrame.2
  | register {frames : List Frame} {registry : Registry} (h : HandedOut frames registry)
      (id : String) (state : State) : HandedOut frames (registry.register id state)

namespace HandedOut

variable {frames others : List Frame} {registry other : Registry}

/-- Frames are numbered in the order in which they are handed out. -/
theorem map_number (h : HandedOut frames registry) :
    frames.map Frame.number = List.range registry.frames := by
  induction h with
  | empty => rfl
  | @openFrame frames registry _ ih =>
    calc (frames ++ [registry.openFrame.1]).map Frame.number
        = frames.map Frame.number ++ [registry.frames] := List.map_append
      _ = List.range registry.frames ++ [registry.frames] := by rw [ih]
      _ = List.range (registry.frames + 1) := List.range_succ.symm
  | register _ _ _ ih => exact ih

/-- The number of a frame is its place. -/
theorem getElem_eq (h : HandedOut frames registry) {i : Nat} (hi : i < frames.length) :
    frames[i] = ⟨i⟩ := by
  have hnumber : (frames.map Frame.number)[i]? = (List.range registry.frames)[i]? := by
    rw [h.map_number]
  have hlt : i < registry.frames := by
    have hlength := congrArg List.length h.map_number
    simp only [List.length_map, List.length_range] at hlength
    omega
  rw [List.getElem?_map, List.getElem?_eq_getElem hi, List.getElem?_range hlt, Option.map_some,
    Option.some.injEq] at hnumber
  exact congrArg Frame.mk hnumber

/-- **Ids tell nodes apart, and are identifiers.** Let frames be handed out, by one registry or by
two. The id of a state in one of them is the id of a state in another one only if the frames have
the same number and the states the same name, and all its characters are of `[A-Za-z0-9_-]`. -/
theorem id_node_eq_iff (h : HandedOut frames registry) (hother : HandedOut others other) {i j : Nat}
    (hi : i < frames.length) (hj : j < others.length) (a b : String) :
    ((frames[i].node a).id = (others[j].node b).id ↔ i = j ∧ a = b) ∧
      ∀ c ∈ (frames[i].node a).id.toList, IsWordChar c := by
  rw [h.getElem_eq hi, hother.getElem_eq hj]
  refine ⟨?_, ?_⟩
  · constructor
    · intro hid
      have hnode := Node.id_injective hid
      simpa [Frame.node] using hnode
    · rintro ⟨rfl, rfl⟩
      rfl
  · intro c hc
    exact Node.isIdChar_iff.1 (Node.isIdChar_of_mem_id _ c hc)

end HandedOut

/-- The registry of a chart of two graphs, with a state in the first one. -/
def twoFrames : Registry :=
  (((openFrame {}).2.register "s0-a" (.succeed {})).openFrame).2

/-- Both frames have been handed out by a registry. -/
theorem handedOut_twoFrames : HandedOut [⟨0⟩, ⟨1⟩] twoFrames :=
  .openFrame (.register (.openFrame .empty) "s0-a" (.succeed {}))

/-- A letter whose number goes on like the text after an underscore, and one name in two frames. -/
theorem id_node_eq_iff_twoFrames :
    HandedOut [⟨0⟩, ⟨1⟩] twoFrames ∧
      (Frame.node ⟨1⟩ "\u05fa").id ≠ (Frame.node ⟨1⟩ "_a").id ∧
      (Frame.node ⟨0⟩ "a b").id ≠ (Frame.node ⟨1⟩ "a b").id ∧
      ∀ c ∈ (Frame.node ⟨0⟩ "a b").id.toList, IsWordChar c := by
  have hone : 1 < [(⟨0⟩ : Frame), ⟨1⟩].length := by decide
  have hzero : 0 < [(⟨0⟩ : Frame), ⟨1⟩].length := by decide
  have hletter :=
    handedOut_twoFrames.id_node_eq_iff handedOut_twoFrames hone hone "\u05fa" "_a"
  have hname := handedOut_twoFrames.id_node_eq_iff handedOut_twoFrames hzero hone "a b" "a b"
  exact ⟨handedOut_twoFrames, fun h => absurd (hletter.1.1 h).2 (by decide),
    fun h => absurd (hname.1.1 h).1 (by decide), hname.2⟩

end Registry

end WorkflowChart
