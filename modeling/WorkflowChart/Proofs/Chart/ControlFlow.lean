import WorkflowChart.Definition.Builder
import WorkflowChart.Proofs.Chart.Skeleton

/-!
# The text of a chart determines the control flow

* **`Chart.delimitedCases`**: where no colour has a line feed, every line of a drawing ends at its
  line feed.
* **`Chart.skeleton_eq_of_text_eq`**: definitions that are drawn alike have the same control flow.
-/

namespace WorkflowChart

namespace Chart

variable {options : ChartOptions} {fill : Node → List Line}

/-- The lines after the shape of a state end at their line feeds. -/
theorem delimited_of_mem_linksOf {frame : Frame} {name : String} {state : State} :
    ∀ line ∈ linksOf options frame name state, line.Delimited :=
  forall_mem_linksOf trivial fun _ _ => trivial

/-- Every line of a drawing ends at its line feed, if the lines that colour nodes do. -/
theorem delimitedCases (hfill : ∀ node, ∀ line ∈ fill node, line.Delimited) :
    Definition.Cases
      (fun graph => ∀ number, ∀ line ∈ (outlineGraph options fill number graph).lines,
        line.Delimited)
      (fun states => ∀ frame number,
        ∀ line ∈ (outlineStates options fill frame number states).lines, line.Delimited)
      (fun state => ∀ frame number name,
        ∀ line ∈ (outlineState options fill frame number name state).lines, line.Delimited)
      (fun branches => ∀ gap number, (∀ line ∈ gap, line.Delimited) →
        ∀ line ∈ (outlineBranches options fill gap number branches).lines, line.Delimited) where
  graph startAt states comment timeoutSeconds version hstates := by
    intro number
    rw [outlineGraph]
    exact List.forall_mem_cons.2 ⟨trivial, hstates _ _⟩
  noStates := by
    intro frame number
    rw [outlineStates]
    exact List.forall_mem_nil _
  addState name state rest hstate hrest := by
    intro frame number
    rw [outlineStates]
    simp only [List.forall_mem_append, List.forall_mem_singleton]
    exact ⟨⟨⟨⟨hstate _ _ _, trivial⟩, hfill _⟩, delimited_of_mem_linksOf⟩, hrest _ _⟩
  plain state hparallel hmap := by
    intro frame number name
    cases state.form with
    | leaf hchoice =>
      rw [(outlineState_leaf options fill hchoice hparallel hmap frame number name).1]
      exact List.forall_mem_singleton.2 trivial
    | choice choice =>
      rw [outlineState]
      exact List.forall_mem_map.2 fun _ _ => trivial
    | parallel => exact absurd rfl hparallel
    | map => exact absurd rfl hmap
  parallel comment branches flow hbranches := by
    intro frame number name
    rw [outlineState]
    simp only [Drawing.block, List.forall_mem_append, List.forall_mem_cons]
    -- the lines that open and close the block colour nothing
    have hnone : ∀ line ∈ ([] : List Line), line.Delimited := List.forall_mem_nil _
    exact ⟨⟨⟨trivial, trivial, hnone⟩, hbranches _ _ hnone⟩, trivial, hnone⟩
  map comment iterator itemsPath maxConcurrency flow hiterator := by
    intro frame number name
    rw [outlineState]
    simp only [Drawing.block, List.forall_mem_append, List.forall_mem_cons]
    have hnone : ∀ line ∈ ([] : List Line), line.Delimited := List.forall_mem_nil _
    exact ⟨⟨⟨trivial, trivial, trivial, hnone⟩, hiterator _⟩, trivial, hnone⟩
  noBranches := by
    intro gap number _
    rw [outlineBranches]
    exact List.forall_mem_nil _
  addBranch branch rest hbranch hrest := by
    intro gap number hgap
    rw [outlineBranches]
    simp only [List.forall_mem_append]
    exact ⟨⟨hgap, hbranch _⟩, hrest _ _ (List.forall_mem_singleton.2 trivial)⟩

/-- **The text of a chart determines the control flow.** Two definitions whose references are valid
are both drawn without statuses, and where the texts of the charts are the same, so are the
skeletons. -/
theorem skeleton_eq_of_text_eq {a b : Definition} (ha : a.NamesDistinct) (hb : b.NamesDistinct)
    (hvalidA : a.referencesValid = true) (hvalidB : b.referencesValid = true)
    (options : ChartOptions) :
    ∃ chartA chartB, compile a none options = .ok chartA ∧ compile b none options = .ok chartB
      ∧ (chartA.text = chartB.text → a.skeleton = b.skeleton) := by
  refine ⟨_, _, compile_none hvalidA options, compile_none hvalidB options, fun htext => ?_⟩
  -- nothing is coloured, so no line can run over its line feed
  have hdelimited : ∀ definition : Definition, ∀ line ∈ Line.header options.direction
      :: (outlineGraph options noFill 0 definition).lines, line.Delimited := fun definition =>
    List.forall_mem_cons.2
      ⟨trivial, (delimitedCases fun _ _ h => absurd h List.not_mem_nil).graph_all definition 0⟩
  have hlines := Line.textOf_injective (hdelimited a) (hdelimited b) htext
  -- after the header come the lines of the two graphs, and nothing follows them
  obtain ⟨hskeleton, -, -⟩ := (readableCases options).graph_all a 0 b [] [] ha hb rfl rfl
    (by simpa using List.tail_eq_of_cons_eq hlines)
  exact hskeleton

/-- A definition with a comment is drawn like the one without, so the control flow is the same. -/
theorem skeleton_eq_of_text_eq_of_comment :
    let work : Definition := ⟨"Work", [("Work", .taskTo none)], none, none, none⟩
    let states : List (String × State) :=
      [("Fan", .parallelTo [work, work] (some "Pick \"one\"")),
        ("Pick \"one\"", .choiceOf ["Fan", "Done"] none), ("Done", .success)]
    let a : Definition := ⟨"Fan", states, none, none, none⟩
    let b : Definition := ⟨"Fan", states, some "drawn alike", none, none⟩
    (a.NamesDistinct ∧ b.NamesDistinct ∧ a.referencesValid = true ∧ b.referencesValid = true)
      ∧ ∃ chartA chartB, compile a none {} = .ok chartA ∧ compile b none {} = .ok chartB
        ∧ chartA.text = chartB.text ∧ a.skeleton = b.skeleton := by
  intro work states a b
  have hstates : Definition.StatesNamesDistinct states := by
    simp [states, work, Definition.StatesNamesDistinct, Definition.StateNamesDistinct,
      Definition.BranchesNamesDistinct, Definition.NamesDistinct, State.parallelTo, State.choiceOf,
      State.success, State.taskTo]
  have ha : a.NamesDistinct := ⟨by decide, hstates⟩
  have hb : b.NamesDistinct := ⟨by decide, hstates⟩
  have hvalidA : a.referencesValid = true := by decide
  have hvalidB : b.referencesValid = true := by decide
  obtain ⟨chartA, chartB, hchartA, hchartB, hskeleton⟩ :=
    skeleton_eq_of_text_eq ha hb hvalidA hvalidB {}
  -- the comment is not drawn
  have hsame : compile a none {} = compile b none {} := by
    rw [compile_none hvalidA, compile_none hvalidB]
    rfl
  have htext : chartA.text = chartB.text := by
    rw [hchartA, hchartB, Except.ok.injEq] at hsame
    rw [hsame]
  exact ⟨⟨ha, hb, hvalidA, hvalidB⟩, chartA, chartB, hchartA, hchartB, htext, hskeleton htext⟩

end Chart

end WorkflowChart
