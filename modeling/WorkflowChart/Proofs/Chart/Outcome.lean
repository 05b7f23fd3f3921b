import WorkflowChart.Proofs.Chart.Coloring

/-!
# What comes of compiling

There is a chart of a definition unless its references are not valid or its source of statuses
fails. References come first: they are checked before anything is drawn. Then the source is asked
for one state after another, so the failure that is reported is that of the first state, in the
order in which states are finished, whose status cannot be told.

* **`Chart.coloredNames_of_compile`**: the states of a chart are coloured in that order.
* **`Chart.FailsFirst`**: a source fails for one of the names, and for none before it.
* **`Chart.outcome_of_compile`**: when there is a chart, and which error there is when not.
-/

namespace WorkflowChart

namespace Chart

/-! ## The order of colours -/

/-- The names of the nodes that lines colour. -/
def coloredNames (lines : List Line) : List String :=
  (lines.filterMap Line.fill?).map fun (node, _) => node.name

/-- Lines that follow others colour their nodes after theirs. -/
theorem coloredNames_append (lines others : List Line) :
    coloredNames (lines ++ others) = coloredNames lines ++ coloredNames others := by
  rw [coloredNames, List.filterMap_append, List.map_append]
  rfl

/-- Lines that colour no node colour none of any name. -/
theorem coloredNames_eq_nil {lines : List Line} (h : ∀ line ∈ lines, line.fill? = none) :
    coloredNames lines = [] := by
  rw [coloredNames, List.filterMap_eq_nil_iff.2 h, List.map_nil]

/-- What is drawn in a block is coloured as it is outside. -/
theorem coloredNames_block {before : List Line} (hbefore : ∀ line ∈ before, line.fill? = none)
    (inside : Drawing) :
    coloredNames (Drawing.block before inside).lines = coloredNames inside.lines := by
  have hclosing : coloredNames [Line.closing] = [] := rfl
  rw [Drawing.block, coloredNames_append, coloredNames_append, coloredNames_eq_nil hbefore,
    hclosing, List.nil_append, List.append_nil]

/-- In every frame one line colours the node of each of the names. -/
def ColorsOnce (fill : Node → List Line) (names : List String) : Prop :=
  ∀ name ∈ names, ∀ frame : Frame, ∃ color,
    fill (frame.node name) = [.fill (frame.node name) color]

/-- Two lists of names are coloured once each just where their names are. -/
theorem colorsOnce_append {fill : Node → List Line} {names others : List String} :
    ColorsOnce fill (names ++ others) ↔ ColorsOnce fill names ∧ ColorsOnce fill others :=
  List.forall_mem_append

/-- States are coloured in the order in which they are finished. -/
theorem coloredCases (options : ChartOptions) (fill : Node → List Line) :
    Definition.Cases
      (fun graph => ColorsOnce fill graph.drawOrder → ∀ number,
        coloredNames (outlineGraph options fill number graph).lines = graph.drawOrder)
      (fun states => ColorsOnce fill (Definition.drawOrderOfStates states) → ∀ frame number,
        coloredNames (outlineStates options fill frame number states).lines =
          Definition.drawOrderOfStates states)
      (fun state => ColorsOnce fill state.drawOrder → ∀ frame number name,
        coloredNames (outlineState options fill frame number name state).lines = state.drawOrder)
      (fun branches => ColorsOnce fill (Definition.drawOrderOfBranches branches) → ∀ gap number,
        (∀ line ∈ gap, line.fill? = none) →
        coloredNames (outlineBranches options fill gap number branches).lines =
          Definition.drawOrderOfBranches branches) where
  graph startAt states comment timeoutSeconds version hstates := by
    intro hcolors number
    rw [Definition.drawOrder] at hcolors ⊢
    rw [outlineGraph, ← hstates hcolors ⟨number⟩ (number + 1)]
    rfl
  noStates := by
    intro _ frame number
    rw [outlineStates, Definition.drawOrderOfStates]
    rfl
  addState name state rest hstate hrest := by
    intro hcolors frame number
    rw [Definition.drawOrderOfStates, List.append_cons, colorsOnce_append,
      colorsOnce_append] at hcolors
    obtain ⟨⟨hinside, hname⟩, hothers⟩ := hcolors
    obtain ⟨color, hfill⟩ := List.forall_mem_singleton.1 hname frame
    -- a state is coloured once, after what is inside it; its shape and its links colour nothing
    have hshape : coloredNames [.declaration (frame.node name) (.of state)] = [] := rfl
    have hown : coloredNames (fill (frame.node name)) = [name] := by
      rw [hfill]
      rfl
    have hlinks : coloredNames (linksOf options frame name state) = [] :=
      coloredNames_eq_nil fill?_of_mem_linksOf
    rw [outlineStates, Definition.drawOrderOfStates]
    simp only [coloredNames_append, hstate hinside, hshape, hown, hlinks, hrest hothers]
    simp
  plain state hparallel hmap := by
    intro _ frame number name
    rw [State.drawOrder_of_plain hparallel hmap]
    refine coloredNames_eq_nil ?_
    cases state with
    | parallel => exact absurd rfl hparallel
    | map => exact absurd rfl hmap
    | choice choice =>
      rw [outlineState, List.forall_mem_map]
      exact fun _ _ => rfl
    | task | pass | fail | succeed | wait =>
      rw [outlineState, List.forall_mem_singleton]
      rfl
  parallel comment branches flow hbranches := by
    intro hcolors frame number name
    rw [State.drawOrder] at hcolors ⊢
    rw [outlineState, coloredNames_block (by simp [Line.fill?]),
      hbranches hcolors _ _ (List.forall_mem_nil _)]
  map comment iterator itemsPath maxConcurrency flow hiterator := by
    intro hcolors frame number name
    rw [State.drawOrder] at hcolors ⊢
    rw [outlineState, coloredNames_block (by simp [Line.fill?]), hiterator hcolors]
  noBranches := by
    intro _ gap number _
    rw [outlineBranches, Definition.drawOrderOfBranches]
    rfl
  addBranch branch rest hbranch hrest := by
    intro hcolors gap number hgap
    rw [Definition.drawOrderOfBranches, colorsOnce_append] at hcolors
    have hblank : ∀ line ∈ [Line.blank], line.fill? = none := by simp [Line.fill?]
    rw [outlineBranches, Definition.drawOrderOfBranches, coloredNames_append, coloredNames_append,
      coloredNames_eq_nil hgap, hbranch hcolors.1, hrest hcolors.2 _ _ hblank, List.nil_append]

/-! ## Which failure is reported -/

/-- A source fails for one of the names, after others for which it does not fail. -/
def FailsFirst (statuses : StatusSource) (names : List String) (cause : HistoryError) : Prop :=
  ∃ before name after, names = before ++ name :: after
    ∧ (∀ other ∈ before, ∃ status, statuses other = .ok status) ∧ statuses name = .error cause

section

variable {definition : Definition} {statuses? : Option StatusSource} {options : ChartOptions}

/-- There is a chart where the references are valid and all statuses can be told. -/
theorem exists_compile_eq_ok_iff :
    (∃ chart, compile definition statuses? options = .ok chart) ↔
      definition.referencesValid = true ∧ ∀ statuses, statuses? = some statuses →
        ∀ name ∈ definition.drawOrder, ∃ status, statuses name = .ok status := by
  cases hvalid : definition.referencesValid with
  | false => simp [compile_of_invalid hvalid]
  | true =>
    rw [compile_of_valid hvalid (fills_fillLines options statuses? _), ← asked_eq_ok_iff]
    cases forM definition.drawOrder (ask statuses?) with
    | error cause => simp [Except.map, Except.mapError]
    | ok _ => simp [Except.map, Except.mapError]

/-- The references are reported just where they are not valid, whatever the source is. -/
theorem compile_eq_invalidReferences_iff {references : List ReferenceError} :
    compile definition statuses? options = .error (.invalidReferences references) ↔
      definition.referencesValid = false ∧ references = definition.danglingReferences := by
  cases hvalid : definition.referencesValid with
  | false =>
    rw [compile_of_invalid hvalid, Except.error.injEq, CompileError.invalidReferences.injEq]
    exact ⟨fun h => ⟨rfl, h.symm⟩, fun h => h.2.symm⟩
  | true =>
    rw [compile_of_valid hvalid (fills_fillLines options statuses? _)]
    cases forM definition.drawOrder (ask statuses?) with
    | error cause => simp [Except.map, Except.mapError]
    | ok _ => simp [Except.map, Except.mapError]

/-- The failure of the source for the first state is reported, where the references are valid. -/
theorem compile_eq_history_iff {cause : HistoryError} :
    compile definition statuses? options = .error (.history cause) ↔
      definition.referencesValid = true ∧ ∃ statuses, statuses? = some statuses ∧
        FailsFirst statuses definition.drawOrder cause := by
  cases hvalid : definition.referencesValid with
  | false => simp [compile_of_invalid hvalid]
  | true =>
    have hasked : forM definition.drawOrder (ask statuses?) = .error cause ↔
        ∃ statuses, statuses? = some statuses ∧
          FailsFirst statuses definition.drawOrder cause := by
      cases statuses? with
      | none => simp [forM_eq_error_iff, ask]
      | some statuses =>
        simp only [forM_eq_error_iff, ask_eq_ok_iff, ask_some_eq_error_iff, FailsFirst,
          Option.some.injEq, forall_eq', exists_eq_left']
    rw [compile_of_valid hvalid (fills_fillLines options statuses? _), ← hasked]
    cases forM definition.drawOrder (ask statuses?) with
    | error cause => simp [Except.map, Except.mapError]
    | ok _ => simp [Except.map, Except.mapError]

/-- **The states of a chart are coloured** in the order in which they are finished. -/
theorem coloredNames_of_compile {statuses : StatusSource} {chart : Flowchart}
    (h : compile definition (some statuses) options = .ok chart) :
    coloredNames chart.lines = definition.drawOrder := by
  have htold := (exists_compile_eq_ok_iff.1 ⟨chart, h⟩).2 statuses rfl
  have hcolors : ColorsOnce (fillLines options (some statuses)) definition.drawOrder := by
    intro name hname frame
    obtain ⟨status, hstatus⟩ := htold name hname
    have hstatus : statuses (frame.node name).name = .ok status := hstatus
    refine ⟨options.fills.color status, ?_⟩
    rw [fillLines, fillOf, hstatus]
    rfl
  obtain ⟨-, rfl⟩ := outline_of_compile h
  exact (coloredCases options (fillLines options (some statuses))).graph_all definition hcolors 0

end

/-- **Compiling fails for two reasons**, and reports the first. If the references are not valid, it
reports all that dangle, whatever the source and the options are. If they are valid, it reports the
failure of the source for the first state, in the order in which states are finished, whose status
the source cannot tell. Else there is a chart; without a source there is one just where the
references are valid. -/
theorem outcome_of_compile (definition : Definition) (statuses? : Option StatusSource)
    (options : ChartOptions) :
    (∀ references, compile definition statuses? options = .error (.invalidReferences references) ↔
        definition.referencesValid = false ∧ references = definition.danglingReferences)
      ∧ (∀ cause, compile definition statuses? options = .error (.history cause) ↔
          definition.referencesValid = true ∧ ∃ statuses, statuses? = some statuses ∧
            FailsFirst statuses definition.drawOrder cause)
      ∧ ((∃ chart, compile definition statuses? options = .ok chart) ↔
          definition.referencesValid = true ∧ ∀ statuses, statuses? = some statuses →
            ∀ graph ∈ definition.graphs, ∀ name ∈ graph.states.map Prod.fst,
              ∃ status, statuses name = .ok status)
      ∧ ((∃ chart, compile definition none options = .ok chart) ↔
          definition.referencesValid = true) := by
  refine ⟨fun _ => compile_eq_invalidReferences_iff, fun _ => compile_eq_history_iff, ?_, ?_⟩
  · rw [exists_compile_eq_ok_iff]
    simp only [Definition.mem_drawOrder_iff]
    refine and_congr_right fun _ => forall₂_congr fun statuses _ => ?_
    exact ⟨fun h graph hgraph name hname => h name ⟨graph, hgraph, hname⟩,
      fun h name ⟨graph, hgraph, hname⟩ => h graph hgraph name hname⟩
  · rw [exists_compile_eq_ok_iff]
    exact ⟨And.left, fun hvalid => ⟨hvalid, nofun⟩⟩

/-- Of two states that fail, the one in the iterator of the other is reported. -/
example :
    let item : Definition := ⟨"Item", [("Item", .success)], none, none, none⟩
    let definition : Definition := ⟨"Parcels", [("Parcels", .mapTo item none)], none, none, none⟩
    let statuses : StatusSource := fun name =>
      .error (.unresolvedAncestor (.ofNat name.length) .lambdaFailed)
    compile definition (some statuses) {} =
      .error (.history (.unresolvedAncestor (.ofNat "Item".length) .lambdaFailed)) :=
  rfl

end Chart

end WorkflowChart
