import Mathlib.Data.List.Induction
import Mathlib.Data.List.Nodup
import WorkflowChart.Definition.Basic

/-!
# Names that control is handed to

A name can come many times among the names that a choice leads to. Its targets have each name once,
where it comes first.

* **`FirstOccurrences`**: the names of a list, each once and in the order in which they first come.
* **`FirstOccurrences.unique`**: there is one list of this sort only.
* **`Choice.mem_targets_iff`**: the targets of a choice are the names that its rules lead to, and
  the name to go on to otherwise.
* **`Choice.nodup_targets`**: a choice has each of its targets once.
* **`Choice.pairwise_foldl_addNew`**: what is new in a list goes to its end, so the names stand in
  the order in which they first come.
* **`Choice.foldl_addNew_of_mem`**: a name that has come already changes nothing.
* **`Choice.firstOccurrences_targets`**: the targets of a choice are the names that its rules lead
  to and then the name to go on to otherwise, each where it first comes, and they stay the same just
  where a rule or such a name is added that leads to one of them.
* **`State.nodup_successors`**: so has every state each of its successors.
-/

namespace WorkflowChart

/-- The names of a list, each once and in the order in which they first come. -/
structure FirstOccurrences (occurrences names : List String) : Prop where
  nodup : names.Nodup
  mem_iff : ∀ name, name ∈ names ↔ name ∈ occurrences
  ordered : names.Pairwise fun name other => occurrences.idxOf name < occurrences.idxOf other

/-- A list has its names once and in the order in which they first come in one way only. -/
theorem FirstOccurrences.unique {occurrences names others : List String}
    (h : FirstOccurrences occurrences names) (hothers : FirstOccurrences occurrences others) :
    names = others := by
  have hperm : names.Perm others := by
    rw [List.perm_ext_iff_of_nodup h.nodup hothers.nodup]
    intro name
    rw [h.mem_iff, hothers.mem_iff]
  -- no two names come before each other
  refine hperm.eq_of_pairwise (fun name other _ _ hlt hgt => ?_) h.ordered hothers.ordered
  exact absurd hgt (Nat.lt_asymm hlt)

namespace Choice

/-- What is put to the end of a list is new in it. -/
theorem nodup_addNew {names : List String} (h : names.Nodup) (name : String) :
    (addNew names name).Nodup := by
  by_cases hmem : name ∈ names
  · rw [addNew, if_pos hmem]
    exact h
  · rw [addNew, if_neg hmem, ← List.concat_eq_append]
    exact h.concat hmem

/-- Names that are put to a list one after another do not repeat. -/
theorem nodup_foldl_addNew {names : List String} (h : names.Nodup) (candidates : List String) :
    (candidates.foldl addNew names).Nodup := by
  induction candidates generalizing names with
  | nil => exact h
  | cons name candidates ih => exact ih (nodup_addNew h name)

/-- A name is in a list afterwards if it was before or is the one put to it. -/
theorem mem_addNew {names : List String} {name other : String} :
    other ∈ addNew names name ↔ other ∈ names ∨ other = name := by
  by_cases hmem : name ∈ names
  · rw [addNew, if_pos hmem]
    constructor
    · exact Or.inl
    · rintro (h | rfl)
      · exact h
      · exact hmem
  · rw [addNew, if_neg hmem, List.mem_append, List.mem_singleton]

/-- A name is in a list afterwards if it was before or is one of those put to it. -/
theorem mem_foldl_addNew {names candidates : List String} {other : String} :
    other ∈ candidates.foldl addNew names ↔ other ∈ names ∨ other ∈ candidates := by
  induction candidates generalizing names with
  | nil => simp
  | cons name candidates ih => rw [List.foldl_cons, ih, mem_addNew, List.mem_cons, or_assoc]

/-- What comes first among the candidates is put to the list first. -/
theorem pairwise_foldl_addNew (candidates : List String) :
    (candidates.foldl addNew []).Pairwise fun name other =>
      candidates.idxOf name < candidates.idxOf other := by
  induction candidates using List.reverseRecOn with
  | nil => exact .nil
  | append_singleton candidates last ih =>
    have hmem : ∀ name, name ∈ candidates.foldl addNew [] ↔ name ∈ candidates := by
      simp [mem_foldl_addNew]
    -- the position of a name that has come already stays what it is
    have hkept : (candidates.foldl addNew []).Pairwise fun name other =>
        (candidates ++ [last]).idxOf name < (candidates ++ [last]).idxOf other := by
      refine ih.imp_of_mem fun {name other} hname hother hlt => ?_
      rw [List.idxOf_append_of_mem ((hmem name).1 hname),
        List.idxOf_append_of_mem ((hmem other).1 hother)]
      exact hlt
    rw [List.foldl_append, List.foldl_cons, List.foldl_nil, addNew]
    split
    · exact hkept
    · next hnew =>
      rw [List.pairwise_append]
      refine ⟨hkept, List.pairwise_singleton _ _, fun name hname other hother => ?_⟩
      obtain rfl := List.mem_singleton.1 hother
      rw [List.idxOf_append_of_mem ((hmem name).1 hname),
        List.idxOf_append_of_notMem (mt (hmem other).2 hnew)]
      exact Nat.lt_add_right _ (List.idxOf_lt_length_iff.2 ((hmem name).1 hname))

/-- Names that are put to a list one after another stand where they first come. -/
theorem firstOccurrences_foldl_addNew (candidates : List String) :
    FirstOccurrences candidates (candidates.foldl addNew []) where
  nodup := nodup_foldl_addNew List.nodup_nil candidates
  mem_iff := by simp [mem_foldl_addNew]
  ordered := pairwise_foldl_addNew candidates

/-- **A name that has come already changes nothing**, whatever comes after it. -/
theorem foldl_addNew_of_mem {before : List String} {name : String} (h : name ∈ before)
    (after : List String) :
    (before ++ name :: after).foldl addNew [] = (before ++ after).foldl addNew [] := by
  have hmem : name ∈ before.foldl addNew [] := mem_foldl_addNew.2 (.inr h)
  rw [List.foldl_append, List.foldl_append, List.foldl_cons, addNew, if_pos hmem]

/-- The targets of a choice are its candidates. -/
theorem mem_targets_iff {choice : Choice} {name : String} :
    name ∈ choice.targets ↔ name ∈ choice.candidates := by
  rw [targets, mem_foldl_addNew]
  simp

/-- No target of a choice repeats. -/
theorem nodup_targets (choice : Choice) : choice.targets.Nodup :=
  nodup_foldl_addNew List.nodup_nil choice.candidates

/-- One more rule leaves the targets as they are just where it leads to one of them. -/
theorem targets_addRule_eq_iff (choice : Choice) (rule : ChoiceRule) :
    { choice with rules := choice.rules ++ [rule] }.targets = choice.targets ↔
      rule.next ∈ choice.targets := by
  have hcandidates : { choice with rules := choice.rules ++ [rule] }.candidates =
      choice.rules.map ChoiceRule.next ++ rule.next :: choice.otherwise.toList := by
    simp [candidates]
  constructor
  · intro h
    rw [← h, mem_targets_iff, hcandidates]
    simp
  · intro h
    rw [mem_targets_iff, candidates, List.mem_append, Option.mem_toList] at h
    rw [targets, targets, hcandidates, candidates]
    rcases h with hrule | hotherwise
    · exact foldl_addNew_of_mem hrule _
    · -- the rule leads to the name to go on to otherwise, which so comes twice at the end
      have hmem : rule.next ∈ choice.rules.map ChoiceRule.next ++ [rule.next] := by simp
      rw [Option.mem_def.1 hotherwise]
      simpa using foldl_addNew_of_mem hmem []

/-- A name to go on to otherwise leaves the targets as they are just where it is one of them. -/
theorem targets_addOtherwise_eq_iff (choice : Choice) (name : String) :
    { choice with otherwise := some name }.targets = { choice with otherwise := none }.targets ↔
      name ∈ { choice with otherwise := none }.targets := by
  constructor
  · intro h
    rw [← h, mem_targets_iff]
    simp [candidates]
  · intro h
    rw [mem_targets_iff, candidates, Option.toList_none, List.append_nil] at h
    simpa [targets, candidates] using foldl_addNew_of_mem h []

/-- **A choice has its targets where they first occur.** Take the names that its rules lead to, and
after them the name to go on to otherwise, if there is one. The targets are the one list that has
each of these names, none twice, and those first that first occur earlier. A further rule after the
others, or a name to go on to otherwise where there was none, leaves the targets as they are just
where it leads to one of them. -/
theorem firstOccurrences_targets (choice : Choice) :
    (∀ names, FirstOccurrences (choice.rules.map ChoiceRule.next ++ choice.otherwise.toList) names ↔
        names = choice.targets)
      ∧ (∀ rule, { choice with rules := choice.rules ++ [rule] }.targets = choice.targets ↔
        rule.next ∈ choice.targets)
      ∧ (∀ name, { choice with otherwise := some name }.targets =
          { choice with otherwise := none }.targets ↔
        name ∈ { choice with otherwise := none }.targets) := by
  have hfirst : FirstOccurrences (choice.rules.map ChoiceRule.next ++ choice.otherwise.toList)
      choice.targets := firstOccurrences_foldl_addNew choice.candidates
  refine ⟨fun names => ?_, choice.targets_addRule_eq_iff, choice.targets_addOtherwise_eq_iff⟩
  constructor
  · intro h
    exact h.unique hfirst
  · rintro rfl
    exact hfirst

/-- A name that comes three times stands where it came first. -/
example :
    { rules := [{ next := "Ship" }, { next := "Wait" }, { next := "Ship" }],
      otherwise := some "Ship" : Choice }.targets = ["Ship", "Wait"] := by
  rfl

end Choice

namespace State

/-- No successor of a state repeats. -/
theorem nodup_successors (state : State) : state.successors.Nodup := by
  have hnext : state.next.toList.Nodup := by
    cases state.next with
    | none => exact List.nodup_nil
    | some name => exact List.nodup_singleton name
  cases state with
  | choice choice => exact choice.nodup_targets
  | pass | task | parallel | map | fail | succeed | wait => exact hnext

end State

end WorkflowChart
