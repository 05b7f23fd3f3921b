import Mathlib.Data.List.Infix
import WorkflowChart.Log.EventType

/-!
# Tags of event types

A tag is folded into an event type and written as it was. An event type that has been folded from a
tag is folded from its own tag again. The category of a type is the one that its tag names by its
beginning, whether the tag is a known one or has been kept.

* **`Category.ofTag?_eq_some_iff`**: a tag names the category whose stem it begins with.
* **`EventType.tag_ofTag`**: the tag of the type of a tag is the tag.
* **`EventType.ofTag_eq_recognize`**: a tag is recognized part by part.
* **`EventType.category_eq_ofTag?_tag`**: both ways to classify an event type agree.
* **`EventType.IsFolded`**: the type is the one of its own tag; by `EventType.isFolded_iff` all
  types are, but for those that keep a tag of another one.
* **`EventType.ofTag_loses_nothing`**: all this together.
-/

namespace WorkflowChart

namespace Category

/-- **A tag names the category whose stem it begins with**, however it goes on. No stem begins
another one, so the order in which the categories are tried does not matter. -/
theorem ofTag?_eq_some_iff {tag : String} {category : Category} :
    ofTag? tag = some category ↔ ∃ ending, tag = category.stem ++ ending := by
  constructor
  · intro h
    have hstem : category.stem.toList.isPrefixOf tag.toList = true := by
      simpa using List.find?_some h
    obtain ⟨ending, hending⟩ := List.isPrefixOf_iff_prefix.1 hstem
    refine ⟨String.ofList ending, String.toList_inj.1 ?_⟩
    rw [String.toList_append, String.toList_ofList, hending]
  · rintro ⟨ending, rfl⟩
    have hown : category.stem.toList <+: (category.stem ++ ending).toList :=
      ⟨ending.toList, String.toList_append.symm⟩
    rw [ofTag?]
    cases hfind : all.find? fun other =>
        other.stem.toList.isPrefixOf (category.stem ++ ending).toList with
    | none =>
      have hnone := List.find?_eq_none.1 hfind category category.mem_all
      exact absurd (List.isPrefixOf_iff_prefix.2 hown) hnone
    | some other =>
      have hstem : other.stem.toList.isPrefixOf (category.stem ++ ending).toList = true := by
        simpa using List.find?_some hfind
      -- of two stems that begin one tag, one begins the other
      rcases List.prefix_or_prefix_of_prefix (List.isPrefixOf_iff_prefix.1 hstem) hown with h | h
      · rw [eq_of_stem_isPrefixOf (List.isPrefixOf_iff_prefix.2 h)]
      · rw [eq_of_stem_isPrefixOf (List.isPrefixOf_iff_prefix.2 h)]

end Category

namespace EventType

/-! ## From a tag and back -/

/-- The type is the one of its own tag. All types are, but for those that keep a tag of another
one. -/
def IsFolded (type : EventType) : Prop :=
  ofTag type.tag = type

/-- **A tag is written as it was.** -/
theorem tag_ofTag (text : String) : (ofTag text).tag = text := by
  rw [ofTag]
  cases hfind : (fixed ++ ofStates).find? fun type => type.tag = text with
  | none => rfl
  | some type => simpa using List.find?_some hfind

/-- What is folded from a tag is folded from its own tag. -/
theorem isFolded_ofTag (text : String) : (ofTag text).IsFolded := by
  rw [IsFolded, tag_ofTag]

/-- The types that keep no tag are those that tags are compared with. -/
theorem mem_of_forall_ne_other {type : EventType} (h : ∀ kept, type ≠ other kept) :
    type ∈ fixed ++ ofStates := by
  cases type with
  | stateEntered category | stateExited category =>
    exact List.mem_append_right _ (List.mem_flatMap.2 ⟨category, category.mem_all, by simp⟩)
  | other kept => exact absurd rfl (h kept)
  | executionStarted | executionSucceeded | executionFailed | lambdaScheduled | lambdaStarted
  | lambdaSucceeded | lambdaFailed | parallelSucceeded => decide

/-- A type that keeps no tag is folded from its own tag. -/
theorem isFolded_of_forall_ne_other {type : EventType} (h : ∀ kept, type ≠ other kept) :
    type.IsFolded := by
  have hall : ∀ type ∈ fixed ++ ofStates, ofTag type.tag = type := by decide
  exact hall type (mem_of_forall_ne_other h)

/-- The type keeps a tag that is the one of a type which keeps none. -/
def KeepsKnownTag (type : EventType) : Prop :=
  ∃ known, (∀ kept, known ≠ other kept) ∧ type = other known.tag

/-- **Types that are folded** from their own tags are those that keep no tag of another one. -/
theorem isFolded_iff {type : EventType} : type.IsFolded ↔ ¬ type.KeepsKnownTag := by
  constructor
  · rintro hfolded ⟨known, hknown, rfl⟩
    have hsame : ofTag known.tag = other known.tag := hfolded
    exact hknown _ ((isFolded_of_forall_ne_other hknown).symm.trans hsame)
  · intro hkeeps
    by_cases hother : ∃ kept, type = other kept
    · obtain ⟨text, rfl⟩ := hother
      show ofTag text = other text
      -- if the tag were folded into another type, that one would be known by the tag
      by_contra hne
      refine hkeeps ⟨ofTag text, ?_, by rw [tag_ofTag]⟩
      intro kept hkept
      have htag := tag_ofTag text
      rw [hkept] at htag
      obtain rfl : kept = text := htag
      exact hne hkept
    · exact isFolded_of_forall_ne_other fun kept hkept => hother ⟨kept, hkept⟩

/-! ## Recognizing a tag part by part -/

/-- What follows the stem of a category tells whether a state of the kind was entered or left. -/
def ofEnding? (category : Category) (ending : List Char) : Option EventType :=
  if ending = enteredEnding.toList then some (.stateEntered category)
  else if ending = exitedEnding.toList then some (.stateExited category)
  else none

/-- The event type of a text that is the stem of a category with one of the two endings. -/
def ofStem? (text : String) (category : Category) : Option EventType :=
  (category.stem.toList.isPrefixOf? text.toList).bind (ofEnding? category)

/-- The event type of a text: one of the fixed tags comes first, and then the categories in turn. A
text that is none of their tags is kept. -/
def recognize (text : String) : EventType :=
  ((fixed.find? fun type => type.tag = text).or
    (Category.all.findSome? (ofStem? text))).getD (other text)

/-- Among the two tags of a category, a text is the one whose ending follows the stem in it. -/
theorem find?_tag_eq_ofStem? (text : String) (category : Category) :
    ([stateEntered category, stateExited category].find? fun type => type.tag = text) =
      ofStem? text category := by
  cases hrest : category.stem.toList.isPrefixOf? text.toList with
  | none =>
    -- the text does not begin with the stem, and both tags do
    have hne : ∀ ending, category.stem ++ ending ≠ text := by
      rintro ending rfl
      rw [String.toList_append, List.isPrefixOf?_eq_some_iff_append_eq.2 rfl] at hrest
      contradiction
    simp [ofStem?, hrest, tag, hne]
  | some ending =>
    have htext := List.isPrefixOf?_eq_some_iff_append_eq.1 hrest
    -- the text begins with the stem, so what follows it is compared
    have htag : ∀ other : String, category.stem ++ other = text ↔ ending = other.toList := by
      intro other
      rw [← String.toList_inj, String.toList_append, ← htext, List.append_cancel_left_eq, eq_comm]
    have hentered : (stateEntered category).tag = text ↔ ending = enteredEnding.toList :=
      htag enteredEnding
    have hexited : (stateExited category).tag = text ↔ ending = exitedEnding.toList :=
      htag exitedEnding
    rw [ofStem?, hrest, Option.bind_some, ofEnding?, List.find?_cons, List.find?_cons,
      List.find?_nil]
    simp only [hentered, hexited]
    by_cases h : ending = enteredEnding.toList
    · rw [decide_eq_true h, if_pos h]
    · rw [decide_eq_false h, if_neg h]
      by_cases h' : ending = exitedEnding.toList
      · rw [decide_eq_true h', if_pos h']
      · rw [decide_eq_false h', if_neg h']

/-- **A tag is recognized part by part**: comparing a text with whole tags comes to the same. -/
theorem ofTag_eq_recognize (text : String) : ofTag text = recognize text := by
  rw [ofTag, ofStates, List.find?_append, List.find?_flatMap, recognize]
  simp only [find?_tag_eq_ofStem?]

/-! ## Two ways to classify -/

/-- **Both ways to classify agree**: the category of a type is the one that its tag names. -/
theorem category_eq_ofTag?_tag (type : EventType) : type.category = Category.ofTag? type.tag := by
  cases type with
  | stateEntered category => exact (Category.ofTag?_eq_some_iff.2 ⟨enteredEnding, rfl⟩).symm
  | stateExited category => exact (Category.ofTag?_eq_some_iff.2 ⟨exitedEnding, rfl⟩).symm
  | parallelSucceeded => exact (Category.ofTag?_eq_some_iff.2 ⟨"StateSucceeded", rfl⟩).symm
  | other kept => rfl
  | executionStarted | executionSucceeded | executionFailed | lambdaScheduled | lambdaStarted
  | lambdaSucceeded | lambdaFailed => decide

/-- **Folding a tag loses nothing.** A text is recognized part by part, written as it was, and
classified as its beginning says. A type has the category that its tag names, and it is folded from
its own tag unless it keeps one of another type. -/
theorem ofTag_loses_nothing :
    (∀ text, ofTag text = recognize text ∧ (ofTag text).tag = text
        ∧ (ofTag text).category = Category.ofTag? text)
      ∧ ∀ type : EventType, type.category = Category.ofTag? type.tag
        ∧ (ofTag type.tag = type ↔ ¬ type.KeepsKnownTag) := by
  constructor
  · intro text
    refine ⟨ofTag_eq_recognize text, tag_ofTag text, ?_⟩
    rw [category_eq_ofTag?_tag, tag_ofTag]
  · intro type
    exact ⟨category_eq_ofTag?_tag type, isFolded_iff⟩

/-- A tag that goes on after an ending is kept, and classified all the same. -/
example : ofTag "TaskStateEnteredAgain" = other "TaskStateEnteredAgain"
    ∧ (ofTag "TaskStateEnteredAgain").category = some .task := by
  decide

end EventType

end WorkflowChart
