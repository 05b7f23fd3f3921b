/-!
# Construct categories

The eight kinds of construct that a workflow is made of, and the words that events use for them.

## Main definitions

* `Category`: the kinds.
* `Category.stem`: the word that the tags of a category's events begin with.
* `Category.ofTag?`: the category that a tag names by its beginning.
-/

namespace WorkflowChart

/-- The kind of construct that a state or an event belongs to. -/
inductive Category where
  | task
  | parallel
  | map
  | choice
  | pass
  | fail
  | succeed
  | wait
deriving DecidableEq, Repr

namespace Category

/-- Every category, in the order in which tags are compared with them. -/
def all : List Category :=
  [task, parallel, map, choice, pass, fail, succeed, wait]

/-- The word that the tags of this category's events begin with. -/
def stem : Category → String
  | task => "Task"
  | parallel => "Parallel"
  | map => "Map"
  | choice => "Choice"
  | pass => "Pass"
  | fail => "Fail"
  | succeed => "Succeed"
  | wait => "Wait"

/-- The category in lower case. -/
def label : Category → String
  | task => "task"
  | parallel => "parallel"
  | map => "map"
  | choice => "choice"
  | pass => "pass"
  | fail => "fail"
  | succeed => "succeed"
  | wait => "wait"

/-- The category whose stem a tag begins with. -/
def ofTag? (tag : String) : Option Category :=
  all.find? fun category => category.stem.toList.isPrefixOf tag.toList

/-- Every category is listed. -/
theorem mem_all (category : Category) : category ∈ all := by
  cases category <;> decide

/-- No stem begins another, so at most one category fits a tag. -/
theorem eq_of_stem_isPrefixOf {a b : Category}
    (h : a.stem.toList.isPrefixOf b.stem.toList = true) : a = b := by
  cases a <;> cases b <;> revert h <;> decide

end Category

end WorkflowChart
