import WorkflowChart.Json.Basic

/-!
# Parts of documents

What the documents of records are put together from.

## Main definitions

* `Json.ofOption`: an optional value, `null` when there is none.
* `Json.ofWord`: a number without sign.
* `Json.memberIfSome`: a member that is left out when there is no value.
-/

namespace WorkflowChart.Json

/-- An optional value, with `null` for none. -/
def ofOption {α : Type} (json : α → Json) : Option α → Json
  | none => null
  | some value => json value

/-- A number without sign. -/
def ofWord (word : UInt64) : Json :=
  number (.whole (.ofWord word))

/-- A member that is left out when there is no value. -/
def memberIfSome {α : Type} (name : String) (json : α → Json) : Option α → List (String × Json)
  | none => []
  | some value => [(name, json value)]

end WorkflowChart.Json
