import WorkflowChart.Entries
import WorkflowChart.Json.Quotation

/-!
# Drafts

What a JSON text shows up to its first flaw. A text is judged as it is read: a value of the wrong
kind is reported before a flaw that comes after it, and a value that nobody asks for is only passed
over. A draft keeps what both need.

Looking at a value and passing over it differ where a text is well formed but stands for nothing: a
half of a surrogate pair on its own, or a number beyond the floating point numbers. These are flaws
for the one who looks, and none for the one who passes. Passing over does not count how deep
containers nest either.

## Main definitions

* `Draft`: the tree of what is shown.
* `Draft.passed`: the flaw met when a value is passed over.
* `Draft.json`: the value that a draft stands for, or the first flaw in it.
* `Json.draft`: the draft of a value without flaws.
-/

namespace WorkflowChart

/-- A value that is written without quotes or brackets. -/
inductive Scalar where
  | null
  | bool (b : Bool)
  | number (n : Number)
deriving DecidableEq

namespace Scalar

/-- The value that a scalar stands for. -/
def json : Scalar → Json
  | null => .null
  | bool b => .bool b
  | number n => .number n

end Scalar

/-- What a text shows where a value is due. `passed` is the flaw met when the value is passed over,
if there is one. -/
inductive Draft where
  /-- The text ends before a value begins. -/
  | absent
  /-- A keyword or a number, or something that begins no value. -/
  | bare (seen : Except Flaw Scalar) (passed : Option Flaw)
  | string (seen : Except Flaw String) (passed : Option Flaw)
  | array (items : List Draft) (passed : Option Flaw)
  /-- A key that stands for no text, or that is none, is given by its flaw. -/
  | object (members : List (Except Flaw String × Draft)) (passed : Option Flaw)

namespace Draft

/-- The flaw met when a value is passed over. -/
def passed : Draft → Option Flaw
  | absent => some .cutShort
  | bare _ passed | string _ passed | array _ passed | object _ passed => passed

/-- How many containers may be open at once while values are looked at. -/
def maxDepth : Nat := 127

/-- Succeeds unless there is a flaw. -/
def unlessFlawed : Option Flaw → Except Flaw Unit
  | none => .ok ()
  | some flaw => .error flaw

mutual

/-- The value that a draft stands for where `room` more containers may open, or the first flaw. The
members of its objects are in ascending order of their names, and of members with one name the last
one counts. -/
def json (room : Nat) : Draft → Except Flaw Json
  | absent => .error .cutShort
  | bare seen _ => seen.map Scalar.json
  | string seen _ => seen.map .string
  | array items passed =>
    match room with
    | 0 => .error .malformed
    | room + 1 => do
      let items ← jsonItems room items
      unlessFlawed passed
      return .array items
  | object members passed =>
    match room with
    | 0 => .error .malformed
    | room + 1 => do
      let members ← jsonMembers room [] members
      unlessFlawed passed
      return .object members

/-- The values of the items of an array. -/
def jsonItems (room : Nat) : List Draft → Except Flaw (List Json)
  | [] => .ok []
  | item :: rest => do
    let item ← json room item
    let rest ← jsonItems room rest
    return item :: rest

/-- The members of an object, put to those that came before. -/
def jsonMembers (room : Nat) (before : Entries Json) :
    List (Except Flaw String × Draft) → Except Flaw (Entries Json)
  | [] => .ok before
  | (key, value) :: rest => do
    let key ← key
    let value ← json room value
    jsonMembers room (before.putSorted key value) rest

end

end Draft

namespace Json

mutual

/-- The draft of a value without flaws. -/
def draft : Json → Draft
  | null => .bare (.ok .null) none
  | bool b => .bare (.ok (.bool b)) none
  | number n => .bare (.ok (.number n)) none
  | string s => .string (.ok s) none
  | array items => .array (draftItems items) none
  | object members => .object (draftMembers members) none

/-- The drafts of the items of an array. -/
def draftItems : List Json → List Draft
  | [] => []
  | item :: rest => draft item :: draftItems rest

/-- The drafts of the members of an object. -/
def draftMembers : List (String × Json) → List (Except Flaw String × Draft)
  | [] => []
  | (key, value) :: rest => (.ok key, draft value) :: draftMembers rest

end

end Json

end WorkflowChart
