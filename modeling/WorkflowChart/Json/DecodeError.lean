import WorkflowChart.Json.Draft
import WorkflowChart.Json.Printer
import WorkflowChart.Text.Quoted

/-!
# Decode errors

Why a text is not a document of the expected form, and how that is said.

## Main definitions

* `Found`: what stands in a text, as far as a message tells it.
* `Expected`: what a reader wants.
* `DecodeError`: the causes; `DecodeError.message` words them.
-/

namespace WorkflowChart

/-- What stands in a text, as far as a message tells it. -/
inductive Found where
  | null
  | bool (b : Bool)
  | number (n : Number)
  | string (s : String)
  | sequence
  | map
deriving DecidableEq

namespace Found

/-- What a scalar is, as far as a message tells it. -/
def ofScalar : Scalar → Found
  | .null => null
  | .bool b => bool b
  | .number n => number n

/-- The wording of what stands in a text. -/
def text : Found → String
  | null => "null"
  | bool b => "boolean `" ++ toString b ++ "`"
  | number (.whole n) => "integer `" ++ toString n.val ++ "`"
  | number n => "floating point `" ++ n.text ++ "`"
  | string s => "string " ++ Quoted.quote s
  | sequence => "sequence"
  | map => "map"

end Found

/-- What a reader wants. -/
inductive Expected where
  | string
  | boolean
  /-- A number without sign of so many bits. -/
  | word (bits : Nat)
  | sequence
  | record (name : String)
  /-- A record given as a sequence of so many fields. -/
  | fields (name : String) (count : Nat)
  /-- A sequence of so many items. -/
  | items (count : Nat)
  | states
  | taggedState
  | variant
  /-- A variant by its index, below the number of variants. -/
  | variantIndex (count : Nat)
  | unit
  | timestamp
deriving DecidableEq

namespace Expected

/-- A number of things. -/
def counted (count : Nat) (one many : String) : String :=
  toString count ++ " " ++ if count = 1 then one else many

/-- The wording of what a reader wants. -/
def text : Expected → String
  | string => "a string"
  | boolean => "a boolean"
  | word bits => "u" ++ toString bits
  | sequence => "a sequence"
  | record name => "struct " ++ name
  | fields name count => "struct " ++ name ++ " with " ++ counted count "element" "elements"
  | items count => counted count "element in sequence" "elements in sequence"
  | states => "a map of state names to states"
  | taggedState => "internally tagged enum State"
  | variant => "variant identifier"
  | variantIndex count => "variant index 0 <= i < " ++ toString count
  | unit => "unit"
  | timestamp => "an RFC 3339 formatted date and time string"

end Expected

/-- Why a text is not a document of the expected form. -/
inductive DecodeError where
  /-- The text is no JSON. -/
  | flawed (flaw : Flaw)
  /-- A text that is no point in time stands where one is due. -/
  | badTimestamp
  | wrongType (found : Found) (expected : Expected)
  | outOfRange (n : Whole) (expected : Expected)
  | wrongLength (length : Nat) (expected : Expected)
  | missingField (name : String)
  | duplicateField (name : String)
  | duplicateState (name : String)
  | unknownVariant (name : String) (known : List String)
  /-- An event id is neither a number nor a text. -/
  | badEventId
deriving DecidableEq

namespace DecodeError

/-- Names in backquotes with commas between them. -/
def listed (names : List String) : String :=
  ", ".intercalate (names.map fun name => "`" ++ name ++ "`")

/-- The wording of an error. -/
def message : DecodeError → String
  | flawed .cutShort => "<eof>"
  | flawed .malformed => "<syntax>"
  | badTimestamp => "<timestamp>"
  | wrongType found expected => "invalid type: " ++ found.text ++ ", expected " ++ expected.text
  | outOfRange n expected =>
    "invalid value: integer `" ++ toString n.val ++ "`, expected " ++ expected.text
  | wrongLength length expected =>
    "invalid length " ++ toString length ++ ", expected " ++ expected.text
  | missingField name => "missing field `" ++ name ++ "`"
  | duplicateField name => "duplicate field `" ++ name ++ "`"
  | duplicateState name => "duplicate state name `" ++ name ++ "`"
  | unknownVariant name known =>
    "unknown variant `" ++ name ++ "`, expected one of " ++ listed known
  | badEventId => "data did not match any variant of untagged enum Raw"

end DecodeError

end WorkflowChart
