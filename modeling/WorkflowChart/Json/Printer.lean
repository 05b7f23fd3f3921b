import WorkflowChart.Decimal.Shortest
import WorkflowChart.Json.Basic

/-!
# Writing JSON

The compact text of a value: no space between its parts, members in the order they are in.

## Main definitions

* `Json.escape`: what stands for one character between quotes.
* `Json.write`: the characters of a value.
* `Json.text`: the text of a value.
-/

namespace WorkflowChart

/-- Floating point numbers from `0.00001` on with at most sixteen digits before the point are
written without an exponent, and every exponent has a sign. -/
def Number.layout : Layout := ⟨-4, 16, "+"⟩

/-- The text of a number. -/
def Number.text : Number → String
  | .whole n => toString n.val
  | .float bits => shortestText layout bits

example : Number.text (.float 0x4341c37937e08000) = "1e+16" := by decide +kernel

example : Number.text (.float 0x3e7ad7f29abcaf48) = "1e-7" := by decide +kernel

namespace Json

/-- The hexadecimal digit of a value below sixteen. -/
def hexDigit (value : Nat) : Char :=
  if value < 10 then Char.ofNat (48 + value) else Char.ofNat (87 + value)

/-- What stands for one character between quotes: an escape for the quote, the backslash and the
control characters, else the character itself. -/
def escape (c : Char) : List Char :=
  match c with
  | '"' => ['\\', '"']
  | '\\' => ['\\', '\\']
  | '\x08' => ['\\', 'b']
  | '\x0c' => ['\\', 'f']
  | '\n' => ['\\', 'n']
  | '\r' => ['\\', 'r']
  | '\t' => ['\\', 't']
  | c =>
    if c.toNat < 0x20 then ['\\', 'u', '0', '0', hexDigit (c.toNat / 16), hexDigit (c.toNat % 16)]
    else [c]

/-- The characters of a text in quotes. -/
def writeString (s : String) : List Char :=
  '"' :: s.toList.flatMap escape ++ ['"']

mutual

/-- The characters of a value. -/
def write : Json → List Char
  | null => ['n', 'u', 'l', 'l']
  | bool true => ['t', 'r', 'u', 'e']
  | bool false => ['f', 'a', 'l', 's', 'e']
  | number n => n.text.toList
  | string s => writeString s
  | array items => '[' :: writeItems items ++ [']']
  | object members => '{' :: writeMembers members ++ ['}']

/-- The items of an array with commas between them. -/
def writeItems : List Json → List Char
  | [] => []
  | [item] => write item
  | item :: rest => write item ++ ',' :: writeItems rest

/-- The members of an object with commas between them. -/
def writeMembers : List (String × Json) → List Char
  | [] => []
  | [(key, value)] => writeString key ++ ':' :: write value
  | (key, value) :: rest => writeString key ++ ':' :: write value ++ ',' :: writeMembers rest

end

/-- The text of a value. -/
def text (value : Json) : String :=
  String.ofList value.write

end Json

end WorkflowChart
