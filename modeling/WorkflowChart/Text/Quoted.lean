import WorkflowChart.Text.Unprintable

/-!
# Quoted texts in messages

A text inside a message stands between double quotes on one line, with everything that would not
show as itself written as an escape.

## Main definitions

* `Quoted.escape`: what stands for one character.
* `Quoted.quote`: a whole text between quotes.
-/

namespace WorkflowChart.Quoted

/-- What stands for one character between the quotes: a short escape where there is one, the
number in hexadecimal where the character has no visible form, else the character. -/
def escape (c : Char) : List Char :=
  match c with
  | '\x00' => ['\\', '0']
  | '\t' => ['\\', 't']
  | '\n' => ['\\', 'n']
  | '\r' => ['\\', 'r']
  | '"' => ['\\', '"']
  | '\\' => ['\\', '\\']
  | c =>
    if isUnprintable c then '\\' :: 'u' :: '{' :: Nat.toDigits 16 c.toNat ++ ['}'] else [c]

/-- A text between quotes. -/
def quote (text : String) : String :=
  String.ofList ('"' :: text.toList.flatMap escape ++ ['"'])

end WorkflowChart.Quoted
