/-!
# Blank characters

The characters that Unicode gives the property `White_Space`.

## Main definitions

* `isBlank`: membership of a character in that set.
* `dropBlank`: a text without its leading blank characters.
-/

namespace WorkflowChart

/-- The ranges of code points with the property `White_Space`. -/
def blankRanges : List (Nat × Nat) :=
  [(0x9, 0xd), (0x20, 0x20), (0x85, 0x85), (0xa0, 0xa0), (0x1680, 0x1680), (0x2000, 0x200a),
   (0x2028, 0x2029), (0x202f, 0x202f), (0x205f, 0x205f), (0x3000, 0x3000)]

/-- Whether a character is blank. -/
def isBlank (c : Char) : Bool :=
  blankRanges.any fun range => range.1 ≤ c.toNat && c.toNat ≤ range.2

/-- A text without its leading blank characters. -/
def dropBlank (text : List Char) : List Char :=
  text.dropWhile isBlank

example : blankRanges.foldl (fun count range => count + (range.2 + 1 - range.1)) 0 = 25 := by decide

end WorkflowChart
