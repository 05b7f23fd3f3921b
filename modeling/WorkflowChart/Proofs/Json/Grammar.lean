import WorkflowChart.Json.Reader

/-!
# The grammar of JSON

What a JSON text is, apart from how it is read. The grammar leaves three bounds to those who use it:
how deep containers nest, how large numbers are, and whether half of a surrogate pair may stand on
its own. Here 127 containers nest at most, a number is not beyond the floating point numbers, and a
half goes with the other one.

* **`Numeral.NumberText`**: numbers, with their numerals.
* **`QuotedText`**: what stands between quotes.
* **`Derives`**: values, the items of arrays and the members of objects.
* **`IsJson`**: a text that holds one value, with space around it.
-/

namespace WorkflowChart

/-! ## Numbers -/

namespace Numeral

/-- One decimal digit or more. -/
def IsDigits (text : List Char) : Prop :=
  text ≠ [] ∧ ∀ c ∈ text, c.isDigit = true

/-- The values of decimal digits. -/
def values (digits : List Char) : List Nat :=
  digits.map fun c => c.toNat - 48

/-- Digits before a point: a zero, or digits that do not begin with one. -/
def IsWhole (text : List Char) : Prop :=
  IsDigits text ∧ (text.head? = some '0' → text = ['0'])

/-- A point and digits, or nothing. -/
inductive FractionText : List Char → Option (List Nat) → Prop
  | none : FractionText [] none
  | digits {ds : List Char} (h : IsDigits ds) : FractionText ('.' :: ds) (some (values ds))

/-- A mark with a sign or without one, and digits, or nothing. -/
inductive ExponentText : List Char → Option (Bool × List Nat) → Prop
  | none : ExponentText [] none
  | unsigned {mark : Char} {ds : List Char} (hmark : mark = 'e' ∨ mark = 'E') (h : IsDigits ds) :
      ExponentText (mark :: ds) (some (false, values ds))
  | plus {mark : Char} {ds : List Char} (hmark : mark = 'e' ∨ mark = 'E') (h : IsDigits ds) :
      ExponentText (mark :: '+' :: ds) (some (false, values ds))
  | minus {mark : Char} {ds : List Char} (hmark : mark = 'e' ∨ mark = 'E') (h : IsDigits ds) :
      ExponentText (mark :: '-' :: ds) (some (true, values ds))

/-- A number after its sign. -/
inductive UnsignedText (negative : Bool) : List Char → Numeral → Prop
  | mk {whole fraction exponent : List Char} {f : Option (List Nat)}
      {e : Option (Bool × List Nat)} (hwhole : IsWhole whole) (hfraction : FractionText fraction f)
      (hexponent : ExponentText exponent e) :
      UnsignedText negative (whole ++ (fraction ++ exponent)) ⟨negative, values whole, f, e⟩

/-- A number. -/
inductive NumberText : List Char → Numeral → Prop
  | unsigned {text : List Char} {numeral : Numeral} (h : UnsignedText false text numeral) :
      NumberText text numeral
  | signed {text : List Char} {numeral : Numeral} (h : UnsignedText true text numeral) :
      NumberText ('-' :: text) numeral

end Numeral

/-! ## Texts in quotes -/

/-- What stands between quotes: characters as they are, and escapes. -/
inductive QuotedText : List Char → Prop
  | nil : QuotedText []
  | char {c : Char} {text : List Char} (hquote : c ≠ '"') (hbackslash : c ≠ '\\')
      (hcontrol : 0x20 ≤ c.toNat) (h : QuotedText text) : QuotedText (c :: text)
  | escape {c d : Char} {text : List Char} (hescape : shortEscape? c = some d)
      (h : QuotedText text) : QuotedText ('\\' :: c :: text)
  | unit {a b c d : Char} {unit : Nat} {text : List Char} (hunit : hexUnit? a b c d = some unit)
      (hwhole : unit < 0xd800 ∨ 0xdfff < unit) (h : QuotedText text) :
      QuotedText ('\\' :: 'u' :: a :: b :: c :: d :: text)
  | pair {a b c d a' b' c' d' : Char} {leading trailing : Nat} {text : List Char}
      (hleading : hexUnit? a b c d = some leading)
      (htrailing : hexUnit? a' b' c' d' = some trailing)
      (hfirst : 0xd800 ≤ leading ∧ leading < 0xdc00)
      (hsecond : 0xdc00 ≤ trailing ∧ trailing ≤ 0xdfff) (h : QuotedText text) :
      QuotedText ('\\' :: 'u' :: a :: b :: c :: d :: '\\' :: 'u' :: a' :: b' :: c' :: d' :: text)

/-! ## Values -/

/-- Space between the parts of a text. -/
def IsSpaces (text : List Char) : Prop :=
  ∀ c ∈ text, isSpace c = true

/-- The parts of a text. An element is a value with space around it. -/
inductive Part where
  | value
  | element
  | elements
  | member
  | members

/-- A text is a part in which at most `room` containers nest. -/
inductive Derives : Part → Nat → List Char → Prop
  | keyword {room : Nat} {word : String} (hword : word ∈ ["null", "true", "false"]) :
      Derives .value room word.toList
  | number {room : Nat} {text : List Char} {numeral : Numeral} {n : Number}
      (htext : Numeral.NumberText text numeral) (hvalue : numeral.number? = some n) :
      Derives .value room text
  | string {room : Nat} {text : List Char} (hquoted : QuotedText text) :
      Derives .value room ('"' :: (text ++ ['"']))
  | emptyArray {room : Nat} {space : List Char} (hspace : IsSpaces space) :
      Derives .value (room + 1) ('[' :: (space ++ [']']))
  | array {room : Nat} {text : List Char} (helements : Derives .elements room text) :
      Derives .value (room + 1) ('[' :: (text ++ [']']))
  | emptyObject {room : Nat} {space : List Char} (hspace : IsSpaces space) :
      Derives .value (room + 1) ('{' :: (space ++ ['}']))
  | object {room : Nat} {text : List Char} (hmembers : Derives .members room text) :
      Derives .value (room + 1) ('{' :: (text ++ ['}']))
  | element {room : Nat} {before value after : List Char} (hbefore : IsSpaces before)
      (hvalue : Derives .value room value) (hafter : IsSpaces after) :
      Derives .element room (before ++ (value ++ after))
  | lastElement {room : Nat} {text : List Char} (helement : Derives .element room text) :
      Derives .elements room text
  | moreElements {room : Nat} {text more : List Char} (helement : Derives .element room text)
      (hmore : Derives .elements room more) : Derives .elements room (text ++ ',' :: more)
  | member {room : Nat} {before key after text : List Char} (hbefore : IsSpaces before)
      (hkey : QuotedText key) (hafter : IsSpaces after) (helement : Derives .element room text) :
      Derives .member room (before ++ '"' :: (key ++ '"' :: (after ++ ':' :: text)))
  | lastMember {room : Nat} {text : List Char} (hmember : Derives .member room text) :
      Derives .members room text
  | moreMembers {room : Nat} {text more : List Char} (hmember : Derives .member room text)
      (hmore : Derives .members room more) : Derives .members room (text ++ ',' :: more)

/-- A JSON text. -/
def IsJson (text : String) : Prop :=
  Derives .element Draft.maxDepth text.toList

end WorkflowChart
