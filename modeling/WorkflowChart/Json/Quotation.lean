import WorkflowChart.Json.Numeral

/-!
# Quotations

Texts as they are written between quotes in a JSON text.

## Main definitions

* `Piece`: what one character or one escape between quotes stands for.
* `Quotation`: the pieces up to the closing quote, or up to the flaw that comes before it.
* `Quotation.scan`: the quotation that a text begins with.
* `Quotation.text`: the text that a quotation stands for. Two halves of a surrogate pair that follow
  each other stand for one character, a half that stands alone for none.
-/

namespace WorkflowChart

/-- What one character or one escape between quotes stands for. -/
inductive Piece where
  | char (c : Char)
  /-- One half of a surrogate pair, by its code unit. -/
  | half (unit : Nat)
deriving DecidableEq

namespace Piece

/-- The piece of a code unit written by its number. -/
def ofUnit (unit : Nat) : Piece :=
  if 0xd800 ≤ unit ∧ unit ≤ 0xdfff then half unit else char (Char.ofNat unit)

end Piece

/-- The value of a hexadecimal digit. -/
def hexValue? (c : Char) : Option Nat :=
  if c.isDigit then some (c.toNat - 48)
  else if 'a' ≤ c ∧ c ≤ 'f' then some (c.toNat - 87)
  else if 'A' ≤ c ∧ c ≤ 'F' then some (c.toNat - 55)
  else none

/-- The number that four hexadecimal digits stand for. -/
def hexUnit? (a b c d : Char) : Option Nat := do
  let a ← hexValue? a
  let b ← hexValue? b
  let c ← hexValue? c
  let d ← hexValue? d
  return ((16 * a + b) * 16 + c) * 16 + d

/-- The character that a backslash and a letter stand for. -/
def shortEscape? (c : Char) : Option Char :=
  match c with
  | '"' => some '"'
  | '\\' => some '\\'
  | '/' => some '/'
  | 'b' => some '\x08'
  | 'f' => some '\x0c'
  | 'n' => some '\n'
  | 'r' => some '\r'
  | 't' => some '\t'
  | _ => none

/-- The pieces between an opening quote and the closing one. -/
structure Quotation where
  /-- The pieces, in order. -/
  pieces : List Piece
  /-- What follows the closing quote, or the flaw that is met before one. -/
  rest : Except Flaw (List Char)

namespace Quotation

/-- A quotation with one more piece in front. -/
def cons (piece : Piece) (quotation : Quotation) : Quotation :=
  { quotation with pieces := piece :: quotation.pieces }

/-- A quotation that goes no further. -/
def stop (flaw : Flaw) : Quotation :=
  ⟨[], .error flaw⟩

/-- The flaw of a number escape that has no four hexadecimal digits: the text has ended if fewer
than four bytes of it are left. -/
def unitFlaw (rest : List Char) : Flaw :=
  if (String.ofList rest).utf8ByteSize < 4 then .cutShort else .malformed

/-- The quotation at the head of a text that follows an opening quote. -/
def scan : List Char → Quotation
  | [] => stop .cutShort
  | '"' :: rest => ⟨[], .ok rest⟩
  | ['\\'] => stop .cutShort
  | '\\' :: 'u' :: a :: b :: c :: d :: rest =>
    match hexUnit? a b c d with
    | some unit => cons (.ofUnit unit) (scan rest)
    | none => stop (unitFlaw (a :: b :: c :: d :: rest))
  | '\\' :: 'u' :: rest => stop (unitFlaw rest)
  | '\\' :: c :: rest =>
    match shortEscape? c with
    | some c => cons (.char c) (scan rest)
    | none => stop .malformed
  | c :: rest => if c.toNat < 0x20 then stop .malformed else cons (.char c) (scan rest)

/-- The character that the two halves of a surrogate pair stand for. -/
def pair? (leading trailing : Nat) : Option Char :=
  if leading < 0xdc00 ∧ 0xdc00 ≤ trailing then
    some (Char.ofNat (0x10000 + 0x400 * (leading - 0xd800) + (trailing - 0xdc00)))
  else none

/-- The characters that pieces stand for, where the quotation ends in `flaw?`. A leading half of a
pair with nothing after it still waits for the other one. -/
def chars (flaw? : Option Flaw) : List Piece → Except Flaw (List Char)
  | [] => match flaw? with
    | none => .ok []
    | some flaw => .error flaw
  | .char c :: rest => do return c :: (← chars flaw? rest)
  | .half leading :: .half trailing :: rest => do
    match pair? leading trailing with
    | some c => return c :: (← chars flaw? rest)
    | none => .error .malformed
  | [.half leading] => .error (if leading < 0xdc00 then flaw?.getD .malformed else .malformed)
  | .half _ :: .char _ :: _ => .error .malformed

/-- The flaw that a quotation ends in. -/
def flaw? (quotation : Quotation) : Option Flaw :=
  match quotation.rest with
  | .ok _ => none
  | .error flaw => some flaw

/-- The text that a quotation stands for. -/
def text (quotation : Quotation) : Except Flaw String :=
  (chars quotation.flaw? quotation.pieces).map String.ofList

end Quotation

end WorkflowChart
