import WorkflowChart.Json.Basic

/-!
# Numerals

How a number is written in a JSON text, and which number it stands for.

## Main definitions

* `Flaw`: how a text fails to be JSON.
* `Numeral`: the parts of a written number; `Numeral.scan` finds them at the head of a text.
* `Numeral.number?`: the number that a numeral stands for. A numeral without point and exponent that
  fits 64 bits is whole, every other one is floating point, and one beyond the floating point
  numbers stands for none.
-/

namespace WorkflowChart

/-- How a text fails to be JSON: it ends too early, or something stands where it must not. -/
inductive Flaw where
  | cutShort
  | malformed
deriving DecidableEq, Repr

/-- The parts of a written number. Digits are given by their values. -/
structure Numeral where
  /-- Whether a minus sign stands in front. -/
  negative : Bool
  /-- The digits before the point. -/
  whole : List Nat
  /-- The digits after the point. -/
  fraction : Option (List Nat)
  /-- The exponent: whether it has a minus sign, and its digits. -/
  exponent : Option (Bool × List Nat)
deriving DecidableEq

namespace Numeral

/-! ## Scanning -/

/-- The values of the digits at the head of a text, and what follows them. -/
def digits : List Char → List Nat × List Char
  | [] => ([], [])
  | c :: text =>
    if c.isDigit then
      let (values, rest) := digits text
      ((c.toNat - 48) :: values, rest)
    else ([], c :: text)

/-- As `digits`, where there must be one at least. -/
def someDigits (text : List Char) : Except Flaw (List Nat × List Char) :=
  match digits text with
  | ([], []) => .error .cutShort
  | ([], _ :: _) => .error .malformed
  | found => .ok found

/-- The digits before the point. Only a zero that stands alone comes first. -/
def scanWhole (text : List Char) : Except Flaw (List Nat × List Char) := do
  match ← someDigits text with
  | (0 :: _ :: _, _) => .error .malformed
  | found => .ok found

/-- The point and the digits after it, if there is a point. -/
def scanFraction : List Char → Except Flaw (Option (List Nat) × List Char)
  | '.' :: text => do
    let (values, rest) ← someDigits text
    return (some values, rest)
  | text => .ok (none, text)

/-- The sign and the digits of an exponent, after its mark. -/
def scanPower : List Char → Except Flaw (Option (Bool × List Nat) × List Char)
  | '-' :: text => do
    let (values, rest) ← someDigits text
    return (some (true, values), rest)
  | '+' :: text => do
    let (values, rest) ← someDigits text
    return (some (false, values), rest)
  | text => do
    let (values, rest) ← someDigits text
    return (some (false, values), rest)

/-- The exponent, if there is one. -/
def scanExponent : List Char → Except Flaw (Option (Bool × List Nat) × List Char)
  | 'e' :: text | 'E' :: text => scanPower text
  | text => .ok (none, text)

/-- The number at the head of a text after its sign, and what follows it. -/
def scanUnsigned (negative : Bool) (text : List Char) : Except Flaw (Numeral × List Char) := do
  let (whole, rest) ← scanWhole text
  let (fraction, rest) ← scanFraction rest
  let (exponent, rest) ← scanExponent rest
  return (⟨negative, whole, fraction, exponent⟩, rest)

/-- The number at the head of a text, and what follows it. -/
def scan : List Char → Except Flaw (Numeral × List Char)
  | '-' :: text => scanUnsigned true text
  | text => scanUnsigned false text

/-! ## Values -/

/-- The number that digits stand for. -/
def ofDigits (values : List Nat) : Nat :=
  values.foldl (fun n value => 10 * n + value) 0

/-- Appends digits to a significand up to the first that would take it beyond 64 bits. Gives the
significand and the digits that found no place. -/
def gather (significand : Nat) : List Nat → Nat × List Nat
  | [] => (significand, [])
  | value :: rest =>
    if 10 * significand + value < 0x10000000000000000 then gather (10 * significand + value) rest
    else (significand, value :: rest)

/-- The power of ten nearest to `10 ^ k`. -/
def power (k : Nat) : Float :=
  Float.ofScientific 1 false k

/-- `f` divided by `10 ^ k`, in steps of at most `10 ^ 308`. -/
def scaleDown (k : Nat) (f : Float) : Float :=
  if k ≤ 308 then f / power k
  else if f == 0 then f
  else scaleDown (k - 308) (f / power 308)
termination_by k

/-- `f` multiplied by `10 ^ k`, unless that is beyond the floating point numbers. -/
def scaleUp? (k : Nat) (f : Float) : Option Float :=
  if k ≤ 308 then
    let scaled := f * power k
    if scaled.isInf then none else some scaled
  else if f == 0 then some f
  else none

/-- `f` multiplied by a power of ten. -/
def scale? (exponent : Int) (f : Float) : Option Float :=
  if 0 ≤ exponent then scaleUp? exponent.toNat f else some (scaleDown exponent.natAbs f)

/-- The significand of a numeral, and the power of ten it is to be multiplied by. Digits before the
point that find no place count in the power, digits after it are left out. -/
def parts (numeral : Numeral) : Nat × Int :=
  let (significand, left) := gather 0 numeral.whole
  let fraction := numeral.fraction.getD []
  let (significand, dropped) := gather significand fraction
  let shift : Int := left.length - (fraction.length - dropped.length)
  match numeral.exponent with
  | none => (significand, shift)
  | some (true, values) => (significand, shift - ofDigits values)
  | some (false, values) => (significand, shift + ofDigits values)

/-- The floating point number that a numeral stands for. -/
def float? (numeral : Numeral) : Option Number := do
  let (significand, exponent) := numeral.parts
  let f ← scale? exponent (Float.ofNat significand)
  return .float (if numeral.negative then -f else f).toBits

/-- The whole number that a numeral stands for. A zero with a sign is none. -/
def whole? (numeral : Numeral) : Option Number :=
  match numeral.fraction, numeral.exponent with
  | none, none =>
    let n := ofDigits numeral.whole
    if numeral.negative then
      if n = 0 then none else (Whole.ofInt? (-n)).map .whole
    else (Whole.ofInt? n).map .whole
  | _, _ => none

/-- The number that a numeral stands for. -/
def number? (numeral : Numeral) : Option Number :=
  numeral.whole? <|> numeral.float?

end Numeral

end WorkflowChart
