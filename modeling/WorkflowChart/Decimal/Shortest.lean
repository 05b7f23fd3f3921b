/-!
# Shortest decimals

The decimal with the fewest digits that reads back as a given floating point number, the nearest
such decimal where there are several, and the one with an even last digit where two are as near.

## Main definitions

* `Binary`: a positive floating point number as `mantissa * 2 ^ exponent` with the room around it.
* `Decimal`: digits and a power of ten.
* `Binary.shortest`: the shortest decimal.
* `Layout`: where positional notation is used, and the sign of an exponent; `Decimal.text` writes a
  decimal in a layout.
* `shortestText`: the text of a floating point number.
-/

namespace WorkflowChart

/-- A positive floating point number `mantissa * 2 ^ exponent`. -/
structure Binary where
  mantissa : Nat
  exponent : Int
  /-- The next number below is half as far away as the next one above. -/
  narrowBelow : Bool
deriving DecidableEq

/-- A decimal `digits * 10 ^ power`. -/
structure Decimal where
  digits : Nat
  power : Int
deriving DecidableEq

namespace Binary

/-- The first number of fifty-three bits. -/
def leadingBit : Nat := 0x10000000000000

/-- The number of the given bits, without regard to their sign: fifty-two bits of the mantissa,
whose leading bit is not written, below eleven bits of the exponent. -/
def ofBits (bits : UInt64) : Binary :=
  let fraction := bits.toNat % leadingBit
  let biased := bits.toNat / leadingBit % 0x800
  if biased = 0 then ⟨fraction, -1074, false⟩
  else ⟨leadingBit + fraction, biased - 1075, fraction = 0 ∧ 1 < biased⟩

/-- `n * 2 ^ exponent` over `10 ^ power`, as numerator and denominator. -/
def ratio (n : Nat) (exponent power : Int) : Nat × Nat :=
  (n * Nat.pow 2 exponent.toNat * Nat.pow 10 (-power).toNat,
    Nat.pow 2 (-exponent).toNat * Nat.pow 10 power.toNat)

/-- The decimal on the grid of `10 ^ power` that reads back as `x`: of the neighbours of `x` on the
grid the nearest that lies in the interval of `x`. Everything is counted in quarters of the unit
of `x`. -/
def onGrid? (x : Binary) (power : Int) : Option Decimal :=
  let (num, den) := ratio (4 * x.mantissa) (x.exponent - 2) power
  let (low, _) := ratio (4 * x.mantissa - if x.narrowBelow then 1 else 2) (x.exponent - 2) power
  let (high, _) := ratio (4 * x.mantissa + 2) (x.exponent - 2) power
  let below := num / den
  let fits (digits : Nat) : Bool :=
    if x.mantissa % 2 = 0 then low ≤ digits * den ∧ digits * den ≤ high
    else low < digits * den ∧ digits * den < high
  let twice := 2 * (num - below * den)
  let nearer :=
    if twice < den then below
    else if den < twice then below + 1
    else if below % 2 = 0 then below else below + 1
  let farther := if nearer = below then below + 1 else below
  if fits nearer then some ⟨nearer, power⟩
  else if fits farther then some ⟨farther, power⟩
  else none

/-- The least power of ten above `x`. -/
def magnitude (x : Binary) : Int :=
  let (num, den) := ratio x.mantissa x.exponent 0
  if den ≤ num then (num / den).repr.length else 1 - ((den - 1) / num).repr.length

/-- A decimal without zeros at its end. -/
def trim : Nat → Decimal → Decimal
  | 0, d => d
  | fuel + 1, d => if d.digits % 10 = 0 then trim fuel ⟨d.digits / 10, d.power + 1⟩ else d

/-- The shortest decimal that reads back as `x`. Seventeen digits always do. -/
def shortest (x : Binary) : Decimal :=
  let top := x.magnitude
  let grids := (List.range 17).map fun (count : Nat) => top - 1 - count
  trim 20 ((grids.findSome? x.onGrid?).getD ⟨x.mantissa, 0⟩)

end Binary

/-- How a notation writes decimals. -/
structure Layout where
  /-- The least number of digits before the point of a decimal without an exponent, where a negative
  number counts zeros after the point. -/
  least : Int
  /-- The greatest such number. -/
  most : Int
  /-- What stands in front of an exponent that is not negative. -/
  plus : String
deriving DecidableEq

namespace Decimal

/-- A decimal in positional notation, with one digit at least on either side of the point. -/
def positional (d : Decimal) : String :=
  let digits := d.digits.repr.toList
  if 0 ≤ d.power then String.ofList (digits ++ List.replicate d.power.toNat '0') ++ ".0"
  else
    let places := d.power.natAbs
    let padded := List.replicate (places + 1 - digits.length) '0' ++ digits
    let split := padded.length - places
    String.ofList (padded.take split ++ '.' :: padded.drop split)

/-- A decimal with one digit before the point and an exponent, which has `plus` in front if it is
not negative. -/
def scientific (plus : String) (d : Decimal) : String :=
  let digits := d.digits.repr.toList
  let mantissa := match digits with
    | [] => []
    | [digit] => [digit]
    | digit :: rest => digit :: '.' :: rest
  let exponent := d.power + digits.length - 1
  String.ofList mantissa ++ "e" ++ (if 0 ≤ exponent then plus else "") ++ toString exponent

/-- A decimal in the given layout. -/
def text (layout : Layout) (d : Decimal) : String :=
  let before := d.power + d.digits.repr.length
  if layout.least ≤ before ∧ before ≤ layout.most then d.positional
  else d.scientific layout.plus

end Decimal

/-- A floating point number, given by its bits, in its shortest form. Zeros keep their sign. -/
def shortestText (layout : Layout) (bits : UInt64) : String :=
  let sign := if 0x8000000000000000 ≤ bits.toNat then "-" else ""
  let x := Binary.ofBits bits
  sign ++ if x.mantissa = 0 then "0.0" else x.shortest.text layout

end WorkflowChart
