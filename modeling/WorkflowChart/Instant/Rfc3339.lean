import WorkflowChart.Instant.Basic
import WorkflowChart.Instant.Calendar
import WorkflowChart.Text.Blank

/-!
# Timestamps

The form of instants in documents: RFC 3339, written for UTC and read with any offset. Reading is
lenient about blanks between the parts and about leading zeros.

## Main definitions

* `Instant.parse?`: the instant that a text stands for.
* `Instant.text`: the text of an instant.
-/

namespace WorkflowChart

namespace Timestamp

/-! ## Reading -/

/-- The value of a decimal digit. -/
def digitValue? (c : Char) : Option Nat :=
  if c.isDigit then some (c.toNat - 48) else none

/-- The number at the head of a text, of at most `width` digits, put after those of `before`. -/
def moreDigits : (width : Nat) → (before : Nat) → List Char → Nat × List Char
  | 0, before, text => (before, text)
  | _ + 1, before, [] => (before, [])
  | width + 1, before, c :: text =>
    match digitValue? c with
    | some value => moreDigits width (10 * before + value) text
    | none => (before, c :: text)

/-- The number at the head of a text, of one digit up to `width`. -/
def digits? (width : Nat) : List Char → Option (Nat × List Char)
  | [] => none
  | c :: text => (digitValue? c).map fun value => moreDigits (width - 1) value text

/-- A number after blanks. -/
def number? (width : Nat) (text : List Char) : Option (Nat × List Char) :=
  digits? width (dropBlank text)

/-- A year after blanks: four digits at most, or any number of them after a sign. -/
def year? (text : List Char) : Option (Int × List Char) :=
  match dropBlank text with
  | '-' :: text => (digits? text.length text).map fun (year, rest) => (-(year : Int), rest)
  | '+' :: text => (digits? text.length text).map fun (year, rest) => ((year : Int), rest)
  | text => (digits? 4 text).map fun (year, rest) => ((year : Int), rest)

/-- Takes a mark after blanks from the head of a text. -/
def dropMark? (mark : Char) (text : List Char) : Option (List Char) :=
  match dropBlank text with
  | c :: rest => if c = mark then some rest else none
  | [] => none

/-- Takes the mark between the date and the time from the head of a text. -/
def dropSeparator? : List Char → Option (List Char)
  | 'T' :: rest | 't' :: rest | ' ' :: rest => some rest
  | _ => none

/-- The nanoseconds of a fraction of a second. Digits after the ninth do not count. -/
def fraction? : List Char → Option (Nat × List Char)
  | '.' :: text => do
    let (value, rest) ← digits? 9 text
    let width := text.length - rest.length
    return (value * Nat.pow 10 (9 - width), rest.dropWhile Char.isDigit)
  | text => some (0, text)

/-- The minutes of an offset: two digits below sixty. -/
def offsetMinutes? : List Char → Option (Nat × List Char)
  | a :: b :: rest => do
    let a ← digitValue? a
    let b ← digitValue? b
    if a < 6 then some (10 * a + b, rest) else none
  | _ => none

/-- The seconds of an offset after its sign. Colons and blanks may stand between its numbers. -/
def offsetAfterSign? : List Char → Option (Nat × List Char)
  | a :: b :: text => do
    let a ← digitValue? a
    let b ← digitValue? b
    let (minutes, rest) ← offsetMinutes? (text.dropWhile fun c => c = ':' ∨ isBlank c)
    return (3600 * (10 * a + b) + 60 * minutes, rest)
  | _ => none

/-- The seconds of an offset: a letter for none, or a sign and a time. -/
def offset? : List Char → Option (Int × List Char)
  | 'Z' :: rest | 'z' :: rest => some (0, rest)
  | '+' :: text => (offsetAfterSign? text).map fun (offset, rest) => ((offset : Int), rest)
  | '-' :: text | '\u2212' :: text =>
    (offsetAfterSign? text).map fun (offset, rest) => (-(offset : Int), rest)
  | a :: b :: c :: rest =>
    if a.toUpper = 'U' ∧ b.toUpper = 'T' ∧ c.toUpper = 'C' then some (0, rest) else none
  | _ => none

/-- The years that have timestamps. -/
def isYear (year : Int) : Bool :=
  -262143 ≤ year ∧ year ≤ 262142

/-- The instant of a date and a time of day. The second 60 is a leap second. -/
def assemble? (date : Date) (hour minute second nano : Nat) (offset : Int) : Option Instant := do
  guard (isYear date.year ∧ date.isValid ∧ hour < 24 ∧ minute < 60 ∧ second ≤ 60)
  guard (offset.natAbs < 86400)
  let ofDay : Int := 3600 * hour + 60 * minute + (if second = 60 then 59 else second) - offset
  let day := date.dayNumber + ofDay / secondsPerDay
  guard (isYear (Date.ofDayNumber day).year)
  let nano : Int := if second = 60 then nanosPerSecond + nano else nano
  return ⟨day, ofDay % secondsPerDay, nano⟩

end Timestamp

namespace Instant

open Timestamp

/-- The instant that a text stands for. -/
def parse? (text : String) : Option Instant := do
  let (year, rest) ← year? text.toList
  let (month, rest) ← number? 2 (← dropMark? '-' rest)
  let (day, rest) ← number? 2 (← dropMark? '-' rest)
  let (hour, rest) ← number? 2 (← dropSeparator? rest)
  let (minute, rest) ← number? 2 (← dropMark? ':' rest)
  let (second, rest) ← number? 2 (← dropMark? ':' rest)
  let (nano, rest) ← fraction? rest
  let (offset, rest) ← offset? (dropBlank rest)
  guard (dropBlank rest).isEmpty
  assemble? ⟨year, month, day⟩ hour minute second nano offset

/-! ## Writing -/

/-- A number in at least `width` digits. -/
def padded (width : Nat) (n : Nat) : String :=
  let digits := n.repr.toList
  String.ofList (List.replicate (width - digits.length) '0' ++ digits)

/-- A year: four digits, or a sign and at least as many where four digits are not enough. -/
def yearText (year : Int) : String :=
  if 0 ≤ year ∧ year ≤ 9999 then padded 4 year.toNat
  else (if year < 0 then "-" else "+") ++ padded 4 year.natAbs

/-- A fraction of a second in three, six or nine digits, as few as show all of it. -/
def fractionText (nano : Nat) : String :=
  if nano = 0 then ""
  else if nano % 1000000 = 0 then "." ++ padded 3 (nano / 1000000)
  else if nano % 1000 = 0 then "." ++ padded 6 (nano / 1000)
  else "." ++ padded 9 nano

/-- The text of an instant. -/
def text (t : Instant) : String :=
  let date := Date.ofDayNumber t.day
  let second := t.second.toNat
  let leap := if t.isLeap then 1 else 0
  yearText date.year ++ "-" ++ padded 2 date.month ++ "-" ++ padded 2 date.day ++ "T"
    ++ padded 2 (second / 3600) ++ ":" ++ padded 2 (second / 60 % 60) ++ ":"
    ++ padded 2 (second % 60 + leap) ++ fractionText (t.nano % nanosPerSecond).toNat ++ "Z"

example : Instant.epoch.text = "1970-01-01T00:00:00Z" := by decide

example : parse? "2016-12-31 23:59:60.5-00:30" = some ⟨17167, 1799, 1500000000⟩ := by
  decide +kernel

end Instant

end WorkflowChart
