import WorkflowChart.Json.DecodeError
import WorkflowChart.Json.Reader

/-!
# Decoders

A decoder takes what a text shows to a value of the type it wants. It looks at the draft in reading
order and stops at the first thing that is wrong.

## Main definitions

* `Place`: where a draft stands: how deep, and whether it lies in a value that is known to be whole.
* `Decoder`: a decoder.
* `Decoder.text`, `Decoder.boolean`, `Decoder.word64`, `Decoder.optional`, `Decoder.listOf`,
  `Decoder.oneOf` and others: the decoders of simple values.
* `decode`: what a decoder makes of a whole text.
-/

namespace WorkflowChart

/-- Where a draft stands. -/
structure Place where
  /-- How many more containers may open. -/
  room : Nat := Draft.maxDepth
  /-- Whether the draft is part of a value that has been read to its end without a flaw. -/
  whole : Bool := false
deriving DecidableEq

/-- A decoder of values of type `α`. -/
def Decoder (α : Type) := Place → Draft → Except DecodeError α

/-- A result about flaws as one about decoding. -/
def orFlawed {α : Type} (result : Except Flaw α) : Except DecodeError α :=
  result.mapError .flawed

/-- Succeeds unless a draft ended in a flaw. -/
def unlessFlawed (flaw? : Option Flaw) : Except DecodeError Unit :=
  orFlawed (Draft.unlessFlawed flaw?)

namespace Place

/-- The place inside a container, if it may open. -/
def enter (place : Place) : Except DecodeError Place :=
  match place.room with
  | 0 => .error (.flawed .malformed)
  | room + 1 => .ok { place with room }

end Place

namespace Draft

/-- What stands in a text, as one who wants something else tells it. A container is told by its
first character, all else has to be read to its end. -/
def found : Draft → Except DecodeError Found
  | absent => .error (.flawed .cutShort)
  | bare seen _ => orFlawed (seen.map .ofScalar)
  | string seen _ => orFlawed (seen.map .string)
  | array _ _ => .ok .sequence
  | object _ _ => .ok .map

/-- The error of one who wants something else. -/
def mismatch {α : Type} (expected : Expected) (draft : Draft) : Except DecodeError α := do
  throw (.wrongType (← draft.found) expected)

end Draft

namespace Decoder

variable {α β : Type}

/-- Applies a function to what is decoded. -/
def map (f : α → β) (decoder : Decoder α) : Decoder β := fun place draft =>
  (decoder place draft).map f

/-- Goes on with what is decoded. -/
def andThen (decoder : Decoder α) (f : α → Except DecodeError β) : Decoder β := fun place draft =>
  (decoder place draft).bind f

/-- Any value at all. -/
def json : Decoder Json := fun place draft =>
  orFlawed (draft.json place.room)

/-- A text. -/
def text : Decoder String := fun _ draft =>
  match draft with
  | .string (.ok s) _ => .ok s
  | draft => draft.mismatch .string

/-- A truth value. -/
def boolean : Decoder Bool := fun _ draft =>
  match draft with
  | .bare (.ok (.bool b)) _ => .ok b
  | draft => draft.mismatch .boolean

/-- A number without sign that fits `bits` bits. -/
def natural (bits : Nat) : Decoder Nat := fun _ draft =>
  match draft with
  | .bare (.ok (.number (.whole n))) _ =>
    if 0 ≤ n.val ∧ n.val.toNat < Nat.pow 2 bits then .ok n.val.toNat
    else .error (.outOfRange n (.word bits))
  | draft => draft.mismatch (.word bits)

/-- A number of 64 bits without sign. -/
def word64 : Decoder UInt64 :=
  (natural 64).map UInt64.ofNat

/-- A number of 32 bits without sign. -/
def word32 : Decoder UInt32 :=
  (natural 32).map UInt32.ofNat

/-- A value, or `null` for none. -/
def optional (decoder : Decoder α) : Decoder (Option α) := fun place draft =>
  match draft with
  | .bare (.ok .null) _ => .ok none
  | draft => (decoder place draft).map some

/-- A sequence of values. -/
def listOf (decoder : Decoder α) : Decoder (List α) := fun place draft =>
  match draft with
  | .array items flaw? => do
    let place ← place.enter
    let values ← items.mapM (decoder place)
    unlessFlawed flaw?
    return values
  | draft => draft.mismatch .sequence

/-- The value that a name stands for. -/
def named (table : List (String × α)) (name : String) : Except DecodeError α :=
  match Entries.get? name table with
  | some value => .ok value
  | none => .error (.unknownVariant name (Entries.names table))

/-- The name of a variant, where it is told apart from other texts. -/
def variantName : Decoder String := fun _ draft =>
  match draft with
  | .string (.ok s) _ => .ok s
  | draft => draft.mismatch .variant

/-- Nothing but `null`. -/
def unit : Decoder Unit := fun _ draft =>
  match draft with
  | .bare (.ok .null) _ => .ok ()
  | draft => draft.mismatch .unit

/-- One of some names, either as a text or as an object with that name for its only key and `null`
under it. -/
def oneOf (table : List (String × α)) : Decoder α := fun place draft =>
  match draft with
  | .absent => .error (.flawed .cutShort)
  | .string seen _ => do named table (← orFlawed seen)
  | .bare _ _ | .array _ _ => .error (.flawed .malformed)
  | .object members flaw? => do
    let place ← place.enter
    match members with
    | [] => .error (.flawed (flaw?.getD .malformed))
    | (key, value) :: others =>
      let variant ← named table (← orFlawed key)
      unit place value
      unless others.isEmpty do throw (.flawed .malformed)
      unlessFlawed flaw?
      return variant

end Decoder

/-- What a decoder makes of a text that holds one value and nothing but space around it. -/
def decode {α : Type} (decoder : Decoder α) (text : String) : Except DecodeError α := do
  let reading := read text.toList
  let value ← decoder {} reading.shown
  match dropSpace (← orFlawed reading.rest) with
  | [] => return value
  | _ :: _ => throw (.flawed .malformed)

end WorkflowChart
