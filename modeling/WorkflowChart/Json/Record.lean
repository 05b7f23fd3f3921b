import WorkflowChart.Json.Decoder

/-!
# Records

Decoders of records with named fields. A record is given as an object, whose other members are
passed over, or as a sequence of all its fields in the order of declaration.

## Main definitions

* `Field`: a field: its names, its decoder, and what it is when it is not given.
* `Fields`: the fields of a record; `Row` is a value for each of them.
* `Decoder.record`: the decoder of a record.
-/

namespace WorkflowChart

/-- A field of a record. -/
structure Field (α : Type) where
  /-- The name of the field. -/
  name : String
  /-- Another name that the field may go by. -/
  otherName : Option String := none
  /-- The decoder of its value. -/
  decoder : Decoder α
  /-- The value that the field has when an object lacks it. -/
  absent : Option α := none
  /-- The value that the field has when a sequence ends before it. -/
  beyond : Option α := none

namespace Field

variable {α : Type}

/-- A field that has to be given. -/
def required (name : String) (decoder : Decoder α) : Field α :=
  { name, decoder }

/-- A field that an object may lack or give as `null`. -/
def optional (name : String) (decoder : Decoder α) : Field (Option α) :=
  { name, decoder := decoder.optional, absent := some none }

/-- A field that an object may lack or give as `null`, and that a sequence may lack. -/
def lenient (name : String) (decoder : Decoder α) : Field (Option α) :=
  { optional name decoder with beyond := some none }

/-- A field that has a value of its own when it is not given. -/
def withDefault (name : String) (decoder : Decoder α) (value : α) : Field α :=
  { name, decoder, absent := some value, beyond := some value }

/-- The same field under one more name. -/
def alsoNamed (field : Field α) (name : String) : Field α :=
  { field with otherName := some name }

/-- Whether a key names the field. -/
def isNamed (field : Field α) (key : String) : Bool :=
  key = field.name ∨ some key = field.otherName

end Field

/-- The fields of a record whose values have the given types. -/
inductive Fields : List Type → Type 1 where
  | nil : Fields []
  | cons {α : Type} {types : List Type} (field : Field α) (rest : Fields types) :
    Fields (α :: types)

/-- A value of each of the given types. -/
@[reducible] def Row : List Type → Type
  | [] => Unit
  | α :: types => α × Row types

/-- For each of the given types a value, or none yet. -/
@[reducible] def Slots : List Type → Type
  | [] => Unit
  | α :: types => Option α × Slots types

namespace Slots

/-- No value yet. -/
def empty : (types : List Type) → Slots types
  | [] => ()
  | _ :: types => (none, empty types)

end Slots

namespace Fields

/-- The number of fields. -/
def count : {types : List Type} → Fields types → Nat
  | _, nil => 0
  | _, cons _ rest => rest.count + 1

/-- Decodes what stands under a key into its slot. There is no result if no field has that name, and
an error if the slot is taken. -/
def fill : {types : List Type} → Fields types → Slots types → Place → String → Draft →
    Except DecodeError (Option (Slots types))
  | _, nil, _, _, _, _ => .ok none
  | _, cons field rest, (slot, slots), place, key, draft =>
    if field.isNamed key then
      match slot with
      | some _ => .error (.duplicateField field.name)
      | none => do return some (some (← field.decoder place draft), slots)
    else do return (← rest.fill slots place key draft).map fun slots => (slot, slots)

/-- The value of every field once an object has ended. -/
def finish : {types : List Type} → Fields types → Slots types → Except DecodeError (Row types)
  | _, nil, _ => .ok ()
  | _, cons field rest, (slot, slots) => do
    match slot <|> field.absent with
    | some value => return (value, ← rest.finish slots)
    | none => throw (.missingField field.name)

/-- Decodes the members of an object into their slots. -/
def fillAll {types : List Type} (fields : Fields types) (place : Place) :
    Slots types → List (Except Flaw String × Draft) → Except DecodeError (Slots types)
  | slots, [] => .ok slots
  | slots, (key, draft) :: members => do
    match ← fields.fill slots place (← orFlawed key) draft with
    | some slots => fields.fillAll place slots members
    | none => do
      unlessFlawed draft.passed
      fields.fillAll place slots members

/-- Decodes the items of a sequence into the fields from the one with the given index on. Gives the
values and the items that are left over. `short` is the error for a sequence that has too few. -/
def ofItems (place : Place) (flaw? : Option Flaw) (short : Nat → DecodeError) :
    {types : List Type} → Fields types → Nat → List Draft →
    Except DecodeError (Row types × List Draft)
  | _, nil, _, items => .ok ((), items)
  | _, cons field rest, index, item :: items => do
    let value ← field.decoder place item
    let (values, left) ← rest.ofItems place flaw? short (index + 1) items
    return ((value, values), left)
  | _, cons field rest, index, [] => do
    unlessFlawed flaw?
    match field.beyond with
    | some value =>
      let (values, left) ← rest.ofItems place flaw? short (index + 1) []
      return ((value, values), left)
    | none => throw (short index)

end Fields

namespace Decoder

/-- The error for a sequence with more items than the record has fields. -/
def surplus (whole : Bool) (count length : Nat) : DecodeError :=
  if whole then .wrongLength length (.items count) else .flawed .malformed

/-- A record with the given fields. -/
def record {α : Type} {types : List Type} (name : String) (fields : Fields types)
    (make : Row types → α) : Decoder α := fun place draft =>
  match draft with
  | .object members flaw? => do
    let place ← place.enter
    let slots ← fields.fillAll place (Slots.empty types) members
    unlessFlawed flaw?
    return make (← fields.finish slots)
  | .array items flaw? => do
    let place ← place.enter
    let short := fun index => DecodeError.wrongLength index (.fields name fields.count)
    let (values, left) ← fields.ofItems place flaw? short 0 items
    unless left.isEmpty do throw (surplus place.whole fields.count items.length)
    unlessFlawed flaw?
    return make values
  | draft => draft.mismatch (.record name)

end Decoder

end WorkflowChart
