import WorkflowChart.Json.Encode
import WorkflowChart.Json.Record
import WorkflowChart.Proofs.Json.Canonical

/-!
# Decoding what has been written

What a decoder makes of the document that has been written for a value, and which values it can give
at all. Both are told decoder by decoder; for a record they are told by its fields.

* **`Decoder.Reads`**: a document is decoded to a value wherever there is room for it.
* **`Fields.Written`**: the members of a document are those of some fields, in order. A field may be
  left out if it has a value for that case.
* **`Decoder.Reads.record`**: then the document is decoded to the record.
* **`Decoder.Gives`**: a decoder gives a value for some draft.
* **`Decoder.Gives.record`**: a record that is given is made of values that its fields allow.
-/

namespace WorkflowChart

variable {α β : Type}

/-- Where there is room for a container, it opens, and less room is left in it. -/
theorem Place.exists_enter (place : Place) {room : Nat} (h : room + 1 ≤ place.room) :
    ∃ inner, place.enter = .ok inner ∧ room ≤ inner.room := by
  obtain ⟨inner, hinner⟩ : ∃ inner, place.room = inner + 1 := ⟨place.room - 1, by omega⟩
  rw [hinner, Nat.add_le_add_iff_right] at h
  exact ⟨{ place with room := inner }, by rw [enter, hinner], h⟩

/-- The drafts of items are those of the items one by one. -/
theorem Json.draftItems_eq_map (items : List Json) : draftItems items = items.map draft := by
  induction items with
  | nil => rfl
  | cons item items ih => rw [draftItems, ih, List.map_cons]

/-- A number without sign is not written as `null`. -/
theorem Json.ofWord_ne_null (word : UInt64) : Json.ofWord word ≠ .null := by
  simp [ofWord]

namespace Decoder

variable {decoder : Decoder α} {room : Nat} {document : Json} {value : α}

/-- The document is decoded to the value, wherever `room` more containers may open. -/
def Reads (decoder : Decoder α) (room : Nat) (document : Json) (value : α) : Prop :=
  ∀ place : Place, room ≤ place.room → decoder place document.draft = .ok value

/-- The decoder gives the value for some draft. -/
def Gives (decoder : Decoder α) (value : α) : Prop :=
  ∃ place draft, decoder place draft = .ok value

/-! ## Simple values -/

/-- What is made of a decoded value comes of the same document. -/
theorem Reads.map (h : decoder.Reads room document value) (f : α → β) :
    (decoder.map f).Reads room document (f value) := by
  intro place hplace
  rw [Decoder.map, h place hplace]
  rfl

/-- A text is decoded as it is. -/
theorem reads_text (s : String) : text.Reads room (.string s) s :=
  fun _ _ => rfl

/-- A truth value is decoded as it is. -/
theorem reads_boolean (b : Bool) : boolean.Reads room (.bool b) b :=
  fun _ _ => rfl

/-- A number without sign that fits is decoded as it is. -/
theorem reads_natural {bits : Nat} {n : Whole} (hpos : 0 ≤ n.val) (hlt : n.val.toNat < 2 ^ bits) :
    (natural bits).Reads room (.number (.whole n)) n.val.toNat :=
  fun _ _ => if_pos ⟨hpos, hlt⟩

/-- A word of 64 bits is decoded as it is. -/
theorem reads_word64 (word : UInt64) : word64.Reads room (.ofWord word) word := by
  have hread : (natural 64).Reads room (.ofWord word) word.toNat :=
    reads_natural (Int.natCast_nonneg _) word.toNat_lt
  simpa [word64] using hread.map UInt64.ofNat

/-- A word of 32 bits is decoded as it is, though it is written like a longer one. -/
theorem reads_word32 (word : UInt32) : word32.Reads room (.ofWord word.toUInt64) word := by
  have hread : (natural 32).Reads room (.ofWord word.toUInt64) word.toNat :=
    reads_natural (Int.natCast_nonneg _) (by simpa [Whole.ofWord] using word.toNat_lt)
  simpa [word32] using hread.map UInt32.ofNat

/-- A canonical document is decoded to itself, where there is room for it. -/
theorem reads_json {value : Json} (h : value.Canonical) (hroom : value.depth ≤ room) :
    json.Reads room value value := by
  intro place hplace
  rw [json, h.json_draft (hroom.trans hplace)]
  rfl

/-- A value that may be missing is decoded if it is not written as `null` itself. -/
theorem reads_optional {write : α → Json} {value? : Option α}
    (h : ∀ value ∈ value?, decoder.Reads room (write value) value ∧ write value ≠ .null) :
    decoder.optional.Reads room (.ofOption write value?) value? := by
  cases value? with
  | none => exact fun _ _ => rfl
  | some value =>
    obtain ⟨hread, hnull⟩ := h value rfl
    intro place hplace
    rw [Json.ofOption, optional, hread place hplace]
    · rfl
    · intro _ hdraft
      cases hdocument : write value with
      | null => exact hnull hdocument
      | _ => rw [hdocument] at hdraft; cases hdraft

/-- A text that may be missing is decoded as it is, and so is its absence. -/
theorem reads_optional_text (value? : Option String) :
    text.optional.Reads room (.ofOption .string value?) value? :=
  reads_optional fun value _ => ⟨reads_text value, by simp⟩

/-- A word that may be missing is decoded as it is, and so is its absence. -/
theorem reads_optional_word64 (value? : Option UInt64) :
    word64.optional.Reads room (.ofOption .ofWord value?) value? :=
  reads_optional fun value _ => ⟨reads_word64 value, Json.ofWord_ne_null value⟩

/-- A sequence is decoded item by item. -/
theorem reads_listOf {write : α → Json} {values : List α}
    (h : ∀ value ∈ values, decoder.Reads room (write value) value) :
    (listOf decoder).Reads (room + 1) (.array (values.map write)) values := by
  intro place hplace
  obtain ⟨inner, henter, hinner⟩ := place.exists_enter hplace
  have hitems : (Json.draftItems (values.map write)).mapM (decoder inner) = .ok values := by
    rw [mapM_eq_ok_iff, Json.draftItems_eq_map, List.map_map, List.map_map]
    exact List.map_congr_left fun value hvalue => h value hvalue inner hinner
  rw [Json.draft, listOf, henter]
  simp only [bind, Except.bind, hitems]
  rfl

end Decoder

/-! ## Records -/

namespace Fields

variable {types : List Type}

/-- The names that members are written under. -/
def names : {types : List Type} → Fields types → List String
  | _, nil => []
  | _, cons field rest => field.name :: rest.names

/-- No field goes by the name of a later one. -/
def distinct : {types : List Type} → Fields types → Bool
  | _, nil => true
  | _, cons field rest => rest.names.all (fun name => !field.isNamed name) && rest.distinct

/-- The members are those of the fields, in order, and the row is what they are decoded to. -/
inductive Written (room : Nat) :
    {types : List Type} → Fields types → Row types → List (String × Json) → Prop
  | nil : Written room nil () []
  | given {α : Type} {types : List Type} {field : Field α} {rest : Fields types} {value : α}
      {row : Row types} {document : Json} {members : List (String × Json)}
      (hvalue : field.decoder.Reads room document value) (hrest : Written room rest row members) :
      Written room (cons field rest) (value, row) ((field.name, document) :: members)
  | leftOut {α : Type} {types : List Type} {field : Field α} {rest : Fields types} {value : α}
      {row : Row types} {members : List (String × Json)}
      (habsent : field.absent = some value) (hrest : Written room rest row members) :
      Written room (cons field rest) (value, row) members

/-- Only names of fields are written. -/
theorem Written.name_mem {room : Nat} {fields : Fields types} {row : Row types}
    {members : List (String × Json)} (h : Written room fields row members) :
    ∀ member ∈ members, member.1 ∈ fields.names := by
  induction h with
  | nil => exact List.forall_mem_nil _
  | given _ _ ih =>
    refine List.forall_mem_cons.2 ⟨List.mem_cons_self, ?_⟩
    exact fun member hmember => List.mem_cons_of_mem _ (ih member hmember)
  | leftOut _ _ ih => exact fun member hmember => List.mem_cons_of_mem _ (ih member hmember)

/-- No member of the later fields names the first one. -/
theorem Written.isNamed_eq_false {room : Nat} {field : Field α} {rest : Fields types}
    {row : Row types} {members : List (String × Json)} (h : Written room rest row members)
    (hdistinct : (cons field rest).distinct = true) :
    ∀ member ∈ members, field.isNamed member.1 = false := by
  rw [distinct, Bool.and_eq_true, List.all_eq_true] at hdistinct
  intro member hmember
  simpa using hdistinct.1 member.1 (h.name_mem member hmember)

section Fill

variable {field : Field α} {rest : Fields types} {place : Place} {slot : Option α}
  {slots : Slots types} {key : String} {draft : Draft}

/-- A member with the name of a field fills the slot of the field, if the slot is empty. -/
theorem fill_none_of_isNamed (h : field.isNamed key = true) :
    (cons field rest).fill (none, slots) place key draft =
      (field.decoder place draft).map fun value => some (some value, slots) := by
  rw [fill.eq_def]
  simp only [h, if_true]
  rfl

/-- A member with the name of a field is refused, if the slot of the field is filled. -/
theorem fill_some_of_isNamed (h : field.isNamed key = true) (value : α) :
    (cons field rest).fill (some value, slots) place key draft =
      .error (.duplicateField field.name) := by
  rw [fill.eq_def]
  simp only [h, if_true]

/-- A member with another name is left to the fields that follow. -/
theorem fill_of_not_isNamed (h : field.isNamed key = false) :
    (cons field rest).fill (slot, slots) place key draft =
      (rest.fill slots place key draft).map
        fun slots? => slots?.map fun slots => (slot, slots) := by
  rw [fill.eq_def]
  simp only [h, Bool.false_eq_true, if_false]
  rfl

/-- Members that do not name the first field leave its slot as it is. -/
theorem fillAll_cons {members : List (String × Json)}
    (h : ∀ member ∈ members, field.isNamed member.1 = false) :
    (cons field rest).fillAll place (slot, slots) (Json.draftMembers members) =
      (rest.fillAll place slots (Json.draftMembers members)).map fun slots => (slot, slots) := by
  induction members generalizing slots with
  | nil => rfl
  | cons member members ih =>
    obtain ⟨key, document⟩ := member
    obtain ⟨hkey, hmembers⟩ := List.forall_mem_cons.1 h
    rw [Json.draftMembers, fillAll, fillAll]
    simp only [orFlawed, Except.mapError, bind, Except.bind, fill_of_not_isNamed hkey]
    cases hslots : rest.fill slots place key document.draft with
    | error => rfl
    | ok slots? =>
      cases slots? with
      | none =>
        simp only [Except.map, Option.map_none]
        cases unlessFlawed document.draft.passed with
        | error => rfl
        | ok => exact ih hmembers
      | some slots => exact ih hmembers

end Fill

/-- **Members that have been written fill the slots**, and these give the row. -/
theorem Written.exists_fillAll {room : Nat} {fields : Fields types} {row : Row types}
    {members : List (String × Json)} (h : Written room fields row members)
    (hdistinct : fields.distinct = true) {place : Place} (hplace : room ≤ place.room) :
    ∃ slots, fields.fillAll place (Slots.empty types) (Json.draftMembers members) = .ok slots ∧
      fields.finish slots = .ok row := by
  induction h with
  | nil => exact ⟨(), rfl, rfl⟩
  | @given α types field rest value row document members hvalue hrest ih =>
    have hothers := hrest.isNamed_eq_false hdistinct
    obtain ⟨slots, hslots, hfinish⟩ := ih (Bool.and_eq_true_iff.1 hdistinct).2
    have hnamed : field.isNamed field.name = true := by simp [Field.isNamed]
    -- the first member fills the first slot, and no later one names this field
    refine ⟨(some value, slots), ?_, ?_⟩
    · rw [Json.draftMembers, fillAll]
      simp only [orFlawed, Except.mapError, bind, Except.bind, Slots.empty,
        fill_none_of_isNamed hnamed, hvalue place hplace, Except.map]
      rw [fillAll_cons hothers, hslots]
      rfl
    · rw [finish, hfinish]
      rfl
  | @leftOut α types field rest value row members habsent hrest ih =>
    have hothers := hrest.isNamed_eq_false hdistinct
    obtain ⟨slots, hslots, hfinish⟩ := ih (Bool.and_eq_true_iff.1 hdistinct).2
    -- the slot stays empty, and the row gets the value for a field that is left out
    refine ⟨(none, slots), ?_, ?_⟩
    · rw [Slots.empty, fillAll_cons hothers, hslots]
      rfl
    · rw [finish, hfinish, habsent]
      rfl

end Fields

namespace Decoder

/-- **A record is decoded from its document**, if it is made of the row that has been written. -/
theorem Reads.record {types : List Type} {name : String} {fields : Fields types}
    {make : Row types → α} {room : Nat} {row : Row types} {members : List (String × Json)}
    {value : α} (hdistinct : fields.distinct = true) (h : fields.Written room row members)
    (hmake : make row = value) :
    (record name fields make).Reads (room + 1) (.object members) value := by
  subst hmake
  intro place hplace
  obtain ⟨inner, henter, hinner⟩ := place.exists_enter hplace
  obtain ⟨slots, hslots, hfinish⟩ := h.exists_fillAll hdistinct hinner
  rw [Json.draft, Decoder.record, henter]
  simp only [bind, Except.bind, hslots, hfinish]
  rfl

end Decoder

/-! ## What a decoder can give -/

/-- A value of the wrong kind is no value. -/
theorem Draft.mismatch_ne_ok (expected : Expected) (draft : Draft) (value : α) :
    draft.mismatch expected ≠ .ok value := by
  intro h
  obtain ⟨_, -, ⟨⟩⟩ := bind_eq_ok_iff.1 h

/-- A field can have the value: it is decoded, or it is the one for a field that is not given. -/
def Field.Allows (field : Field α) (value : α) : Prop :=
  field.decoder.Gives value ∨ field.absent = some value ∨ field.beyond = some value

namespace Field

variable {decoder : Decoder α} {name : String} {value : α}

/-- A field that has to be given is decoded. -/
theorem Allows.gives (h : (required name decoder).Allows value) : decoder.Gives value := by
  rcases h with h | h | h
  · exact h
  · cases h
  · cases h

/-- A field that may be missing is decoded where it is not missing. -/
theorem Allows.gives_some (h : (Field.optional name decoder).Allows (some value)) :
    decoder.optional.Gives (some value) := by
  rcases h with h | h | h
  · exact h
  · cases h
  · cases h

end Field

/-- Every field can have its value. -/
def Fields.Allows : {types : List Type} → Fields types → Row types → Prop
  | _, nil, () => True
  | _, cons field rest, (value, row) => field.Allows value ∧ rest.Allows row

/-- A slot holds a value that its field can have, or none. -/
def Fields.AllowsSlots : {types : List Type} → Fields types → Slots types → Prop
  | _, nil, () => True
  | _, cons field rest, (slot, slots) =>
    (∀ value ∈ slot, field.Allows value) ∧ rest.AllowsSlots slots

namespace Fields

variable {types : List Type}

/-- Empty slots hold no value that a field could not have. -/
theorem allowsSlots_empty : {types : List Type} → (fields : Fields types) →
    fields.AllowsSlots (Slots.empty types)
  | _, nil => trivial
  | _, cons _ rest => ⟨nofun, rest.allowsSlots_empty⟩

/-- Filling a slot leaves values in the slots that their fields can have. -/
theorem AllowsSlots.fill {place : Place} {key : String} {draft : Draft} :
    {types : List Type} → {fields : Fields types} → {slots filled : Slots types} →
    fields.AllowsSlots slots → fields.fill slots place key draft = .ok (some filled) →
    fields.AllowsSlots filled
  | _, nil, _, _, _, h => nomatch h
  | _, cons field rest, (slot, slots), _, hslots, h => by
    cases hnamed : field.isNamed key with
    | true =>
      -- a slot that has been filled is not filled again
      cases slot with
      | some value => exact nomatch (fill_some_of_isNamed hnamed value).symm.trans h
      | none =>
        rw [fill_none_of_isNamed hnamed, map_eq_ok_iff] at h
        obtain ⟨value, hvalue, ⟨⟩⟩ := h
        refine ⟨?_, hslots.2⟩
        rintro _ ⟨⟩
        exact Or.inl ⟨place, draft, hvalue⟩
    | false =>
      rw [fill_of_not_isNamed hnamed, map_eq_ok_iff] at h
      obtain ⟨slots?, hfill, h⟩ := h
      cases slots? with
      | none => cases h
      | some filled =>
        cases h
        exact ⟨hslots.1, hslots.2.fill hfill⟩

/-- Filling slots member by member leaves values in them that the fields could have. -/
theorem AllowsSlots.fillAll {fields : Fields types} {place : Place}
    {members : List (Except Flaw String × Draft)} {slots filled : Slots types}
    (hslots : fields.AllowsSlots slots) (h : fields.fillAll place slots members = .ok filled) :
    fields.AllowsSlots filled := by
  induction members generalizing slots with
  | nil =>
    cases h
    exact hslots
  | cons member members ih =>
    obtain ⟨key, draft⟩ := member
    rw [Fields.fillAll, bind_eq_ok_iff] at h
    obtain ⟨name, -, h⟩ := h
    obtain ⟨slots?, hfill, h⟩ := bind_eq_ok_iff.1 h
    cases slots? with
    | none =>
      obtain ⟨_, -, h⟩ := bind_eq_ok_iff.1 h
      exact ih hslots h
    | some slots => exact ih (hslots.fill hfill) h

/-- The row that slots give is one that the fields allow. -/
theorem AllowsSlots.finish : {types : List Type} → {fields : Fields types} →
    {slots : Slots types} → {row : Row types} → fields.AllowsSlots slots →
    fields.finish slots = .ok row → fields.Allows row
  | _, nil, _, _, _, _ => trivial
  | _, cons field rest, (slot, slots), (value, row), hslots, h => by
    rw [Fields.finish] at h
    split at h
    · next found hfound =>
      obtain ⟨others, hothers, ⟨⟩⟩ := bind_eq_ok_iff.1 h
      refine ⟨?_, hslots.2.finish hothers⟩
      cases slot with
      | none => exact Or.inr (Or.inl hfound)
      | some given =>
        cases hfound
        exact hslots.1 _ rfl
    · cases h

/-- The row that a sequence gives is one that the fields allow. -/
theorem allows_of_ofItems {place : Place} {flaw? : Option Flaw} {short : Nat → DecodeError} :
    {types : List Type} → (fields : Fields types) → {index : Nat} → {items left : List Draft} →
    {row : Row types} → fields.ofItems place flaw? short index items = .ok (row, left) →
    fields.Allows row
  | _, nil, _, _, _, _, _ => trivial
  | _, cons field rest, _, item :: items, _, (value, row), h => by
    rw [ofItems, bind_eq_ok_iff] at h
    obtain ⟨first, hfirst, h⟩ := h
    obtain ⟨⟨others, left⟩, hothers, ⟨⟩⟩ := bind_eq_ok_iff.1 h
    exact ⟨Or.inl ⟨place, item, hfirst⟩, rest.allows_of_ofItems hothers⟩
  | _, cons field rest, _, [], _, (value, row), h => by
    rw [ofItems, bind_eq_ok_iff] at h
    obtain ⟨_, -, h⟩ := h
    split at h
    · next beyond hbeyond =>
      obtain ⟨⟨others, left⟩, hothers, ⟨⟩⟩ := bind_eq_ok_iff.1 h
      exact ⟨Or.inr (Or.inr hbeyond), rest.allows_of_ofItems hothers⟩
    · cases h

end Fields

namespace Decoder

variable {decoder : Decoder α}

/-- **A record that is given** is made of values that its fields allow. -/
theorem Gives.record {types : List Type} {name : String} {fields : Fields types}
    {make : Row types → α} {value : α} (h : (record name fields make).Gives value) :
    ∃ row, fields.Allows row ∧ make row = value := by
  obtain ⟨place, draft, h⟩ := h
  cases draft with
  | object members flaw? =>
    rw [Decoder.record, bind_eq_ok_iff] at h
    obtain ⟨inner, -, h⟩ := h
    obtain ⟨slots, hslots, h⟩ := bind_eq_ok_iff.1 h
    obtain ⟨_, -, h⟩ := bind_eq_ok_iff.1 h
    obtain ⟨row, hrow, ⟨⟩⟩ := bind_eq_ok_iff.1 h
    exact ⟨row, (fields.allowsSlots_empty.fillAll hslots).finish hrow, rfl⟩
  | array items flaw? =>
    rw [Decoder.record, bind_eq_ok_iff] at h
    obtain ⟨inner, -, h⟩ := h
    obtain ⟨⟨row, left⟩, hrow, h⟩ := bind_eq_ok_iff.1 h
    simp only at h
    split at h
    · obtain ⟨_, -, ⟨⟩⟩ := bind_eq_ok_iff.1 h
      exact ⟨row, fields.allows_of_ofItems hrow, rfl⟩
    · obtain ⟨_, ⟨⟩, -⟩ := bind_eq_ok_iff.1 h
  | absent | bare | string => exact absurd h (Draft.mismatch_ne_ok _ _ _)

/-- What a decoder makes of values is made of values that it gives. -/
theorem Gives.map {f : α → β} {value : β} (h : (decoder.map f).Gives value) :
    ∃ a, decoder.Gives a ∧ f a = value := by
  obtain ⟨place, draft, h⟩ := h
  obtain ⟨a, ha, rfl⟩ := map_eq_ok_iff.1 h
  exact ⟨a, ⟨place, draft, ha⟩, rfl⟩

/-- The items of a sequence are given by the decoder of items. -/
theorem Gives.listOf {values : List α} (h : (listOf decoder).Gives values) :
    ∀ value ∈ values, decoder.Gives value := by
  obtain ⟨place, draft, h⟩ := h
  cases draft with
  | array items flaw? =>
    rw [Decoder.listOf, bind_eq_ok_iff] at h
    obtain ⟨inner, -, h⟩ := h
    obtain ⟨seen, hseen, h⟩ := bind_eq_ok_iff.1 h
    obtain ⟨_, -, ⟨⟩⟩ := bind_eq_ok_iff.1 h
    rw [mapM_eq_ok_iff] at hseen
    intro value hvalue
    obtain ⟨item, -, hitem⟩ := List.mem_map.1 (hseen ▸ List.mem_map_of_mem hvalue)
    exact ⟨inner, item, hitem⟩
  | absent | bare | string | object => exact absurd h (Draft.mismatch_ne_ok _ _ _)

/-- A value that may be missing and is not has been decoded. -/
theorem Gives.optional {value : α} (h : decoder.optional.Gives (some value)) :
    decoder.Gives value := by
  obtain ⟨place, draft, h⟩ := h
  rw [Decoder.optional.eq_def] at h
  split at h
  · cases h
  · obtain ⟨_, hvalue, ⟨⟩⟩ := map_eq_ok_iff.1 h
    exact ⟨place, draft, hvalue⟩

/-- A result about flaws is one about decoding as well. -/
theorem orFlawed_eq_ok_iff {result : Except Flaw α} {value : α} :
    orFlawed result = .ok value ↔ result = .ok value := by
  cases result <;> simp [orFlawed, Except.mapError]

/-- A decoded document is canonical. -/
theorem Gives.canonical {value : Json} (h : json.Gives value) : value.Canonical := by
  obtain ⟨place, draft, h⟩ := h
  exact draft.canonical_of_json (orFlawed_eq_ok_iff.1 h)

/-- Where `null` stands for a missing value, no value is `null`. -/
theorem Gives.ne_null {value : Json} (h : json.optional.Gives (some value)) : value ≠ .null := by
  obtain ⟨place, draft, h⟩ := h
  rw [Decoder.optional.eq_def] at h
  split at h
  · cases h
  · next hdraft =>
    rintro rfl
    obtain ⟨_, hvalue, ⟨⟩⟩ := map_eq_ok_iff.1 h
    obtain ⟨passed, rfl⟩ := Draft.exists_eq_bare_of_json_eq_null (orFlawed_eq_ok_iff.1 hvalue)
    exact hdraft passed rfl

/-- What is decoded from a text is given. -/
theorem gives_of_decode {text : String} {value : α} (h : decode decoder text = .ok value) :
    decoder.Gives value := by
  obtain ⟨found, hfound, h⟩ := bind_eq_ok_iff.1 h
  obtain ⟨rest, -, h⟩ := bind_eq_ok_iff.1 h
  split at h
  · cases h
    exact ⟨_, _, hfound⟩
  · cases h

end Decoder

end WorkflowChart
