import Mathlib.Data.String.Basic
import WorkflowChart.Json.Draft
import WorkflowChart.Proofs.Results

/-!
# Values as they are read

A value that has been read lists the members of its objects in ascending order of their names. Such
a value is read again as it is, where there is room for the containers in it.

* **`Json.depth`**: how many containers nest in a value.
* **`Json.Canonical`**: the members of all objects in a value are in ascending order.
* **`Draft.canonical_of_json`**: what is read is canonical.
* **`Json.Canonical.json_draft`**: what is canonical is read as it is.
* **`Json.exists_json_draft`**: whatever else has been written is read as something.
-/

namespace WorkflowChart

/-! ## Ascending names -/

namespace Entries

variable {α : Type} {name : String} {value : α} {entries : Entries α}

/-- The names are in ascending order, each once. -/
def Ascending (entries : Entries α) : Prop :=
  (names entries).Pairwise (· < ·)

@[simp] theorem names_cons (name : String) (value : α) (rest : Entries α) :
    names ((name, value) :: rest) = name :: names rest := rfl

/-- A name is there after something has been put if it was there, or is the name of what is put. -/
theorem mem_names_putSorted_iff {key : String} :
    key ∈ names (putSorted name value entries) ↔ key = name ∨ key ∈ names entries := by
  induction entries with
  | nil => simp [putSorted, names]
  | cons head rest ih =>
    obtain ⟨other, old⟩ := head
    rw [putSorted]
    split
    · next heq => simp [heq]
    · split
      · simp
      · simp only [names_cons, List.mem_cons, ih]
        exact or_left_comm

/-- What is put leaves the names in ascending order. -/
theorem Ascending.putSorted (h : Ascending entries) (name : String) (value : α) :
    Ascending (putSorted name value entries) := by
  induction entries with
  | nil => exact List.pairwise_singleton _ _
  | cons head rest ih =>
    obtain ⟨other, old⟩ := head
    obtain ⟨hfirst, hrest⟩ := List.pairwise_cons.1 h
    rw [Entries.putSorted]
    split
    · next heq =>
      subst heq
      exact h
    · next hne =>
      split
      · next hlt =>
        -- the new name comes before the first one, and so before all
        refine List.pairwise_cons.2 ⟨?_, h⟩
        intro key hkey
        rcases List.mem_cons.1 hkey with rfl | hkey
        · exact hlt
        · exact hlt.trans (hfirst key hkey)
      · next hnlt =>
        -- the new name goes somewhere after the first one
        refine List.pairwise_cons.2 ⟨?_, ih hrest⟩
        intro key hkey
        rcases mem_names_putSorted_iff.1 hkey with rfl | hkey
        · exact lt_of_le_of_ne (not_lt.1 hnlt) hne
        · exact hfirst key hkey

/-- A name after all others goes to the end. -/
theorem putSorted_of_forall_lt (h : ∀ key ∈ names entries, key < name) (value : α) :
    putSorted name value entries = entries ++ [(name, value)] := by
  induction entries with
  | nil => rfl
  | cons head rest ih =>
    obtain ⟨other, old⟩ := head
    have hlt : other < name := h other List.mem_cons_self
    rw [putSorted, if_neg hlt.ne, if_neg hlt.not_gt,
      ih fun key hkey => h key (List.mem_cons_of_mem _ hkey)]
    rfl

/-- Names that go on in ascending order come after those before them. -/
theorem Ascending.lt_of_append {before : Entries α}
    (h : Ascending (before ++ (name, value) :: entries)) :
    ∀ key ∈ names before, key < name := by
  intro key hkey
  rw [Ascending, names, List.map_append, List.pairwise_append] at h
  exact h.2.2 key hkey name List.mem_cons_self

/-- What is put to values of which something holds is one more such value. -/
theorem forall_mem_putSorted {P : α → Prop} (h : ∀ entry ∈ entries, P entry.2) (hvalue : P value)
    (name : String) : ∀ entry ∈ putSorted name value entries, P entry.2 := by
  induction entries with
  | nil =>
    rintro entry hentry
    obtain rfl := List.mem_singleton.1 hentry
    exact hvalue
  | cons head rest ih =>
    obtain ⟨other, old⟩ := head
    obtain ⟨hold, hrest⟩ := List.forall_mem_cons.1 h
    rw [putSorted]
    split
    · exact List.forall_mem_cons.2 ⟨hvalue, hrest⟩
    · split
      · exact List.forall_mem_cons.2 ⟨hvalue, h⟩
      · exact List.forall_mem_cons.2 ⟨hold, ih hrest⟩

end Entries

namespace Json

/-! ## Depth -/

mutual

/-- How many containers nest in a value. -/
def depth : Json → Nat
  | null | bool _ | number _ | string _ => 0
  | array items => depthItems items + 1
  | object members => depthMembers members + 1

/-- How many containers nest in the items of an array. -/
def depthItems : List Json → Nat
  | [] => 0
  | item :: rest => max (depth item) (depthItems rest)

/-- How many containers nest in the members of an object. -/
def depthMembers : List (String × Json) → Nat
  | [] => 0
  | (_, value) :: rest => max (depth value) (depthMembers rest)

end

/-- Items nest no deeper than a bound if each of them does not. -/
theorem depthItems_le_iff {items : List Json} {n : Nat} :
    depthItems items ≤ n ↔ ∀ item ∈ items, item.depth ≤ n := by
  induction items with
  | nil => simp [depthItems]
  | cons item items ih => rw [depthItems, Nat.max_le, ih, List.forall_mem_cons]

/-- Members nest no deeper than a bound if each of their values does not. -/
theorem depthMembers_le_iff {members : List (String × Json)} {n : Nat} :
    depthMembers members ≤ n ↔ ∀ member ∈ members, member.2.depth ≤ n := by
  induction members with
  | nil => simp [depthMembers]
  | cons member members ih => rw [depthMembers, Nat.max_le, ih, List.forall_mem_cons]

/-- An array needs room for itself, and the rest of the room for its items. -/
theorem exists_of_depth_array_le {items : List Json} {room : Nat} (h : (array items).depth ≤ room) :
    ∃ inner, room = inner + 1 ∧ ∀ item ∈ items, item.depth ≤ inner := by
  rw [depth] at h
  refine ⟨room - 1, by omega, ?_⟩
  exact depthItems_le_iff.1 (by omega)

/-- An object needs room for itself, and the rest of the room for its members. -/
theorem exists_of_depth_object_le {members : List (String × Json)} {room : Nat}
    (h : (object members).depth ≤ room) :
    ∃ inner, room = inner + 1 ∧ ∀ member ∈ members, member.2.depth ≤ inner := by
  rw [depth] at h
  refine ⟨room - 1, by omega, ?_⟩
  exact depthMembers_le_iff.1 (by omega)

/-! ## Reading canonical values -/

/-- The members of all objects in a value are in ascending order of their names. -/
inductive Canonical : Json → Prop
  | null : Canonical .null
  | bool (b : Bool) : Canonical (.bool b)
  | number (n : Number) : Canonical (.number n)
  | string (s : String) : Canonical (.string s)
  | array {items : List Json} (hitems : ∀ item ∈ items, Canonical item) : Canonical (.array items)
  | object {members : List (String × Json)} (hascending : Entries.Ascending members)
    (hmembers : ∀ member ∈ members, Canonical member.2) : Canonical (.object members)

/-- **A canonical value is read as it is**, where there is room for it. -/
theorem Canonical.json_draft {value : Json} (h : value.Canonical) {room : Nat}
    (hroom : value.depth ≤ room) : Draft.json room value.draft = .ok value := by
  induction h generalizing room with
  | null | bool | number | string => rfl
  | @array items _ ih =>
    obtain ⟨room, rfl, hinside⟩ := exists_of_depth_array_le hroom
    have hitems : Draft.jsonItems room (draftItems items) = .ok items := by
      clear * - ih hinside
      induction items with
      | nil => rfl
      | cons item items ihItems =>
        rw [List.forall_mem_cons] at hinside
        have hitem := ih item List.mem_cons_self hinside.1
        have hrest :=
          ihItems (fun other hother => ih other (List.mem_cons_of_mem _ hother)) hinside.2
        rw [draftItems, Draft.jsonItems, hitem, hrest]
        rfl
    rw [draft, Draft.json, hitems]
    rfl
  | @object members hascending _ ih =>
    obtain ⟨room, rfl, hinside⟩ := exists_of_depth_object_le hroom
    -- the members that have been read come before those that are still to be read
    have hmembers : ∀ before rest, before ++ rest = members →
        Draft.jsonMembers room before (draftMembers rest) = .ok members := by
      intro before rest hsplit
      induction rest generalizing before with
      | nil =>
        rw [← hsplit, List.append_nil]
        rfl
      | cons member rest ihRest =>
        obtain ⟨name, value⟩ := member
        have hmem : (name, value) ∈ members := by simp [← hsplit]
        have hvalue : Draft.json room value.draft = .ok value := ih _ hmem (hinside _ hmem)
        have hput : Entries.putSorted name value before = before ++ [(name, value)] :=
          Entries.putSorted_of_forall_lt (Entries.Ascending.lt_of_append (hsplit ▸ hascending))
            value
        rw [draftMembers, Draft.jsonMembers, hvalue]
        show Draft.jsonMembers room (Entries.putSorted name value before) _ = _
        rw [hput, ihRest _ (by simpa using hsplit)]
    rw [draft, Draft.json, hmembers [] members rfl]
    rfl

/-! ## Reading values of any kind -/

mutual

/-- **Every value is read as something**, where there is room for it. -/
theorem exists_json_draft : (value : Json) → {room : Nat} → value.depth ≤ room →
    ∃ seen, Draft.json room value.draft = .ok seen
  | null, _, _ | bool _, _, _ | number _, _, _ | string _, _, _ => ⟨_, rfl⟩
  | array items, _, hroom => by
    obtain ⟨room, rfl, hitems⟩ := exists_of_depth_array_le hroom
    obtain ⟨seen, hseen⟩ := exists_jsonItems_draft items hitems
    exact ⟨.array seen, by rw [draft, Draft.json, hseen]; rfl⟩
  | object members, _, hroom => by
    obtain ⟨room, rfl, hmembers⟩ := exists_of_depth_object_le hroom
    obtain ⟨seen, hseen⟩ := exists_jsonMembers_draft members [] hmembers
    exact ⟨.object seen, by rw [draft, Draft.json, hseen]; rfl⟩

/-- The drafts of items are read as documents, if there is room for each of the items. -/
theorem exists_jsonItems_draft : (items : List Json) → {room : Nat} →
    (∀ item ∈ items, item.depth ≤ room) → ∃ seen, Draft.jsonItems room (draftItems items) = .ok seen
  | [], _, _ => ⟨_, rfl⟩
  | item :: items, room, hroom => by
    obtain ⟨hitem, hitems⟩ := List.forall_mem_cons.1 hroom
    obtain ⟨first, hfirst⟩ := exists_json_draft item hitem
    obtain ⟨rest, hrest⟩ := exists_jsonItems_draft items hitems
    exact ⟨first :: rest, by rw [draftItems, Draft.jsonItems, hfirst, hrest]; rfl⟩

/-- And the members of an object. -/
theorem exists_jsonMembers_draft : (members : List (String × Json)) → {room : Nat} →
    (before : Entries Json) → (∀ member ∈ members, member.2.depth ≤ room) →
    ∃ seen, Draft.jsonMembers room before (draftMembers members) = .ok seen
  | [], _, before, _ => ⟨before, rfl⟩
  | (name, value) :: members, room, before, hroom => by
    obtain ⟨hvalue, hmembers⟩ := List.forall_mem_cons.1 hroom
    obtain ⟨first, hfirst⟩ := exists_json_draft value hvalue
    obtain ⟨rest, hrest⟩ := exists_jsonMembers_draft members (before.putSorted name first) hmembers
    exact ⟨rest, by rw [draftMembers, Draft.jsonMembers, hfirst]; exact hrest⟩

end

end Json

/-! ## What is read is canonical -/

namespace Draft

/-- Nothing but `null` is read as `null`. -/
theorem exists_eq_bare_of_json_eq_null {draft : Draft} {room : Nat}
    (h : draft.json room = .ok .null) : ∃ passed, draft = .bare (.ok .null) passed := by
  cases draft with
  | absent => cases h
  | bare seen passed =>
    obtain ⟨scalar, rfl, hnull⟩ := map_eq_ok_iff.1 h
    cases scalar <;> cases hnull
    exact ⟨passed, rfl⟩
  | string seen passed =>
    obtain ⟨s, -, ⟨⟩⟩ := map_eq_ok_iff.1 h
  | array items passed =>
    cases room with
    | zero => cases h
    | succ room =>
      rw [json, bind_eq_ok_iff] at h
      obtain ⟨_, -, h⟩ := h
      obtain ⟨_, -, ⟨⟩⟩ := bind_eq_ok_iff.1 h
  | object members passed =>
    cases room with
    | zero => cases h
    | succ room =>
      rw [json, bind_eq_ok_iff] at h
      obtain ⟨_, -, h⟩ := h
      obtain ⟨_, -, ⟨⟩⟩ := bind_eq_ok_iff.1 h

/-- What a scalar stands for is canonical. -/
theorem canonical_json (scalar : Scalar) : scalar.json.Canonical := by
  cases scalar with
  | null => exact .null
  | bool b => exact .bool b
  | number n => exact .number n

mutual

/-- **What is read is canonical.** -/
theorem canonical_of_json : (draft : Draft) → {room : Nat} → {value : Json} →
    draft.json room = .ok value → value.Canonical
  | absent, _, _, h => nomatch h
  | bare seen _, _, _, h => by
    obtain ⟨scalar, -, rfl⟩ := map_eq_ok_iff.1 h
    exact canonical_json scalar
  | string seen _, _, _, h => by
    obtain ⟨s, -, rfl⟩ := map_eq_ok_iff.1 h
    exact .string s
  | array items passed, 0, _, h => nomatch h
  | array items passed, room + 1, _, h => by
    rw [json, bind_eq_ok_iff] at h
    obtain ⟨seen, hseen, h⟩ := h
    obtain ⟨_, -, ⟨⟩⟩ := bind_eq_ok_iff.1 h
    exact .array (canonical_of_jsonItems items hseen)
  | object members passed, 0, _, h => nomatch h
  | object members passed, room + 1, _, h => by
    rw [json, bind_eq_ok_iff] at h
    obtain ⟨seen, hseen, h⟩ := h
    obtain ⟨_, -, ⟨⟩⟩ := bind_eq_ok_iff.1 h
    obtain ⟨hascending, hcanonical⟩ :=
      canonical_of_jsonMembers members hseen List.Pairwise.nil (List.forall_mem_nil _)
    exact .object hascending hcanonical

/-- The items that are read are canonical. -/
theorem canonical_of_jsonItems : (items : List Draft) → {room : Nat} → {values : List Json} →
    jsonItems room items = .ok values → ∀ value ∈ values, value.Canonical
  | [], _, _, h => by
    cases h
    exact List.forall_mem_nil _
  | item :: items, _, _, h => by
    rw [jsonItems, bind_eq_ok_iff] at h
    obtain ⟨first, hfirst, h⟩ := h
    obtain ⟨rest, hrest, ⟨⟩⟩ := bind_eq_ok_iff.1 h
    exact List.forall_mem_cons.2
      ⟨canonical_of_json item hfirst, canonical_of_jsonItems items hrest⟩

/-- The members that are read are canonical and in ascending order, if those before them are. -/
theorem canonical_of_jsonMembers : (members : List (Except Flaw String × Draft)) → {room : Nat} →
    {before values : Entries Json} → jsonMembers room before members = .ok values →
    before.Ascending → (∀ member ∈ before, member.2.Canonical) →
    values.Ascending ∧ ∀ member ∈ values, member.2.Canonical
  | [], _, _, _, h, hascending, hbefore => by
    cases h
    exact ⟨hascending, hbefore⟩
  | (key, draft) :: members, _, _, _, h, hascending, hbefore => by
    rw [jsonMembers, bind_eq_ok_iff] at h
    obtain ⟨name, -, h⟩ := h
    obtain ⟨value, hvalue, h⟩ := bind_eq_ok_iff.1 h
    exact canonical_of_jsonMembers members h (hascending.putSorted name value)
      (Entries.forall_mem_putSorted hbefore (canonical_of_json draft hvalue) name)

end

end Draft

end WorkflowChart
