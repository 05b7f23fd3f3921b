/-!
# Named entries

Lists of names paired with values, in two orders.

## Main definitions

* `Entries.get?`: the value under a name, the first one where a name repeats.
* `Entries.put`: insertion that keeps the order in which names first came.
* `Entries.putSorted`: insertion that keeps ascending order of the names.

Both insertions replace the value of a name that is already there.
-/

namespace WorkflowChart

/-- Values under names, in a significant order. -/
abbrev Entries (α : Type) := List (String × α)

namespace Entries

variable {α : Type}

/-- The value under `name`. -/
def get? (name : String) : Entries α → Option α
  | [] => none
  | (key, value) :: rest => if key = name then some value else get? name rest

/-- Whether there is a value under `name`. -/
def contains (name : String) (entries : Entries α) : Bool :=
  (get? name entries).isSome

/-- The names, in order. -/
def names (entries : Entries α) : List String :=
  entries.map Prod.fst

/-- Puts `value` under `name`: in place of the value that is there, else at the end. -/
def put (name : String) (value : α) : Entries α → Entries α
  | [] => [(name, value)]
  | (key, old) :: rest =>
    if key = name then (key, value) :: rest else (key, old) :: put name value rest

/-- Puts `value` under `name` into entries in ascending order of their names. -/
def putSorted (name : String) (value : α) : Entries α → Entries α
  | [] => [(name, value)]
  | (key, old) :: rest =>
    if key = name then (name, value) :: rest
    else if name < key then (name, value) :: (key, old) :: rest
    else (key, old) :: putSorted name value rest

/-- The entries of a list of pairs put one after another. -/
def ofList (pairs : List (String × α)) : Entries α :=
  pairs.foldl (fun entries pair => put pair.1 pair.2 entries) []

@[simp] theorem get?_nil (name : String) : get? name ([] : Entries α) = none := rfl

/-- What has been put under a name is found under it. -/
@[simp] theorem get?_put_self (name : String) (value : α) (entries : Entries α) :
    get? name (put name value entries) = some value := by
  induction entries with
  | nil => simp [put, get?]
  | cons head rest ih =>
    obtain ⟨key, old⟩ := head
    by_cases h : key = name <;> simp [put, get?, h, ih]

/-- Nothing changes under other names. -/
theorem get?_put_of_ne {name other : String} (h : other ≠ name) (value : α)
    (entries : Entries α) : get? other (put name value entries) = get? other entries := by
  induction entries with
  | nil => simp [put, get?, h.symm]
  | cons head rest ih =>
    obtain ⟨key, old⟩ := head
    by_cases hk : key = name
    · subst hk; simp [put, get?, h.symm]
    · simp only [put, hk, if_false, get?, ih]

/-- There is no value just where the name is none of the names. -/
theorem get?_eq_none_iff {name : String} {entries : Entries α} :
    get? name entries = none ↔ name ∉ names entries := by
  induction entries with
  | nil => simp [names]
  | cons head rest ih =>
    obtain ⟨key, old⟩ := head
    rw [names] at ih ⊢
    by_cases h : key = name
    · simp [get?, h]
    · simp [get?, h, ih, Ne.symm h]

/-- A new name goes to the end, a known one stays where it is. -/
theorem names_put (name : String) (value : α) (entries : Entries α) :
    names (put name value entries) =
      if name ∈ names entries then names entries else names entries ++ [name] := by
  induction entries with
  | nil => simp [put, names]
  | cons head rest ih =>
    obtain ⟨key, old⟩ := head
    by_cases hk : key = name
    · simp [put, names, hk]
    · have hn : ¬ name = key := fun h => hk h.symm
      simp only [put, hk, if_false]
      simp only [names, List.map_cons, List.mem_cons, hn, false_or] at ih ⊢
      rw [ih]
      split <;> simp_all

/-- What has been put in its place is found under its name. -/
@[simp] theorem get?_putSorted_self (name : String) (value : α) (entries : Entries α) :
    get? name (putSorted name value entries) = some value := by
  induction entries with
  | nil => simp [putSorted, get?]
  | cons head rest ih =>
    obtain ⟨key, old⟩ := head
    by_cases h : key = name
    · simp [putSorted, get?, h]
    · by_cases hlt : name < key <;> simp [putSorted, get?, h, hlt, ih]

/-- A new name is added to what is there, wherever it is put. -/
theorem perm_putSorted {name : String} {entries : Entries α} (hnew : name ∉ names entries)
    (value : α) : (putSorted name value entries).Perm ((name, value) :: entries) := by
  induction entries with
  | nil => exact .refl _
  | cons head rest ih =>
    obtain ⟨key, old⟩ := head
    have hne : name ≠ key := List.ne_of_not_mem_cons hnew
    have hrest : name ∉ names rest := List.not_mem_of_not_mem_cons hnew
    by_cases hlt : name < key
    · rw [putSorted, if_neg hne.symm, if_pos hlt]
    · rw [putSorted, if_neg hne.symm, if_neg hlt]
      exact ((ih hrest).cons _).trans (.swap _ _ _)

/-- Where names are distinct, looking one up is finding its entry. -/
theorem get?_eq_some_iff {entries : Entries α} (hdistinct : (names entries).Nodup) {name : String}
    {value : α} : get? name entries = some value ↔ (name, value) ∈ entries := by
  induction entries with
  | nil => simp
  | cons head rest ih =>
    obtain ⟨key, old⟩ := head
    obtain ⟨hkey, hrest⟩ := List.nodup_cons.1 hdistinct
    rw [get?, List.mem_cons, Prod.mk.injEq]
    by_cases h : key = name
    · subst h
      have hnone : (key, value) ∉ rest := fun hmem => hkey (List.mem_map.2 ⟨_, hmem, rfl⟩)
      simp [hnone, eq_comm]
    · rw [if_neg h, ih hrest]
      simp [Ne.symm h]

end Entries

end WorkflowChart
