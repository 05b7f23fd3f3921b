import WorkflowChart.History.Basic
import WorkflowChart.Log.Builder
import WorkflowChart.Proofs.Text.Digits

/-!
# Numbered logs

A builder numbers its events from 1 on and lets each follow an event with a smaller number. In such
a log an id finds its event, and an event that follows the one just before it is the first to do so.

* **`Numbered`**: every event has its number as its id and follows one with a smaller number.
* **`Numbered.findById`**, **`Numbered.following`**: the two lookups in a numbered log.
* **`LogBuilder.cursor`**: the event that the next one follows.
* **`LogBuilder.Linked`**: a builder whose log is numbered and stays so.
-/

namespace WorkflowChart

/-- Different numbers make different ids. -/
theorem EventId.ofNat_injective {m n : Nat} (h : EventId.ofNat m = EventId.ofNat n) : m = n := by
  have htext : String.ofList (Nat.toDigits 10 m) = String.ofList (Nat.toDigits 10 n) :=
    congrArg EventId.text h
  exact decimalDigits_injective (String.ofList_injective htext)

/-- A longer log has the same events where the shorter one has events. -/
theorem getElem?_of_isPrefix {a b : List Event} {i : Nat} {event : Event} (h : a <+: b)
    (hi : a[i]? = some event) : b[i]? = some event := by
  obtain ⟨hlt, rfl⟩ := List.getElem?_eq_some_iff.1 hi
  exact List.prefix_iff_getElem?.1 h i hlt

/-- Where every event has its number, counted from 1 on, as its id, the id of an event finds it. -/
theorem History.findById_of_id_eq {history : History}
    (hid : ∀ (i : Nat) (event : Event), history.events[i]? = some event → event.id = .ofNat (i + 1))
    {i : Nat} {event : Event} (hi : history.events[i]? = some event) :
    history.findById event.id = some event := by
  rw [History.findById_eq_find?]
  cases hfind : history.events.find? fun other => other.id = event.id with
  | none =>
    have hmem : event ∈ history.events := List.mem_of_getElem? hi
    simpa using List.find?_eq_none.1 hfind event hmem
  | some other =>
    -- the event that is found has the same number, so it is the same
    have heq : other.id = event.id := by simpa using List.find?_some hfind
    obtain ⟨j, hj⟩ := List.mem_iff_getElem?.1 (List.mem_of_find?_eq_some hfind)
    rw [hid j other hj, hid i event hi] at heq
    have hij : j = i := Nat.succ.inj (EventId.ofNat_injective heq)
    rw [hij, hi] at hj
    exact hj.symm

/-- Every event has its number, counted from 1 on, as its id, and follows one with a smaller number
if any. -/
structure Numbered (events : List Event) : Prop where
  id_eq : ∀ (i : Nat) (event : Event), events[i]? = some event → event.id = .ofNat (i + 1)
  previous_eq : ∀ (i : Nat) (event : Event), events[i]? = some event →
    ∀ id, event.previous = some id → ∃ k ≤ i, id = .ofNat k

namespace Numbered

/-- The empty log is numbered. -/
theorem nil : Numbered [] where
  id_eq i event h := by simp at h
  previous_eq i event h := by simp at h

/-- A numbered log goes on with an event that has the next number and follows one before it. -/
theorem concat {events : List Event} {event : Event} (h : Numbered events)
    (hid : event.id = .ofNat (events.length + 1))
    (hprevious : ∀ id, event.previous = some id → ∃ k ≤ events.length, id = .ofNat k) :
    Numbered (events ++ [event]) := by
  -- an event of the longer log is an old one or the new one
  have hcases : ∀ (i : Nat) (other : Event), (events ++ [event])[i]? = some other →
      events[i]? = some other ∨ i = events.length ∧ other = event := by
    intro i other hother
    rcases Nat.lt_or_ge i events.length with hlt | hge
    · rw [List.getElem?_append_left hlt] at hother
      exact Or.inl hother
    · rw [List.getElem?_append_right hge, List.getElem?_singleton] at hother
      split at hother
      · cases hother
        exact Or.inr ⟨by omega, rfl⟩
      · contradiction
  constructor
  · intro i other hother
    rcases hcases i other hother with hold | ⟨rfl, rfl⟩
    · exact h.id_eq i other hold
    · exact hid
  · intro i other hother id hlink
    rcases hcases i other hother with hold | ⟨rfl, rfl⟩
    · exact h.previous_eq i other hold id hlink
    · exact hprevious id hlink

/-! ## Lookups in a numbered log -/

variable {history : History}

/-- The id of an event finds it. -/
theorem findById (h : Numbered history.events) {i : Nat} {event : Event}
    (hi : history.events[i]? = some event) : history.findById event.id = some event :=
  History.findById_of_id_eq h.id_eq hi

/-- An event that follows the one just before it is the first to do so. -/
theorem following (h : Numbered history.events) {i : Nat} {event next : Event}
    (hi : history.events[i]? = some event) (hnext : history.events[i + 1]? = some next)
    (hprevious : next.previous = some event.id) : history.following event = some next := by
  rw [History.following, History.findByPrevious_eq_find?]
  obtain ⟨hlt, hget⟩ := List.getElem?_eq_some_iff.1 hnext
  refine List.find?_eq_some_iff_getElem.2 ⟨by simpa using hprevious, i + 1, hlt, hget, ?_⟩
  intro j hj
  -- an event up to this one follows one with a smaller number
  have hother : history.events[j]? = some history.events[j] := List.getElem?_eq_getElem _
  rw [Bool.not_eq_true', decide_eq_false_iff_not]
  intro hlink
  obtain ⟨k, hk, hid⟩ := h.previous_eq j _ hother _ hlink
  rw [h.id_eq i event hi] at hid
  have hik := EventId.ofNat_injective hid
  omega

end Numbered

/-! ## Builders of numbered logs -/

namespace LogBuilder

/-- The event that the next one follows. -/
def cursor (builder : LogBuilder) : Option EventId :=
  builder.fork <|> builder.lastId

@[simp] theorem cursor_append (builder : LogBuilder) (event : Event) :
    (builder.append event).cursor = some event.id := rfl

/-- The event is one that the builder can push next. -/
structure IsNext (builder : LogBuilder) (event : Event) : Prop where
  id_eq : event.id = .ofNat (builder.events.length + 1)
  previous_eq : event.previous = builder.cursor

/-- The log is numbered, and the next event follows one of its events, if any. -/
structure Linked (builder : LogBuilder) : Prop where
  numbered : Numbered builder.events
  cursor_eq : ∀ id, builder.cursor = some id → ∃ k ≤ builder.events.length, id = .ofNat k

/-- Pushing an event keeps the log numbered. -/
theorem Linked.append {builder : LogBuilder} {event : Event} (h : builder.Linked)
    (hnext : builder.IsNext event) : (builder.append event).Linked where
  numbered := h.numbered.concat hnext.id_eq fun id hid => h.cursor_eq id (hnext.previous_eq ▸ hid)
  cursor_eq id hid := by
    cases hid
    exact ⟨builder.events.length + 1, by simp, hnext.id_eq⟩

/-- The next event may be told to follow any event of the log. -/
theorem Linked.after {builder : LogBuilder} {k : Nat} (h : builder.Linked)
    (hk : k ≤ builder.events.length) : (builder.after (.ofNat k)).Linked where
  numbered := h.numbered
  cursor_eq id hid := by
    cases hid
    exact ⟨k, hk, rfl⟩

/-- A builder that has not pushed anything is linked. -/
theorem linked_start (clock : Instant) (tick : Int) :
    ((({} : LogBuilder).startingAt clock).withTick tick).Linked where
  numbered := Numbered.nil
  cursor_eq _ hid := nomatch hid

end LogBuilder

end WorkflowChart
