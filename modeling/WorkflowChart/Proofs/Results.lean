/-!
# Results of steps

When steps one after another give a result, each of them does. When they fail, one of them does.

* **`bind_eq_ok_iff`**, **`bind_eq_error_iff`**: two steps.
* **`mapM_eq_ok_iff`**, **`forM_eq_ok_iff`**, **`forM_eq_error_iff`**: one step for each item of a
  list.
-/

namespace WorkflowChart

variable {ε α β : Type}

/-- Two steps give a result just where the first gives one from which the second gives it. -/
theorem bind_eq_ok_iff {first : Except ε α} {second : α → Except ε β} {b : β} :
    (first >>= second) = .ok b ↔ ∃ a, first = .ok a ∧ second a = .ok b := by
  cases first with
  | error cause => simp [bind, Except.bind]
  | ok a => simp [bind, Except.bind]

/-- Two steps fail just where the first does, or the second does from what the first gives. -/
theorem bind_eq_error_iff {first : Except ε α} {second : α → Except ε β} {cause : ε} :
    (first >>= second) = .error cause ↔
      first = .error cause ∨ ∃ a, first = .ok a ∧ second a = .error cause := by
  cases first with
  | error cause => simp [bind, Except.bind]
  | ok a => simp [bind, Except.bind]

/-- What is made of a result is a result just where there is one. -/
theorem map_eq_ok_iff {result : Except ε α} {f : α → β} {b : β} :
    result.map f = .ok b ↔ ∃ a, result = .ok a ∧ f a = b := by
  cases result with
  | error cause => simp [Except.map]
  | ok a => simp [Except.map]

/-- Changing the error of two steps is changing it in each of them. -/
theorem mapError_bind {ε' : Type} (f : ε → ε') (first : Except ε α) (second : α → Except ε β) :
    (first >>= second).mapError f = first.mapError f >>= fun a => (second a).mapError f := by
  cases first <;> rfl

/-- A step for each item gives results just where every single one does. -/
theorem mapM_eq_ok_iff {f : α → Except ε β} {items : List α} {values : List β} :
    items.mapM f = .ok values ↔ items.map f = values.map .ok := by
  induction items generalizing values with
  | nil => cases values <;> simp [pure, Except.pure]
  | cons item items ih =>
    rw [List.mapM_cons, bind_eq_ok_iff]
    simp only [bind_eq_ok_iff, ih, pure, Except.pure, Except.ok.injEq, List.map_cons]
    cases values with
    | nil => simp
    | cons value values => simp

/-- A step for each item goes through just where every single one does. -/
theorem forM_eq_ok_iff {f : α → Except ε Unit} {items : List α} :
    forM items f = .ok () ↔ ∀ item ∈ items, f item = .ok () := by
  induction items with
  | nil => exact ⟨fun _ => List.forall_mem_nil _, fun _ => rfl⟩
  | cons item items ih =>
    rw [List.forM_cons, bind_eq_ok_iff, List.forall_mem_cons, ← ih]
    exact ⟨fun ⟨_, hitem, hitems⟩ => ⟨hitem, hitems⟩, fun ⟨hitem, hitems⟩ => ⟨(), hitem, hitems⟩⟩

/-- A step for each item fails just where one of them does, after others that go through. -/
theorem forM_eq_error_iff {f : α → Except ε Unit} {items : List α} {cause : ε} :
    forM items f = .error cause ↔ ∃ before item after, items = before ++ item :: after
      ∧ (∀ other ∈ before, f other = .ok ()) ∧ f item = .error cause := by
  induction items with
  | nil =>
    constructor
    · intro h
      cases h
    · rintro ⟨before, item, after, h, -⟩
      exact absurd h.symm (List.append_ne_nil_of_right_ne_nil before (List.cons_ne_nil item after))
  | cons head items ih =>
    rw [List.forM_cons, bind_eq_error_iff, ih]
    -- the first step fails, or it goes through and a later one fails
    constructor
    · rintro (hhead | ⟨_, hhead, before, item, after, rfl, hbefore, hitem⟩)
      · exact ⟨[], head, items, rfl, List.forall_mem_nil _, hhead⟩
      · exact ⟨head :: before, item, after, rfl, List.forall_mem_cons.2 ⟨hhead, hbefore⟩, hitem⟩
    · rintro ⟨before, item, after, hitems, hbefore, hitem⟩
      cases before with
      | nil =>
        cases hitems
        exact .inl hitem
      | cons other before =>
        cases hitems
        obtain ⟨hother, hbefore⟩ := List.forall_mem_cons.1 hbefore
        exact .inr ⟨(), hother, before, item, after, rfl, hbefore, hitem⟩

end WorkflowChart
