import WorkflowChart.Proofs.History.Scan

/-!
# The last word about a state

Reading a log is a run in which later events overwrite what earlier ones said. What such a run
leaves behind is what the last event says that says anything.

* **`LastWord`**: the last event of some events that says anything, and what it says.
* **`LastWord.unique`**: there is one last word.
* **`lastWord_of_foldlM`**: a run shows the last word, from a step that shows that of one event.
-/

namespace WorkflowChart

variable {β : Type}

/-- Among the events, `speaker` is the last one that says anything. What it says is `word`. -/
structure LastWord (said : Event → Option β) (events : List Event) (speaker : Event) (word : β) :
    Prop where
  said_eq : said speaker = some word
  last : ∃ earlier later, events = earlier ++ speaker :: later ∧
    ∀ event ∈ later, said event = none

namespace LastWord

variable {said : Event → Option β} {events : List Event} {speaker : Event} {word : β}

/-- The last word is one about the events. -/
theorem mem (h : LastWord said events speaker word) : speaker ∈ events := by
  obtain ⟨earlier, later, rfl, -⟩ := h.last
  exact List.mem_append_right _ List.mem_cons_self

/-- Events before the last word do not change it. -/
theorem cons (h : LastWord said events speaker word) (event : Event) :
    LastWord said (event :: events) speaker word := by
  obtain ⟨earlier, later, rfl, hlater⟩ := h.last
  exact ⟨h.said_eq, event :: earlier, later, rfl, hlater⟩

/-- Where the events after the first one say nothing, the first one has the last word. -/
theorem head {event : Event} (hword : said event = some word)
    (hnone : ∀ other ∈ events, said other = none) :
    LastWord said (event :: events) event word :=
  ⟨hword, [], events, rfl, hnone⟩

/-- The event that has the last word is the first one to say anything, seen from the end. -/
theorem find?_reverse (h : LastWord said events speaker word) :
    events.reverse.find? (fun event => (said event).isSome) = some speaker := by
  obtain ⟨earlier, later, rfl, hlater⟩ := h.last
  have hnone : later.reverse.find? (fun event => (said event).isSome) = none := by
    apply List.find?_eq_none.2
    intro event hmem
    simp [hlater event (List.mem_reverse.1 hmem)]
  simp [hnone, h.said_eq]

/-- Where the events at the end say nothing, the last word is one about those before them. -/
theorem of_append {earlier later : List Event}
    (h : LastWord said (earlier ++ later) speaker word)
    (hnone : ∀ event ∈ later, said event = none) : LastWord said earlier speaker word := by
  obtain ⟨front, back, hsplit, hback⟩ := h.last
  have hspeaker : speaker ∉ later := by
    intro hmem
    have hword := h.said_eq
    rw [hnone speaker hmem] at hword
    contradiction
  rcases List.append_eq_append_iff.1 hsplit with ⟨between, -, hlater⟩ | ⟨rest, hearlier, hrest⟩
  · exact absurd (hlater ▸ List.mem_append_right _ List.mem_cons_self) hspeaker
  · cases rest with
    | nil =>
      rw [List.nil_append] at hrest
      exact absurd (hrest ▸ List.mem_cons_self) hspeaker
    | cons first rest =>
      rw [List.cons_append, List.cons.injEq] at hrest
      obtain ⟨rfl, rfl⟩ := hrest
      refine ⟨h.said_eq, front, rest, hearlier, ?_⟩
      intro event hmem
      exact hback event (List.mem_append_left _ hmem)

/-- **There is one last word.** -/
theorem unique {a b : Event} {other : β} (ha : LastWord said events a word)
    (hb : LastWord said events b other) : a = b ∧ word = other := by
  have hsame : a = b := Option.some.inj (ha.find?_reverse.symm.trans hb.find?_reverse)
  subst hsame
  exact ⟨rfl, Option.some.inj (ha.said_eq.symm.trans hb.said_eq)⟩

end LastWord

/-- **A run shows the last word.** If one step shows what its event says, and changes nothing of the
view where the event says nothing, then a run over events shows the last word about them, or changes
nothing of the view where none of them says anything. -/
theorem lastWord_of_foldlM {ε σ γ : Type} {step : σ → Event → Except ε σ}
    (said : Event → Option β) (view : σ → γ) (Shows : β → γ → Prop)
    (hstep : ∀ {start : σ} {event : Event} {stop : σ}, step start event = .ok stop →
      (∃ word, said event = some word ∧ Shows word (view stop)) ∨
        (said event = none ∧ view stop = view start))
    {events : List Event} {start stop : σ} (h : events.foldlM step start = .ok stop) :
    (∃ speaker word, LastWord said events speaker word ∧ Shows word (view stop)) ∨
      ((∀ event ∈ events, said event = none) ∧ view stop = view start) := by
  induction events generalizing start with
  | nil =>
    cases h
    exact Or.inr ⟨fun _ hmem => absurd hmem List.not_mem_nil, rfl⟩
  | cons event events ih =>
    rw [List.foldlM_cons, bind_eq_ok_iff] at h
    obtain ⟨between, hfirst, hrest⟩ := h
    rcases ih hrest with ⟨speaker, word, hlast, hshows⟩ | ⟨hnone, hview⟩
    · -- a later event speaks, and what the first one says is overwritten
      exact Or.inl ⟨speaker, word, hlast.cons event, hshows⟩
    · rw [hview]
      rcases hstep hfirst with ⟨word, hword, hshows⟩ | ⟨hsilent, hkept⟩
      · exact Or.inl ⟨event, word, LastWord.head hword hnone, hshows⟩
      · exact Or.inr ⟨List.forall_mem_cons.2 ⟨hsilent, hnone⟩, hkept⟩

end WorkflowChart
