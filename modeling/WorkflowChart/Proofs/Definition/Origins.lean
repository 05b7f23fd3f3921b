import Mathlib.Data.List.Nodup
import WorkflowChart.Definition.Builder
import WorkflowChart.Definition.Decode
import WorkflowChart.Proofs.Definition.Graphs
import WorkflowChart.Proofs.Json.Records

/-!
# Where definitions come from

A definition is read from a text or built from short states, with other definitions in it that came
about in one way or the other. Either way, what it holds is in the form in which it is read.

* **`Definition.Obtained`**: the definition has been read or built.
* **`Definition.Regular`**: the states of a graph have different names, and the values in them that
  are free are in the form in which they are read.
* **`States.decoder_eq_ok_iff`**: named states are read where each key has a state and none repeats.
* **`Definition.regular_of_gives`**: every graph of a definition that has been read is regular.
* **`Definition.Obtained.regular`**: so is every graph of a definition that has been obtained.
-/

namespace WorkflowChart

/-- The members of a condition are as they are read: in ascending order, without the target. -/
structure ChoiceRule.Regular (rule : ChoiceRule) : Prop where
  ascending : Entries.Ascending rule.condition
  next_not_mem : "Next" ∉ Entries.names rule.condition
  canonical : ∀ member ∈ rule.condition, member.2.Canonical

/-- The free values of a state are as they are read. -/
def State.Regular : State → Prop
  | .pass state => ∀ value ∈ state.result, value.Canonical ∧ value ≠ .null
  | .choice state => ∀ rule ∈ state.rules, rule.Regular
  | .task _ | .parallel .. | .map .. | .fail _ | .succeed _ | .wait _ => True

/-- The states of a graph have different names, and their free values are as they are read. -/
structure Definition.Regular (graph : Definition) : Prop where
  nodup : (Entries.names graph.states).Nodup
  state : ∀ entry ∈ graph.states, entry.2.Regular

/-! ## What is read -/

namespace ChoiceRule

/-- A member of a rule is its target, which it has once, or a part of its condition. -/
theorem ofMembers_cons (place : Place) (next? : Option String) (condition : Entries Json)
    (key : Except Flaw String) (draft : Draft) (members : List (Except Flaw String × Draft)) :
    ofMembers place next? condition ((key, draft) :: members) =
      orFlawed key >>= fun name =>
        if name = "Next" then
          match next? with
          | some _ => .error (.duplicateField "Next")
          | none => Decoder.text place draft >>= fun next =>
              ofMembers place (some next) condition members
        else Decoder.json place draft >>= fun value =>
          ofMembers place next? (condition.putSorted name value) members := by
  cases next? <;> rfl

/-- What is read of a rule is regular, if what has been read before is. -/
theorem regular_of_ofMembers {place : Place} {next? : Option String} {condition : Entries Json}
    {members : List (Except Flaw String × Draft)} {rule : ChoiceRule}
    (h : ofMembers place next? condition members = .ok rule) (hascending : condition.Ascending)
    (hnext : "Next" ∉ condition.names) (hcanonical : ∀ member ∈ condition, member.2.Canonical) :
    rule.Regular := by
  induction members generalizing next? condition with
  | nil =>
    cases next? with
    | none => cases h
    | some next =>
      cases h
      exact ⟨hascending, hnext, hcanonical⟩
  | cons member members ih =>
    obtain ⟨key, draft⟩ := member
    rw [ofMembers_cons, bind_eq_ok_iff] at h
    obtain ⟨name, -, h⟩ := h
    -- the member "Next" is kept apart, and so it never gets into the condition
    split at h
    · split at h
      · cases h
      · obtain ⟨next, -, h⟩ := bind_eq_ok_iff.1 h
        exact ih h hascending hnext hcanonical
    · next hname =>
      obtain ⟨value, hvalue, h⟩ := bind_eq_ok_iff.1 h
      refine ih h (hascending.putSorted name value) ?_ ?_
      · rw [Entries.mem_names_putSorted_iff]
        rintro (heq | hmem)
        · exact hname heq.symm
        · exact hnext hmem
      · exact Entries.forall_mem_putSorted hcanonical (Decoder.Gives.canonical ⟨_, _, hvalue⟩) name

/-- A rule that is read is regular. -/
theorem regular_of_gives {rule : ChoiceRule} (h : decoder.Gives rule) : rule.Regular := by
  obtain ⟨place, draft, h⟩ := h
  cases draft with
  | object members flaw? =>
    rw [decoder, bind_eq_ok_iff] at h
    obtain ⟨inner, -, h⟩ := h
    obtain ⟨seen, hseen, h⟩ := bind_eq_ok_iff.1 h
    obtain ⟨_, -, ⟨⟩⟩ := bind_eq_ok_iff.1 h
    exact regular_of_ofMembers hseen List.Pairwise.nil List.not_mem_nil (List.forall_mem_nil _)
  | absent | bare | string | array => exact absurd h (Draft.mismatch_ne_ok _ _ _)

end ChoiceRule

namespace States

/-- A member of an object is read as an entry: its key is the name, and the state is decoded from
what stands under it. -/
def ReadsMember (state : Decoder State) (place : Place) (member : Except Flaw String × Draft)
    (entry : String × State) : Prop :=
  member.1 = .ok entry.1 ∧ state place member.2 = .ok entry.2

/-- A first member is read where its name is new, and the others after it. -/
theorem ofMembers_cons_eq_ok_iff {state : Decoder State} {place : Place}
    {before states : Entries State} {member : Except Flaw String × Draft}
    {members : List (Except Flaw String × Draft)} :
    ofMembers state place before (member :: members) = .ok states ↔
      ∃ entry, ReadsMember state place member entry ∧ entry.1 ∉ before.names ∧
        ofMembers state place (before ++ [entry]) members = .ok states := by
  have hnew : ∀ name, before.contains name = false ↔ name ∉ before.names := by
    intro name
    rw [Entries.contains, Option.isSome_eq_false_iff, Option.isNone_iff_eq_none,
      Entries.get?_eq_none_iff]
  rw [ofMembers, bind_eq_ok_iff]
  constructor
  · rintro ⟨name, hname, h⟩
    obtain ⟨value, hvalue, h⟩ := bind_eq_ok_iff.1 h
    simp only at h
    split at h
    · cases h
    · next hcontains =>
      rw [Bool.not_eq_true, hnew] at hcontains
      exact ⟨(name, value), ⟨Decoder.orFlawed_eq_ok_iff.1 hname, hvalue⟩, hcontains, h⟩
  · rintro ⟨⟨name, value⟩, ⟨hname, hvalue⟩, hmem, h⟩
    refine ⟨name, Decoder.orFlawed_eq_ok_iff.2 hname, bind_eq_ok_iff.2 ⟨value, hvalue, ?_⟩⟩
    simp only [(hnew name).2 hmem]
    exact h

/-- The members of an object are read, one entry each, as long as no name comes twice. -/
theorem ofMembers_eq_ok_iff {state : Decoder State} {place : Place} {before states : Entries State}
    {members : List (Except Flaw String × Draft)} (hnodup : before.names.Nodup) :
    ofMembers state place before members = .ok states ↔
      ∃ entries, List.Forall₂ (ReadsMember state place) members entries ∧
        states = before ++ entries ∧ (Entries.names states).Nodup := by
  induction members generalizing before with
  | nil =>
    constructor
    · rintro ⟨⟩
      exact ⟨[], .nil, (List.append_nil _).symm, hnodup⟩
    · rintro ⟨entries, hread, rfl, -⟩
      cases hread
      rw [List.append_nil]
      rfl
  | cons member members ih =>
    -- one more entry leaves the names distinct just where its name is new
    have hconcat : ∀ entry : String × State,
        (Entries.names (before ++ [entry])).Nodup ↔ entry.1 ∉ before.names := by
      intro entry
      rw [Entries.names, List.map_append, List.map_singleton, List.nodup_append_comm]
      exact List.nodup_cons.trans (and_iff_left hnodup)
    rw [ofMembers_cons_eq_ok_iff]
    constructor
    · rintro ⟨entry, hmember, hnew, h⟩
      obtain ⟨entries, hread, rfl, hdistinct⟩ := (ih ((hconcat entry).2 hnew)).1 h
      exact ⟨entry :: entries, .cons hmember hread, (List.append_cons ..).symm, hdistinct⟩
    · rintro ⟨entries, hread, rfl, hdistinct⟩
      cases hread with
      | @cons _ entry _ entries hmember hread =>
        have hbefore : (Entries.names (before ++ [entry])).Nodup := by
          rw [List.append_cons, Entries.names, List.map_append] at hdistinct
          exact hdistinct.of_append_left
        exact ⟨entry, hmember, (hconcat entry).1 hbefore,
          (ih hbefore).2 ⟨entries, hread, List.append_cons .., hdistinct⟩⟩

/-- **Named states are read** from an object with a state under each key and no key twice. -/
theorem decoder_eq_ok_iff {state : Decoder State} {place : Place} {draft : Draft}
    {states : List (String × State)} :
    decoder state place draft = .ok states ↔
      ∃ inner members, draft = .object members none ∧ place.enter = .ok inner ∧
        List.Forall₂ (ReadsMember state inner) members states ∧
        (Entries.names states).Nodup := by
  have hnone : (Entries.names ([] : Entries State)).Nodup := List.nodup_nil
  constructor
  · intro h
    cases draft with
    | object members flaw? =>
      rw [decoder, bind_eq_ok_iff] at h
      obtain ⟨inner, hinner, h⟩ := h
      obtain ⟨read, hread, h⟩ := bind_eq_ok_iff.1 h
      obtain ⟨_, hwhole, ⟨⟩⟩ := bind_eq_ok_iff.1 h
      obtain ⟨entries, hentries, rfl, hnodup⟩ := (ofMembers_eq_ok_iff hnone).1 hread
      -- what is wrong with the end of an object is told after its members have been read
      cases flaw? with
      | none => exact ⟨inner, members, rfl, hinner, hentries, hnodup⟩
      | some flaw => cases hwhole
    | absent | bare | string | array => exact absurd h (Draft.mismatch_ne_ok _ _ _)
  · rintro ⟨inner, members, rfl, hinner, hread, hnodup⟩
    have hmembers : ofMembers state inner [] members = .ok states :=
      (ofMembers_eq_ok_iff hnone).2 ⟨states, hread, rfl, hnodup⟩
    rw [decoder, bind_eq_ok_iff]
    exact ⟨inner, hinner, bind_eq_ok_iff.2 ⟨states, hmembers, rfl⟩⟩

/-- Named states that are read have different names, and each is read as a state. -/
theorem spec_of_gives {state : Decoder State} {states : List (String × State)}
    (h : (decoder state).Gives states) :
    (Entries.names states).Nodup ∧ ∀ entry ∈ states, state.Gives entry.2 := by
  obtain ⟨place, draft, h⟩ := h
  obtain ⟨inner, members, -, -, hread, hnodup⟩ := decoder_eq_ok_iff.1 h
  refine ⟨hnodup, ?_⟩
  clear h hnodup
  induction hread with
  | nil => exact List.forall_mem_nil _
  | cons hmember _ ih => exact List.forall_mem_cons.2 ⟨⟨_, _, hmember.2⟩, ih⟩

end States

namespace State

/-- A state that is read has the fields of some kind of state. -/
theorem exists_fieldsDecoder_gives {definition : Decoder Definition} {state : State}
    (h : (decoder definition).Gives state) :
    ∃ kind, (fieldsDecoder definition kind).Gives state := by
  obtain ⟨place, draft, h⟩ := h
  cases draft with
  | object members flaw? =>
    rw [decoder, bind_eq_ok_iff] at h
    obtain ⟨inner, -, h⟩ := h
    obtain ⟨kind?, -, h⟩ := bind_eq_ok_iff.1 h
    obtain ⟨_, -, h⟩ := bind_eq_ok_iff.1 h
    cases kind? with
    | none => cases h
    | some kind => exact ⟨kind, _, _, h⟩
  | array items flaw? =>
    rw [decoder, bind_eq_ok_iff] at h
    obtain ⟨inner, -, h⟩ := h
    -- in an array the kind stands before the fields
    cases items with
    | nil =>
      obtain ⟨_, -, ⟨⟩⟩ := bind_eq_ok_iff.1 h
    | cons first fields =>
      obtain ⟨kind, -, h⟩ := bind_eq_ok_iff.1 h
      obtain ⟨_, -, h⟩ := bind_eq_ok_iff.1 h
      obtain ⟨_, -, h⟩ := bind_eq_ok_iff.1 h
      exact ⟨kind, _, _, h⟩
  | absent | bare | string => exact absurd h (Draft.mismatch_ne_ok _ _ _)

/-- A state that is read is regular, and the graphs in it are read as graphs. -/
theorem regular_of_gives {definition : Decoder Definition} {P : Definition → Prop}
    (hdefinition : ∀ graph, definition.Gives graph → ∀ inner ∈ graph.graphs, P inner)
    {state : State} (h : (decoder definition).Gives state) :
    state.Regular ∧ ∀ inner ∈ state.graphs, P inner := by
  obtain ⟨kind, h⟩ := exists_fieldsDecoder_gives h
  cases kind with
  | pass =>
    obtain ⟨⟨comment, next, isEnd, result, _⟩, ⟨-, -, -, hresult, -⟩, rfl⟩ := h.record
    refine ⟨?_, List.forall_mem_nil _⟩
    rintro value ⟨⟩
    have hgives := hresult.gives_some
    exact ⟨hgives.optional.canonical, hgives.ne_null⟩
  | choice =>
    obtain ⟨⟨comment, rules, otherwise, _⟩, ⟨-, hrules, -⟩, rfl⟩ := h.record
    refine ⟨?_, List.forall_mem_nil _⟩
    exact fun rule hrule => ChoiceRule.regular_of_gives (hrules.gives.listOf rule hrule)
  | parallel =>
    obtain ⟨⟨comment, branches, next, isEnd, _⟩, ⟨-, hbranches, -⟩, rfl⟩ := h.record
    refine ⟨trivial, ?_⟩
    intro inner hinner
    rw [graphs, Definition.mem_graphsOfBranches_iff] at hinner
    obtain ⟨branch, hbranch, hinner⟩ := hinner
    exact hdefinition branch (hbranches.gives.listOf branch hbranch) inner hinner
  | map =>
    obtain ⟨⟨comment, iterator, itemsPath, maxConcurrency, next, isEnd, _⟩, ⟨-, hiterator, -⟩,
      rfl⟩ := h.record
    have hiterator : (Field.required "Iterator" definition).Allows iterator := hiterator
    refine ⟨trivial, ?_⟩
    intro inner hinner
    rw [graphs] at hinner
    exact hdefinition iterator hiterator.gives inner hinner
  | task =>
    obtain ⟨⟨comment, resource, next, isEnd, timeoutSeconds, _⟩, -, rfl⟩ := h.record
    exact ⟨trivial, List.forall_mem_nil _⟩
  | fail =>
    obtain ⟨⟨comment, error, cause, _⟩, -, rfl⟩ := h.record
    exact ⟨trivial, List.forall_mem_nil _⟩
  | succeed =>
    obtain ⟨⟨comment, _⟩, -, rfl⟩ := h.record
    exact ⟨trivial, List.forall_mem_nil _⟩
  | wait =>
    obtain ⟨⟨comment, seconds, timestamp, next, isEnd, _⟩, -, rfl⟩ := h.record
    exact ⟨trivial, List.forall_mem_nil _⟩

end State

namespace Definition

/-- **Every graph of a definition that is read is regular**, at whatever depth. -/
theorem regular_of_gives {levels : Nat} {definition : Definition}
    (h : (decoderWithin levels).Gives definition) : ∀ graph ∈ definition.graphs, graph.Regular := by
  induction levels generalizing definition with
  | zero =>
    obtain ⟨_, _, ⟨⟩⟩ := h
  | succ levels ih =>
    -- the graphs in the states are read with one level less
    obtain ⟨⟨startAt, states, comment, timeoutSeconds, version, _⟩, ⟨-, hstates, -⟩, rfl⟩ :=
      h.record
    obtain ⟨hnodup, hgives⟩ := States.spec_of_gives hstates.gives
    have hregular := fun entry hentry =>
      State.regular_of_gives (P := Regular) (fun _ => ih) (hgives entry hentry)
    rw [graphs, List.forall_mem_cons]
    refine ⟨⟨hnodup, fun entry hentry => (hregular entry hentry).1⟩, ?_⟩
    intro graph hgraph
    obtain ⟨entry, hentry, hgraph⟩ := mem_graphsOfStates_iff.1 hgraph
    exact (hregular entry hentry).2 graph hgraph

end Definition

/-! ## What is built -/

mutual

/-- The definition has been read from a text, or built. -/
inductive Definition.Obtained : Definition → Prop
  | parsed {text : String} {definition : Definition}
    (h : Definition.parse text = .ok definition) : Definition.Obtained definition
  | built {builder : DefinitionBuilder} {definition : Definition} (hbuilder : builder.Obtained)
    (h : builder.build = .ok definition) : Definition.Obtained definition

/-- The parts have been collected from nothing, with short states. -/
inductive DefinitionBuilder.Obtained : DefinitionBuilder → Prop
  | new : DefinitionBuilder.Obtained {}
  | withStart {builder : DefinitionBuilder} (hbuilder : builder.Obtained) (name : String) :
    DefinitionBuilder.Obtained (builder.withStart name)
  | withComment {builder : DefinitionBuilder} (hbuilder : builder.Obtained) (comment : String) :
    DefinitionBuilder.Obtained (builder.withComment comment)
  | addState {builder : DefinitionBuilder} (hbuilder : builder.Obtained) (name : String)
    {state : State} (hstate : state.IsShort) :
    DefinitionBuilder.Obtained (builder.addState name state)
  | addStates {builder : DefinitionBuilder} (hbuilder : builder.Obtained)
    {states : List (String × State)} (hstates : ∀ entry ∈ states, entry.2.IsShort) :
    DefinitionBuilder.Obtained (builder.addStates states)

/-- The state has been put in short, with definitions in it that have been obtained. -/
inductive State.IsShort : State → Prop
  | task (next : Option String) : State.IsShort (.taskTo next)
  | pass (next : Option String) : State.IsShort (.passTo next)
  | wait (next : Option String) : State.IsShort (.waitTo next)
  | success : State.IsShort .success
  | failure : State.IsShort .failure
  | choice (targets : List String) (otherwise : Option String) :
    State.IsShort (.choiceOf targets otherwise)
  | parallel {branches : List Definition} (hbranches : ∀ branch ∈ branches, branch.Obtained)
    (next : Option String) : State.IsShort (.parallelTo branches next)
  | map {iterator : Definition} (hiterator : iterator.Obtained) (next : Option String) :
    State.IsShort (.mapTo iterator next)

end

/-- What is put is there afterwards, and everything else was there before. -/
theorem Entries.mem_of_mem_put {α : Type} {name : String} {value : α} {entries : Entries α}
    {entry : String × α} (h : entry ∈ put name value entries) :
    entry = (name, value) ∨ entry ∈ entries := by
  induction entries with
  | nil => exact Or.inl (List.mem_singleton.1 h)
  | cons head rest ih =>
    obtain ⟨key, old⟩ := head
    rw [put] at h
    split at h
    · next hkey =>
      subst hkey
      exact (List.mem_cons.1 h).imp_right (List.mem_cons_of_mem _)
    · rcases List.mem_cons.1 h with rfl | h
      · exact Or.inr List.mem_cons_self
      · exact (ih h).imp_right (List.mem_cons_of_mem _)

/-- The state and all graphs in it are regular. -/
def State.RegularWithin (state : State) : Prop :=
  state.Regular ∧ ∀ graph ∈ state.graphs, graph.Regular

namespace DefinitionBuilder

/-- The states collected so far have different names and are regular. -/
structure Regular (builder : DefinitionBuilder) : Prop where
  nodup : (Entries.names builder.states).Nodup
  state : ∀ entry ∈ builder.states, entry.2.RegularWithin

variable {builder : DefinitionBuilder}

/-- A regular state may be added under any name. -/
theorem Regular.addState (h : builder.Regular) (name : String) {state : State}
    (hstate : state.RegularWithin) : (builder.addState name state).Regular where
  nodup := by
    rw [DefinitionBuilder.addState, Entries.names_put]
    split
    · exact h.nodup
    · next hnew =>
      rw [← List.concat_eq_append]
      exact h.nodup.concat hnew
  state := by
    intro entry hentry
    rcases Entries.mem_of_mem_put hentry with rfl | hentry
    · exact hstate
    · exact h.state entry hentry

/-- Regular states may be added one after another. -/
theorem Regular.addStates (h : builder.Regular) {states : List (String × State)}
    (hstates : ∀ entry ∈ states, entry.2.RegularWithin) : (builder.addStates states).Regular := by
  induction states generalizing builder with
  | nil => exact h
  | cons entry rest ih =>
    obtain ⟨hentry, hrest⟩ := List.forall_mem_cons.1 hstates
    exact ih (h.addState entry.1 hentry) hrest

/-- A definition that is built has the states that have been collected. -/
theorem states_of_build {definition : Definition} (hbuild : builder.build = .ok definition) :
    definition.states = builder.states := by
  rw [DefinitionBuilder.build] at hbuild
  split at hbuild
  · cases hbuild
  · cases hbuild
  · cases hbuild
    rfl

/-- A definition that is built from regular states is regular at any depth. -/
theorem Regular.build (h : builder.Regular) {definition : Definition}
    (hbuild : builder.build = .ok definition) : ∀ graph ∈ definition.graphs, graph.Regular := by
  have hstates := states_of_build hbuild
  rw [Definition.graphs_eq, List.forall_mem_cons, hstates]
  refine ⟨⟨hstates ▸ h.nodup, ?_⟩, ?_⟩
  · rw [hstates]
    exact fun entry hentry => (h.state entry hentry).1
  · intro graph hgraph
    obtain ⟨entry, hentry, hgraph⟩ := Definition.mem_graphsOfStates_iff.1 hgraph
    exact (h.state entry hentry).2 graph hgraph

end DefinitionBuilder

mutual

/-- **Every graph of a definition that has been obtained is regular**, at whatever depth. -/
theorem Definition.Obtained.regular {definition : Definition} :
    definition.Obtained → ∀ graph ∈ definition.graphs, graph.Regular
  | .parsed h => Definition.regular_of_gives (Decoder.gives_of_decode h)
  | .built hbuilder h => hbuilder.regular.build h

/-- The parts that have been collected are regular. -/
theorem DefinitionBuilder.Obtained.regular {builder : DefinitionBuilder} :
    builder.Obtained → builder.Regular
  | .new => ⟨List.nodup_nil, List.forall_mem_nil _⟩
  | .withStart hbuilder _ => ⟨hbuilder.regular.nodup, hbuilder.regular.state⟩
  | .withComment hbuilder _ => ⟨hbuilder.regular.nodup, hbuilder.regular.state⟩
  | .addState hbuilder name hstate => hbuilder.regular.addState name hstate.regularWithin
  | .addStates hbuilder hstates =>
    hbuilder.regular.addStates fun entry hentry => (hstates entry hentry).regularWithin

/-- A short state and all graphs in it are regular. -/
theorem State.IsShort.regularWithin {state : State} : state.IsShort → state.RegularWithin
  | .task _ | .wait _ | .success | .failure => ⟨trivial, List.forall_mem_nil _⟩
  | .pass _ => ⟨nofun, List.forall_mem_nil _⟩
  | .choice targets _ => by
    refine ⟨?_, List.forall_mem_nil _⟩
    intro rule hrule
    obtain ⟨target, -, rfl⟩ := List.mem_map.1 hrule
    exact ⟨List.Pairwise.nil, List.not_mem_nil, List.forall_mem_nil _⟩
  | .parallel hbranches _ => by
    refine ⟨trivial, ?_⟩
    intro graph hgraph
    rw [State.parallelTo, State.graphs, Definition.mem_graphsOfBranches_iff] at hgraph
    obtain ⟨branch, hbranch, hgraph⟩ := hgraph
    exact (hbranches branch hbranch).regular graph hgraph
  | .map hiterator _ => by
    refine ⟨trivial, ?_⟩
    intro graph hgraph
    rw [State.mapTo, State.graphs] at hgraph
    exact hiterator.regular graph hgraph

end

end WorkflowChart
