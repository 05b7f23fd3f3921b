import WorkflowChart.Proofs.Definition.Origins
import WorkflowChart.Proofs.Definition.Targets

/-!
# States in an order, under names of their own

States come into being in three ways, and each has its own mind about a name that comes twice.
States that are put one after another and states that are added to a definition replace the one that
is there, where it stands. States that are read may not have it. Either way no name repeats.

* **`Entries.CollectedFrom`**: the entries that come of putting pairs one after another.
* **`Entries.collectedFrom_ofList`**: `ofList` gives them.
* **`DefinitionBuilder.ofCalls`**: the parts of a definition after a sequence of calls.
* **`DefinitionBuilder.states_ofCalls`**: its states are those that the calls add, put one after
  another.
* **`Definition.Made`**: the definition has been read, built, or put together from states that were
  made, with any states in it that have been made.
* **`Definition.Made.namesDistinct`**: no graph of such a definition names two states alike.
* **`States.orderedMap_however_made`**: so looking states up and going through them agree.
-/

namespace WorkflowChart

/-! ## Pairs put one after another -/

namespace Entries

variable {α : Type} {name : String} {value : α} {pairs : List (String × α)} {entries : Entries α}

/-- The last pair with the name has the value. -/
def LastPut (pairs : List (String × α)) (name : String) (value : α) : Prop :=
  ∃ before after, pairs = before ++ (name, value) :: after ∧ name ∉ names after

/-- The entries are what comes of putting the pairs one after another: each name once, in the order
in which the names first come, with the value that was put last. -/
structure CollectedFrom (pairs : List (String × α)) (entries : Entries α) : Prop where
  nodup : entries.names.Nodup
  mem_names_iff : ∀ name, name ∈ entries.names ↔ name ∈ names pairs
  ordered : entries.names.Pairwise fun name other =>
    (names pairs).idxOf name < (names pairs).idxOf other
  get?_eq_some_iff : ∀ name value, get? name entries = some value ↔ LastPut pairs name value
  get?_eq_none_iff : ∀ name, get? name entries = none ↔ name ∉ names pairs

/-- The last pair is put to what the pairs before it have come to. -/
theorem ofList_concat (pairs : List (String × α)) (pair : String × α) :
    ofList (pairs ++ [pair]) = put pair.1 pair.2 (ofList pairs) := by
  rw [ofList, List.foldl_append]
  rfl

/-- The names are put to a list one after another, as the pairs are. -/
theorem names_ofList (pairs : List (String × α)) :
    names (ofList pairs) = (names pairs).foldl Choice.addNew [] := by
  induction pairs using List.reverseRecOn with
  | nil => rfl
  | append_singleton pairs pair ih =>
    have hnames : names (pairs ++ [pair]) = names pairs ++ [pair.1] := List.map_append
    rw [ofList_concat, names_put, ih, hnames, List.foldl_append]
    rfl

/-- The first value under a name comes after pairs with other names. -/
theorem get?_eq_some_iff_append :
    get? name entries = some value ↔
      ∃ before after, entries = before ++ (name, value) :: after ∧ name ∉ names before := by
  induction entries with
  | nil => simp
  | cons entry rest ih =>
    obtain ⟨key, first⟩ := entry
    rw [get?]
    split
    · next hkey =>
      subst hkey
      constructor
      · rintro ⟨⟩
        exact ⟨[], rest, rfl, List.not_mem_nil⟩
      · -- the name comes first, so nothing stands before it
        rintro ⟨_ | ⟨_, before⟩, after, heq, hbefore⟩
        · cases heq
          rfl
        · cases heq
          exact absurd List.mem_cons_self hbefore
    · next hkey =>
      rw [ih]
      constructor
      · rintro ⟨before, after, rfl, hbefore⟩
        refine ⟨(key, first) :: before, after, rfl, ?_⟩
        exact List.not_mem_cons_of_ne_of_not_mem (Ne.symm hkey) hbefore
      · rintro ⟨_ | ⟨_, before⟩, after, heq, hbefore⟩
        · cases heq
          exact absurd rfl hkey
        · cases heq
          exact ⟨before, after, rfl, List.not_mem_of_not_mem_cons hbefore⟩

/-- What is found under a name is what is found first from the end. -/
theorem get?_ofList (name : String) (pairs : List (String × α)) :
    get? name (ofList pairs) = get? name pairs.reverse := by
  induction pairs using List.reverseRecOn with
  | nil => rfl
  | append_singleton pairs pair ih =>
    rw [ofList_concat, List.reverse_concat, get?]
    split
    · next hkey => rw [hkey, get?_put_self]
    · next hkey => rw [get?_put_of_ne (Ne.symm hkey), ih]

/-- What is found under a name is what was put under it last. -/
theorem get?_ofList_eq_some_iff :
    get? name (ofList pairs) = some value ↔ LastPut pairs name value := by
  rw [get?_ofList, get?_eq_some_iff_append]
  constructor
  · rintro ⟨before, after, hpairs, hbefore⟩
    refine ⟨after.reverse, before.reverse, ?_, ?_⟩
    · rw [← List.reverse_reverse pairs, hpairs]
      simp
    · rw [names, List.map_reverse, List.mem_reverse]
      exact hbefore
  · rintro ⟨before, after, rfl, hafter⟩
    refine ⟨after.reverse, before.reverse, by simp, ?_⟩
    rw [names, List.map_reverse, List.mem_reverse]
    exact hafter

/-- **Pairs put one after another** leave each name where it came first, with its last value. -/
theorem collectedFrom_ofList (pairs : List (String × α)) : CollectedFrom pairs (ofList pairs) := by
  have hfirst : FirstOccurrences (names pairs) (names (ofList pairs)) := by
    rw [names_ofList]
    exact Choice.firstOccurrences_foldl_addNew (names pairs)
  exact {
    nodup := hfirst.nodup
    mem_names_iff := hfirst.mem_iff
    ordered := hfirst.ordered
    get?_eq_some_iff := fun _ _ => get?_ofList_eq_some_iff
    get?_eq_none_iff := fun name => get?_eq_none_iff.trans (not_congr (hfirst.mem_iff name)) }

/-- A value under a new name goes to the end. -/
theorem put_of_not_mem (hnew : name ∉ names entries) (value : α) :
    put name value entries = entries ++ [(name, value)] := by
  induction entries with
  | nil => rfl
  | cons entry rest ih =>
    obtain ⟨key, old⟩ := entry
    have hkey : key ≠ name := (List.ne_of_not_mem_cons hnew).symm
    rw [put, if_neg hkey, ih (List.not_mem_of_not_mem_cons hnew)]
    rfl

/-- Pairs with different names stay as they are. -/
theorem ofList_of_nodup (hnodup : (names pairs).Nodup) : ofList pairs = pairs := by
  induction pairs using List.reverseRecOn with
  | nil => rfl
  | append_singleton pairs pair ih =>
    rw [names, List.map_append, List.nodup_append] at hnodup
    have hnew : pair.1 ∉ names pairs := fun hmem =>
      hnodup.2.2 pair.1 hmem pair.1 (List.mem_singleton.2 rfl) rfl
    rw [ofList_concat, ih hnodup.1, put_of_not_mem hnew]

/-- The entries are among the pairs. -/
theorem mem_of_mem_ofList {entry : String × α} (h : entry ∈ ofList pairs) : entry ∈ pairs := by
  induction pairs using List.reverseRecOn with
  | nil => exact h
  | append_singleton pairs pair ih =>
    rw [ofList_concat] at h
    rw [List.mem_append, List.mem_singleton]
    exact (mem_of_mem_put h).symm.imp_left ih

end Entries

/-! ## Calls that build a definition -/

/-- A call in which the parts of a definition are collected. -/
inductive DefinitionCall where
  | withStart (name : String)
  | withComment (comment : String)
  | addState (name : String) (state : State)
  | addStates (states : List (String × State))

namespace DefinitionCall

/-- The parts after a call. -/
def apply (builder : DefinitionBuilder) : DefinitionCall → DefinitionBuilder
  | withStart name => builder.withStart name
  | withComment comment => builder.withComment comment
  | addState name state => builder.addState name state
  | addStates states => builder.addStates states

/-- The states that a call adds, in order. -/
def added : DefinitionCall → List (String × State)
  | withStart _ | withComment _ => []
  | addState name state => [(name, state)]
  | addStates states => states

end DefinitionCall

namespace DefinitionBuilder

/-- The parts that have been collected in a sequence of calls. -/
def ofCalls (calls : List DefinitionCall) : DefinitionBuilder :=
  calls.foldl DefinitionCall.apply {}

/-- A call puts the states that it adds to those that are there. -/
theorem states_apply (builder : DefinitionBuilder) (call : DefinitionCall) :
    (call.apply builder).states =
      call.added.foldl (fun states pair => Entries.put pair.1 pair.2 states) builder.states := by
  cases call with
  | withStart | withComment | addState => rfl
  | addStates states =>
    rw [DefinitionCall.apply, DefinitionCall.added]
    induction states generalizing builder with
    | nil => rfl
    | cons entry states ih => exact ih (builder.addState entry.1 entry.2)

/-- **The states that have been collected** are those that the calls add, put one after another. -/
theorem states_ofCalls (calls : List DefinitionCall) :
    (ofCalls calls).states = Entries.ofList (calls.flatMap DefinitionCall.added) := by
  induction calls using List.reverseRecOn with
  | nil => rfl
  | append_singleton calls call ih =>
    rw [ofCalls, List.foldl_append, List.foldl_cons, List.foldl_nil, states_apply, ← ofCalls, ih,
      List.flatMap_append, List.flatMap_singleton, Entries.ofList, Entries.ofList,
      List.foldl_append]

end DefinitionBuilder

/-! ## Definitions with states that were made -/

mutual

/-- The definition has been read from a text, built, or put together from states that were made. -/
inductive Definition.Made : Definition → Prop
  | parsed {text : String} {definition : Definition}
    (h : Definition.parse text = .ok definition) : Definition.Made definition
  | built {calls : List DefinitionCall} {definition : Definition}
    (hstates : ∀ call ∈ calls, ∀ pair ∈ call.added, pair.2.Made)
    (h : (DefinitionBuilder.ofCalls calls).build = .ok definition) : Definition.Made definition
  | assembled {definition : Definition} (hstates : States.Made definition.states) :
    Definition.Made definition

/-- The named states have been read from a text, collected, or put to such states. -/
inductive States.Made : List (String × State) → Prop
  | parsed {text : String} {states : List (String × State)}
    (h : States.parse text = .ok states) : States.Made states
  | collected {pairs : List (String × State)} (hpairs : ∀ pair ∈ pairs, pair.2.Made) :
    States.Made (Entries.ofList pairs)
  | put {states : List (String × State)} (hstates : States.Made states) (name : String)
    {state : State} (hstate : state.Made) : States.Made (Entries.put name state states)

/-- The state has been read from a text, or put together with any definitions that were made. -/
inductive State.Made : State → Prop
  | parsed {text : String} {state : State}
    (h : decode (State.decoder Definition.decoder) text = .ok state) : State.Made state
  | plain {state : State} (hparallel : state.category ≠ .parallel) (hmap : state.category ≠ .map) :
    State.Made state
  | parallel (comment : Option String) {branches : List Definition}
    (hbranches : ∀ branch ∈ branches, branch.Made) (flow : Flow) :
    State.Made (.parallel comment branches flow)
  | map (comment : Option String) {iterator : Definition} (hiterator : iterator.Made)
    (itemsPath : Option String) (maxConcurrency : Option UInt32) (flow : Flow) :
    State.Made (.map comment iterator itemsPath maxConcurrency flow)

end

namespace Definition

/-- The condition on states is one on each of them. -/
theorem statesNamesDistinct_iff {states : List (String × State)} :
    StatesNamesDistinct states ↔ ∀ entry ∈ states, StateNamesDistinct entry.2 := by
  induction states with
  | nil => exact iff_of_true trivial (List.forall_mem_nil _)
  | cons entry rest ih => rw [StatesNamesDistinct, ih, List.forall_mem_cons]

/-- The condition on branches is one on each of them. -/
theorem branchesNamesDistinct_iff {branches : List Definition} :
    BranchesNamesDistinct branches ↔ ∀ branch ∈ branches, branch.NamesDistinct := by
  induction branches with
  | nil => exact iff_of_true trivial (List.forall_mem_nil _)
  | cons branch rest ih => rw [BranchesNamesDistinct, ih, List.forall_mem_cons]

/-- No graph of a definition names two states alike if its states do not, and no graph in them. -/
theorem namesDistinct_of_states {definition : Definition}
    (hnodup : (Entries.names definition.states).Nodup)
    (hstates : ∀ entry ∈ definition.states, StateNamesDistinct entry.2) :
    definition.NamesDistinct := by
  obtain ⟨startAt, states, comment, timeoutSeconds, version⟩ := definition
  rw [NamesDistinct]
  exact ⟨hnodup, statesNamesDistinct_iff.2 hstates⟩

/-- No graph in a state that is read names two states alike. -/
theorem stateNamesDistinct_of_gives {state : State}
    (h : (State.decoder Definition.decoder).Gives state) : StateNamesDistinct state :=
  stateNamesDistinct_iff.2 (State.regular_of_gives
    (fun _ hgraph inner hinner => (regular_of_gives hgraph inner hinner).nodup) h).2

end Definition

mutual

/-- **No graph of a definition that was made names two states alike**, at whatever depth. -/
theorem Definition.Made.namesDistinct {definition : Definition} :
    definition.Made → definition.NamesDistinct
  | .parsed h => Definition.namesDistinct_iff.2 fun graph hgraph =>
      (Definition.regular_of_gives (Decoder.gives_of_decode h) graph hgraph).nodup
  | @Definition.Made.built calls _ hstates h => by
    have hcollected := DefinitionBuilder.states_ofCalls calls
    rw [← DefinitionBuilder.states_of_build h] at hcollected
    refine Definition.namesDistinct_of_states ?_ fun entry hentry => ?_
    · exact hcollected ▸ (Entries.collectedFrom_ofList _).nodup
    · rw [hcollected] at hentry
      obtain ⟨call, hcall, hadded⟩ := List.mem_flatMap.1 (Entries.mem_of_mem_ofList hentry)
      exact (hstates call hcall entry hadded).namesDistinct
  | .assembled hstates =>
    Definition.namesDistinct_of_states hstates.namesDistinct.1 hstates.namesDistinct.2

/-- Named states that were made have different names, and so have those of every graph in them. -/
theorem States.Made.namesDistinct {states : List (String × State)} :
    States.Made states → (Entries.names states).Nodup ∧
      ∀ entry ∈ states, Definition.StateNamesDistinct entry.2
  | .parsed h => by
    obtain ⟨hnodup, hgives⟩ := States.spec_of_gives (Decoder.gives_of_decode h)
    exact ⟨hnodup, fun entry hentry => Definition.stateNamesDistinct_of_gives (hgives entry hentry)⟩
  | @States.Made.collected pairs hpairs => by
    refine ⟨(Entries.collectedFrom_ofList pairs).nodup, fun entry hentry => ?_⟩
    exact (hpairs entry (Entries.mem_of_mem_ofList hentry)).namesDistinct
  | .put hstates name hstate => by
    refine ⟨?_, fun entry hentry => ?_⟩
    · rw [Entries.names_put]
      exact Choice.nodup_addNew hstates.namesDistinct.1 name
    · rcases Entries.mem_of_mem_put hentry with rfl | hentry
      · exact hstate.namesDistinct
      · exact hstates.namesDistinct.2 entry hentry

/-- No graph in a state that was made names two states alike. -/
theorem State.Made.namesDistinct {state : State} :
    state.Made → Definition.StateNamesDistinct state
  | .parsed h => Definition.stateNamesDistinct_of_gives (Decoder.gives_of_decode h)
  | .plain hparallel hmap => by
    rw [Definition.stateNamesDistinct_iff, State.graphs_of_plain hparallel hmap]
    exact List.forall_mem_nil _
  | .parallel _ hbranches _ => by
    rw [Definition.StateNamesDistinct, Definition.branchesNamesDistinct_iff]
    exact fun branch hbranch => (hbranches branch hbranch).namesDistinct
  | .map _ hiterator _ _ _ => by
    rw [Definition.StateNamesDistinct]
    exact hiterator.namesDistinct

end

namespace States

/-- Members are read under keys that are the names of their entries. -/
theorem keys_of_readsMembers {state : Decoder State} {place : Place}
    {members : List (Except Flaw String × Draft)} {entries : List (String × State)}
    (h : List.Forall₂ (ReadsMember state place) members entries) :
    members.map Prod.fst = (Entries.names entries).map .ok := by
  induction h with
  | nil => rfl
  | cons hmember _ ih => exact congrArg₂ List.cons hmember.1 ih

/-- The keys of an object differ just where the names of its entries do. -/
theorem nodup_keys_iff {state : Decoder State} {place : Place}
    {members : List (Except Flaw String × Draft)} {entries : List (String × State)}
    (h : List.Forall₂ (ReadsMember state place) members entries) :
    (members.map Prod.fst).Nodup ↔ (Entries.names entries).Nodup := by
  rw [keys_of_readsMembers h]
  exact List.nodup_map_iff fun _ _ => Except.ok.inj

/-- **An object is read** where its keys differ, and then as if its states were put one after
another. -/
theorem decoder_eq_ok_iff_ofList {state : Decoder State} {place : Place} {draft : Draft}
    {states : List (String × State)} :
    decoder state place draft = .ok states ↔
      ∃ inner members entries, draft = .object members none ∧ place.enter = .ok inner ∧
        List.Forall₂ (ReadsMember state inner) members entries ∧
        (members.map Prod.fst).Nodup ∧ states = Entries.ofList entries := by
  rw [decoder_eq_ok_iff]
  constructor
  · rintro ⟨inner, members, rfl, hinner, hread, hnodup⟩
    exact ⟨inner, members, states, rfl, hinner, hread, (nodup_keys_iff hread).2 hnodup,
      (Entries.ofList_of_nodup hnodup).symm⟩
  · rintro ⟨inner, members, entries, rfl, hinner, hread, hdistinct, rfl⟩
    have hnodup := (nodup_keys_iff hread).1 hdistinct
    rw [Entries.ofList_of_nodup hnodup]
    exact ⟨inner, members, rfl, hinner, hread, hnodup⟩

/-- **Named states are an ordered map, however they were made.** States that are put one after
another, whether by themselves or in the calls that build a definition, have each name once, in the
order in which the names first come, with the state that was put last. Reading an object gives
states just where there is a state under each of its keys and no key comes twice, and then it gives
what comes of putting them one after another. So in every graph of a definition that was made, at
whatever depth, the state that is looked up under a name is the one that is listed under it. -/
theorem orderedMap_however_made :
    (∀ pairs : List (String × State), Entries.CollectedFrom pairs (Entries.ofList pairs)) ∧
    (∀ calls : List DefinitionCall,
      let added := calls.flatMap DefinitionCall.added
      Entries.CollectedFrom added (DefinitionBuilder.ofCalls calls).states ∧
      ∀ definition, (DefinitionBuilder.ofCalls calls).build = .ok definition →
        Entries.CollectedFrom added definition.states) ∧
    (∀ (state : Decoder State) (place : Place) (draft : Draft) (states : List (String × State)),
      decoder state place draft = .ok states ↔
        ∃ inner members entries, draft = .object members none ∧ place.enter = .ok inner ∧
          List.Forall₂ (ReadsMember state inner) members entries ∧
          (members.map Prod.fst).Nodup ∧ states = Entries.ofList entries) ∧
    ∀ definition : Definition, definition.Made →
      definition.NamesDistinct ∧ ∀ graph ∈ definition.graphs, ∀ name state,
        graph.get? name = some state ↔ (name, state) ∈ graph.states := by
  refine ⟨Entries.collectedFrom_ofList, ?builder, fun _ _ _ _ => decoder_eq_ok_iff_ofList, ?made⟩
  case builder =>
    intro calls
    have hcollected := Entries.collectedFrom_ofList (calls.flatMap DefinitionCall.added)
    rw [← DefinitionBuilder.states_ofCalls] at hcollected
    exact ⟨hcollected, fun definition hbuild =>
      DefinitionBuilder.states_of_build hbuild ▸ hcollected⟩
  case made =>
    intro definition hmade
    refine ⟨hmade.namesDistinct, fun graph hgraph name state => ?_⟩
    exact Entries.get?_eq_some_iff (Definition.nodup_of_mem_graphs hmade.namesDistinct hgraph)

/-- A state that is added again takes the place of the one that was there, and so it does within the
graph of its iterator. -/
theorem orderedMap_however_made_again :
    let inner : Definition :=
      { startAt := "Work", states := Entries.ofList [("Work", .failure), ("Work", .success)] }
    let calls : List DefinitionCall :=
      [.withStart "Each", .addState "Each" .success,
        .addStates [("Last", .failure), ("Each", .mapTo inner "Last")]]
    let definition : Definition :=
      { startAt := "Each", states := [("Each", .mapTo inner "Last"), ("Last", .failure)] }
    (DefinitionBuilder.ofCalls calls).build = .ok definition ∧ definition.Made ∧
      inner ∈ definition.graphs ∧ inner.states = [("Work", .success)] ∧
      ∀ name state, inner.get? name = some state ↔ (name, state) ∈ inner.states := by
  intro inner calls definition
  have hinner : inner.Made := by
    refine .assembled (.collected fun pair hpair => ?_)
    rcases List.mem_pair.1 hpair with rfl | rfl
    · exact .plain nofun nofun
    · exact .plain nofun nofun
  have hadded : ∀ call ∈ calls, ∀ pair ∈ call.added, pair.2.Made := by
    simp only [calls, List.forall_mem_cons, DefinitionCall.added]
    refine ⟨nofun, ⟨.plain nofun nofun, nofun⟩, ⟨.plain nofun nofun, ?_, nofun⟩, nofun⟩
    exact .map none hinner none none _
  have hmade : definition.Made := .built hadded rfl
  have hmem : inner ∈ definition.graphs := by
    have hfirst : ("Each", State.mapTo inner "Last") ∈ definition.states := List.mem_cons_self
    refine Definition.mem_graphs_of_state hfirst ?_
    rw [State.mapTo, State.graphs]
    exact inner.mem_graphs_self
  exact ⟨rfl, hmade, hmem, rfl, (orderedMap_however_made.2.2.2 definition hmade).2 inner hmem⟩

end States

end WorkflowChart
