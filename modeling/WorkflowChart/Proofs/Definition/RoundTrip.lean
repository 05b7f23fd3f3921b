import WorkflowChart.Definition.Encode
import WorkflowChart.Definition.Equality
import WorkflowChart.Proofs.Definition.Origins
import WorkflowChart.Proofs.Json.Written

/-!
# Definitions that are written and read again

Reading undoes writing. The text of a definition nests its containers as deep as the document does,
so it is read as long as no more than a hundred and twenty-seven of them nest; and what is free in
it is read as it was, if it was in the form in which free values are read.

* **`State.RoundTrips`**, **`Definition.RoundTrips`**: the document is decoded to what was written,
  where there is room for it.
* **`State.reads_document`**: so it is for a state whose members are those of its fields.
* **`Definition.roundTripCases`**: so it is at every depth.
* **`Definition.parse_definitionText`**: the text of a definition that has been read or built is
  read as this definition.
-/

namespace WorkflowChart

/-! ## Rules -/

namespace ChoiceRule

/-- The members of a condition are put after those before them, which gives the condition. -/
theorem ofMembers_draftMembers {rule : ChoiceRule} (hrule : rule.Regular) {place : Place}
    (hroom : ∀ member ∈ rule.condition, member.2.depth ≤ place.room) :
    ∀ before rest, before ++ rest = rule.condition →
      ofMembers place (some rule.next) before (Json.draftMembers rest) = .ok rule := by
  intro before rest hsplit
  induction rest generalizing before with
  | nil =>
    rw [List.append_nil] at hsplit
    rw [hsplit]
    rfl
  | cons member rest ih =>
    obtain ⟨name, value⟩ := member
    have hmem : (name, value) ∈ rule.condition := by simp [← hsplit]
    have hname : name ≠ "Next" := by
      rintro rfl
      exact hrule.next_not_mem (List.mem_map.2 ⟨_, hmem, rfl⟩)
    have hvalue : Decoder.json place value.draft = .ok value :=
      Decoder.reads_json (hrule.canonical _ hmem) (hroom _ hmem) place le_rfl
    -- the members come in ascending order, so each one goes to the end
    have hput : Entries.putSorted name value before = before ++ [(name, value)] :=
      Entries.putSorted_of_forall_lt
        (Entries.Ascending.lt_of_append (hsplit ▸ hrule.ascending)) value
    rw [Json.draftMembers, ofMembers_cons]
    simp only [orFlawed, Except.mapError, bind, Except.bind, hname, if_false, hvalue, hput]
    exact ih _ (by simpa using hsplit)

/-- A rule is decoded from its document. -/
theorem reads_json {rule : ChoiceRule} (hrule : rule.Regular) {room : Nat}
    (hroom : rule.json.depth ≤ room) : decoder.Reads room rule.json rule := by
  obtain ⟨room, rfl, hmembers⟩ := Json.exists_of_depth_object_le hroom
  intro place hplace
  obtain ⟨inner, henter, hinner⟩ := place.exists_enter hplace
  have hcondition : ∀ member ∈ rule.condition, member.2.depth ≤ inner.room := fun member hmember =>
    (hmembers member (List.mem_cons_of_mem _ hmember)).trans hinner
  rw [json, Json.draft, Json.draftMembers, decoder, henter]
  show (ofMembers inner none [] _).bind _ = _
  rw [ofMembers_cons]
  show (ofMembers inner (some rule.next) [] _).bind _ = _
  rw [ofMembers_draftMembers hrule hcondition [] rule.condition rfl]
  rfl

end ChoiceRule

/-! ## States -/

namespace State

variable {definition : Decoder Definition} {kind : Category} {room : Nat}
  {members : List (String × Json)}

/-- The name of a kind is read as the kind. -/
theorem kindDecoder_stem (place : Place) (kind : Category) :
    kindDecoder place (Json.string kind.stem).draft = .ok kind := by
  cases kind <;> rfl

/-- A member of a state is its type, which it has once, or a member of any value. -/
theorem kindOfMembers_cons (place : Place) (kind? : Option Category) (key : Except Flaw String)
    (draft : Draft) (rest : List (Except Flaw String × Draft)) :
    kindOfMembers place kind? ((key, draft) :: rest) =
      orFlawed key >>= fun name =>
        if name = "Type" then
          match kind? with
          | some _ => .error (.duplicateField "Type")
          | none => kindDecoder place draft >>= fun kind => kindOfMembers place (some kind) rest
        else Decoder.json place draft >>= fun _ => kindOfMembers place kind? rest := by
  cases kind? <;> rfl

/-- Members that do not tell the kind are passed over when the kind is looked for. -/
theorem kindOfMembers_draftMembers {place : Place} (kind? : Option Category)
    (htype : "Type" ∉ Entries.names members)
    (hroom : ∀ member ∈ members, member.2.depth ≤ place.room) :
    kindOfMembers place kind? (Json.draftMembers members) = .ok kind? := by
  induction members with
  | nil => rfl
  | cons member members ih =>
    obtain ⟨name, value⟩ := member
    obtain ⟨hname, hnames⟩ := not_or.1 (List.mem_cons.not.1 htype)
    obtain ⟨hvalue, hvalues⟩ := List.forall_mem_cons.1 hroom
    obtain ⟨seen, hseen⟩ := Json.exists_json_draft value hvalue
    have hread : Decoder.json place value.draft = .ok seen := Decoder.orFlawed_eq_ok_iff.2 hseen
    rw [Json.draftMembers, kindOfMembers_cons]
    simp only [orFlawed, Except.mapError, bind, Except.bind, Ne.symm hname, if_false, hread]
    exact ih hnames hvalues

/-- The members that do not tell the kind are the fields. -/
theorem filter_draftMembers (htype : "Type" ∉ Entries.names members) :
    (Json.draftMembers members).filter (fun member => !isKindKey member.1) =
      Json.draftMembers members := by
  induction members with
  | nil => rfl
  | cons member members ih =>
    obtain ⟨name, value⟩ := member
    obtain ⟨hname, hnames⟩ := not_or.1 (List.mem_cons.not.1 htype)
    rw [Json.draftMembers, List.filter_cons_of_pos (by simp [isKindKey, Ne.symm hname]), ih hnames]

/-- A state is decoded from its kind and its fields. -/
theorem reads_of_fields {state : State} (htype : "Type" ∉ Entries.names members)
    (hroom : ∀ member ∈ members, member.2.depth ≤ room)
    (hfields : (fieldsDecoder definition kind).Reads (room + 1) (.object members) state) :
    (decoder definition).Reads (room + 1) (.object (("Type", .string kind.stem) :: members))
      state := by
  intro place hplace
  obtain ⟨inner, henter, hinner⟩ := place.exists_enter hplace
  -- the kind is told by the first member; the other ones are read to their end for nothing
  have hkind :
      kindOfMembers inner none (Json.draftMembers (("Type", .string kind.stem) :: members)) =
        .ok (some kind) := by
    rw [Json.draftMembers, kindOfMembers_cons]
    simp only [orFlawed, Except.mapError, bind, Except.bind, if_true, kindDecoder_stem]
    exact kindOfMembers_draftMembers _ htype fun member hmember =>
      (hroom member hmember).trans hinner
  have hfilter : (Json.draftMembers (("Type", .string kind.stem) :: members)).filter
      (fun member => !isKindKey member.1) = Json.draftMembers members := by
    rw [Json.draftMembers, List.filter_cons_of_neg (by simp [isKindKey]), filter_draftMembers htype]
  rw [Json.draft, decoder, henter]
  simp only [bind, Except.bind, hkind, hfilter]
  exact hfields { place with whole := true } hplace

/-- **A state is decoded from its document**, if the members after its comment are those of the
fields of its kind. Inside the document there is less room. -/
theorem reads_document {state : State} {comment : Option String} {types : List Type}
    {name : String} {fields : Fields types} {make : Row (Option String :: types) → State}
    (hfields : fieldsDecoder definition kind =
      .record name (.cons (.optional "Comment" .text) fields) make)
    (hdistinct : (Fields.cons (.optional "Comment" .text) fields).distinct = true)
    (htype : "Type" ∉ Entries.names members)
    (hroom : (document kind comment members).depth ≤ room)
    (hwritten : ∀ inner < room, (∀ member ∈ members, member.2.depth ≤ inner) →
      ∃ row, fields.Written inner row members ∧ make (comment, row) = state) :
    (decoder definition).Reads room (document kind comment members) state := by
  obtain ⟨inner, rfl, hinside⟩ := Json.exists_of_depth_object_le hroom
  obtain ⟨-, hfieldsInside⟩ := List.forall_mem_cons.1 hinside
  obtain ⟨-, hmembers⟩ := List.forall_mem_cons.1 hfieldsInside
  obtain ⟨row, hrow, hmake⟩ := hwritten inner inner.lt_succ_self hmembers
  refine reads_of_fields (by simp [htype]) hfieldsInside ?_
  rw [hfields]
  exact .record hdistinct (.given (Decoder.reads_optional_text comment) hrow) hmake

end State

/-! ## Definitions -/

/-- A definition is decoded from its document, if its graphs are regular. The room that the document
needs is less than the levels that may nest. -/
def Definition.RoundTrips (definition : Definition) : Prop :=
  (∀ graph ∈ definition.graphs, graph.Regular) → ∀ levels room, definition.json.depth ≤ room →
    room < levels → (decoderWithin levels).Reads room definition.json definition

/-- A state is decoded from its document, if it and the graphs in it are regular. -/
def State.RoundTrips (state : State) : Prop :=
  state.RegularWithin → ∀ levels room, state.json.depth ≤ room → room < levels →
    (State.decoder (Definition.decoderWithin levels)).Reads room state.json state

namespace State

/-- A state without graphs in it is decoded from its document. -/
theorem roundTrips_plain {state : State} (hparallel : state.category ≠ .parallel)
    (hmap : state.category ≠ .map) : state.RoundTrips := by
  intro hregular levels room hroom _
  cases state with
  | parallel => exact absurd rfl hparallel
  | map => exact absurd rfl hmap
  | pass state =>
    rw [State.json] at hroom ⊢
    refine reads_document rfl rfl (by simp [Entries.names, Flow.members]) hroom ?_
    intro inner _ hmembers
    -- a missing result is written as `null`, which no regular result is
    have hresult : Decoder.json.optional.Reads inner (.ofOption id state.result) state.result := by
      refine Decoder.reads_optional fun value hvalue => ?_
      obtain ⟨hcanonical, hnull⟩ := hregular.1 value hvalue
      have hdepth : (Json.ofOption id state.result).depth ≤ inner :=
        hmembers ("Result", Json.ofOption id state.result) (by simp)
      rw [Option.mem_def.1 hvalue] at hdepth
      exact ⟨Decoder.reads_json hcanonical hdepth, hnull⟩
    exact ⟨_, .given (Decoder.reads_optional_text _) <| .given (Decoder.reads_boolean _) <|
      .given hresult .nil, rfl⟩
  | task state =>
    rw [State.json] at hroom ⊢
    refine reads_document rfl rfl (by simp [Entries.names, Flow.members]) hroom ?_
    intro inner _ _
    exact ⟨_, .given (Decoder.reads_optional_text _) <| .given (Decoder.reads_optional_text _) <|
      .given (Decoder.reads_boolean _) <| .given (Decoder.reads_optional_word64 _) .nil, rfl⟩
  | choice state =>
    rw [State.json] at hroom ⊢
    refine reads_document rfl rfl (by simp [Entries.names]) hroom ?_
    intro inner _ hmembers
    obtain ⟨inner, rfl, hrules⟩ := Json.exists_of_depth_array_le
      (hmembers ("Choices", .array (state.rules.map ChoiceRule.json)) (by simp))
    have hread := Decoder.reads_listOf fun rule hrule =>
      ChoiceRule.reads_json (hregular.1 rule hrule) (hrules _ (List.mem_map_of_mem hrule))
    exact ⟨_, .given hread <| .given (Decoder.reads_optional_text _) .nil, rfl⟩
  | fail state =>
    rw [State.json] at hroom ⊢
    refine reads_document rfl rfl (by simp [Entries.names]) hroom ?_
    intro inner _ _
    exact ⟨_, .given (Decoder.reads_optional_text _) <|
      .given (Decoder.reads_optional_text _) .nil, rfl⟩
  | succeed state =>
    rw [State.json] at hroom ⊢
    exact reads_document rfl rfl List.not_mem_nil hroom fun _ _ _ => ⟨_, .nil, rfl⟩
  | wait state =>
    rw [State.json] at hroom ⊢
    refine reads_document rfl rfl (by simp [Entries.names, Flow.members]) hroom ?_
    intro inner _ _
    exact ⟨_, .given (Decoder.reads_optional_word64 _) <| .given (Decoder.reads_optional_text _) <|
      .given (Decoder.reads_optional_text _) <| .given (Decoder.reads_boolean _) .nil, rfl⟩

end State

namespace Definition

/-- The documents of states are those of the states one by one. -/
theorem jsonStates_eq_map (states : List (String × State)) :
    jsonStates states = states.map fun entry => (entry.1, entry.2.json) := by
  induction states with
  | nil => rfl
  | cons entry rest ih => rw [jsonStates, ih, List.map_cons]

/-- The documents of branches are those of the branches one by one. -/
theorem jsonBranches_eq_map (branches : List Definition) :
    jsonBranches branches = branches.map json := by
  induction branches with
  | nil => rfl
  | cons branch rest ih => rw [jsonBranches, ih, List.map_cons]

/-- A Parallel state is decoded from its document, if its branches are from theirs. -/
theorem roundTrips_parallel {branches : List Definition}
    (hbranches : ∀ branch ∈ branches, branch.RoundTrips) (comment : Option String) (flow : Flow) :
    (State.parallel comment branches flow).RoundTrips := by
  intro hregular levels room hroom hlevels
  rw [State.json, jsonBranches_eq_map] at hroom ⊢
  refine State.reads_document rfl rfl (by simp [Entries.names, Flow.members]) hroom ?_
  intro inner hinner hmembers
  obtain ⟨inner, rfl, hdepths⟩ := Json.exists_of_depth_array_le
    (hmembers ("Branches", .array (branches.map json)) (by simp))
  have hread : (Decoder.listOf (decoderWithin levels)).Reads (inner + 1)
      (.array (branches.map json)) branches := by
    refine Decoder.reads_listOf fun branch hbranch => ?_
    refine hbranches branch hbranch ?_ levels inner (hdepths _ (List.mem_map_of_mem hbranch))
      (by omega)
    intro graph hgraph
    refine hregular.2 graph ?_
    rw [State.graphs, mem_graphsOfBranches_iff]
    exact ⟨branch, hbranch, hgraph⟩
  exact ⟨_, .given hread <| .given (Decoder.reads_optional_text _) <|
    .given (Decoder.reads_boolean _) .nil, rfl⟩

/-- A Map state is decoded from its document, if its iterator is. -/
theorem roundTrips_map {iterator : Definition} (hiterator : iterator.RoundTrips)
    (comment itemsPath : Option String) (maxConcurrency : Option UInt32) (flow : Flow) :
    (State.map comment iterator itemsPath maxConcurrency flow).RoundTrips := by
  intro hregular levels room hroom hlevels
  rw [State.json] at hroom ⊢
  refine State.reads_document rfl rfl (by simp [Entries.names, Flow.members]) hroom ?_
  intro inner hinner hmembers
  have hread : (decoderWithin levels).Reads inner iterator.json iterator := by
    refine hiterator ?_ levels inner (hmembers ("Iterator", iterator.json) (by simp)) (by omega)
    intro graph hgraph
    refine hregular.2 graph ?_
    rw [State.graphs]
    exact hgraph
  have hlimit : Decoder.word32.optional.Reads inner
      (.ofOption (fun limit => .ofWord limit.toUInt64) maxConcurrency) maxConcurrency :=
    Decoder.reads_optional fun limit _ => ⟨Decoder.reads_word32 limit, Json.ofWord_ne_null _⟩
  exact ⟨_, .given hread <| .given (Decoder.reads_optional_text _) <| .given hlimit <|
    .given (Decoder.reads_optional_text _) <| .given (Decoder.reads_boolean _) .nil, rfl⟩

/-- Named states are decoded from their document, if each of them is. -/
theorem reads_states {state : Decoder State} {room : Nat} {states : List (String × State)}
    (hnodup : (Entries.names states).Nodup)
    (hread : ∀ entry ∈ states, state.Reads room entry.2.json entry.2) :
    (States.decoder state).Reads (room + 1) (.object (jsonStates states)) states := by
  intro place hplace
  obtain ⟨inner, henter, hinner⟩ := place.exists_enter hplace
  rw [Json.draft, States.decoder_eq_ok_iff]
  refine ⟨inner, _, rfl, henter, ?_, hnodup⟩
  -- each state is decoded from what stands under its name
  clear hnodup
  induction states with
  | nil => exact .nil
  | cons entry rest ih =>
    obtain ⟨name, value⟩ := entry
    obtain ⟨hvalue, hrest⟩ := List.forall_mem_cons.1 hread
    exact .cons ⟨rfl, hvalue inner hinner⟩ (ih hrest)

/-- A definition is decoded from its document, if its states are from theirs. -/
theorem roundTrips_of_states {definition : Definition}
    (hstates : ∀ entry ∈ definition.states, entry.2.RoundTrips) : definition.RoundTrips := by
  intro hregular levels room hroom hlevels
  rw [graphs_eq, List.forall_mem_cons] at hregular
  obtain ⟨hgraph, hinside⟩ := hregular
  obtain ⟨startAt, states, comment, timeoutSeconds, version⟩ := definition
  rw [json] at hroom ⊢
  obtain ⟨room, rfl, hmembers⟩ := Json.exists_of_depth_object_le hroom
  obtain ⟨room, rfl, hdepths⟩ := Json.exists_of_depth_object_le
    (hmembers ("States", .object (jsonStates states)) (by simp))
  -- two containers open before the document of a state, and one level is used up
  obtain ⟨levels, rfl⟩ : ∃ k, levels = k + 1 := ⟨levels - 1, by omega⟩
  have hread : (States.decoder (State.decoder (decoderWithin levels))).Reads (room + 1)
      (.object (jsonStates states)) states := by
    refine reads_states hgraph.nodup fun entry hentry => ?_
    have hdepth : entry.2.json.depth ≤ room := by
      rw [jsonStates_eq_map] at hdepths
      exact hdepths (entry.1, entry.2.json) (List.mem_map.2 ⟨entry, hentry, rfl⟩)
    refine hstates entry hentry ⟨hgraph.state entry hentry, ?_⟩ levels room hdepth (by omega)
    exact fun graph hmem => hinside graph (mem_graphsOfStates_iff.2 ⟨entry, hentry, hmem⟩)
  exact .record rfl
    (.given (Decoder.reads_text _) <| .given hread <| .given (Decoder.reads_optional_text _) <|
      .given (Decoder.reads_optional_word64 _) <| .given (Decoder.reads_optional_text _) .nil) rfl

/-- Graphs and states are decoded from their documents at every depth. -/
theorem roundTripCases :
    Cases RoundTrips (fun states => ∀ entry ∈ states, entry.2.RoundTrips) State.RoundTrips
      (fun branches => ∀ branch ∈ branches, branch.RoundTrips) where
  graph _ _ _ _ _ hstates := roundTrips_of_states hstates
  noStates := List.forall_mem_nil _
  addState _ _ _ hstate hrest := List.forall_mem_cons.2 ⟨hstate, hrest⟩
  plain _ hparallel hmap := State.roundTrips_plain hparallel hmap
  parallel comment _ flow hbranches := roundTrips_parallel hbranches comment flow
  map comment _ itemsPath maxConcurrency flow hiterator :=
    roundTrips_map hiterator comment itemsPath maxConcurrency flow
  noBranches := List.forall_mem_nil _
  addBranch _ _ hbranch hrest := List.forall_mem_cons.2 ⟨hbranch, hrest⟩

end Definition

/-! ## Texts -/

/-- The values in a state that may be any JSON. -/
def State.freeValues : State → List Json
  | .pass state => state.result.toList
  | .choice state => state.rules.flatMap fun rule => rule.condition.map Prod.snd
  | .task _ | .parallel .. | .map .. | .fail _ | .succeed _ | .wait _ => []

/-- The values in a definition that may be any JSON, those in the graphs of its states included. -/
def Definition.freeValues (definition : Definition) : List Json :=
  definition.graphs.flatMap fun graph => graph.states.flatMap fun entry => entry.2.freeValues

/-- No floating point number occurs in the free values of a graph's own states. -/
def Definition.FloatFree (graph : Definition) : Prop :=
  ∀ entry ∈ graph.states, ∀ value ∈ entry.2.freeValues, value.FloatFree

namespace State

/-- The document of a state has no floating point number in it if its other members have none. -/
theorem floatFree_document {kind : Category} {comment : Option String}
    {members : List (String × Json)} (h : ∀ member ∈ members, member.2.FloatFree) :
    (document kind comment members).FloatFree := by
  refine .object (List.forall_mem_cons.2 ⟨.string _, List.forall_mem_cons.2 ⟨?_, h⟩⟩)
  exact Json.floatFree_ofOption_string comment

/-- Only the free values of a state can put floating point numbers into its document. -/
theorem floatFree_plain {state : State} (hparallel : state.category ≠ .parallel)
    (hmap : state.category ≠ .map) (h : ∀ value ∈ state.freeValues, value.FloatFree) :
    state.json.FloatFree := by
  cases state with
  | parallel => exact absurd rfl hparallel
  | map => exact absurd rfl hmap
  | pass state =>
    have hresult : (Json.ofOption id state.result).FloatFree :=
      Json.floatFree_ofOption fun value hvalue => h value (Option.mem_toList.2 hvalue)
    rw [State.json]
    exact floatFree_document (by simp [Flow.members, hresult])
  | choice state =>
    have hrules : ∀ rule ∈ state.rules, rule.json.FloatFree := by
      intro rule hrule
      refine .object (List.forall_mem_cons.2 ⟨.string _, ?_⟩)
      intro member hmember
      exact h member.2 (List.mem_flatMap.2 ⟨rule, hrule, List.mem_map_of_mem hmember⟩)
    have hchoices : (Json.array (state.rules.map ChoiceRule.json)).FloatFree :=
      .array (List.forall_mem_map.2 hrules)
    rw [State.json]
    exact floatFree_document (by simp [hchoices])
  | task | fail | succeed | wait =>
    rw [State.json]
    exact floatFree_document (by simp [Flow.members])

end State

namespace Definition

/-- The document of a definition has no floating point number in it if the free values have none. -/
theorem floatFreeCases :
    Cases (fun graph => (∀ inner ∈ graph.graphs, inner.FloatFree) → graph.json.FloatFree)
      (fun states => (∀ entry ∈ states, ∀ value ∈ entry.2.freeValues, value.FloatFree) →
        (∀ inner ∈ graphsOfStates states, inner.FloatFree) →
        ∀ entry ∈ states, entry.2.json.FloatFree)
      (fun state => (∀ value ∈ state.freeValues, value.FloatFree) →
        (∀ inner ∈ state.graphs, inner.FloatFree) → state.json.FloatFree)
      (fun branches => (∀ inner ∈ graphsOfBranches branches, inner.FloatFree) →
        ∀ branch ∈ branches, branch.json.FloatFree) where
  graph startAt states comment timeoutSeconds version hstates := by
    intro hfree
    rw [graphs, List.forall_mem_cons] at hfree
    have hdocument : (Json.object (jsonStates states)).FloatFree := by
      rw [jsonStates_eq_map]
      exact .object (List.forall_mem_map.2 (hstates hfree.1 hfree.2))
    rw [json]
    exact .object (by simp [hdocument])
  noStates := fun _ _ => List.forall_mem_nil _
  addState name state rest hstate hrest := by
    intro hown hinside
    rw [List.forall_mem_cons] at hown
    rw [graphsOfStates, List.forall_mem_append] at hinside
    exact List.forall_mem_cons.2 ⟨hstate hown.1 hinside.1, hrest hown.2 hinside.2⟩
  plain _ hparallel hmap := fun hown _ => State.floatFree_plain hparallel hmap hown
  parallel comment branches flow hbranches := by
    intro _ hinside
    rw [State.graphs] at hinside
    have hdocument : (Json.array (jsonBranches branches)).FloatFree := by
      rw [jsonBranches_eq_map]
      exact .array (List.forall_mem_map.2 (hbranches hinside))
    rw [State.json]
    exact State.floatFree_document (by simp [Flow.members, hdocument])
  map comment iterator itemsPath maxConcurrency flow hiterator := by
    intro _ hinside
    rw [State.graphs] at hinside
    have hlimit : (Json.ofOption (fun limit => .ofWord limit.toUInt64) maxConcurrency).FloatFree :=
      Json.floatFree_ofOption fun limit _ => Json.floatFree_ofWord _
    rw [State.json]
    exact State.floatFree_document (by simp [Flow.members, hiterator hinside, hlimit])
  noBranches := fun _ => List.forall_mem_nil _
  addBranch branch rest hbranch hrest := by
    intro hinside
    rw [graphsOfBranches, List.forall_mem_append] at hinside
    exact List.forall_mem_cons.2 ⟨hbranch hinside.1, hrest hinside.2⟩

/-- **Definitions survive being written.** The text of a definition that has been read or built,
with no floating point numbers in its free values, is read as the same definition, unless more
containers nest in it than a text may nest. -/
theorem parse_definitionText {definition : Definition} (h : definition.Obtained)
    (hfree : ∀ value ∈ definition.freeValues, value.FloatFree)
    (hdepth : definition.json.depth ≤ 127) : parse definition.text = .ok definition := by
  have hgraphs : ∀ graph ∈ definition.graphs, graph.FloatFree := by
    intro graph hgraph entry hentry value hvalue
    exact hfree value
      (List.mem_flatMap.2 ⟨graph, hgraph, List.mem_flatMap.2 ⟨entry, hentry, hvalue⟩⟩)
  have hread := roundTripCases.graph_all definition h.regular 128 127 hdepth (by decide)
  rw [parse, text, decode_text decoder (floatFreeCases.graph_all definition hgraphs)]
  exact hread {} le_rfl

/-- A graph with a free value, as it is read. -/
def loading : Definition :=
  { startAt := "Load"
    states := [("Load", .pass
      { flow := { isEnd := true }
        result := some (.object [("a", .null), ("b", .array [.bool true])]) })] }

/-- A graph that runs another one and then decides how to go on. -/
def fan : Definition :=
  { startAt := "Fan"
    states := [("Fan", .parallelTo [loading] (some "Pick")), ("Pick", .choiceOf ["Fan"] none)] }

/-- A definition that has been built around one that has been read. -/
theorem parse_definitionText_fan :
    fan.Obtained ∧ (∀ value ∈ fan.freeValues, value.FloatFree) ∧ fan.json.depth ≤ 127 ∧
      parse fan.text = .ok fan := by
  have hparsed : parse "\x7b\"States\":\x7b\"Load\":\x7b\"Result\":\x7b\"b\":[true],\"a\":null\x7d,
      \"End\":true,\"Type\":\"Pass\"\x7d\x7d,\"StartAt\":\"Load\"\x7d" = .ok loading := by
    decide +kernel
  have hbranches : ∀ branch ∈ [loading], branch.Obtained :=
    List.forall_mem_singleton.2 (.parsed hparsed)
  have hbuilder := ((DefinitionBuilder.Obtained.new.withStart "Fan").addState "Fan"
    (.parallel hbranches (some "Pick"))).addState "Pick" (.choice ["Fan"] none)
  have hfan : fan.Obtained := .built hbuilder rfl
  have hfree : ∀ value ∈ fan.freeValues, value.FloatFree := by
    have hvalues : fan.freeValues = [.object [("a", .null), ("b", .array [.bool true])]] := rfl
    rw [hvalues, List.forall_mem_singleton]
    exact .object (by simp [Json.FloatFree.null, Json.FloatFree.array])
  have hdepth : fan.json.depth ≤ 127 := by decide
  exact ⟨hfan, hfree, hdepth, parse_definitionText hfan hfree hdepth⟩

end Definition

end WorkflowChart
