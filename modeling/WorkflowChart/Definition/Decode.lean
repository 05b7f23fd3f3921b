import WorkflowChart.Definition.Basic
import WorkflowChart.Json.Record

/-!
# Reading definitions

The decoders of definitions and their parts.

A state says by its member `Type` what it is, and that member may come last. So a state is read to
its end before any other member of it is decoded, and all that lies in it is decoded from a value
that is known to be whole.

## Main definitions

* `Definition.decoder`: the decoder of a definition that nests at most so many levels of graphs.
* `States.decoder`: the decoder of named states.
* `State.decoder`: the decoder of a state, given one for the graphs in it.
* `Definition.parse`: the definition that a text holds.
-/

namespace WorkflowChart

/-- The field that names the state after a state. -/
def Field.next : Field (Option String) := .optional "Next" .text

/-- The field that says whether a state ends its graph. -/
def Field.ending : Field Bool := .withDefault "End" .boolean false

namespace ChoiceRule

/-- Decodes the members of a rule. -/
def ofMembers (place : Place) :
    Option String → Entries Json → List (Except Flaw String × Draft) →
    Except DecodeError ChoiceRule
  | none, _, [] => .error (.missingField "Next")
  | some next, condition, [] => .ok { next, condition }
  | next?, condition, (key, draft) :: members => do
    let key ← orFlawed key
    if key = "Next" then
      match next? with
      | some _ => throw (.duplicateField "Next")
      | none => ofMembers place (some (← Decoder.text place draft)) condition members
    else ofMembers place next? (condition.putSorted key (← Decoder.json place draft)) members

/-- The decoder of a rule. A rule is an object; its members other than `Next` are its condition. -/
def decoder : Decoder ChoiceRule := fun place draft =>
  match draft with
  | .object members flaw? => do
    let rule ← ofMembers (← place.enter) none [] members
    unlessFlawed flaw?
    return rule
  | .absent | .bare _ _ | .string _ _ | .array _ _ => draft.mismatch (.record "ChoiceRule")

end ChoiceRule

namespace State

/-- The decoder of a Pass state. -/
def passDecoder : Decoder State :=
  .record "PassState"
    (.cons (.optional "Comment" .text) <|
     .cons Field.next <|
     .cons Field.ending <|
     .cons (.optional "Result" .json) <| .nil)
    fun (comment, next, isEnd, result, ()) => .pass { comment, flow := { next, isEnd }, result }

/-- The decoder of a Task state. -/
def taskDecoder : Decoder State :=
  .record "TaskState"
    (.cons (.optional "Comment" .text) <|
     .cons (.optional "Resource" .text) <|
     .cons Field.next <|
     .cons Field.ending <|
     .cons (.optional "TimeoutSeconds" .word64) <| .nil)
    fun (comment, resource, next, isEnd, timeoutSeconds, ()) =>
      .task { comment, resource, flow := { next, isEnd }, timeoutSeconds }

/-- The decoder of a Parallel state. -/
def parallelDecoder (definition : Decoder Definition) : Decoder State :=
  .record "ParallelState"
    (.cons (.optional "Comment" .text) <|
     .cons (.required "Branches" (.listOf definition)) <|
     .cons Field.next <|
     .cons Field.ending <| .nil)
    fun (comment, branches, next, isEnd, ()) => .parallel comment branches { next, isEnd }

/-- The decoder of a Map state. Its graph goes by two names. -/
def mapDecoder (definition : Decoder Definition) : Decoder State :=
  .record "MapState"
    (.cons (.optional "Comment" .text) <|
     .cons ((Field.required "Iterator" definition).alsoNamed "ItemProcessor") <|
     .cons (.optional "ItemsPath" .text) <|
     .cons (.optional "MaxConcurrency" .word32) <|
     .cons Field.next <|
     .cons Field.ending <| .nil)
    fun (comment, iterator, itemsPath, maxConcurrency, next, isEnd, ()) =>
      .map comment iterator itemsPath maxConcurrency { next, isEnd }

/-- The decoder of a Choice state. -/
def choiceDecoder : Decoder State :=
  .record "ChoiceState"
    (.cons (.optional "Comment" .text) <|
     .cons (.required "Choices" (.listOf ChoiceRule.decoder)) <|
     .cons (.optional "Default" .text) <| .nil)
    fun (comment, rules, otherwise, ()) => .choice { comment, rules, otherwise }

/-- The decoder of a Fail state. -/
def failDecoder : Decoder State :=
  .record "FailState"
    (.cons (.optional "Comment" .text) <|
     .cons (.optional "Error" .text) <|
     .cons (.optional "Cause" .text) <| .nil)
    fun (comment, error, cause, ()) => .fail { comment, error, cause }

/-- The decoder of a Succeed state. -/
def succeedDecoder : Decoder State :=
  .record "SucceedState" (.cons (.optional "Comment" .text) .nil)
    fun (comment, ()) => .succeed { comment }

/-- The decoder of a Wait state. -/
def waitDecoder : Decoder State :=
  .record "WaitState"
    (.cons (.optional "Comment" .text) <|
     .cons (.optional "Seconds" .word64) <|
     .cons (.optional "Timestamp" .text) <|
     .cons Field.next <|
     .cons Field.ending <| .nil)
    fun (comment, seconds, timestamp, next, isEnd, ()) =>
      .wait { comment, seconds, timestamp, flow := { next, isEnd } }

/-- The decoder of the fields of a state of a kind. -/
def fieldsDecoder (definition : Decoder Definition) : Category → Decoder State
  | .pass => passDecoder
  | .task => taskDecoder
  | .parallel => parallelDecoder definition
  | .map => mapDecoder definition
  | .choice => choiceDecoder
  | .fail => failDecoder
  | .succeed => succeedDecoder
  | .wait => waitDecoder

/-- The kinds of states by the names that `Type` gives them. -/
def kinds : List (String × Category) :=
  [Category.pass, .task, .parallel, .map, .choice, .fail, .succeed, .wait].map fun kind =>
    (kind.stem, kind)

/-- The decoder of the kind of a state: its name, or in a value that is known to be whole also its
index. -/
def kindDecoder : Decoder Category := fun place draft =>
  match draft with
  | .bare (.ok (.number (.whole n))) _ =>
    if place.whole ∧ 0 ≤ n.val then
      match kinds[n.val.toNat]? with
      | some (_, kind) => .ok kind
      | none => .error (.outOfRange n (.variantIndex kinds.length))
    else draft.mismatch .variant
  | draft => do Decoder.named kinds (← Decoder.variantName place draft)

/-- Whether a key is the one of the kind of a state. -/
def isKindKey : Except Flaw String → Bool
  | .ok key => key = "Type"
  | .error _ => false

/-- Finds the kind among the members of a state, and reads the other ones to their end. -/
def kindOfMembers (place : Place) :
    Option Category → List (Except Flaw String × Draft) → Except DecodeError (Option Category)
  | kind?, [] => .ok kind?
  | kind?, (key, draft) :: members => do
    if (← orFlawed key) = "Type" then
      match kind? with
      | some _ => throw (.duplicateField "Type")
      | none => kindOfMembers place (some (← kindDecoder place draft)) members
    else
      let _ ← Decoder.json place draft
      kindOfMembers place kind? members

/-- The decoder of a state, given one for the graphs in it. As a sequence, a state begins with its
kind. -/
def decoder (definition : Decoder Definition) : Decoder State := fun place draft =>
  match draft with
  | .object members flaw? => do
    let kind? ← kindOfMembers (← place.enter) none members
    unlessFlawed flaw?
    match kind? with
    | none => throw (.missingField "Type")
    | some kind =>
      let fields := members.filter fun member => !isKindKey member.1
      fieldsDecoder definition kind { place with whole := true } (.object fields none)
  | .array items flaw? => do
    let inside ← place.enter
    match items with
    | [] =>
      unlessFlawed flaw?
      throw (.missingField "Type")
    | first :: fields =>
      let kind ← kindDecoder inside first
      let _ ← fields.mapM (Decoder.json inside)
      unlessFlawed flaw?
      fieldsDecoder definition kind { place with whole := true } (.array fields none)
  | draft => draft.mismatch .taggedState

end State

namespace States

/-- Decodes named states and puts them after the ones that came before. -/
def ofMembers (state : Decoder State) (place : Place) :
    Entries State → List (Except Flaw String × Draft) → Except DecodeError (Entries State)
  | states, [] => .ok states
  | states, (key, draft) :: members => do
    let name ← orFlawed key
    let value ← state place draft
    if states.contains name then throw (.duplicateState name)
    ofMembers state place (states ++ [(name, value)]) members

/-- The decoder of named states, given one for states. No two of them have one name. -/
def decoder (state : Decoder State) : Decoder (List (String × State)) := fun place draft =>
  match draft with
  | .object members flaw? => do
    let states ← ofMembers state (← place.enter) [] members
    unlessFlawed flaw?
    return states
  | draft => draft.mismatch .states

end States

namespace Definition

/-- The decoder of a definition, given one for its states. -/
def recordDecoder (states : Decoder (List (String × State))) : Decoder Definition :=
  .record "Definition"
    (.cons (.required "StartAt" .text) <|
     .cons (.required "States" states) <|
     .cons (.optional "Comment" .text) <|
     .cons (.optional "TimeoutSeconds" .word64) <|
     .cons (.optional "Version" .text) <| .nil)
    fun (startAt, states, comment, timeoutSeconds, version, ()) =>
      { startAt, states, comment, timeoutSeconds, version }

/-- The decoder of a definition in which graphs nest at most `levels` deep. -/
def decoderWithin : (levels : Nat) → Decoder Definition
  | 0 => fun _ _ => .error (.flawed .malformed)
  | levels + 1 => recordDecoder (States.decoder (State.decoder (decoderWithin levels)))

/-- The decoder of a definition. A graph opens a container, so as many nest as containers do. -/
def decoder : Decoder Definition :=
  decoderWithin (Draft.maxDepth + 1)

/-- The definition that a text holds. -/
def parse (text : String) : Except DecodeError Definition :=
  decode decoder text

end Definition

/-- The named states that a text holds. -/
def States.parse (text : String) : Except DecodeError (List (String × State)) :=
  decode (States.decoder (State.decoder Definition.decoder)) text

end WorkflowChart
