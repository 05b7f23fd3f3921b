import Mathlib.Data.List.Find
import WorkflowChart.Log.Builder
import WorkflowChart.Proofs.History.Scan
import WorkflowChart.Proofs.History.Walks

/-!
# Ids are only compared

The id of an event says nothing but which event is meant. Where all ids of a log are renamed, the
links included, and different ids stay different, every question about a state has the same answer.
Gaps in the numbering, numbers that go down and texts in place of numbers make no difference.

A link may lead to an id that no event has, and several events may have one id. So the renaming is
asked to keep apart all ids that are mentioned, and not only those of the events.

* **`Log.renamed`**: the log with its ids renamed; **`Log.mentioned`** are the ids in it.
* **`firstAlong_map`**: a walk along renamed events finds what is renamed.
* **`History.resolve_renamed`**, **`History.note_renamed`**: so it is with a construct, and with
  what one event says.
* **`History.detailsOf_renamed`**: the details of a state are the same, and an error is the same but
  for the id in it.
-/

namespace WorkflowChart

/-! ## Renaming -/

variable (rename : EventId → EventId)

/-- The event with its ids renamed. -/
def Event.renamed (event : Event) : Event :=
  { event with id := rename event.id, previous := event.previous.map rename }

/-- The entry with the ids of its event renamed. -/
def Entered.renamed (entered : Entered) : Entered :=
  { entered with event := entered.event.renamed rename }

/-- The exit with the ids of its event renamed. -/
def Exited.renamed (exited : Exited) : Exited :=
  { exited with event := exited.event.renamed rename }

/-- The error with its id renamed. -/
def HistoryError.renamed : HistoryError → HistoryError
  | undecodable id cause => undecodable (rename id) cause
  | unresolvedAncestor id type => unresolvedAncestor (rename id) type

namespace Log

/-- The log with all of its ids renamed. -/
def renamed (log : Log) : Log :=
  { log with events := log.events.map (Event.renamed rename) }

/-- The ids in a log: those of the events, and those of the events before them. -/
def mentioned (log : Log) : List EventId :=
  log.events.flatMap fun event => event.id :: event.previous.toList

/-- A log mentions the ids of its events. -/
theorem id_mem_mentioned {log : Log} {event : Event} (h : event ∈ log.events) :
    event.id ∈ log.mentioned :=
  List.mem_flatMap.2 ⟨event, h, List.mem_cons_self⟩

/-- A log mentions the ids that its events follow. -/
theorem previous_mem_mentioned {log : Log} {event : Event} {id : EventId} (h : event ∈ log.events)
    (hid : event.previous = some id) : id ∈ log.mentioned :=
  List.mem_flatMap.2 ⟨event, h, List.mem_cons_of_mem _ (by simp [hid])⟩

end Log

/-! ## What events are -/

section Views

variable {rename}

/-- A renamed event is an entry if the event is, into the same state. -/
theorem Event.entered?_renamed (event : Event) :
    (event.renamed rename).entered? = event.entered?.map (Entered.renamed rename) := by
  obtain ⟨id, previous, timestamp, type, started, entered, exited⟩ := event
  cases type <;> cases entered <;> rfl

/-- A renamed event is an exit if the event is, from the same state. -/
theorem Event.exited?_renamed (event : Event) :
    (event.renamed rename).exited? = event.exited?.map (Exited.renamed rename) := by
  obtain ⟨id, previous, timestamp, type, started, entered, exited⟩ := event
  cases type <;> cases exited <;> rfl

/-- A renamed event is an entry of the kind that is looked for exactly if the event is. -/
theorem History.enteredOf_renamed (filter : Option Category) (event : Event) :
    enteredOf filter (event.renamed rename) =
      (enteredOf filter event).map (Entered.renamed rename) := by
  rw [enteredOf, Event.entered?_renamed, Option.filter_map]
  rfl

/-- A renamed event is an exit of the kind that is looked for exactly if the event is. -/
theorem History.exitedOf_renamed (filter : Option Category) (event : Event) :
    exitedOf filter (event.renamed rename) =
      (exitedOf filter event).map (Exited.renamed rename) := by
  rw [exitedOf, Event.exited?_renamed, Option.filter_map]
  rfl

/-- What is read is told by the types of the events, so renaming does not change it. -/
theorem readEvents_renamed (events : List Event) :
    readEvents (events.map (Event.renamed rename)) =
      (readEvents events).map (Event.renamed rename) := by
  induction events with
  | nil => rfl
  | cons event events ih =>
    have htype : (event.renamed rename).type = event.type := rfl
    rw [List.map_cons, readEvents, readEvents, htype, ih]
    split <;> rfl

/-! ## What payloads say -/

/-- A payload is decoded to the same value, or fails under the new id. -/
theorem decodePayload_renamed (event : Event) (text : Option String) :
    decodePayload (event.renamed rename) text =
      (decodePayload event text).mapError (HistoryError.renamed rename) := by
  cases text with
  | none => rfl
  | some text =>
    rw [decodePayload, decodePayload]
    cases decode Decoder.json text <;> rfl

/-- A renamed entry says the same of its state, or fails under the new id. -/
theorem Details.enter_renamed (details : Details) (entered : Entered) :
    details.enter (entered.renamed rename) =
      (details.enter entered).mapError (HistoryError.renamed rename) := by
  have hinput : (entered.renamed rename).payload =
      entered.payload.mapError (HistoryError.renamed rename) := decodePayload_renamed _ _
  rw [enter, enter, mapError_bind, hinput]
  rfl

/-- A construct from a renamed entry to a renamed exit says the same, or fails under the new id. -/
theorem Details.settle_renamed (details : Details) (status : Status) (start : Entered)
    (stop? : Option Exited) :
    details.settle status (start.renamed rename) (stop?.map (Exited.renamed rename)) =
      (details.settle status start stop?).mapError (HistoryError.renamed rename) := by
  have hinput : (start.renamed rename).payload =
      start.payload.mapError (HistoryError.renamed rename) := decodePayload_renamed _ _
  rw [settle, settle, mapError_bind, hinput]
  congr 1
  funext input
  cases stop? with
  | none => rfl
  | some stop =>
    have houtput : (stop.renamed rename).payload =
        stop.payload.mapError (HistoryError.renamed rename) := decodePayload_renamed _ _
    simp only [Option.map_some, houtput, mapError_bind]
    rfl

end Views

/-! ## Walks -/

/-- **A walk along renamed events** finds what is renamed. The links from some events are renamed
links to these events, and the start is one of them. -/
theorem firstAlong_map {α β : Type} {next next' : Event → Option Event} {pick : Event → Option α}
    {pick' : Event → Option β} {f : Event → Event} {g : α → β} {events : List Event}
    (hmem : ∀ a b, next a = some b → b ∈ events)
    (hnext : ∀ a ∈ events, next' (f a) = (next a).map f)
    (hpick : ∀ a, pick' (f a) = (pick a).map g) (visits : Nat) {start : Option Event}
    (hstart : ∀ event, start = some event → event ∈ events) :
    firstAlong next' pick' visits (start.map f) = (firstAlong next pick visits start).map g := by
  induction visits generalizing start with
  | zero => rfl
  | succ visits ih =>
    cases start with
    | none => rfl
    | some event =>
      rw [Option.map_some, firstAlong, firstAlong, hpick event, hnext event (hstart event rfl),
        ih (hmem event)]
      cases pick event <;> rfl

namespace History

variable {rename} {log : Log}

/-- The ids that a log mentions stay different. -/
def KeepsApart (rename : EventId → EventId) (log : Log) : Prop :=
  ∀ a ∈ log.mentioned, ∀ b ∈ log.mentioned, rename a = rename b → a = b

/-- A renaming that keeps all ids apart keeps those of a log apart. -/
theorem keepsApart_of_injective (h : Function.Injective rename) (log : Log) :
    KeepsApart rename log :=
  fun _ _ _ _ hab => h hab

/-- What is asked of renamed events finds the renamed event of which it is true. -/
theorem find?_renamed {p q : Event → Bool}
    (h : ∀ event ∈ log.events, q (event.renamed rename) = p event) :
    (log.renamed rename).events.find? q = (log.events.find? p).map (Event.renamed rename) := by
  have hcomp : ∀ event ∈ log.events, (q ∘ Event.renamed rename) event = p event := h
  rw [Log.renamed, List.find?_map, List.find?_congr hcomp]

/-- A step back leads to the renamed event, and nowhere if the link leads nowhere. -/
theorem before_renamed (hapart : KeepsApart rename log) {event : Event}
    (hevent : event ∈ log.events) :
    (ofLog (log.renamed rename)).before (event.renamed rename) =
      ((ofLog log).before event).map (Event.renamed rename) := by
  cases hid : event.previous with
  | none => simp [before, Event.renamed, hid]
  | some id =>
    have hprevious := Log.previous_mem_mentioned hevent hid
    have hid' : (event.renamed rename).previous = some (rename id) := by simp [Event.renamed, hid]
    rw [before, before, hid, hid', Option.bind_some, Option.bind_some, findById_eq_find?,
      findById_eq_find?]
    refine find?_renamed fun other hother => ?_
    have hiff : rename other.id = rename id ↔ other.id = id :=
      ⟨hapart _ (Log.id_mem_mentioned hother) _ hprevious, congrArg rename⟩
    exact decide_eq_decide.2 hiff

/-- A step forward leads to the renamed event. -/
theorem following_renamed (hapart : KeepsApart rename log) {event : Event}
    (hevent : event ∈ log.events) :
    (ofLog (log.renamed rename)).following (event.renamed rename) =
      ((ofLog log).following event).map (Event.renamed rename) := by
  have hid := Log.id_mem_mentioned hevent
  rw [following, following, findByPrevious_eq_find?, findByPrevious_eq_find?]
  refine find?_renamed fun other hother => decide_eq_decide.2 ?_
  cases hlink : other.previous with
  | none => simp [Event.renamed, hlink]
  | some id =>
    have hiff : rename id = rename event.id ↔ id = event.id :=
      ⟨hapart _ (Log.previous_mem_mentioned hother hlink) _ hid, congrArg rename⟩
    simpa [Event.renamed, hlink] using hiff

/-- The walk back finds the renamed entry. -/
theorem enteredAncestor?_renamed (hapart : KeepsApart rename log) {event : Event}
    (hevent : event ∈ log.events) (filter : Option Category) :
    (ofLog (log.renamed rename)).enteredAncestor? (event.renamed rename) filter =
      ((ofLog log).enteredAncestor? event filter).map (Entered.renamed rename) := by
  have hvisits : (ofLog (log.renamed rename)).maxVisits = (ofLog log).maxVisits :=
    congrArg (· + 1) (List.length_map _)
  rw [enteredAncestor?, hvisits]
  have hstart : ∀ other, some event = some other → other ∈ log.events := by
    rintro _ ⟨⟩
    exact hevent
  exact firstAlong_map (fun _ _ => (ofLog log).mem_of_before) (fun _ => before_renamed hapart)
    (enteredOf_renamed filter) _ hstart

/-- The walk forward finds the renamed exit. -/
theorem exitedDescendant?_renamed (hapart : KeepsApart rename log) {event : Event}
    (hevent : event ∈ log.events) (filter : Option Category) :
    (ofLog (log.renamed rename)).exitedDescendant? (event.renamed rename) filter =
      ((ofLog log).exitedDescendant? event filter).map (Exited.renamed rename) := by
  have hvisits : (ofLog (log.renamed rename)).maxVisits = (ofLog log).maxVisits :=
    congrArg (· + 1) (List.length_map _)
  rw [exitedDescendant?, hvisits]
  have hstart : ∀ other, some event = some other → other ∈ log.events := by
    rintro _ ⟨⟩
    exact hevent
  exact firstAlong_map (fun _ _ => (ofLog log).mem_of_following) (fun _ => following_renamed hapart)
    (exitedOf_renamed filter) _ hstart

/-! ## What the log says -/

/-- The construct that an event settles has the renamed entry and exit. -/
theorem resolve_renamed (hapart : KeepsApart rename log) {event : Event}
    (hevent : event ∈ log.events) :
    (ofLog (log.renamed rename)).resolve (event.renamed rename) =
      (((ofLog log).resolve event).map fun construct =>
        (construct.1.renamed rename, construct.2.map (Exited.renamed rename))).mapError
          (HistoryError.renamed rename) := by
  have hkind : classify (event.renamed rename) = classify event := rfl
  rw [resolve, resolve, hkind, enteredAncestor?_renamed hapart hevent,
    exitedDescendant?_renamed hapart hevent]
  cases (ofLog log).enteredAncestor? event (classify event) <;> rfl

/-- What an entry says about a state does not depend on its id. -/
theorem noteEntry_renamed (name : String) (details : Details) (event : Event) :
    noteEntry name details (event.renamed rename) =
      (noteEntry name details event).mapError (HistoryError.renamed rename) := by
  rw [noteEntry, noteEntry, Event.entered?_renamed]
  cases event.entered? with
  | none => rfl
  | some entered =>
    have hname : (entered.renamed rename).details.name = entered.details.name := rfl
    simp only [Option.map_some, hname, Details.enter_renamed]
    split <;> rfl

/-- **What one event says** is the same, but for the id in an error. -/
theorem note_renamed (hapart : KeepsApart rename log) {event : Event}
    (hevent : event ∈ log.events) (name : String) (details : Details) :
    (ofLog (log.renamed rename)).note name details (event.renamed rename) =
      ((ofLog log).note name details event).mapError (HistoryError.renamed rename) := by
  have houtcome : (event.renamed rename).outcome? = event.outcome? := rfl
  rw [note, note, houtcome]
  cases event.outcome? with
  | none => exact noteEntry_renamed name details event
  | some status =>
    simp only [noteOutcome, resolve_renamed hapart hevent]
    cases (ofLog log).resolve event with
    | error cause => rfl
    | ok construct =>
      obtain ⟨start, stop?⟩ := construct
      have hname : (start.renamed rename).details.name = start.details.name := rfl
      simp only [Except.map, Except.mapError, bind, Except.bind, hname, Details.settle_renamed]
      split <;> rfl

/-- The renamed events of the log say the same of a state, or fail under the new id. -/
theorem foldlM_note_renamed (hapart : KeepsApart rename log) {events : List Event}
    (hevents : events ⊆ log.events) (name : String) (details : Details) :
    (events.map (Event.renamed rename)).foldlM ((ofLog (log.renamed rename)).note name) details =
      (events.foldlM ((ofLog log).note name) details).mapError (HistoryError.renamed rename) := by
  induction events generalizing details with
  | nil => rfl
  | cons event events ih =>
    obtain ⟨hevent, hrest⟩ := List.cons_subset.1 hevents
    rw [List.map_cons, List.foldlM_cons, List.foldlM_cons, note_renamed hapart hevent,
      mapError_bind]
    exact congrArg _ (funext fun details => ih hrest details)

/-- **Ids are only compared.** Let the ids of a log be renamed, those of the events and those of the
events before them, so that different ids in the log stay different. Whatever the log is, the
details of every state are what they were, and an error is the one that it was with its id
renamed. -/
theorem detailsOf_renamed (log : Log) (hapart : KeepsApart rename log) (name : String) :
    (ofLog (log.renamed rename)).detailsOf name =
      ((ofLog log).detailsOf name).mapError (HistoryError.renamed rename) := by
  have hread : readEvents log.events ⊆ log.events := fun _ => mem_of_mem_readEvents
  rw [detailsOf_eq_foldlM, detailsOf_eq_foldlM]
  exact (congrArg (List.foldlM _ _) (readEvents_renamed log.events)).trans
    (foldlM_note_renamed hapart hread name .neverRun)

/-- A run of two states. The input of the second is no JSON text, and its function follows an event
that is missing. -/
def brokenInput : Log :=
  ({} : LogBuilder).executionStarted "null"
    |>.entered .task "Fetch" "true"
    |>.lambdaSucceeded "false"
    |>.exited .task "Fetch" "false"
    |>.entered .task "Store" "\x7b"
    |>.after (.ofNat 9)
    |>.lambdaStarted
    |>.build

/-- Names in place of the numbers. -/
def spelledOut (id : EventId) : EventId :=
  ⟨"event-" ++ id.text⟩

/-- With names in place of numbers, the details of the first state are the same, and the error about
the second one has the new name of its event. -/
theorem detailsOf_renamed_spelledOut :
    KeepsApart spelledOut brokenInput ∧
      (ofLog (brokenInput.renamed spelledOut)).detailsOf "Fetch" = .ok
        { status := .success, input := some (.bool true), output := some (.bool false),
          enteredAt := some ⟨0, 1, 0⟩, exitedAt := some ⟨0, 3, 0⟩ } ∧
      (ofLog (brokenInput.renamed spelledOut)).detailsOf "Store" =
        .error (.undecodable ⟨"event-5"⟩ (.flawed .cutShort)) := by
  have hinjective : Function.Injective spelledOut := by
    intro a b h
    exact EventId.ext (by simpa [spelledOut] using h)
  have hapart := keepsApart_of_injective hinjective brokenInput
  refine ⟨hapart, ?_, ?_⟩
  · rw [detailsOf_renamed brokenInput hapart "Fetch"]
    rfl
  · rw [detailsOf_renamed brokenInput hapart "Store"]
    rfl

end History

end WorkflowChart
