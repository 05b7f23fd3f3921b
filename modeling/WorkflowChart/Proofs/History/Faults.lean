import WorkflowChart.Log.Builder
import WorkflowChart.Proofs.History.Scan
import WorkflowChart.Proofs.History.Walks
import WorkflowChart.Proofs.Json.Accepted

/-!
# Faults of a log

A log does not answer a question for one of two reasons. An event settles a construct that nothing
has started: then it answers no question at all, since every reading comes to this event or stops
before it for the other reason. Or a payload is no JSON text: then it does not answer for the state
that the payload belongs to.

* **`HasFlaw`**: a text that is no JSON text, and is not decoded.
* **`History.firstOrphan?`**: the first event that settles a construct that nothing has started.
* **`History.BadPayload`**: a payload that a state is to be reported with is no JSON text.
* **`History.Answer`**: what a reading of events can come to.
* **`History.note_of_isOrphan`**, **`History.note_of_not_isOrphan`**: what one event comes to.
* **`History.answer_detailsOf`**: what a question comes to.
* **`History.faults_of_detailsOf`**: faults of the links are the same for all states, and faults of
  payloads are those of one.
-/

namespace WorkflowChart

/-! ## Payloads -/

/-- A text that holds no value at all has a flaw. -/
theorem exists_flaw_of_decode_json {text : String} {reason : DecodeError}
    (h : decode Decoder.json text = .error reason) : ∃ flaw, reason = .flawed flaw := by
  have horFlawed : ∀ {α : Type} {result : Except Flaw α}, orFlawed result = .error reason →
      ∃ flaw, reason = .flawed flaw := by
    intro α result hresult
    cases result with
    | error flaw => exact ⟨flaw, (Except.error.inj hresult).symm⟩
    | ok a => cases hresult
  rw [decode, bind_eq_error_iff] at h
  rcases h with hvalue | ⟨value, -, hafter⟩
  · exact horFlawed hvalue
  · rw [bind_eq_error_iff] at hafter
    rcases hafter with hrest | ⟨rest, -, hmore⟩
    · exact horFlawed hrest
    · -- something stands after the value
      split at hmore
      · cases hmore
      · exact ⟨.malformed, (Except.error.inj hmore).symm⟩

/-- The text is no JSON text, and decoding it tells of the flaw. -/
def HasFlaw (text : String) (flaw : Flaw) : Prop :=
  ¬ IsJson text ∧ decode Decoder.json text = .error (.flawed flaw)

/-- A text that is not decoded is no JSON text, since every JSON text is decoded. -/
theorem hasFlaw_iff {text : String} {flaw : Flaw} :
    HasFlaw text flaw ↔ decode Decoder.json text = .error (.flawed flaw) := by
  refine ⟨And.right, fun hdecode => ⟨fun hjson => ?_, hdecode⟩⟩
  obtain ⟨value, hvalue⟩ := exists_decode_of_isJson hjson
  cases hvalue.symm.trans hdecode

/-- A payload is not decoded just where there is one that is no JSON text. -/
theorem decodePayload_eq_error_iff {event : Event} {payload : Option String}
    {cause : HistoryError} :
    decodePayload event payload = .error cause ↔
      ∃ text flaw, payload = some text ∧ HasFlaw text flaw ∧
        cause = .undecodable event.id (.flawed flaw) := by
  simp only [hasFlaw_iff]
  cases payload with
  | none => simp [decodePayload]
  | some text =>
    cases hdecode : decode Decoder.json text with
    | ok value => simp [decodePayload, hdecode]
    | error reason =>
      obtain ⟨flaw, rfl⟩ := exists_flaw_of_decode_json hdecode
      simp [decodePayload, hdecode, eq_comm]

namespace Details

/-- Entering a state fails only by the input of the entry. -/
theorem enter_eq_error_iff {details : Details} {entered : Entered} {cause : HistoryError} :
    details.enter entered = .error cause ↔ entered.payload = .error cause := by
  rw [enter, bind_eq_error_iff]
  simp [pure, Except.pure]

/-- Settling a state fails only by the input of its entry or by the output of its exit. -/
theorem payload_eq_error_of_settle {details : Details} {status : Status} {start : Entered}
    {stop? : Option Exited} {cause : HistoryError}
    (h : details.settle status start stop? = .error cause) :
    start.payload = .error cause ∨ ∃ stop, stop? = some stop ∧ stop.payload = .error cause := by
  rw [settle, bind_eq_error_iff] at h
  rcases h with hstart | ⟨input, -, hrest⟩
  · exact Or.inl hstart
  · cases stop? with
    | none => contradiction
    | some stop =>
      rw [bind_eq_error_iff] at hrest
      rcases hrest with hstop | ⟨output, -, hother⟩
      · exact Or.inr ⟨stop, rfl, hstop⟩
      · contradiction

end Details

namespace History

variable {history : History} {name : String}

/-! ## What can be wrong with a log -/

/-- The event settles a construct, and no entry of its kind lies on the way back from it. -/
def isOrphan (history : History) (event : Event) : Bool :=
  event.outcome?.isSome && (history.enteredAncestor? event (classify event)).isNone

/-- The first event that is read that settles a construct that nothing has started. -/
def firstOrphan? (history : History) : Option Event :=
  (readEvents history.events).find? history.isOrphan

/-- The event with an id has a payload that is no JSON text, and the state `name` is to be reported
with it: the event is an entry into the state, or the exit on the way forward from an event that
settles the state. -/
inductive BadPayload (history : History) (name : String) (id : EventId) (flaw : Flaw) : Prop where
  | entry (entered : Entered) (text : String) (hmem : entered.event ∈ history.events)
      (hentered : entered.event.entered? = some entered) (hid : entered.event.id = id)
      (hname : entered.details.name = name) (hinput : entered.details.input = some text)
      (hflaw : HasFlaw text flaw)
  | exit (settler : Event) (status : Status) (start : Entered) (stop : Exited) (text : String)
      (hsettler : settler ∈ history.events) (houtcome : settler.outcome? = some status)
      (hstart : history.enteredAncestor? settler (classify settler) = some start)
      (hname : start.details.name = name)
      (hstop : history.exitedDescendant? settler (classify settler) = some stop)
      (hmem : stop.event ∈ history.events) (hexited : stop.event.exited? = some stop)
      (hid : stop.event.id = id) (houtput : stop.details.output = some text)
      (hflaw : HasFlaw text flaw)

/-- An entry whose input is not decoded has a bad payload. -/
theorem badPayload_of_entered {entered : Entered} {cause : HistoryError}
    (hmem : entered.event ∈ history.events) (hentered : entered.event.entered? = some entered)
    (hname : entered.details.name = name) (h : entered.payload = .error cause) :
    ∃ id flaw, cause = .undecodable id (.flawed flaw) ∧ history.BadPayload name id flaw := by
  obtain ⟨text, flaw, hinput, hflaw, rfl⟩ := decodePayload_eq_error_iff.1 h
  exact ⟨_, flaw, rfl, .entry entered text hmem hentered rfl hname hinput hflaw⟩

/-- What a reading for the state `name` can come to, where `orphan?` is the first orphan that it
could meet: some details if there is none, a fault of the links at the orphan, or a payload of the
state that is no JSON text. -/
inductive Answer (history : History) (name : String) (orphan? : Option Event) :
    Except HistoryError Details → Prop where
  | told (details : Details) (hnone : orphan? = none) : Answer history name orphan? (.ok details)
  | orphan (event : Event) (hsome : orphan? = some event) :
      Answer history name orphan? (.error (.unresolvedAncestor event.id event.type))
  | payload (id : EventId) (flaw : Flaw) (hbad : history.BadPayload name id flaw) :
      Answer history name orphan? (.error (.undecodable id (.flawed flaw)))

/-! ## One event after another -/

/-- An event that settles a construct that nothing has started fails every reading. -/
theorem note_of_isOrphan {event : Event} (h : history.isOrphan event = true) (name : String)
    (details : Details) :
    history.note name details event = .error (.unresolvedAncestor event.id event.type) := by
  obtain ⟨hsome, hnone⟩ := Bool.and_eq_true_iff.1 h
  obtain ⟨status, houtcome⟩ := Option.isSome_iff_exists.1 hsome
  rw [Option.isNone_iff_eq_none] at hnone
  rw [note, houtcome]
  simp [noteOutcome, resolve, hnone, bind, Except.bind]

/-- Any other event is noted, or fails by a payload of the state `name`. -/
theorem note_of_not_isOrphan {event : Event} (hmem : event ∈ history.events)
    (h : history.isOrphan event = false) (name : String) (details : Details) :
    (∃ after, history.note name details event = .ok after) ∨
      ∃ id flaw, history.note name details event = .error (.undecodable id (.flawed flaw)) ∧
        history.BadPayload name id flaw := by
  cases hnote : history.note name details event with
  | ok after => exact Or.inl ⟨after, rfl⟩
  | error cause =>
    right
    suffices ∃ id flaw, cause = .undecodable id (.flawed flaw) ∧ history.BadPayload name id flaw by
      simpa
    cases hentered : event.entered? with
    | some entered =>
      obtain rfl := event_of_entered? hentered
      rw [history.note_of_entered? hentered] at hnote
      split at hnote
      · next hname =>
        exact badPayload_of_entered hmem hentered hname (Details.enter_eq_error_iff.1 hnote)
      · contradiction
    | none =>
      cases houtcome : event.outcome? with
      | none =>
        rw [history.note_of_none hentered houtcome] at hnote
        contradiction
      | some status =>
        -- the event is no orphan, so it is resolved
        obtain ⟨start, hstart⟩ : ∃ start,
            history.enteredAncestor? event (classify event) = some start := by
          rw [isOrphan, houtcome] at h
          exact Option.isSome_iff_exists.1 (by simpa using h)
        have hresolve := history.resolve_eq_ok_iff.2 ⟨hstart, rfl⟩
        rw [history.note_of_outcome? houtcome hresolve] at hnote
        split at hnote
        · next hname =>
          rcases Details.payload_eq_error_of_settle hnote with hinput | ⟨stop, hstop, houtput⟩
          · obtain ⟨hentry, hview⟩ :=
              history.mem_of_enteredAncestor? (fun _ _ _ => history.mem_of_before) hmem hstart
            exact badPayload_of_entered hentry hview hname hinput
          · obtain ⟨text, flaw, htext, hflaw, rfl⟩ := decodePayload_eq_error_iff.1 houtput
            obtain ⟨steps, hfound⟩ := history.exitedDescendant?_eq_some_iff.1 hstop
            obtain ⟨hexit, hexited⟩ := history.mem_of_foundAt hmem hfound
            exact ⟨_, flaw, rfl, .exit event status start stop text hmem houtcome hstart hname
              hstop hexit hexited rfl htext hflaw⟩
        · contradiction

/-- What a reading of events comes to. -/
theorem answer_foldlM_note {events : List Event} (hmem : events ⊆ history.events) (name : String)
    (details : Details) :
    history.Answer name (events.find? history.isOrphan)
      (events.foldlM (history.note name) details) := by
  induction events generalizing details with
  | nil => exact .told details rfl
  | cons event events ih =>
    obtain ⟨hevent, hrest⟩ := List.cons_subset.1 hmem
    rw [List.foldlM_cons, List.find?_cons]
    cases horphan : history.isOrphan event with
    | true =>
      rw [note_of_isOrphan horphan]
      exact .orphan event rfl
    | false =>
      rcases note_of_not_isOrphan hevent horphan name details with
        ⟨after, hafter⟩ | ⟨id, flaw, hfault, hbad⟩
      · rw [hafter]
        exact ih hrest after
      · rw [hfault]
        exact .payload id flaw hbad

/-- **What a question comes to.** -/
theorem answer_detailsOf (history : History) (name : String) :
    history.Answer name history.firstOrphan? (history.detailsOf name) := by
  rw [detailsOf_eq_foldlM]
  exact answer_foldlM_note (fun _ => mem_of_mem_readEvents) name .neverRun

/-- A question that is answered shows that there is no orphan. -/
theorem firstOrphan?_eq_none_of_ok {details : Details}
    (h : history.detailsOf name = .ok details) : history.firstOrphan? = none := by
  have hanswer := history.answer_detailsOf name
  rw [h] at hanswer
  cases hanswer with
  | told _ hnone => exact hnone

/-- A fault of the links is one at the first orphan. -/
theorem exists_firstOrphan?_of_unresolved {id : EventId} {type : EventType}
    (h : history.detailsOf name = .error (.unresolvedAncestor id type)) :
    ∃ event, history.firstOrphan? = some event ∧ event.id = id ∧ event.type = type := by
  have hanswer := history.answer_detailsOf name
  rw [h] at hanswer
  cases hanswer with
  | orphan event hsome => exact ⟨event, hsome, rfl, rfl⟩

/-- A payload that is not decoded is a bad one of the state. -/
theorem badPayload_of_undecodable {id : EventId} {reason : DecodeError}
    (h : history.detailsOf name = .error (.undecodable id reason)) :
    ∃ flaw, reason = .flawed flaw ∧ history.BadPayload name id flaw := by
  have hanswer := history.answer_detailsOf name
  rw [h] at hanswer
  cases hanswer with
  | payload _ flaw hbad => exact ⟨flaw, rfl, hbad⟩

/-- Where there is an orphan, every question fails at it or by a payload. -/
theorem detailsOf_of_firstOrphan? {event : Event} (horphan : history.firstOrphan? = some event)
    (name : String) :
    history.detailsOf name = .error (.unresolvedAncestor event.id event.type) ∨
      ∃ id reason, history.detailsOf name = .error (.undecodable id reason) := by
  have hanswer := history.answer_detailsOf name
  rw [horphan] at hanswer
  generalize history.detailsOf name = answer at hanswer ⊢
  cases hanswer with
  | told _ hnone => contradiction
  | orphan other hsome =>
    cases hsome
    exact Or.inl rfl
  | payload id flaw => exact Or.inr ⟨id, _, rfl⟩

/-- **Faults of the links are the same for all states, faults of payloads are those of one.** If the
question for one state fails at an event that settles a construct that nothing has started, the
question for any other one fails at the same event, or by a payload. So if one question is answered,
no other one fails at such an event. If a question fails by a payload, the payload is no JSON text,
and it is that of an entry into the state or of the exit on the way forward from an event that
settles the state. -/
theorem faults_of_detailsOf (history : History) (a b : String) :
    (∀ id type, history.detailsOf a = .error (.unresolvedAncestor id type) →
        (∃ event, history.firstOrphan? = some event ∧ event.id = id ∧ event.type = type) ∧
          (history.detailsOf b = .error (.unresolvedAncestor id type) ∨
            ∃ other reason, history.detailsOf b = .error (.undecodable other reason)))
      ∧ (∀ details, history.detailsOf a = .ok details →
          ∀ id type, history.detailsOf b ≠ .error (.unresolvedAncestor id type))
      ∧ ∀ id reason, history.detailsOf a = .error (.undecodable id reason) →
          ∃ flaw, reason = .flawed flaw ∧ history.BadPayload a id flaw := by
  refine ⟨?_, ?_, fun _ _ => badPayload_of_undecodable⟩
  · intro id type h
    obtain ⟨event, horphan, rfl, rfl⟩ := exists_firstOrphan?_of_unresolved h
    exact ⟨⟨event, horphan, rfl, rfl⟩, detailsOf_of_firstOrphan? horphan b⟩
  · intro details h id type hother
    obtain ⟨event, horphan, -⟩ := exists_firstOrphan?_of_unresolved hother
    rw [firstOrphan?_eq_none_of_ok h] at horphan
    contradiction

/-! ## A log with both faults -/

/-- A run whose first Task state is entered with an input that is no JSON text, and in which a Map
state is left that has not been entered. -/
def leftUnentered : Log :=
  ({} : LogBuilder).executionStarted "null"
    |>.entered .task "First" "(null)"
    |>.lambdaSucceeded "null"
    |>.exited .task "First" "null"
    |>.entered .task "Second" "null"
    |>.exited .map "Each" "null"
    |>.lambdaSucceeded "null"
    |>.build

/-- The question for the first state fails by its input, the one for the second state at the exit
from the Map state. -/
theorem faults_of_detailsOf_leftUnentered :
    (∃ event, (ofLog leftUnentered).firstOrphan? = some event ∧ event.id = .ofNat 6 ∧
        event.type = .stateExited .map) ∧
      (ofLog leftUnentered).detailsOf "First" =
        .error (.undecodable (.ofNat 2) (.flawed .malformed)) ∧
      (ofLog leftUnentered).BadPayload "First" (.ofNat 2) .malformed := by
  have hsecond : (ofLog leftUnentered).detailsOf "Second" =
      .error (.unresolvedAncestor (.ofNat 6) (.stateExited .map)) := by rfl
  have hfirst : (ofLog leftUnentered).detailsOf "First" =
      .error (.undecodable (.ofNat 2) (.flawed .malformed)) := by rfl
  obtain ⟨horphan, -⟩ := (faults_of_detailsOf _ "Second" "First").1 _ _ hsecond
  obtain ⟨flaw, hflaw, hbad⟩ := (faults_of_detailsOf _ "First" "Second").2.2 _ _ hfirst
  cases hflaw
  exact ⟨horphan, hfirst, hbad⟩

end History

end WorkflowChart
