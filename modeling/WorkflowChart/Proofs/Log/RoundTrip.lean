import WorkflowChart.Log.Encode
import WorkflowChart.Proofs.Json.Written
import WorkflowChart.Proofs.Log.Origins

/-!
# Logs that are written and read again

Reading undoes writing. No floating point numbers occur in the document of a log and only few
containers nest in it, so its text is read whatever the log says. Timestamps are read as they were
written, and so are the tags of event types.

* **`Event.reads_json`**: the document of a regular event is decoded to the event.
* **`Log.floatFree_json`**: there are no floating point numbers in the document of a log.
* **`Log.parse_logText`**: the text of a log that has been read or put together is read as this log.
-/

namespace WorkflowChart

/-! ## Details -/

/-- What is said about a payload is read as it was written. -/
theorem PayloadDetails.reads_json (details : PayloadDetails) :
    decoder.Reads 1 details.json details :=
  .record rfl (.given (Decoder.reads_boolean _) .nil) rfl

/-- What is said about a payload, if anything is, is read as it was written. -/
theorem reads_optional_payload (details? : Option PayloadDetails) :
    PayloadDetails.decoder.optional.Reads 1 (.ofOption PayloadDetails.json details?) details? :=
  Decoder.reads_optional fun details _ => ⟨details.reads_json, nofun⟩

/-- The details of an entry are read as they were written. -/
theorem EnteredDetails.reads_json (details : EnteredDetails) :
    decoder.Reads 2 details.json details :=
  .record rfl
    (.given (Decoder.reads_text _) <| .given (Decoder.reads_optional_text _) <|
      .given (reads_optional_payload _) .nil) rfl

/-- The details of an exit are read as they were written. -/
theorem ExitedDetails.reads_json (details : ExitedDetails) :
    decoder.Reads 2 details.json details :=
  .record rfl
    (.given (Decoder.reads_text _) <| .given (Decoder.reads_optional_text _) <|
      .given (reads_optional_payload _) .nil) rfl

/-- The details of a start are read as they were written. -/
theorem StartedDetails.reads_json (details : StartedDetails) :
    decoder.Reads 2 details.json details :=
  .record rfl
    (.given (Decoder.reads_optional_text _) <| .given (reads_optional_payload _) <|
      .given (Decoder.reads_optional_text _) .nil) rfl

/-- The details of a scheduled function are read as they were written. -/
theorem ScheduledDetails.reads_json (details : ScheduledDetails) :
    decoder.Reads 2 details.json details :=
  .record rfl
    (.given (Decoder.reads_optional_text _) <| .given (Decoder.reads_optional_text _) <|
      .given (reads_optional_payload _) <| .given (Decoder.reads_optional_word64 _) .nil) rfl

/-- The details of a success are read as they were written. -/
theorem SucceededDetails.reads_json (details : SucceededDetails) :
    decoder.Reads 2 details.json details :=
  .record rfl
    (.given (Decoder.reads_optional_text _) <| .given (reads_optional_payload _) .nil) rfl

/-- The details of a failure are read as they were written. -/
theorem FailureDetails.reads_json (details : FailureDetails) :
    decoder.Reads 2 details.json details :=
  .record rfl
    (.given (Decoder.reads_optional_text _) <| .given (Decoder.reads_optional_text _) .nil) rfl

/-! ## Events -/

/-- An id is read as it was written, which is as a text. -/
theorem EventId.reads_json {room : Nat} (id : EventId) : decoder.Reads room id.json id :=
  fun _ _ => rfl

/-- An instant is decoded from its text, if it is proper. -/
theorem Instant.reads_json {room : Nat} {t : Instant} (h : t.Proper) (hyears : t.InYears) :
    decoder.Reads room t.json t := by
  intro place _
  show ofText t.text = .ok t
  rw [ofText, parse?_text h hyears]

/-- A type is decoded from its tag, if it is folded. -/
theorem EventType.reads_json {room : Nat} {type : EventType} (h : type.IsFolded) :
    (Decoder.text.map ofTag).Reads room type.json type := by
  have hread : (Decoder.text.map ofTag).Reads room type.json (ofTag type.tag) :=
    (Decoder.reads_text type.tag).map ofTag
  rwa [h] at hread

/-- A member that is left out when there is no value is the one of a field that may be missing. -/
theorem Fields.Written.memberIfSome {α : Type} {types : List Type} {rest : Fields types}
    {row : Row types} {members : List (String × Json)} {name : String} {decoder : Decoder α}
    {write : α → Json} {value? : Option α} {room : Nat}
    (hvalue : ∀ value ∈ value?, decoder.Reads room (write value) value ∧ write value ≠ .null)
    (hrest : Written room rest row members) :
    Written room (.cons (.lenient name decoder) rest) (value?, row)
      (Json.memberIfSome name write value? ++ members) := by
  have hread := Decoder.reads_optional hvalue
  cases value? with
  | none => exact .leftOut rfl hrest
  | some value => exact .given hread hrest

namespace Event

/-- The details of an event are those that there are, one kind after the other. -/
theorem detailMembers_eq (event : Event) :
    event.detailMembers =
      Json.memberIfSome "executionStartedEventDetails" StartedDetails.json event.started ++
      (Json.memberIfSome "stateEnteredEventDetails" EnteredDetails.json event.enteredDetails ++
      (Json.memberIfSome "stateExitedEventDetails" ExitedDetails.json event.exitedDetails ++
      (Json.memberIfSome "lambdaFunctionScheduledEventDetails" ScheduledDetails.json
        event.scheduled ++
      (Json.memberIfSome "lambdaFunctionSucceededEventDetails" SucceededDetails.json
        event.succeeded ++
      (Json.memberIfSome "lambdaFunctionFailedEventDetails" FailureDetails.json event.failed ++
      (Json.memberIfSome "executionFailedEventDetails" FailureDetails.json event.executionFailed ++
        [])))))) := by
  simp [detailMembers]

/-- **An event is decoded from its document**, if it is regular. -/
theorem reads_json {event : Event} (h : event.Regular) (hyears : event.timestamp.InYears) :
    decoder.Reads 3 event.json event := by
  rw [json, detailMembers_eq]
  exact .record rfl
    (.given (EventId.reads_json _) <|
      .given (Decoder.reads_optional fun id _ => ⟨id.reads_json, nofun⟩) <|
      .given (Instant.reads_json h.timestamp hyears) <| .given (EventType.reads_json h.type) <|
      .memberIfSome (fun details _ => ⟨details.reads_json, nofun⟩) <|
      .memberIfSome (fun details _ => ⟨details.reads_json, nofun⟩) <|
      .memberIfSome (fun details _ => ⟨details.reads_json, nofun⟩) <|
      .memberIfSome (fun details _ => ⟨details.reads_json, nofun⟩) <|
      .memberIfSome (fun details _ => ⟨details.reads_json, nofun⟩) <|
      .memberIfSome (fun details _ => ⟨details.reads_json, nofun⟩) <|
      .memberIfSome (fun details _ => ⟨details.reads_json, nofun⟩) .nil) rfl

end Event

/-! ## Floating point numbers -/

/-- What is said about a payload is written without floats. -/
@[simp] theorem PayloadDetails.floatFree_json (details : PayloadDetails) : details.json.FloatFree :=
  .object (by simp)

/-- What is said about a payload, if anything is, is written without floats. -/
@[simp] theorem floatFree_ofOption_payload (details? : Option PayloadDetails) :
    (Json.ofOption PayloadDetails.json details?).FloatFree :=
  Json.floatFree_ofOption fun details _ => details.floatFree_json

/-- An id that may be missing is written without floats. -/
@[simp] theorem floatFree_ofOption_id (id? : Option EventId) :
    (Json.ofOption EventId.json id?).FloatFree :=
  Json.floatFree_ofOption fun id _ => .string id.text

/-- A member that may be left out has no floating point number in it if the value has none. -/
theorem floatFree_memberIfSome {α : Type} {name : String} {write : α → Json} {value? : Option α}
    (h : ∀ value, (write value).FloatFree) :
    ∀ member ∈ Json.memberIfSome name write value?, member.2.FloatFree := by
  cases value? with
  | none => exact List.forall_mem_nil _
  | some value => exact List.forall_mem_singleton.2 (h value)

/-- There is no floating point number in the document of an event. -/
theorem Event.floatFree_json (event : Event) : event.json.FloatFree := by
  have hdetails : ∀ member ∈ event.detailMembers, member.2.FloatFree := by
    simp only [detailMembers, List.forall_mem_append]
    refine ⟨⟨⟨⟨⟨⟨?_, ?_⟩, ?_⟩, ?_⟩, ?_⟩, ?_⟩, ?_⟩ <;>
      exact floatFree_memberIfSome fun details => .object (by simp)
  simp only [json]
  refine .object (List.forall_mem_cons.2 ⟨.string _, List.forall_mem_cons.2 ⟨by simp, ?_⟩⟩)
  exact List.forall_mem_cons.2 ⟨.string _, List.forall_mem_cons.2 ⟨.string _, hdetails⟩⟩

/-- There is none in the document of a log. -/
theorem Log.floatFree_json (log : Log) : log.json.FloatFree := by
  have hevents : (Json.array (log.events.map Event.json)).FloatFree :=
    .array (List.forall_mem_map.2 fun event _ => event.floatFree_json)
  exact .object (List.forall_mem_cons.2 ⟨hevents, floatFree_memberIfSome Json.FloatFree.string⟩)

/-! ## Logs -/

namespace Log

/-- **Logs survive being written.** The text of a log that has been read or put together is read as
the same log. -/
theorem parse_logText {log : Log} (h : log.Obtained) : parse log.text = .ok log := by
  have hevents : (Decoder.listOf Event.decoder).Reads 4 (.array (log.events.map Event.json))
      log.events :=
    Decoder.reads_listOf fun event hevent =>
      Event.reads_json (h.regular event hevent).1 (h.regular event hevent).2
  have hread : decoder.Reads 5 log.json log := by
    rw [json, ← List.append_nil (Json.memberIfSome _ _ _)]
    exact .record rfl
      (.given hevents <|
        .memberIfSome (fun token _ => ⟨Decoder.reads_text token, by simp⟩) .nil) rfl
  rw [parse, text, decode_text decoder log.floatFree_json]
  exact hread {} (by decide)

/-- A log that begins in a leap second, with a type that is of no use here and a payload that has
quotes in it. -/
def overLeapSecond : LogBuilder :=
  ((((({} : LogBuilder).startingAt ⟨17166, 86399, 1500000000⟩).withTickNanos
    700000001).executionStarted "null").entered .pass "Left" "\"x\"").push
      (.ofTag "MapIterationStarted")

/-- A log whose clock runs over a leap second is read as it was written. -/
theorem parse_logText_overLeapSecond :
    overLeapSecond.build.Obtained ∧
      parse overLeapSecond.build.text = .ok overLeapSecond.build := by
  have hclock : Instant.Proper ⟨17166, 86399, 1500000000⟩ := ⟨by decide, by decide, by decide⟩
  have hbuilder : overLeapSecond.Obtained :=
    ((((LogBuilder.Obtained.new.startingAt hclock).withTick 700000001).executionStarted
      "null").entered .pass "Left" "\"x\"").push "MapIterationStarted"
  have hyears : ∀ event ∈ overLeapSecond.events, event.timestamp.InYears := by
    have hall : ∀ event ∈ overLeapSecond.events,
        Timestamp.isYear (Date.ofDayNumber event.timestamp.day).year = true := by decide
    exact hall
  have h : overLeapSecond.build.Obtained := .built hbuilder hyears
  exact ⟨h, parse_logText h⟩

end Log

end WorkflowChart
