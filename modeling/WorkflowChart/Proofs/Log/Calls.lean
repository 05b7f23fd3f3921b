import Mathlib.Algebra.BigOperators.Group.List.Basic
import Mathlib.Algebra.Ring.Int.Defs
import Mathlib.Data.List.DropRight
import WorkflowChart.Proofs.Instant.Timestamps
import WorkflowChart.Proofs.Log.Numbering

/-!
# The log that calls describe

A log is put together by calls of four kinds: they set the clock, set the tick, tell the next event
what to follow, or push an event. Here the calls are read as they stand, without a builder: which
one has come last, which ones have come since. The log is the one that they describe.

* **`Instant.foldl_addNanos`**: ticks one after another are the sum of them, outside leap seconds.
* **`Push`**, **`LogCall`**: the calls; **`LogBuilder.ofCalls`** makes them one after another.
* **`LogCall.clockAt`**, **`LogCall.followed`**: what the calls before a push say about the
  timestamp and the link of its event.
* **`LogBuilder.Reflects.apply`**: a call changes the builder as it changes what the calls say.
* **`Describes`**: an event is the one that a push describes after the calls before it.
* **`LogBuilder.describes_ofCalls`**: so it is with every event of every log.
-/

namespace WorkflowChart

/-! ## Clocks -/

namespace Instant

/-- The nanoseconds since the epoch on a clock without leap seconds. -/
def sinceEpoch (t : Instant) : Int :=
  (t.day * secondsPerDay + t.second) * nanosPerSecond + t.nano

/-- Days, seconds and nanoseconds are brought into their bounds as nanoseconds since the epoch. -/
theorem normalize_eq (day second nano : Int) :
    normalize day second nano =
      normalize 0 0 ((day * secondsPerDay + second) * nanosPerSecond + nano) := by
  simp only [normalize, nanosPerSecond, secondsPerDay, Instant.mk.injEq]
  omega

/-- Splitting a number of nanoseconds into day, second and nanosecond keeps their number. -/
theorem sinceEpoch_normalize (nanos : Int) : (normalize 0 0 nanos).sinceEpoch = nanos := by
  simp only [sinceEpoch, normalize, nanosPerSecond, secondsPerDay]
  omega

/-- An instant is in no leap second if its nanoseconds fill no whole second. -/
theorem isLeap_eq_false_iff {t : Instant} : t.isLeap = false ↔ t.nano < nanosPerSecond := by
  rw [← Bool.not_eq_true, isLeap_iff, Int.not_le]

/-- An instant that has been brought to its day and second is in no leap second. -/
theorem isLeap_normalize (day second nano : Int) : (normalize day second nano).isLeap = false :=
  isLeap_eq_false_iff.2 (Int.emod_lt_of_pos nano (by decide))

/-- A proper clock outside a leap second is the one of its nanoseconds since the epoch. -/
theorem Proper.normalize_sinceEpoch {t : Instant} (h : t.Proper) (hleap : t.isLeap = false) :
    normalize 0 0 t.sinceEpoch = t := by
  obtain ⟨day, second, nano⟩ := t
  have hsecond := h.second
  have hnano := h.nano
  rw [isLeap_eq_false_iff] at hleap
  simp only [nanosPerSecond, secondsPerDay] at hleap hsecond hnano
  simp only [sinceEpoch, normalize, nanosPerSecond, secondsPerDay, Instant.mk.injEq]
  omega

/-- Outside a leap second, time goes on by the nanoseconds that are added. -/
theorem addNanos_eq {t : Instant} (hleap : t.isLeap = false) (nanos : Int) :
    t.addNanos nanos = normalize 0 0 (t.sinceEpoch + nanos) := by
  have hparts := Int.mul_tdiv_add_tmod nanos nanosPerSecond
  rw [addNanos, hleap, if_neg Bool.false_ne_true, normalize_eq, sinceEpoch]
  simp only [nanosPerSecond] at hparts ⊢
  congr 1
  omega

/-- **Ticks one after another are their sum**, unless the clock was set to a leap second. -/
theorem foldl_addNanos {t : Instant} (h : t.Proper) (hleap : t.isLeap = false)
    (ticks : List Int) : ticks.foldl addNanos t = t.addNanos ticks.sum := by
  rw [addNanos_eq hleap]
  induction ticks generalizing t with
  | nil => rw [List.foldl_nil, List.sum_nil, Int.add_zero, h.normalize_sinceEpoch hleap]
  | cons tick ticks ih =>
    have hstep := addNanos_eq hleap tick
    have hleap' : (t.addNanos tick).isLeap = false := hstep ▸ isLeap_normalize _ _ _
    rw [List.foldl_cons, ih (h.addNanos tick) hleap', hstep, sinceEpoch_normalize, List.sum_cons,
      Int.add_assoc]

end Instant

/-! ## Calls -/

/-- The details that an event can come with. -/
inductive EventDetails where
  | started (details : StartedDetails)
  | entered (details : EnteredDetails)
  | exited (details : ExitedDetails)
  | scheduled (details : ScheduledDetails)
  | succeeded (details : SucceededDetails)
  | failed (details : FailureDetails)
  | executionFailed (details : FailureDetails)

/-- All details that an event comes with. -/
def Event.allDetails (event : Event) : List EventDetails :=
  (event.started.map .started).toList ++ (event.enteredDetails.map .entered).toList
    ++ (event.exitedDetails.map .exited).toList ++ (event.scheduled.map .scheduled).toList
    ++ (event.succeeded.map .succeeded).toList ++ (event.failed.map .failed).toList
    ++ (event.executionFailed.map .executionFailed).toList

/-- A call that pushes an event. -/
inductive Push where
  | bare (type : EventType)
  | executionStarted (input : String)
  | executionSucceeded
  | executionFailed (error cause : String)
  | entered (category : Category) (name input : String)
  | exited (category : Category) (name output : String)
  | lambdaScheduled (resource : String)
  | lambdaStarted
  | lambdaSucceeded (output : String)
  | lambdaFailed (error cause : String)
  | parallelSucceeded

namespace Push

/-- The type of the event. -/
def type : Push → EventType
  | bare type => type
  | executionStarted _ => .executionStarted
  | executionSucceeded => .executionSucceeded
  | executionFailed _ _ => .executionFailed
  | entered category _ _ => .stateEntered category
  | exited category _ _ => .stateExited category
  | lambdaScheduled _ => .lambdaScheduled
  | lambdaStarted => .lambdaStarted
  | lambdaSucceeded _ => .lambdaSucceeded
  | lambdaFailed _ _ => .lambdaFailed
  | parallelSucceeded => .parallelSucceeded

/-- The details of the event, if it is to have any. -/
def details? : Push → Option EventDetails
  | executionStarted input => some (.started { input := some input })
  | executionFailed error cause =>
    some (.executionFailed { error := some error, cause := some cause })
  | entered _ name input => some (.entered { name, input := some input })
  | exited _ name output => some (.exited { name, output := some output })
  | lambdaScheduled resource => some (.scheduled { resource := some resource })
  | lambdaSucceeded output => some (.succeeded { output := some output })
  | lambdaFailed error cause => some (.failed { error := some error, cause := some cause })
  | bare _ | executionSucceeded | lambdaStarted | parallelSucceeded => none

/-- Makes the call. -/
def apply (builder : LogBuilder) : Push → LogBuilder
  | bare type => builder.push type
  | executionStarted input => builder.executionStarted input
  | executionSucceeded => builder.executionSucceeded
  | executionFailed error cause => builder.executionFailed error cause
  | entered category name input => builder.entered category name input
  | exited category name output => builder.exited category name output
  | lambdaScheduled resource => builder.lambdaScheduled resource
  | lambdaStarted => builder.lambdaStarted
  | lambdaSucceeded output => builder.lambdaSucceeded output
  | lambdaFailed error cause => builder.lambdaFailed error cause
  | parallelSucceeded => builder.parallelSucceeded

end Push

/-- A call that puts a log together. -/
inductive LogCall where
  | startingAt (timestamp : Instant)
  /-- Sets the nanoseconds from one event to the next. -/
  | tick (nanos : Int)
  | after (id : EventId)
  | push (pushed : Push)

namespace LogCall

/-- Makes the call. -/
def apply (builder : LogBuilder) : LogCall → LogBuilder
  | startingAt timestamp => builder.startingAt timestamp
  | tick nanos => builder.withTickNanos nanos
  | after id => builder.after id
  | push pushed => pushed.apply builder

/-! ## What calls say -/

/-- The instant that a call sets the clock to. -/
def startingAt? : LogCall → Option Instant
  | startingAt timestamp => some timestamp
  | _ => none

/-- The tick that a call sets. -/
def tick? : LogCall → Option Int
  | tick nanos => some nanos
  | _ => none

/-- The id that a call tells the next event to follow. -/
def after? : LogCall → Option EventId
  | after id => some id
  | _ => none

/-- The event that a call pushes. -/
def push? : LogCall → Option Push
  | push pushed => some pushed
  | _ => none

/-- The events that are pushed, in order. -/
def pushes (calls : List LogCall) : List Push :=
  calls.filterMap push?

/-- The instant that the clock has been set to last, or else the epoch. -/
def clockSet (calls : List LogCall) : Instant :=
  (calls.filterMap startingAt?).getLast?.getD .epoch

/-- The tick that has been set last, or else a second. -/
def tickInForce (calls : List LogCall) : Int :=
  (calls.filterMap tick?).getLast?.getD nanosPerSecond

/-- The ticks in force at the pushes among some calls, which come after the calls `before`. -/
def ticksFrom (before : List LogCall) : List LogCall → List Int
  | [] => []
  | call :: calls =>
    (call.push?.map fun _ => tickInForce before).toList ++ ticksFrom (before ++ [call]) calls

/-- The ticks in force at the pushes since the clock has been set last. -/
def ticksSinceSet (calls : List LogCall) : List Int :=
  ticksFrom (calls.rdropWhile fun call => call.startingAt?.isNone)
    (calls.rtakeWhile fun call => call.startingAt?.isNone)

/-- The instant that the clock has been set to last, and each tick since. -/
def clockAt (calls : List LogCall) : Instant :=
  (ticksSinceSet calls).foldl .addNanos (clockSet calls)

/-- The id that has been given last since the last push. -/
def pendingFork (calls : List LogCall) : Option EventId :=
  ((calls.rtakeWhile fun call => call.push?.isNone).filterMap after?).getLast?

/-- The id of the last push, which is its number. -/
def lastPush (calls : List LogCall) : Option EventId :=
  if pushes calls = [] then none else some (.ofNat (pushes calls).length)

/-- The event that the next one is to follow: the one that has been told since the last push, or
else the one of the last push. -/
def followed (calls : List LogCall) : Option EventId :=
  pendingFork calls <|> lastPush calls

/-! ## What one more call says -/

/-- What counts last in a list is what its last item counts for, if that counts at all. -/
theorem getLast?_filterMap_concat {α β : Type} (f : α → Option β) (items : List α) (item : α) :
    ((items ++ [item]).filterMap f).getLast? = (f item).or (items.filterMap f).getLast? := by
  rw [List.filterMap_append, List.getLast?_append]
  cases h : f item <;> simp [h]

/-- One more call is one more push, if it is one. -/
theorem pushes_concat (calls : List LogCall) (call : LogCall) :
    pushes (calls ++ [call]) = pushes calls ++ call.push?.toList := by
  rw [pushes, pushes, List.filterMap_append]
  cases h : call.push? <;> simp [h]

/-- A push gets the next number, and any other call leaves the last push what it was. -/
theorem lastPush_concat (calls : List LogCall) (call : LogCall) :
    lastPush (calls ++ [call]) =
      (call.push?.map fun _ => .ofNat ((pushes calls).length + 1)).or (lastPush calls) := by
  rw [lastPush, lastPush, pushes_concat]
  cases h : call.push? <;> simp

/-- The clock is set by the last call that sets it. -/
theorem clockSet_concat (calls : List LogCall) (call : LogCall) :
    clockSet (calls ++ [call]) = call.startingAt?.getD (clockSet calls) := by
  rw [clockSet, getLast?_filterMap_concat]
  cases call.startingAt? <;> rfl

/-- The tick in force is that of the last call that changes it. -/
theorem tickInForce_concat (calls : List LogCall) (call : LogCall) :
    tickInForce (calls ++ [call]) = call.tick?.getD (tickInForce calls) := by
  rw [tickInForce, getLast?_filterMap_concat]
  cases call.tick? <;> rfl

/-- A push uses up the fork that has been told. Before it, the last fork told counts. -/
theorem pendingFork_concat (calls : List LogCall) (call : LogCall) :
    pendingFork (calls ++ [call]) =
      if call.push?.isNone then call.after?.or (pendingFork calls) else none := by
  rw [pendingFork, List.rtakeWhile_concat]
  split
  · exact getLast?_filterMap_concat _ _ _
  · rfl

/-- A push is made at the tick in force by then. -/
theorem ticksFrom_concat (before calls : List LogCall) (call : LogCall) :
    ticksFrom before (calls ++ [call]) =
      ticksFrom before calls ++ (call.push?.map fun _ => tickInForce (before ++ calls)).toList := by
  induction calls generalizing before with
  | nil => simp [ticksFrom]
  | cons first calls ih =>
    rw [List.cons_append, ticksFrom, ticksFrom, ih, List.append_assoc, List.append_assoc,
      List.singleton_append]

/-- Setting the clock forgets the ticks before it, and a push adds the tick in force. -/
theorem ticksSinceSet_concat (calls : List LogCall) (call : LogCall) :
    ticksSinceSet (calls ++ [call]) =
      if call.startingAt?.isNone then
        ticksSinceSet calls ++ (call.push?.map fun _ => tickInForce calls).toList
      else [] := by
  rw [ticksSinceSet, List.rtakeWhile_concat, List.rdropWhile_concat]
  split
  · rw [ticksFrom_concat, List.rdropWhile_append_rtakeWhile]
    rfl
  · rfl

/-- The clock goes on by the tick in force at a push, and starts again where it is set. -/
theorem clockAt_concat (calls : List LogCall) (call : LogCall) :
    clockAt (calls ++ [call]) =
      call.startingAt?.getD
        ((call.push?.map fun _ => (clockAt calls).addNanos (tickInForce calls)).getD
          (clockAt calls)) := by
  rw [clockAt, ticksSinceSet_concat, clockSet_concat]
  cases call.startingAt? with
  | some timestamp => rfl
  | none =>
    cases call.push? with
    | none => simp [clockAt]
    | some pushed => simp [clockAt]

end LogCall

/-! ## What calls do -/

namespace Push

/-- The event that a push appends has the next number, follows the one that is due, is stamped by
the clock, and has no details but those of the push. -/
theorem exists_apply_eq_append (push : Push) (builder : LogBuilder) :
    ∃ event, push.apply builder = builder.append event
      ∧ builder.IsNext event ∧ event.timestamp = builder.clock ∧ event.type = push.type
      ∧ event.allDetails = push.details?.toList := by
  cases push <;> exact ⟨_, rfl, ⟨rfl, rfl⟩, rfl, rfl, rfl⟩

end Push

open LogCall

/-- An event is the one that a push describes after the calls before it. -/
structure Describes (before : List LogCall) (push : Push) (event : Event) : Prop where
  id_eq : event.id = .ofNat ((pushes before).length + 1)
  previous_eq : event.previous = followed before
  timestamp_eq : event.timestamp = clockAt before
  type_eq : event.type = push.type
  details_eq : event.allDetails = push.details?.toList

namespace LogBuilder

/-- The builder after calls one after another, from a new one on. -/
def ofCalls (calls : List LogCall) : LogBuilder :=
  calls.foldl LogCall.apply {}

/-- Calls that follow others are made of what these have come to. -/
theorem ofCalls_append (calls more : List LogCall) :
    ofCalls (calls ++ more) = more.foldl LogCall.apply (ofCalls calls) :=
  List.foldl_append

/-- What a builder keeps is what the calls say. -/
structure Reflects (builder : LogBuilder) (calls : List LogCall) : Prop where
  length_eq : builder.events.length = (pushes calls).length
  clock_eq : builder.clock = clockAt calls
  tick_eq : builder.tick = tickInForce calls
  lastId_eq : builder.lastId = lastPush calls
  fork_eq : builder.fork = pendingFork calls

/-- The event that comes next is the one that a push describes. -/
theorem Reflects.describes {builder : LogBuilder} {calls : List LogCall}
    (h : builder.Reflects calls) {push : Push} {event : Event} (hnext : builder.IsNext event)
    (htimestamp : event.timestamp = builder.clock) (htype : event.type = push.type)
    (hdetails : event.allDetails = push.details?.toList) : Describes calls push event where
  id_eq := h.length_eq ▸ hnext.id_eq
  previous_eq := by
    rw [hnext.previous_eq, cursor, h.fork_eq, h.lastId_eq]
    rfl
  timestamp_eq := htimestamp.trans h.clock_eq
  type_eq := htype
  details_eq := hdetails

/-- **A call changes a builder as it changes what the calls say.** -/
theorem Reflects.apply {builder : LogBuilder} {calls : List LogCall} (h : builder.Reflects calls)
    (call : LogCall) : (call.apply builder).Reflects (calls ++ [call]) := by
  have hlength := congrArg List.length (pushes_concat calls call)
  have hclock := clockAt_concat calls call
  have htick := tickInForce_concat calls call
  have hlastId := lastPush_concat calls call
  have hfork := pendingFork_concat calls call
  rw [List.length_append] at hlength
  -- a call changes one of the five parts, and only a push changes several of them
  cases call with
  | startingAt timestamp =>
    exact ⟨h.length_eq.trans hlength.symm, hclock.symm, h.tick_eq.trans htick.symm,
      h.lastId_eq.trans hlastId.symm, h.fork_eq.trans hfork.symm⟩
  | tick nanos =>
    exact ⟨h.length_eq.trans hlength.symm, h.clock_eq.trans hclock.symm, htick.symm,
      h.lastId_eq.trans hlastId.symm, h.fork_eq.trans hfork.symm⟩
  | after id =>
    exact ⟨h.length_eq.trans hlength.symm, h.clock_eq.trans hclock.symm,
      h.tick_eq.trans htick.symm, h.lastId_eq.trans hlastId.symm, hfork.symm⟩
  | push pushed =>
    obtain ⟨event, happly, hnext, -⟩ := pushed.exists_apply_eq_append builder
    rw [LogCall.apply, happly]
    refine ⟨?_, ?_, h.tick_eq.trans htick.symm, ?_, hfork.symm⟩
    · rw [events_append, List.length_append, h.length_eq, hlength]
      rfl
    · rw [hclock]
      exact congrArg₂ Instant.addNanos h.clock_eq h.tick_eq
    · rw [lastId_append, hnext.id_eq, h.length_eq, hlastId]
      rfl

/-- **A builder keeps what its calls say.** -/
theorem reflects_ofCalls (calls : List LogCall) : (ofCalls calls).Reflects calls := by
  induction calls using List.reverseRecOn with
  | nil => exact ⟨rfl, rfl, rfl, rfl, rfl⟩
  | append_singleton calls call ih =>
    rw [ofCalls_append]
    exact ih.apply call

/-! ## What the log is -/

/-- Calls keep the events that are there. -/
theorem events_isPrefix (builder : LogBuilder) (calls : List LogCall) :
    builder.events <+: (calls.foldl LogCall.apply builder).events := by
  induction calls generalizing builder with
  | nil => exact List.prefix_rfl
  | cons call calls ih =>
    refine List.IsPrefix.trans ?_ (ih _)
    cases call with
    | startingAt | tick | after => exact List.prefix_rfl
    | push pushed =>
      obtain ⟨event, happly, -⟩ := pushed.exists_apply_eq_append builder
      rw [LogCall.apply, happly]
      exact List.prefix_append _ _

/-- What the builder has after some of the calls stays. -/
theorem events_ofCalls_isPrefix (calls more : List LogCall) :
    (ofCalls calls).events <+: (ofCalls (calls ++ more)).events := by
  rw [ofCalls_append]
  exact events_isPrefix _ _

/-- **Every push has its event**, at its own place, and that is the event that it describes. -/
theorem exists_describes (before : List LogCall) (pushed : Push) (later : List LogCall) :
    ∃ event, Describes before pushed event
      ∧ (ofCalls (before ++ .push pushed :: later)).events[(pushes before).length]? =
        some event := by
  have hreflects := reflects_ofCalls before
  obtain ⟨event, happly, hnext, htimestamp, htype, hdetails⟩ :=
    pushed.exists_apply_eq_append (ofCalls before)
  refine ⟨event, hreflects.describes hnext htimestamp htype hdetails, ?_⟩
  -- the push puts its event after those before it, and the later calls leave it there
  have hstep : (ofCalls (before ++ [.push pushed])).events =
      (ofCalls before).events ++ [event] := by
    rw [ofCalls_append]
    exact congrArg LogBuilder.events happly
  have hprefix := events_ofCalls_isPrefix (before ++ [.push pushed]) later
  rw [List.append_assoc, List.singleton_append, hstep] at hprefix
  refine getElem?_of_isPrefix hprefix ?_
  rw [← hreflects.length_eq]
  exact List.getElem?_concat_length

end LogBuilder

namespace LogCall

/-- Every place up to the number of pushes is the one of a push. -/
theorem exists_push_of_lt {calls : List LogCall} {i : Nat} (h : i < (pushes calls).length) :
    ∃ before pushed later, calls = before ++ .push pushed :: later
      ∧ (pushes before).length = i := by
  induction calls using List.reverseRecOn with
  | nil => exact absurd h (Nat.not_lt_zero i)
  | append_singleton calls call ih =>
    rw [pushes_concat, List.length_append] at h
    rcases Nat.lt_or_ge i (pushes calls).length with hlt | hge
    · obtain ⟨before, pushed, later, rfl, hlength⟩ := ih hlt
      exact ⟨before, pushed, later ++ [call], by simp, hlength⟩
    · -- the last call is a push, since there is one more than before it
      cases call with
      | push pushed =>
        have hone : i < (pushes calls).length + 1 := h
        exact ⟨calls, pushed, [], rfl, by omega⟩
      | startingAt | tick | after => exact absurd h (Nat.not_lt.2 hge)

/-- An id that is pending has been given by one of the calls. -/
theorem exists_after_of_pendingFork {calls : List LogCall} {id : EventId}
    (h : pendingFork calls = some id) :
    ∃ before later, calls = before ++ .after id :: later := by
  have hmem := List.mem_of_getLast? h
  obtain ⟨call, hcall, hafter⟩ := List.mem_filterMap.1 hmem
  obtain ⟨before, later, hsplit⟩ := List.append_of_mem ((List.rtakeWhile_suffix _ _).subset hcall)
  cases call with
  | after id =>
    cases hafter
    exact ⟨before, later, hsplit⟩
  | startingAt | tick | push => cases hafter

end LogCall

namespace LogBuilder

/-- Every event is the one that a push describes. -/
theorem exists_describes_of_getElem? {calls : List LogCall} {i : Nat} {event : Event}
    (h : (ofCalls calls).events[i]? = some event) :
    ∃ before pushed later, calls = before ++ .push pushed :: later ∧ (pushes before).length = i
      ∧ Describes before pushed event := by
  have hlt : i < (pushes calls).length := by
    rw [← (reflects_ofCalls calls).length_eq]
    exact (List.getElem?_eq_some_iff.1 h).1
  obtain ⟨before, pushed, later, rfl, rfl⟩ := exists_push_of_lt hlt
  obtain ⟨found, hdescribes, hfound⟩ := exists_describes before pushed later
  rw [h] at hfound
  cases hfound
  exact ⟨before, pushed, later, rfl, rfl, hdescribes⟩

/-- The events are numbered from 1 on. -/
theorem id_of_getElem? {calls : List LogCall} {i : Nat} {event : Event}
    (h : (ofCalls calls).events[i]? = some event) : event.id = .ofNat (i + 1) := by
  obtain ⟨before, pushed, later, -, rfl, hdescribes⟩ := exists_describes_of_getElem? h
  exact hdescribes.id_eq

/-- The last id is the one of the last event. -/
theorem lastId_ofCalls (calls : List LogCall) :
    (ofCalls calls).lastId = (ofCalls calls).events.getLast?.map Event.id := by
  have hreflects := reflects_ofCalls calls
  rw [hreflects.lastId_eq, lastPush, List.getLast?_eq_getElem?]
  cases hlast : (ofCalls calls).events[(ofCalls calls).events.length - 1]? with
  | none =>
    have hle := List.getElem?_eq_none_iff.1 hlast
    have hnil : pushes calls = [] := by
      rw [← List.length_eq_zero_iff, ← hreflects.length_eq]
      omega
    rw [if_pos hnil]
    rfl
  | some event =>
    have hlt := (List.getElem?_eq_some_iff.1 hlast).1
    rw [hreflects.length_eq] at hlast hlt
    have hne : pushes calls ≠ [] := List.ne_nil_of_length_pos (by omega)
    rw [if_neg hne, Option.map_some, id_of_getElem? hlast]
    congr 2
    omega

/-- Every `after` names an event that is in the log by then. -/
def FollowsPushed (calls : List LogCall) : Prop :=
  ∀ before id later, calls = before ++ .after id :: later →
    ∃ event ∈ (ofCalls before).events, event.id = id

/-- **Links lead back** where only events that are in the log by then are named. -/
theorem exists_earlier_of_previous {calls : List LogCall} (hfollows : FollowsPushed calls) {i : Nat}
    {event : Event} (h : (ofCalls calls).events[i]? = some event) {id : EventId}
    (hprevious : event.previous = some id) :
    ∃ j < i, ∃ other, (ofCalls calls).events[j]? = some other ∧ other.id = id := by
  obtain ⟨before, pushed, later, rfl, rfl, hdescribes⟩ := exists_describes_of_getElem? h
  have hprefix := events_ofCalls_isPrefix before (.push pushed :: later)
  have hlength := (reflects_ofCalls before).length_eq
  -- it is enough that the event is there before the push
  have hearlier : ∀ other ∈ (ofCalls before).events, other.id = id →
      ∃ j < (pushes before).length, ∃ other,
        (ofCalls (before ++ .push pushed :: later)).events[j]? = some other ∧ other.id = id := by
    intro other hother hid
    obtain ⟨j, hj⟩ := List.mem_iff_getElem?.1 hother
    have hlt := (List.getElem?_eq_some_iff.1 hj).1
    exact ⟨j, hlength ▸ hlt, other, getElem?_of_isPrefix hprefix hj, hid⟩
  rw [hdescribes.previous_eq, followed] at hprevious
  cases hfork : pendingFork before with
  | some fork =>
    rw [hfork] at hprevious
    cases hprevious
    obtain ⟨first, rest, hsplit⟩ := exists_after_of_pendingFork hfork
    obtain ⟨other, hother, hid⟩ :=
      hfollows first id (rest ++ .push pushed :: later) (by rw [hsplit]; simp)
    refine hearlier other ?_ hid
    rw [hsplit]
    exact (events_ofCalls_isPrefix _ _).subset hother
  | none =>
    have hlast : (ofCalls before).lastId = some id := by
      rw [(reflects_ofCalls before).lastId_eq]
      simpa [hfork] using hprevious
    rw [lastId_ofCalls, Option.map_eq_some_iff] at hlast
    obtain ⟨other, hother, hid⟩ := hlast
    exact hearlier other (List.mem_of_getLast? hother) hid

/-- **The log is the one that its calls describe.** Whatever calls put a log together, in whatever
order, the log has one event for each push. The event is at the place of its push among the pushes
and has the number of the place, counted from 1 on, as its id, which finds it. It follows the event
that has been told since the push before it, the last one if several have been told, and else the
event of that push. Its timestamp is the instant that the clock has been set to last, and all ticks
in force at the pushes since, one after another; unless that instant is in a leap second, it is the
instant as many nanoseconds later as all these ticks together. It has the details of its push and no
others. The last id is the one of the last event. And if only events that are in the log by then are
told to be followed, every event follows one that comes before it. -/
theorem describes_ofCalls (calls : List LogCall) :
    let log := (ofCalls calls).build
    log.events.length = (pushes calls).length
      ∧ (∀ before pushed later, calls = before ++ .push pushed :: later →
          ∃ event, log.events[(pushes before).length]? = some event ∧ Describes before pushed event
            ∧ (History.ofLog log).findById (.ofNat ((pushes before).length + 1)) = some event
            ∧ ((clockSet before).Proper → (clockSet before).isLeap = false →
                event.timestamp = (clockSet before).addNanos (ticksSinceSet before).sum))
      ∧ (ofCalls calls).lastId = log.events.getLast?.map Event.id
      ∧ (FollowsPushed calls → ∀ (i : Nat) (event : Event) (id : EventId),
          log.events[i]? = some event → event.previous = some id →
          ∃ j < i, ∃ other : Event, log.events[j]? = some other ∧ other.id = id) := by
  refine ⟨(reflects_ofCalls calls).length_eq, ?_, lastId_ofCalls calls, ?_⟩
  · rintro before pushed later rfl
    obtain ⟨event, hdescribes, hevent⟩ := exists_describes before pushed later
    refine ⟨event, hevent, hdescribes, ?_, ?_⟩
    · rw [← hdescribes.id_eq]
      exact History.findById_of_id_eq (fun _ _ => id_of_getElem?) hevent
    · intro hproper hleap
      rw [hdescribes.timestamp_eq]
      exact Instant.foldl_addNanos hproper hleap _
  · intro hfollows i event id hevent hprevious
    exact exists_earlier_of_previous hfollows hevent hprevious

/-- The third event is told to follow the first one. It comes two ticks after the epoch. -/
theorem describes_ofCalls_forked :
    let calls : List LogCall :=
      [.push (.executionStarted "null"), .push (.entered .parallel "Fan" "null"),
        .after (.ofNat 1), .push (.bare .lambdaStarted)]
    FollowsPushed calls ∧
      (∃ event, (ofCalls calls).events[2]? = some event ∧ event.previous = some (.ofNat 1) ∧
        event.timestamp = Instant.epoch.addNanos (2 * nanosPerSecond) ∧
        event.timestamp = ⟨0, 2, 0⟩) ∧
      ∃ j < 2, ∃ other : Event, (ofCalls calls).events[j]? = some other ∧ other.id = .ofNat 1 := by
  intro calls
  -- the one `after` names the first event
  have hfollows : FollowsPushed calls := by
    intro before id later h
    rcases before with _ | ⟨_, _ | ⟨_, _ | ⟨_, _ | ⟨_, before⟩⟩⟩⟩ <;> simp [calls] at h
    obtain ⟨rfl, rfl, rfl, -⟩ := h
    exact ⟨_, List.mem_cons_self, rfl⟩
  obtain ⟨-, hpushes, -, hearlier⟩ := describes_ofCalls calls
  obtain ⟨event, hevent, hdescribes, -, htimestamp⟩ :=
    hpushes [.push (.executionStarted "null"), .push (.entered .parallel "Fan" "null"),
      .after (.ofNat 1)] (.bare .lambdaStarted) [] rfl
  have hprevious : event.previous = some (.ofNat 1) := hdescribes.previous_eq
  have hlater : event.timestamp = Instant.epoch.addNanos (2 * nanosPerSecond) :=
    htimestamp Instant.proper_epoch rfl
  have hinstant : Instant.epoch.addNanos (2 * nanosPerSecond) = ⟨0, 2, 0⟩ := by decide
  exact ⟨hfollows, ⟨event, hevent, hprevious, hlater, hlater.trans hinstant⟩,
    hearlier hfollows 2 event _ hevent hprevious⟩

/-- A fork is told before the clock is set, and told anew after it. -/
example :
    let calls : List LogCall :=
      [.push (.executionStarted "null"), .tick 500000000, .push (.bare .lambdaStarted),
        .after (.ofNat 2), .startingAt ⟨1, 0, 0⟩, .after (.ofNat 1), .push .parallelSucceeded,
        .push .executionSucceeded]
    (ofCalls calls).events.map (fun event => (event.id.text, event.previous.map EventId.text,
        event.timestamp)) =
      [("1", none, ⟨0, 0, 0⟩), ("2", some "1", ⟨0, 1, 0⟩), ("3", some "1", ⟨1, 0, 0⟩),
        ("4", some "3", ⟨1, 0, 500000000⟩)] := by
  decide

end LogBuilder

end WorkflowChart
