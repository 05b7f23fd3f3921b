import WorkflowChart.Log.Basic

/-!
# Building logs

A log is put together event by event. Events are numbered from 1 on, each follows the one pushed
before it unless it is told to follow another, and a clock gives them their timestamps.

## Main definitions

* `LogBuilder`: the log so far, the clock, and what the next event follows.
* `LogBuilder.push`: appends an event.
* `LogBuilder.entered`, `LogBuilder.lambdaSucceeded` and others: append events with their details.
* `LogBuilder.build`: the log.
-/

namespace WorkflowChart

/-- The state of a log that is being put together. -/
structure LogBuilder where
  events : List Event := []
  /-- The timestamp of the next event. -/
  clock : Instant := .epoch
  /-- The nanoseconds from one event to the next. -/
  tick : Int := nanosPerSecond
  /-- The id of the event pushed last. -/
  lastId : Option EventId := none
  /-- The event that the next one is told to follow. -/
  fork : Option EventId := none

namespace LogBuilder

/-- Sets the clock. -/
def startingAt (builder : LogBuilder) (timestamp : Instant) : LogBuilder :=
  { builder with clock := timestamp }

/-- Sets the nanoseconds from one event to the next. -/
def withTickNanos (builder : LogBuilder) (nanos : Int) : LogBuilder :=
  { builder with tick := nanos }

/-- Sets the milliseconds from one event to the next. -/
def withTick (builder : LogBuilder) (millis : Int) : LogBuilder :=
  builder.withTickNanos (millis * 1000000)

/-- Makes the next event follow `id`. -/
def after (builder : LogBuilder) (id : EventId) : LogBuilder :=
  { builder with fork := some id }

/-- The event that is pushed next, without details. -/
def nextEvent (builder : LogBuilder) (type : EventType) : Event :=
  { id := .ofNat (builder.events.length + 1)
    previous := builder.fork <|> builder.lastId
    timestamp := builder.clock
    type }

/-- Appends an event and lets the clock tick. -/
def append (builder : LogBuilder) (event : Event) : LogBuilder :=
  { builder with
    events := builder.events ++ [event]
    clock := builder.clock.addNanos builder.tick
    lastId := some event.id
    fork := none }

/-- Appends an event without details. -/
def push (builder : LogBuilder) (type : EventType) : LogBuilder :=
  builder.append (builder.nextEvent type)

/-- Appends the start of the execution. -/
def executionStarted (builder : LogBuilder) (input : String) : LogBuilder :=
  builder.append
    { builder.nextEvent .executionStarted with started := some { input := some input } }

/-- Appends the success of the execution. -/
def executionSucceeded (builder : LogBuilder) : LogBuilder :=
  builder.push .executionSucceeded

/-- Appends the failure of the execution. -/
def executionFailed (builder : LogBuilder) (error cause : String) : LogBuilder :=
  builder.append
    { builder.nextEvent .executionFailed with
      executionFailed := some { error := some error, cause := some cause } }

/-- Appends the entry into a state. -/
def entered (builder : LogBuilder) (category : Category) (name input : String) : LogBuilder :=
  builder.append
    { builder.nextEvent (.stateEntered category) with
      enteredDetails := some { name, input := some input } }

/-- Appends the exit from a state. -/
def exited (builder : LogBuilder) (category : Category) (name output : String) : LogBuilder :=
  builder.append
    { builder.nextEvent (.stateExited category) with
      exitedDetails := some { name, output := some output } }

/-- Appends that a function was scheduled. -/
def lambdaScheduled (builder : LogBuilder) (resource : String) : LogBuilder :=
  builder.append
    { builder.nextEvent .lambdaScheduled with scheduled := some { resource := some resource } }

/-- Appends that a function was started. -/
def lambdaStarted (builder : LogBuilder) : LogBuilder :=
  builder.push .lambdaStarted

/-- Appends the success of a function. -/
def lambdaSucceeded (builder : LogBuilder) (output : String) : LogBuilder :=
  builder.append
    { builder.nextEvent .lambdaSucceeded with succeeded := some { output := some output } }

/-- Appends the failure of a function. -/
def lambdaFailed (builder : LogBuilder) (error cause : String) : LogBuilder :=
  builder.append
    { builder.nextEvent .lambdaFailed with
      failed := some { error := some error, cause := some cause } }

/-- Appends that all branches of a Parallel state have succeeded. -/
def parallelSucceeded (builder : LogBuilder) : LogBuilder :=
  builder.push .parallelSucceeded

/-- The log. -/
def build (builder : LogBuilder) : Log :=
  { events := builder.events }

@[simp] theorem events_append (builder : LogBuilder) (event : Event) :
    (builder.append event).events = builder.events ++ [event] := rfl

@[simp] theorem lastId_append (builder : LogBuilder) (event : Event) :
    (builder.append event).lastId = some event.id := rfl

@[simp] theorem fork_append (builder : LogBuilder) (event : Event) :
    (builder.append event).fork = none := rfl

end LogBuilder

end WorkflowChart
