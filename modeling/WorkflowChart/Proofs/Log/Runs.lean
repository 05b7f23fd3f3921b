import WorkflowChart.Json.Decoder
import WorkflowChart.Proofs.Log.Numbering

/-!
# Runs and how they are recorded

A run is a tree of visits to states. Map and Parallel states run bodies within their own visit, and
every body is recorded as if it came right after the entry into that state.

* **`Visit`**, **`Step`**: a visit to a state with its payloads, and the tree of visits.
* **`Step.record`**: the events of a step, appended to a log.
* **`Step.spans`**: where in the log the events of each visit are.
* **`Run.log`**: the log of a run.
* **`Step.Cases`**: induction on the tree.
-/

namespace WorkflowChart

/-! ## Trees of visits -/

/-- A JSON text with the value that it holds. -/
structure Payload where
  text : String
  value : Json
  decode_text : decode Decoder.json text = .ok value

/-- One visit to a state. -/
structure Visit where
  name : String
  input : Payload
  output : Payload

/-- A visit to a state, with all that is run within it. -/
inductive Step where
  | task (visit : Visit)
  | pass (visit : Visit)
  | choice (visit : Visit)
  /-- Runs each body once for an item. -/
  | map (visit : Visit) (bodies : List (List Step))
  /-- Runs the bodies side by side. -/
  | parallel (visit : Visit) (bodies : List (List Step))

namespace Step

/-- The kind of state that is visited. -/
def category : Step → Category
  | task _ => .task
  | pass _ => .pass
  | choice _ => .choice
  | map .. => .map
  | parallel .. => .parallel

/-- The visit itself. -/
def visit : Step → Visit
  | task visit | pass visit | choice visit | map visit _ | parallel visit _ => visit

/-- What is run within a visit. -/
def bodies : Step → List (List Step)
  | map _ bodies | parallel _ bodies => bodies
  | task _ | pass _ | choice _ => []

/-- What the event that completes a visit says. -/
def completion : Step → EventType
  | task _ => .lambdaSucceeded
  | parallel .. => .parallelSucceeded
  | pass _ => .stateExited .pass
  | choice _ => .stateExited .choice
  | map .. => .stateExited .map

mutual

/-- All steps of a tree, each after those within it. -/
def all : Step → List Step
  | task visit => [task visit]
  | pass visit => [pass visit]
  | choice visit => [choice visit]
  | map visit bodies => allOfBodies bodies ++ [map visit bodies]
  | parallel visit bodies => allOfBodies bodies ++ [parallel visit bodies]

/-- All steps of some trees. -/
def allOfSteps : List Step → List Step
  | [] => []
  | step :: rest => step.all ++ allOfSteps rest

/-- All steps of bodies. -/
def allOfBodies : List (List Step) → List Step
  | [] => []
  | body :: rest => allOfSteps body ++ allOfBodies rest

end

/-- Nothing of its own kind lies within a step, at any depth. -/
def Apart (outer : Step) : Prop :=
  ∀ inner ∈ allOfBodies outer.bodies, inner.category ≠ outer.category

/-- No step lies within one of its own kind. -/
def Unnested (steps : List Step) : Prop :=
  ∀ outer ∈ allOfSteps steps, outer.Apart

end Step

/-! ## Recording -/

namespace LogBuilder

/-- Appends the entry into a state. -/
def enter (builder : LogBuilder) (category : Category) (visit : Visit) : LogBuilder :=
  builder.entered category visit.name visit.input.text

/-- Appends that what a state had to do is done, if there is an event for that. -/
def succeed (builder : LogBuilder) (category : Category) (visit : Visit) : LogBuilder :=
  match category with
  | .task => builder.lambdaSucceeded visit.output.text
  | .parallel => builder.parallelSucceeded
  | _ => builder

/-- Appends the exit from a state. -/
def leave (builder : LogBuilder) (category : Category) (visit : Visit) : LogBuilder :=
  builder.exited category visit.name visit.output.text

/-- The id of the event that is pushed next. -/
def nextId (builder : LogBuilder) : EventId :=
  .ofNat (builder.events.length + 1)

end LogBuilder

namespace Step

mutual

/-- Appends the events of a step. -/
def record (builder : LogBuilder) : Step → LogBuilder
  | task visit => ((builder.enter .task visit).succeed .task visit).leave .task visit
  | pass visit => (builder.enter .pass visit).leave .pass visit
  | choice visit => (builder.enter .choice visit).leave .choice visit
  | map visit bodies =>
    (recordBodies builder.nextId (builder.enter .map visit) bodies).leave .map visit
  | parallel visit bodies =>
    ((recordBodies builder.nextId (builder.enter .parallel visit) bodies).succeed .parallel
      visit).leave .parallel visit

/-- Appends the events of steps. -/
def recordSteps (builder : LogBuilder) : List Step → LogBuilder
  | [] => builder
  | step :: rest => recordSteps (record builder step) rest

/-- Appends the events of bodies, each of which follows the event `fork`. -/
def recordBodies (fork : EventId) (builder : LogBuilder) : List (List Step) → LogBuilder
  | [] => builder
  -- an empty body leaves the fork to the event after it
  | body :: rest => recordBodies fork (recordSteps (builder.after fork) body) rest

end

end Step

/-! ## Spans -/

/-- Where in a log the events of a step are. -/
structure Span where
  step : Step
  entered : Nat
  /-- The event that completes the visit: the success, if there is one, and else the exit. -/
  completed : Nat
  exited : Nat

namespace Step

/-- The span of a step that is entered at the end of one log and has run what is within it at the
end of another. -/
def span (step : Step) (start stop : LogBuilder) : Span where
  step
  entered := start.events.length
  completed := stop.events.length
  exited := (stop.succeed step.category step.visit).events.length

mutual

/-- The spans of all steps of a tree. -/
def spans (builder : LogBuilder) : Step → List Span
  | task visit => [(task visit).span builder (builder.enter .task visit)]
  | pass visit => [(pass visit).span builder (builder.enter .pass visit)]
  | choice visit => [(choice visit).span builder (builder.enter .choice visit)]
  | map visit bodies =>
    spansOfBodies builder.nextId (builder.enter .map visit) bodies
      ++ [(map visit bodies).span builder
        (recordBodies builder.nextId (builder.enter .map visit) bodies)]
  | parallel visit bodies =>
    spansOfBodies builder.nextId (builder.enter .parallel visit) bodies
      ++ [(parallel visit bodies).span builder
        (recordBodies builder.nextId (builder.enter .parallel visit) bodies)]

/-- The spans of all steps of some trees. -/
def spansOfSteps (builder : LogBuilder) : List Step → List Span
  | [] => []
  | step :: rest => spans builder step ++ spansOfSteps (record builder step) rest

/-- The spans of all steps of bodies. -/
def spansOfBodies (fork : EventId) (builder : LogBuilder) : List (List Step) → List Span
  | [] => []
  | body :: rest =>
    spansOfSteps (builder.after fork) body
      ++ spansOfBodies fork (recordSteps (builder.after fork) body) rest

end

end Step

/-- An execution that runs steps one after another. -/
structure Run where
  clock : Instant := .epoch
  tick : Int := 1000
  input : String
  steps : List Step

namespace Run

/-- The log at the start of the execution. -/
def start (run : Run) : LogBuilder :=
  ((({} : LogBuilder).startingAt run.clock).withTick run.tick).executionStarted run.input

/-- The log of the run. -/
def log (run : Run) : Log :=
  (Step.recordSteps run.start run.steps).build

/-- The spans of all steps of the run. -/
def spans (run : Run) : List Span :=
  Step.spansOfSteps run.start run.steps

end Run

/-! ## One equation for all kinds of steps -/

namespace Step

/-- The log when a step has been entered and what is within it has been run. -/
def inside (builder : LogBuilder) (step : Step) : LogBuilder :=
  recordBodies builder.nextId (builder.enter step.category step.visit) step.bodies

/-- A step is recorded by its entry, what is within it, its success and its exit. -/
theorem record_eq (builder : LogBuilder) (step : Step) :
    step.record builder =
      ((step.inside builder).succeed step.category step.visit).leave step.category step.visit := by
  cases step <;> rw [record] <;> rfl

/-- The span of a step comes after the spans of those within it. -/
theorem spans_eq (builder : LogBuilder) (step : Step) :
    step.spans builder =
      spansOfBodies builder.nextId (builder.enter step.category step.visit) step.bodies
        ++ [step.span builder (step.inside builder)] := by
  cases step <;> rw [spans] <;> rfl

/-- A step comes after those within it. -/
theorem all_eq (step : Step) : step.all = allOfBodies step.bodies ++ [step] := by
  cases step <;> rw [all] <;> rfl

/-- The cases of an induction on steps. -/
structure Cases (ofStep : Step → Prop) (ofSteps : List Step → Prop)
    (ofBodies : List (List Step) → Prop) : Prop where
  step : ∀ step : Step, ofBodies step.bodies → ofStep step
  noSteps : ofSteps []
  addStep : ∀ step rest, ofStep step → ofSteps rest → ofSteps (step :: rest)
  noBodies : ofBodies []
  addBody : ∀ body rest, ofSteps body → ofBodies rest → ofBodies (body :: rest)

namespace Cases

variable {ofStep : Step → Prop} {ofSteps : List Step → Prop} {ofBodies : List (List Step) → Prop}

mutual

/-- The statement about one step holds of every step. -/
theorem step_all (h : Cases ofStep ofSteps ofBodies) : (step : Step) → ofStep step
  | .task visit => h.step (.task visit) h.noBodies
  | .pass visit => h.step (.pass visit) h.noBodies
  | .choice visit => h.step (.choice visit) h.noBodies
  | .map visit bodies => h.step (.map visit bodies) (bodies_all h bodies)
  | .parallel visit bodies => h.step (.parallel visit bodies) (bodies_all h bodies)

/-- The statement about steps holds of all steps. -/
theorem steps_all (h : Cases ofStep ofSteps ofBodies) : (steps : List Step) → ofSteps steps
  | [] => h.noSteps
  | step :: rest => h.addStep step rest (step_all h step) (steps_all h rest)

/-- The statement about bodies holds of all bodies. -/
theorem bodies_all (h : Cases ofStep ofSteps ofBodies) :
    (bodies : List (List Step)) → ofBodies bodies
  | [] => h.noBodies
  | body :: rest => h.addBody body rest (steps_all h body) (bodies_all h rest)

end

end Cases

end Step

end WorkflowChart
