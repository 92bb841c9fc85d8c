import PerWorker.Lifecycle.Call
import PerWorker.Scenario.Script

/-!
The transcript of a scripted run. Each step leaves the fields of its answer, the records of the
hooks that ran in it, and the events logged while it ran. Drains visit workers in no particular
order, so what they list is put in the order of managers and copies.
-/
namespace PerWorker.Scenario

structure Display where
  /-- Copies are not told apart, because their order is left to chance. -/
  hidesIds : Bool := false
  /-- Steps list the events logged while they ran. -/
  showsLogs : Bool := false
  deriving Repr, Inhabited

namespace Display

def id (d : Display) (copy : Nat) : Json := if d.hidesIds then .null else .nat (copy + 1)

def number (d : Display) (n : Nat) : Json := if d.hidesIds then .null else .nat n

def idText (d : Display) (copy : Nat) : String := if d.hidesIds then "?" else toString (copy + 1)

end Display

def faultFields (kind : String) (fault : Fault) : List (String × Json) :=
  [("error", .str kind), ("message", .str fault.message), ("causes", .strings fault.causes)]

def errorFields (d : Display) (e : LifecycleError) : List (String × Json) :=
  let kind := match e with
    | .clone .. => "Clone"
    | .setup .. => "Setup"
    | .teardown .. => "Teardown"
  let id := match e.id? with
    | none => Json.null
    | some id => d.number id
  let message := e.messageShowing fun id => if d.hidesIds then "?" else toString id
  faultFields kind { message, causes := e.causes } ++
    [("name", .str e.name), ("worker", .str e.worker.text), ("instance", id),
      ("is", .arr [.bool e.isClone, .bool e.isSetup, .bool e.isTeardown])]

/-- Neighbours with the same manager name, put in the order of their copies. -/
def inCopyOrder (errors : List LifecycleError) : List LifecycleError :=
  (errors.splitBy (·.name == ·.name)).flatMap fun group =>
    group.mergeSort fun a b => a.id?.getD 0 ≤ b.id?.getD 0

def errorsJson (d : Display) (errors : List LifecycleError) : Json :=
  .arr ((inCopyOrder errors).map fun e => .obj (errorFields d e))

/-- The answer of a drain: nothing went wrong, or every failed teardown. -/
def drainFields (d : Display) (errors : List LifecycleError) : List (String × Json) :=
  match TeardownErrors.ofList errors with
  | .ok () => [("ok", .bool true)]
  | .error e =>
    [("error", .str "TeardownErrors"), ("message", .str e.message), ("len", .nat e.size),
      ("errors", errorsJson d e.errors)]

def countersFields (cs : Counters) : List (String × Json) :=
  [("copies", .nat cs.copies), ("clone_failures", .nat cs.cloneFailures),
    ("setups", .nat cs.setups), ("setup_failures", .nat cs.setupFailures),
    ("teardowns", .nat cs.teardowns), ("teardown_failures", .nat cs.teardownFailures),
    ("outstanding", .int cs.outstanding)]

structure Record where
  hook : Hook
  manager : Nat
  number : Nat
  tag : String
  seen : List Int
  ending : Ending
  /-- The answers of the steps that it took, if it took any. -/
  steps : Option (List Json)
  deriving Inhabited

namespace Record

def toJson (d : Display) (r : Record) : Json :=
  let steps := match r.steps with
    | some answers => [("do", Json.arr answers)]
    | none => []
  let common := [("m", Json.nat r.manager), ("n", d.number r.number)]
  let details (hook : String) := [("hook", Json.str hook)] ++ common ++
    [("tag", .str r.tag), ("seen", .arr (r.seen.map .int)),
      ("out", .str (match r.ending with
        | .returned => "ok"
        | .failed => "fail"
        | .panicked => "panic"))] ++ steps
  match r.hook with
  | .setup => .obj (details "setup")
  | .teardown => .obj (details "teardown")
  | .body => .obj ([("hook", .str "body")] ++ common ++ steps)

/-- The order of records in a drain: by manager, then by the number of the copy. -/
def inOrder (records : List Record) : List Record :=
  records.mergeSort fun a b =>
    a.manager < b.manager || (a.manager == b.manager && a.number ≤ b.number)

end Record

/-- The order of log events in a drain: those about a copy by copy, then closed sessions by what
they processed, then the rest. -/
def logsInOrder (events : List LogEvent) : List LogEvent :=
  let key (e : LogEvent) : Nat × Nat :=
    match e.id?, e.processed? with
    | some id, _ => (0, id)
    | none, some processed => (1, processed)
    | none, none => (2, 0)
  events.mergeSort fun a b =>
    let (a₁, a₂) := key a
    let (b₁, b₂) := key b
    a₁ < b₁ || (a₁ == b₁ && a₂ ≤ b₂)

/-- The record of a log event, with copies shown as they are displayed. -/
def logJson (d : Display) (e : LogEvent) : Json :=
  match e.toJson with
  | .obj fields =>
    .obj (fields.map fun (name, value) =>
      (name, if name == "instance" && d.hidesIds then .null else value))
  | other => other

structure StepResult where
  fields : List (String × Json)
  records : List Record := []
  logs : List LogEvent := []
  deriving Inhabited

namespace StepResult

def ordered (r : StepResult) : StepResult :=
  { r with records := Record.inOrder r.records, logs := logsInOrder r.logs }

private def logFields (d : Display) (logs : List LogEvent) : List (String × Json) :=
  if logs.isEmpty || !d.showsLogs then [] else [("logs", .arr (logs.map (logJson d)))]

def toJson (d : Display) (r : StepResult) : Json :=
  let hooks := if r.records.isEmpty then []
    else [("hooks", Json.arr (r.records.map (Record.toJson d)))]
  .obj (r.fields ++ hooks ++ logFields d r.logs)

def toJsonWithoutHooks (d : Display) (r : StepResult) : Json :=
  .obj (r.fields ++ logFields d r.logs)

end StepResult
end PerWorker.Scenario
