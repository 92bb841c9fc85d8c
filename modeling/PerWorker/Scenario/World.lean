import PerWorker.Lifecycle.Step
import PerWorker.Scenario.Transcript

/-!
A world in which scripted threads use managers. Every thread works off its tasks on top of the
shared system of managers: where its innermost call stands at an internal point the system takes
the step, and where foreign code runs the script says what that code does. Time passes only when
no thread can go on.
-/
namespace PerWorker.Scenario

abbrev Machine := System Performer Json

/-- What an activation has still to do. -/
inductive Task where
  | perform (deed : Deed)
  | await (gate : String)
  | step (step : Step)
  /-- Ends the hook or body with that result; a body of a scripted function leaves a record. -/
  | conclude (conclusion : Conclusion)
  deriving Inhabited

/-- A thread's own steps, or those of a hook or body that it runs. -/
structure Activation where
  /-- The hook or body and its copy; none for the thread itself. -/
  hook : Option (Hook × Nat) := none
  tasks : List Task := []
  /-- The step under way, with what its first call answered if it makes two. -/
  current : Option (Step × Option Nat) := none
  /-- When the step or gate under way was reached. -/
  since : Nat := 0
  /-- Finished steps, the last one first. -/
  results : List StepResult := []
  /-- Hooks that ended during the step under way, the last one first. -/
  records : List Record := []
  logs : List LogEvent := []
  deriving Inhabited

structure Thread where
  name : ThreadName
  stack : List Activation
  ended : Option (List StepResult) := none
  deriving Inhabited

/-- Managers, threads, and what threads share besides. -/
structure World where
  machine : Machine
  display : Display := {}
  templates : Array (Template Performer)
  /-- The deeds of the setups to come, by manager. -/
  plans : Array (List Deed)
  /-- The setups attempted so far, by manager. -/
  attempts : Array Nat
  threads : Array Thread
  handles : List (String × Nat) := []
  openGates : List String := []
  /-- How often each gate was reached. -/
  reached : List (String × Nat) := []
  /-- Milliseconds since the start. -/
  clock : Nat := 0

namespace World

/-- How long a thread waits for anything, in milliseconds. -/
def patience : Nat := 5000

def handle (w : World) (name : String) : Nat := (w.handles.lookup name).getD 0

def store (w : World) (name : Option String) (copy : Nat) : World :=
  match name with
  | some name => { w with handles := (name, copy) :: w.handles.filter (·.1 ≠ name) }
  | none => w

def reachedCount (w : World) (gate : String) : Nat := (w.reached.lookup gate).getD 0

def worker (w : World) (t : Nat) : WorkerRef → WorkerId
  | .named name => .named name
  | .current => .thread (((w.threads[t]?).map (·.name)).getD default)
  | .labelled label =>
    match w.threads.find? (·.name.label == label) with
    | some thread => .thread thread.name
    | none => .thread { number := w.threads.size, label }

def modifyTop (w : World) (t : Nat) (f : Activation → Activation) : World :=
  { w with threads := w.threads.modify t fun thread =>
      match thread.stack with
      | top :: below => { thread with stack := f top :: below }
      | [] => thread }

def modifyRoot (w : World) (t : Nat) (f : Activation → Activation) : World :=
  { w with threads := w.threads.modify t fun thread =>
      match thread.stack.reverse with
      | root :: above => { thread with stack := (f root :: above).reverse }
      | [] => thread }

def top? (w : World) (t : Nat) : Option Activation := ((w.threads[t]?).map (·.stack)).bind (·.head?)

def instanceJson (w : World) (copy : Nat) (hidesLive : Bool := false) : Json :=
  .obj [("id", w.display.id copy), ("worker", .str (w.machine.copyWorker copy).text),
    ("live", if hidesLive then .null else .bool (w.machine.isLive copy))]

def debugText (w : World) (copy : Nat) : String :=
  "Instance \x7b id: " ++ w.display.idText copy
    ++ ", worker: " ++ (w.machine.copyWorker copy).text
    ++ ", live: " ++ toString (w.machine.isLive copy) ++ " \x7d"

def value? (w : World) (copy : Nat) : Option Performer := (w.machine.copies[copy]?).map (·.value)

/-- The state of a copy as a body that looks at it answers. -/
def viewJson (w : World) (copy : Nat) : Json :=
  match w.value? copy with
  | some (.scripted f) =>
    .obj [("n", w.display.number f.number), ("tag", .str f.tag), ("base", .arr (f.base.map .int)),
      ("seen", .arr (f.seen.map .int)), ("up", .bool f.up), ("down", .bool f.down)]
  | some (.enricher e) =>
    .obj [("open", .bool e.isOpen), ("processed", .nat e.processed), ("json", .str e.encode)]
  | none => .null

def isDrain : Step → Bool
  | .releaseAll _ | .drain _ | .drainFrom _ | .abandon _ => true
  | _ => false

/-- Ends the step under way with its answer. Events stay with the outermost step. -/
def endStep (w : World) (t : Nat) (fields : List (String × Json)) : World :=
  { w with threads := w.threads.modify t fun thread =>
      match thread.stack with
      | top :: below =>
        let result : StepResult :=
          { fields, records := top.records.reverse,
            logs := if below.isEmpty then top.logs.reverse else [] }
        let drains := (top.current.map fun (step, _) => isDrain step).getD false
        let result := if drains then result.ordered else result
        let logs := if below.isEmpty then [] else top.logs
        { thread with
          stack := { top with current := none, results := result :: top.results,
                              records := [], logs } :: below }
      | [] => thread }

def replyFields (w : World) (step : Step) : Reply Json → List (String × Json)
  | .handle c =>
    match step with
    | .get _ _ _ hidesLive => [("ok", w.instanceJson c hidesLive)]
    | _ => [("ok", w.instanceJson c)]
  | .peeked none => [("ok", .null)]
  | .peeked (some c) => [("ok", w.instanceJson c)]
  | .done => [("ok", .bool true)]
  | .failed e => errorFields w.display e
  | .errors es =>
    match step with
    | .releaseAll _ => [("ok", errorsJson w.display es)]
    | _ => drainFields w.display es
  | .value v => [("ok", v)]
  | .fault fault =>
    match step with
    | .process .. => faultFields "Process" fault
    | _ => faultFields "Body" fault
  | .workers ws =>
    let texts := (ws.map (·.text)).mergeSort fun a b => ¬ b < a
    [("ok", .strings texts)]
  | .count n => [("ok", .nat n)]
  | .flag b => [("ok", .bool b)]
  | .counters cs =>
    match step with
    | .outstanding _ => [("ok", .int cs.outstanding)]
    | _ => [("ok", .obj (countersFields cs))]
  | .panicked message => [("panic", .str message)]

def addLog (w : World) (t : Nat) (e : LogEvent) : World :=
  w.modifyRoot t fun root => { root with logs := e :: root.logs }

/-- A call of the step under way was answered: the step ends, or makes its second call. -/
def receive (w : World) (t : Nat) (reply : Reply Json) : World :=
  match (w.top? t).bind (·.current) with
  | none => w
  | some (step, stage) =>
    match step, stage, reply with
    | .get _ _ name _, _, .handle c => (w.store name c).endStep t (w.replyFields step reply)
    | .peek _ _ name, _, .peeked (some c) => (w.store name c).endStep t (w.replyFields step reply)
    | .abandon m, none, .count n =>
      let machine := ((w.machine.step t (.call (.releaseAll m))).map (·.1)).getD w.machine
      { w with machine }.modifyTop t fun top => { top with current := some (step, some n) }
    | .abandon m, some remaining, .errors es =>
      (w.addLog t (.runAbandoned (w.machine.name m) remaining es.length)).endStep t
        (w.replyFields step reply)
    | _, _, _ => w.endStep t (w.replyFields step reply)

def deedTasks (deed : Deed) : List Task :=
  .perform deed :: (deed.gate.toList.map Task.await)
    ++ (deed.steps.map Task.step) ++ [.conclude deed.conclusion]

def assign (w : World) (t : Nat) (value : Performer) : World :=
  match w.machine.step t (.assign value) with
  | some (machine, _) => { w with machine }
  | none => w

/-- A hook or body starts in a thread: its activation is put on top, with the tasks that the script
gives it. -/
def startHook (w : World) (t : Nat) (hook : Hook) (copy : Nat) : World :=
  let push (w : World) (tasks : List Task) : World :=
    { w with threads := w.threads.modify t fun thread =>
        { thread with stack := { hook := some (hook, copy), tasks } :: thread.stack } }
  match w.value? copy with
  | none => w
  | some (.scripted f) =>
    match hook with
    | .setup =>
      let n := w.attempts.getD f.manager 0 + 1
      let (deed, rest) := match w.plans.getD f.manager [] with
        | deed :: rest => (deed, rest)
        | [] => (.nothing, [])
      let w := { w with attempts := w.attempts.setIfInBounds f.manager n
                        plans := w.plans.setIfInBounds f.manager rest }
      push (w.assign t (.scripted { f with number := n })) (deedTasks deed)
    | .teardown =>
      push (w.assign t (.scripted { f with down := true })) (deedTasks (f.onTeardown.getD .nothing))
    | .body =>
      match (w.top? t).bind (·.current) with
      | some (.use _ (.deed deed), _) | some (.process _ _ (.deed deed), _) =>
        push w (deedTasks deed)
      | _ => push w [.conclude (.value (w.viewJson copy))]
  | some (.enricher e) =>
    match hook with
    | .setup =>
      match e.setup with
      | .ok e => push (w.assign t (.enricher e)) [.conclude (.value .null)]
      | .error refusal => push w [.conclude (.fail refusal.fault)]
    | .teardown =>
      match e.teardown with
      | .ok (processed, e) =>
        push ((w.assign t (.enricher e)).addLog t (.sessionClosed processed))
          [.conclude (.value .null)]
      | .error refusal => push w [.conclude (.fail refusal.fault)]
    | .body =>
      match (w.top? t).bind (·.current) with
      | some (.use _ (.session opens elements closes), _)
      | some (.process _ _ (.session opens elements closes), _) =>
        let (result, e, closed) := e.runSession opens elements closes
        let w := w.assign t (.enricher e)
        let w := closed.elim w fun processed => w.addLog t (.sessionClosed processed)
        match result with
        | .ok sizes => push w [.conclude (.value (.arr (sizes.map .nat)))]
        | .error refusal => push w [.conclude (.fail refusal.fault)]
      | _ => push w [.conclude (.value (w.viewJson copy))]

/-- Takes note of what could be observed of a step of the system. -/
def observe (w : World) (t : Nat) : List (Event Json) → World
  | [] => w
  | event :: rest =>
    let w := match event with
      | .logged e => w.addLog t e
      | .hookStarted hook copy => w.startHook t hook copy
      | .returned reply => w.receive t reply
      | _ => w
    w.observe t rest

def act (w : World) (t : Nat) (action : Action Performer Json) : Option World :=
  match w.machine.step t action with
  | some (machine, events) => some ({ w with machine }.observe t events)
  | none => none

def call? (w : World) (t : Nat) : Step → Option Call
  | .get m worker _ _ => some (.get m (w.worker t worker))
  | .peek m worker _ => some (.peek m (w.worker t worker))
  | .use handle _ => some (.use (w.handle handle))
  | .release m worker => some (.release m (w.worker t worker))
  | .releaseAll m | .drain m => some (.releaseAll m)
  | .drainFrom ms => some (.drain ms)
  | .abandon m | .len m => some (.len m)
  | .process m worker _ => some (.process m (w.worker t worker))
  | .isEmpty m => some (.isEmpty m)
  | .contains m worker => some (.contains m (w.worker t worker))
  | .workers m => some (.workers m)
  | .counters m | .outstanding m => some (.counters m)
  | .logStats m => some (.logStats m)
  | _ => none

def joinFields (w : World) (labels : List String) (sorted quiet : Bool) (hooks : HookReport) :
    List (String × Json) :=
  let ended := labels.filterMap fun label =>
    (w.threads.find? (·.name.label == label)).bind (·.ended)
  let answers := ended.map fun results =>
    Json.arr (results.map (StepResult.toJsonWithoutHooks w.display))
  let answers := if sorted then answers.mergeSort fun a b => ¬ b.render < a.render else answers
  let records := Record.inOrder (ended.flatMap fun results => results.flatMap (·.records))
  [("ok", if quiet then .nat ended.length else .arr answers)] ++
    match hooks with
    | .listed =>
      if records.isEmpty then []
      else [("thread_hooks", .arr (records.map (Record.toJson w.display)))]
    | .counted => [("hook_count", .nat records.length)]
    | .omitted => []

/-- The answer of a step that makes no call, once it can be given. -/
def localAnswer? (w : World) (t : Nat) (since : Nat) : Step → Option (List (String × Json))
  | .inspect h =>
    let c := w.handle h
    some [("ok", w.instanceJson c), ("debug", .str (w.debugText c))]
  | .sameCopy a b => some [("ok", .bool (w.handle a == w.handle b))]
  | .sameWorker a b =>
    some [("ok", .bool (w.machine.copyWorker (w.handle a) == w.machine.copyWorker (w.handle b)))]
  | .distinct hs => some [("ok", .nat ((hs.map w.handle).eraseDups.length))]
  | .name m => some [("ok", .str (w.machine.name m))]
  | .join labels sorted quiet hooks =>
    waitFor (labels.all fun label =>
        ((w.threads.find? (·.name.label == label)).bind (·.ended)).isSome)
      (w.joinFields labels sorted quiet hooks)
  | .entered gate n => waitFor (n ≤ w.reachedCount gate) done
  | .pause ms => if since + ms ≤ w.clock then some done else none
  | .untilRegistered m worker registered =>
    waitFor ((w.machine.slot? m (w.worker t worker)).isSome == registered) done
  | .untilDead h => waitFor (!w.machine.isLive (w.handle h)) done
  | _ => some done
where
  done : List (String × Json) := [("ok", .bool true)]
  waitFor (condition : Bool) (fields : List (String × Json)) : Option (List (String × Json)) :=
    if condition then some fields
    else if since + patience ≤ w.clock then some [("error", .str "timeout")]
    else none

def startStep (w : World) (t : Nat) (step : Step) (rest : List Task) : Option World :=
  let w := w.modifyTop t fun top =>
    { top with tasks := rest, current := some (step, none), since := w.clock }
  match w.call? t step with
  | some call => w.act t (.call call)
  | none =>
    match step with
    | .spawn label steps =>
      let name : ThreadName := { number := w.threads.size, label }
      let thread : Thread := { name, stack := [{ tasks := steps.map .step }] }
      some ({ w with threads := w.threads.push thread,
                     machine := w.machine.addThread }.endStep t [("ok", .bool true)])
    | .openGate gate =>
      some ({ w with openGates := gate :: w.openGates }.endStep t [("ok", .bool true)])
    | _ => some w

def record? (w : World) (top : Activation) (hook : Hook) (copy : Nat) (conclusion : Conclusion) :
    Option Record :=
  match w.value? copy with
  | some (.scripted f) =>
    let ending : Ending := match conclusion with
      | .value _ => .returned
      | .fail _ => .failed
      | .panic _ => .panicked
    let steps := if top.results.isEmpty then none
      else some (top.results.reverse.map (StepResult.toJson w.display))
    let record : Record :=
      { hook, manager := f.manager, number := f.number, tag := f.tag, seen := f.seen, ending
        steps }
    match hook, steps, ending with
    | .body, none, _ | .body, _, .panicked => none
    | _, _, _ => some record
  | _ => none

def conclude (w : World) (t : Nat) (top : Activation) (hook : Hook) (copy : Nat)
    (conclusion : Conclusion) : Option World :=
  let w := match w.value? copy, hook, conclusion with
    | some (.scripted f), .setup, .value _ => w.assign t (.scripted { f with up := true })
    | _, _, _ => w
  let record := (w.record? top hook copy conclusion).toList
  let w := { w with threads := w.threads.modify t fun thread =>
      { thread with stack := thread.stack.drop 1 } }
  let w := w.modifyTop t fun below => { below with records := record ++ below.records }
  match conclusion with
  | .value v => w.act t (.finish (.ok v))
  | .fail fault => w.act t (.finish (.error fault))
  | .panic message => w.act t (.panic message)

/-- A thread whose innermost call lets it act takes its next task. -/
def stepTask (w : World) (t : Nat) (top : Activation) : Option World :=
  match top.current with
  | some (step, _) => (w.localAnswer? t top.since step).map (w.endStep t)
  | none =>
    match top.tasks with
    | [] =>
      some { w with threads := w.threads.modify t fun thread =>
          { thread with stack := [], ended := some top.results.reverse } }
    | .perform deed :: rest =>
      let w := w.modifyTop t fun top => { top with tasks := rest, since := w.clock }
      let w := match top.hook.bind fun (_, copy) => w.value? copy with
        | some (.scripted f) => w.assign t (.scripted (f.apply deed))
        | _ => w
      match deed.gate with
      | some gate =>
        some { w with reached := (gate, w.reachedCount gate + 1)
                        :: w.reached.filter (·.1 ≠ gate) }
      | none => some w
    | .await gate :: rest =>
      if w.openGates.contains gate || top.since + patience ≤ w.clock then
        some (w.modifyTop t fun top => { top with tasks := rest })
      else none
    | .step step :: rest => w.startStep t step rest
    | .conclude conclusion :: _ =>
      match top.hook with
      | some (hook, copy) => w.conclude t top hook copy conclusion
      | none => none

/-- Lets the template of the manager that asks draw a copy. -/
def drawCopy (w : World) (t m : Nat) : Option World :=
  match w.templates[m]? with
  | some template =>
    let (drawn, next) := template.replicate
    { w with templates := w.templates.setIfInBounds m next }.act t (.drawn drawn)
  | none => none

/-- One step of a thread, or nothing if it has ended or has to wait. -/
def step (w : World) (t : Nat) : Option World :=
  match w.top? t with
  | none => none
  | some top =>
    match w.machine.stack t with
    | .get m _ (.replicating _) :: _ => w.drawCopy t m
    | frame :: _ => if frame.isForeign then w.stepTask t top else w.act t .advance
    | [] => w.stepTask t top

/-- When a waiting thread goes on by itself. -/
def deadline? (top : Activation) : Option Nat :=
  match top.current, top.tasks with
  | some (.pause ms, _), _ => some (top.since + ms)
  | some _, _ => some (top.since + patience)
  | none, .await _ :: _ => some (top.since + patience)
  | none, _ => none

/-- Lets time pass until the first waiting thread goes on. -/
def passTime (w : World) : Option World :=
  let deadlines := w.threads.toList.filterMap fun thread => thread.stack.head?.bind deadline?
  match (deadlines.filter (w.clock < ·)).min? with
  | some clock => some { w with clock }
  | none => none

/-- The first thread that can go on does. -/
def next (w : World) : Option World :=
  match (List.range w.threads.size).findSome? w.step with
  | some w => some w
  | none => w.passTime

def isOver (w : World) : Bool := (((w.threads[0]?).bind (·.ended)).isSome)

def run (w : World) : Nat → World
  | 0 => w
  | steps + 1 =>
    if w.isOver then w
    else
      match w.next with
      | some w => w.run steps
      | none => w

end World
end PerWorker.Scenario
