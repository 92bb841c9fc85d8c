import PerWorker.Config
import PerWorker.Pipeline.Stock

/-!
A run of the pipeline. Tasks take bundles of elements off a shared cursor and process each bundle on
the copy of the thread they run on; threads are taken from a pool, and one thread may run several
tasks, one after another. The run joins its tasks in order, drains the manager and sums up. Every
step says what could be observed of it, and an interleaving is any sequence of steps.
-/
namespace PerWorker.Pipeline

structure Plan where
  workers : Nat
  elements : UInt64
  bundleSize : UInt64
  /-- Gives a worker's copy back after every bundle. -/
  releaseAfterBundle : Bool := false
  deriving Repr, DecidableEq, Inhabited

def Plan.ofConfig (c : Config) (cores : Nat) : Plan :=
  { workers := c.workers cores, elements := c.elements, bundleSize := c.bundleSize
    releaseAfterBundle := c.releaseAfterBundle }

def prototype (c : Config) : Enricher := { tag := c.tag, failEvery := c.failEvery }

def Stock.ofConfig (c : Config) : Except CloneError Stock :=
  Stock.start c.pipelineName (prototype c)

/-- The elements from `first` on, up to `last` and without it. -/
structure Bundle where
  first : UInt64
  last : UInt64
  deriving Repr, DecidableEq, Inhabited

/-- The difference of the bounds as words, which wraps around where they are not in order. -/
def Bundle.size (b : Bundle) : UInt64 := b.last - b.first

/-- How many elements there are: none where the bounds are not in order. -/
def Bundle.count (b : Bundle) : Nat := b.last.toNat - b.first.toNat

def Bundle.body (b : Bundle) : Body := fun e => e.processRange b.first b.count

structure Progress where
  bundles : UInt64 := 0
  failedBundles : UInt64 := 0
  elements : UInt64 := 0
  outputBytes : UInt64 := 0
  deriving Repr, DecidableEq, Inhabited

def Progress.countDone (p : Progress) (b : Bundle) (bytes : Nat) : Progress :=
  { p with bundles := p.bundles + 1, elements := p.elements + b.size
           outputBytes := p.outputBytes + UInt64.ofNat bytes }

def Progress.countFailed (p : Progress) : Progress :=
  { p with bundles := p.bundles + 1, failedBundles := p.failedBundles + 1 }

/-- The outcome of a run. Setups and teardowns are those of the manager since it was made. -/
structure Summary where
  workers : Nat
  bundles : UInt64
  failedBundles : UInt64
  elements : UInt64
  outputBytes : UInt64
  setups : Nat
  teardowns : Nat
  /-- The run stopped before every bundle was claimed. -/
  cancelled : Bool
  deriving Repr, DecidableEq, Inhabited

inductive TaskPoint where
  /-- Looks whether the run is cancelled. -/
  | check
  | claim
  | processing (bundle : Bundle)
  | tally (bundle : Bundle) (reply : Reply Nat)
  | handBack
  | releasing
  deriving Repr, DecidableEq, Inhabited

/-- A task with the teardown failures it met, the last one first. -/
inductive Task where
  | waiting
  | running (thread : Nat) (point : TaskPoint) (thrown : List LifecycleError)
  | ended (thrown : List LifecycleError)
  deriving Repr, DecidableEq, Inhabited

def Task.thread? : Task → Option Nat
  | .running thread _ _ => some thread
  | _ => none

inductive Phase where
  | starting
  | joining (joined : Nat)
  | showingStats
  | draining
  | counting (drained : List LifecycleError)
  | closing (drained : List LifecycleError) (counters : Counters)
  | ended (outcome : Except TeardownErrors Summary)

structure Run where
  plan : Plan
  stock : Stock
  cursor : UInt64 := 0
  progress : Progress := {}
  tasks : Array Task := #[]
  phase : Phase := .starting
  /-- The teardown failures of the tasks that were joined. -/
  thrown : List LifecycleError := []

namespace Run

inductive Event where
  /-- A thread took a step in a call. -/
  | called (thread : Nat) (event : PerWorker.Event Nat)
  | claimed (task : Nat) (bundle : Bundle)
  | logged (event : LogEvent)
  deriving Repr, DecidableEq, Inhabited

inductive Move where
  /-- A thread of the pool takes a task up. -/
  | start (task thread : Nat)
  | work (task : Nat)
  | coordinate
  deriving Repr, DecidableEq, Inhabited

/-- The worker that a thread of the pool is. Its number means nothing to anyone. -/
def worker (thread : Nat) : WorkerId := .thread { number := thread, label := "?" }

def setTask (r : Run) (i : Nat) (task : Task) : Run :=
  { r with tasks := r.tasks.setIfInBounds i task }

def isBusy (r : Run) (thread : Nat) : Bool := r.tasks.any (·.thread? = some thread)

/-- A thread of the pool takes up a task that waits. The pool grows by one thread at a time. -/
def startTask (r : Run) (i thread : Nat) : Option (Run × List Event) :=
  if r.tasks[i]? = some .waiting && Stock.firstPoolThread ≤ thread
      && thread ≤ r.stock.system.threads.size && !r.isBusy thread then
    let stock := if thread < r.stock.system.threads.size then r.stock
      else { r.stock with system := r.stock.system.addThread }
    some (Run.setTask { r with stock } i (.running thread .check []), [])
  else none

private def called (thread : Nat) (events : List (PerWorker.Event Nat)) : List Event :=
  events.map (.called thread)

def callStep (r : Run) (i thread : Nat) (body : Body) (thrown : List LifecycleError)
    (next : Reply Nat → TaskPoint × List LifecycleError) : Option (Run × List Event) :=
  match r.stock.step thread body with
  | none => none
  | some (stock, events) =>
    let r := { r with stock }
    match Stock.reply? events with
    | none => some (r, called thread events)
    | some reply =>
      let (point, more) := next reply
      some (r.setTask i (.running thread point (more ++ thrown)), called thread events)

def noBody : Body := fun e => (.ok 0, e)

def failure? : Reply Nat → Option String
  | .value _ => none
  | .fault fault => some fault.message
  | .failed e => some e.message
  | .panicked message => some message
  | _ => some ""

/-- Makes a call for a task, which then stands at that point. -/
def makeCall (r : Run) (i thread : Nat) (call : Call) (point : TaskPoint)
    (thrown : List LifecycleError) (events : List Event) : Option (Run × List Event) :=
  match r.stock.call thread call with
  | some (stock, more) =>
    some (Run.setTask { r with stock } i (.running thread point thrown),
      events ++ called thread more)
  | none => none

def workTask (r : Run) (cancelled : Bool) (i thread : Nat) (point : TaskPoint)
    (thrown : List LifecycleError) : Option (Run × List Event) :=
  let goto (r : Run) (point : TaskPoint) (events : List Event) : Option (Run × List Event) :=
    some (r.setTask i (.running thread point thrown), events)
  match point with
  | .check => if cancelled then some (r.setTask i (.ended thrown), []) else goto r .claim []
  | .claim =>
    let first := r.cursor
    let r := { r with cursor := first + r.plan.bundleSize }
    if r.plan.elements ≤ first then some (r.setTask i (.ended thrown), [])
    else
      let bundle : Bundle := { first, last := min (first + r.plan.bundleSize) r.plan.elements }
      r.makeCall i thread (.process r.stock.manager (worker thread)) (.processing bundle) thrown
        [.claimed i bundle]
  | .processing bundle =>
    r.callStep i thread bundle.body thrown fun reply => (.tally bundle reply, [])
  | .tally bundle reply =>
    let point := if r.plan.releaseAfterBundle then TaskPoint.handBack else .check
    match reply with
    | .value bytes => goto { r with progress := r.progress.countDone bundle bytes } point []
    | other =>
      goto { r with progress := r.progress.countFailed } point
        [.logged (.bundleFailed (worker thread) bundle.first bundle.last
          ((failure? other).getD ""))]
  | .handBack =>
    r.makeCall i thread (.release r.stock.manager (worker thread)) .releasing thrown []
  | .releasing =>
    r.callStep i thread noBody thrown fun
      | .failed e => (.check, [e])
      | _ => (.check, [])

def summary (r : Run) (counters : Counters) : Summary :=
  { workers := r.plan.workers, bundles := r.progress.bundles
    failedBundles := r.progress.failedBundles, elements := r.progress.elements
    outputBytes := r.progress.outputBytes, setups := counters.setups
    teardowns := counters.teardowns, cancelled := r.cursor < r.plan.elements }

/-- Makes a call for the run, which then is in that phase. -/
def enter (r : Run) (call : Call) (phase : Phase) : Option (Run × List Event) :=
  match r.stock.call Stock.runThread call with
  | some (stock, events) => some ({ r with stock, phase }, called Stock.runThread events)
  | none => none

/-- A step in the call that the run has under way; with the answer it goes on. -/
def await (r : Run) (next : Run → Reply Nat → Option (Run × List Event)) :
    Option (Run × List Event) :=
  match r.stock.step Stock.runThread noBody with
  | none => none
  | some (stock, events) =>
    let r := { r with stock }
    let events' := called Stock.runThread events
    match Stock.reply? events with
    | none => some (r, events')
    | some reply =>
      match next r reply with
      | some (r, more) => some (r, events' ++ more)
      | none => none

def coordinate (r : Run) : Option (Run × List Event) :=
  match r.phase with
  | .starting =>
    some ({ r with tasks := Array.replicate r.plan.workers .waiting, phase := .joining 0 },
      [.logged (.runStarted r.stock.name r.plan.workers r.plan.elements r.plan.bundleSize
        r.plan.releaseAfterBundle)])
  | .joining joined =>
    match r.tasks[joined]? with
    | some (.ended thrown) =>
      some ({ r with phase := .joining (joined + 1), thrown := r.thrown ++ thrown.reverse }, [])
    | some _ => none
    | none => r.enter (.logStats r.stock.manager) .showingStats
  | .showingStats => r.await fun r _ => r.enter (.drain [r.stock.manager]) .draining
  | .draining =>
    r.await fun r reply =>
      let drained := match reply with
        | .errors es => es
        | _ => []
      r.enter (.counters r.stock.manager) (.counting drained)
  | .counting drained =>
    r.await fun r reply =>
      match reply with
      | .counters counters => some ({ r with phase := .closing drained counters }, [])
      | _ => some ({ r with phase := .closing drained {} }, [])
  | .closing drained counters =>
    let summary := r.summary counters
    let outcome := (TeardownErrors.ofList (r.thrown ++ drained)).map fun _ => summary
    some ({ r with phase := .ended outcome },
      [.logged (.runFinished r.stock.name summary.bundles.toNat summary.failedBundles.toNat
        summary.elements.toNat summary.setups summary.teardowns summary.cancelled)])
  | .ended _ => none

/-- One step of a run, if the move is open. `cancelled` tells whether the run is to stop. -/
def step (r : Run) (cancelled : Bool) : Move → Option (Run × List Event)
  | .start i thread => r.startTask i thread
  | .work i =>
    match r.tasks[i]? with
    | some (.running thread point thrown) => r.workTask cancelled i thread point thrown
    | _ => none
  | .coordinate => r.coordinate

def logs (events : List Event) : List LogEvent :=
  events.filterMap fun
    | .called _ (.logged e) => some e
    | .logged e => some e
    | _ => none

end Run
end PerWorker.Pipeline
