import PerWorker.Json
import PerWorker.Lifecycle.Counters
import PerWorker.Lifecycle.Error
import PerWorker.Worker

/-!
Log events. Each kind of event is a constructor that holds what the event tells; the level, the
message and the named fields of its record follow from it.
-/
namespace PerWorker

inductive LogLevel where
  | trace
  | debug
  | info
  | warn
  | error
  deriving Repr, DecidableEq, Inhabited

namespace LogLevel

def text : LogLevel → String
  | .trace => "TRACE"
  | .debug => "DEBUG"
  | .info => "INFO"
  | .warn => "WARN"
  | .error => "ERROR"

def rank : LogLevel → Nat
  | .trace => 0
  | .debug => 1
  | .info => 2
  | .warn => 3
  | .error => 4

end LogLevel

inductive ShutdownTrigger where
  | interrupt
  | cancelled
  deriving Repr, DecidableEq, Inhabited

/-- Something worth recording. Errors are recorded by their outermost message; the error of a teardown
that followed a failure is held whole and has no field in the record. -/
inductive LogEvent where
  | setup (name : String) (worker : WorkerId) (id : Nat)
  | cloneFailed (name : String) (worker : WorkerId) (error : String)
  | setupFailed (name : String) (worker : WorkerId) (id : Nat) (error : String)
  | teardown (name : String) (worker : WorkerId) (id : Nat)
  | teardownFailed (name : String) (worker : WorkerId) (id : Nat) (error : String)
  | releaseAllFailed (name : String) (failed : Nat)
  | processFailed (name : String) (worker : WorkerId) (id : Nat) (error : String)
  | teardownAfterFailure (name : String) (worker : WorkerId) (error : LifecycleError)
  | stats (name : String) (registered : Nat) (counters : Counters)
  | drainFailed (name : String) (failed : Nat)
  | drained (managers : Nat) (failed : Nat)
  | sessionClosed (processed : Nat)
  | runStarted (name : String) (workers : Nat) (elements bundleSize : UInt64)
      (releaseAfterBundle : Bool)
  | bundleFailed (worker : WorkerId) (first last : UInt64) (error : String)
  | runFinished (name : String) (bundles failedBundles elements setups teardowns : Nat)
      (cancelled : Bool)
  | runAbandoned (name : String) (remaining failed : Nat)
  | shutdownStarted (trigger : ShutdownTrigger)
  | shutdownSucceeded
  | shutdownTimedOut (seconds pending : Nat)
  | shutdownFailed (error : String)
  | abandonedTeardownFailed (error : String)
  | configLoaded (path : String)
  | runComplete (bundles failedBundles elements : Nat) (cancelled : Bool)
  deriving Repr, DecidableEq, Inhabited

namespace LogEvent

/-- The part of the program that an event comes from, where the event names it. -/
inductive Component where
  | lifecycle
  | enricher
  | runner
  | shutdown
  | config
  | command
  deriving Repr, DecidableEq, Inhabited

def Component.text : Component → String
  | .lifecycle => "lifecycle"
  | .enricher => "enricher"
  | .runner => "runner"
  | .shutdown => "graceful-shutdown"
  | .config => "config"
  | .command => "main"

def component : LogEvent → Component
  | .sessionClosed .. => .enricher
  | .runStarted .. | .bundleFailed .. | .runFinished .. | .runAbandoned .. => .runner
  | .shutdownStarted .. | .shutdownSucceeded | .shutdownTimedOut .. => .shutdown
  | .configLoaded .. => .config
  | .shutdownFailed .. | .abandonedTeardownFailed .. | .runComplete .. => .command
  | _ => .lifecycle

def level : LogEvent → LogLevel
  | .setup .. | .teardown .. | .processFailed .. | .sessionClosed .. => .debug
  | .stats .. | .drained .. | .runStarted .. | .runFinished .. | .shutdownStarted ..
  | .shutdownSucceeded | .configLoaded .. | .runComplete .. => .info
  | .setupFailed .. | .releaseAllFailed .. | .bundleFailed .. | .shutdownTimedOut .. => .warn
  | .cloneFailed .. | .teardownFailed .. | .teardownAfterFailure .. | .drainFailed ..
  | .runAbandoned .. | .shutdownFailed .. | .abandonedTeardownFailed .. => .error

def message : LogEvent → String
  | .setup .. => "worker function set up"
  | .cloneFailed .. => "failed to copy worker function"
  | .setupFailed .. => "setup failed, copy discarded"
  | .teardown .. => "worker function torn down"
  | .teardownFailed .. => "teardown failed"
  | .releaseAllFailed .. => "not all worker functions were torn down cleanly"
  | .processFailed .. => "discarding worker function after failure"
  | .teardownAfterFailure .. => "teardown after processing failure failed"
  | .stats .. => "lifecycle manager stats"
  | .drainFailed .. => "manager drained with teardown failures"
  | .drained .. => "all managers drained"
  | .sessionClosed .. => "session closed"
  | .runStarted .. => "pipeline started"
  | .bundleFailed .. => "bundle failed"
  | .runFinished .. => "pipeline finished"
  | .runAbandoned .. => "run abandoned, tore down remaining worker functions"
  | .shutdownStarted .. => "cancellation started"
  | .shutdownSucceeded => "runner was gracefully shut down"
  | .shutdownTimedOut .. => "not all tasks were closed within timeout"
  | .shutdownFailed .. => "failed to gracefully shut down runner"
  | .abandonedTeardownFailed .. => "worker functions were not torn down cleanly"
  | .configLoaded .. => "config loaded"
  | .runComplete .. => "run complete"

def id? : LogEvent → Option Nat
  | .setup _ _ id | .setupFailed _ _ id _ | .teardown _ _ id | .teardownFailed _ _ id _
  | .processFailed _ _ id _ => some id
  | _ => none

def processed? : LogEvent → Option Nat
  | .sessionClosed processed => some processed
  | _ => none

/-- The fields that tell the kind of an event apart from others of its component. -/
def kindFields : LogEvent → List (String × String)
  | .setup .. => [("event", "setup")]
  | .cloneFailed .. => [("event", "clone_failed")]
  | .setupFailed .. => [("event", "setup_failed")]
  | .teardown .. => [("event", "teardown")]
  | .teardownFailed .. => [("event", "teardown_failed")]
  | .releaseAllFailed .. => [("event", "release_all_failed")]
  | .processFailed .. => [("event", "process_failed")]
  | .teardownAfterFailure .. => [("event", "teardown_after_failure")]
  | .stats .. | .sessionClosed .. => []
  | .drainFailed .. => [("event", "drain_failed")]
  | .drained .. => [("event", "drained")]
  | .runStarted .. => [("event", "start")]
  | .bundleFailed .. => [("event", "bundle_failed")]
  | .runFinished .. => [("event", "finish")]
  | .runAbandoned .. => [("event", "teardown_abandoned")]
  | .shutdownStarted .interrupt => [("event", "os_signal"), ("signal", "SIGINT")]
  | .shutdownStarted .cancelled => [("event", "ctx_done")]
  | .shutdownSucceeded => [("event", "shutdown_success")]
  | .shutdownTimedOut .. => [("event", "shutdown_timeout")]
  | .shutdownFailed .. => [("scope", "runner"), ("event", "graceful_shutdown_failed")]
  | .abandonedTeardownFailed .. => [("scope", "runner"), ("event", "teardown_failed")]
  | .configLoaded .. => [("event", "load_success")]
  | .runComplete .. => [("event", "done")]

private def about (name : String) (worker : WorkerId) : List (String × Json) :=
  [("name", .str name), ("worker", .str worker.text)]

def detailFields : LogEvent → List (String × Json)
  | .setup name worker id | .teardown name worker id =>
    about name worker ++ [("instance", .nat id)]
  | .cloneFailed name worker error => about name worker ++ [("error", .str error)]
  | .setupFailed name worker id error | .teardownFailed name worker id error
  | .processFailed name worker id error =>
    about name worker ++ [("instance", .nat id), ("error", .str error)]
  | .teardownAfterFailure name worker _ => about name worker
  | .releaseAllFailed name failed | .drainFailed name failed =>
    [("name", .str name), ("failed", .nat failed)]
  | .stats name registered counters =>
    [("name", .str name), ("registered", .nat registered), ("copies", .nat counters.copies),
      ("clone_failures", .nat counters.cloneFailures), ("setups", .nat counters.setups),
      ("setup_failures", .nat counters.setupFailures), ("teardowns", .nat counters.teardowns),
      ("teardown_failures", .nat counters.teardownFailures)]
  | .drained managers failed => [("managers", .nat managers), ("failed", .nat failed)]
  | .sessionClosed processed => [("processed", .nat processed)]
  | .runStarted name workers elements bundleSize releaseAfterBundle =>
    [("name", .str name), ("workers", .nat workers), ("elements", .nat elements.toNat),
      ("bundle_size", .nat bundleSize.toNat), ("release_after_bundle", .bool releaseAfterBundle)]
  | .bundleFailed worker first last error =>
    [("worker", .str worker.text), ("start", .nat first.toNat), ("end", .nat last.toNat),
      ("error", .str error)]
  | .runFinished name bundles failedBundles elements setups teardowns cancelled =>
    [("name", .str name), ("bundles", .nat bundles), ("failed_bundles", .nat failedBundles),
      ("elements", .nat elements), ("setups", .nat setups), ("teardowns", .nat teardowns),
      ("cancelled", .bool cancelled)]
  | .runAbandoned name remaining failed =>
    [("name", .str name), ("remaining", .nat remaining), ("failed", .nat failed)]
  | .shutdownStarted _ | .shutdownSucceeded => []
  | .shutdownTimedOut seconds pending => [("timeout_secs", .nat seconds), ("pending", .nat pending)]
  | .shutdownFailed error | .abandonedTeardownFailed error => [("error", .str error)]
  | .configLoaded path => [("path", .str path)]
  | .runComplete bundles failedBundles elements cancelled =>
    [("bundles", .nat bundles), ("failed_bundles", .nat failedBundles),
      ("elements", .nat elements), ("cancelled", .bool cancelled)]

def toJson (event : LogEvent) : Json :=
  .obj (("level", .str event.level.text) :: ("message", .str event.message)
    :: ("component", .str event.component.text)
    :: (event.kindFields.map fun (name, value) => (name, Json.str value)) ++ event.detailFields)

end LogEvent
end PerWorker
