import PerWorker.Pipeline.Schedule
import PerWorker.Shutdown.Await

/-!
One run of the pipeline under the eyes of the main thread, which awaits the shutdown. The run is the
one task that the shutdown waits for, and its end starts the shutdown. When the run is not over in
time the main thread gives it up and tears down what is left. Every step says what it logs, and an
interleaving is any sequence of steps.
-/
namespace PerWorker

open Pipeline (Run Stock Summary)

inductive Exit where
  | success
  | bundlesFailed (count : UInt64)
  | tornDownWithErrors (errors : TeardownErrors)
  | notGraceful (error : ShutdownError)
  deriving DecidableEq

namespace Exit

def fault? : Exit → Option Fault
  | .success => none
  | .bundlesFailed count => some { message := s!"{count.toNat} bundle(s) failed" }
  | .tornDownWithErrors errors => some { message := errors.message }
  | .notGraceful error => some error.fault

end Exit

/-- Where the task stands that sees the run through. -/
inductive RunnerPoint where
  | running
  | finishing
  | notifying
  | cancelling
  | ended
  deriving Repr, DecidableEq, Inhabited

inductive MainPoint where
  | awaiting (await : Await)
  /-- Waits for the run's outcome after a graceful shutdown. -/
  | joining
  | givingUp (error : ShutdownError)
  | surveying (error : ShutdownError)
  | tearingDown (error : ShutdownError) (remaining : Nat)
  | regretting (error : ShutdownError) (errors : TeardownErrors)
  | exited (exit : Exit)

structure Session where
  run : Run
  shutdown : Shutdown
  runner : RunnerPoint := .running
  main : MainPoint := .awaiting .trigger
  /-- The main thread gave the run up. -/
  aborted : Bool := false
  interrupted : Bool := false
  clock : Nat := 0

namespace Session

def start (c : Config) (cores : Nat) : Except CloneError Session := do
  let stock ← Stock.ofConfig c
  return {
    run := { plan := .ofConfig c cores, stock }
    shutdown := Shutdown.add { timeout := c.gracefulTimeout } 1 }

inductive Move where
  | main
  | runner
  | pool (move : Run.Move)
  | interrupt
  | pass (nanoseconds : Nat)
  deriving Repr, DecidableEq, Inhabited

/-- Whether the run stands where giving it up ends it. Once all its tasks have ended it goes through
to its end. -/
def isGivenUp (s : Session) : Bool :=
  s.aborted && match s.run.phase with
    | .starting | .joining _ => true
    | _ => false

def runnerStep (s : Session) : Option (Session × List LogEvent) :=
  match s.runner with
  | .running =>
    match s.run.phase with
    | .ended _ => some ({ s with runner := .finishing }, [])
    | _ =>
      if s.isGivenUp then none
      else
        match s.run.coordinate with
        | some (run, events) => some ({ s with run }, Run.logs events)
        | none => none
  | .finishing =>
    let (latch, last) := s.shutdown.latch.finish
    let shutdown := { s.shutdown with latch }
    some ({ s with shutdown, runner := if last then .notifying else .cancelling }, [])
  | .notifying =>
    let shutdown := { s.shutdown with latch := s.shutdown.latch.notify }
    some ({ s with shutdown, runner := .cancelling }, [])
  | .cancelling => some ({ s with shutdown := s.shutdown.cancel, runner := .ended }, [])
  | .ended => none

private def setStock (s : Session) (stock : Stock) : Session :=
  { s with run := { s.run with stock } }

private def callMain (s : Session) (call : Call) (main : MainPoint) (logs : List LogEvent) :
    Option (Session × List LogEvent) :=
  match s.run.stock.call Stock.mainThread call with
  | some (stock, events) => some (setStock { s with main } stock, logs ++ Stock.logs events)
  | none => none

/-- The main thread goes on in a call; with the answer it does something else. -/
private def answerMain (s : Session)
    (next : Session → Reply Nat → Option (Session × List LogEvent)) :
    Option (Session × List LogEvent) :=
  match s.run.stock.step Stock.mainThread Run.noBody with
  | none => none
  | some (stock, events) =>
    let s := setStock s stock
    match Stock.reply? events with
    | none => some (s, Stock.logs events)
    | some reply => (next s reply).map fun (s, more) => (s, Stock.logs events ++ more)

def mainStep (s : Session) : Option (Session × List LogEvent) :=
  match s.main with
  | .awaiting (.ended none) => some ({ s with main := .joining }, [])
  | .awaiting (.ended (some error)) =>
    some ({ s with main := .givingUp error }, [.shutdownFailed error.message])
  | .awaiting await =>
    match await.step s.shutdown s.interrupted s.clock with
    | some (await, shutdown, logs) => some ({ s with main := .awaiting await, shutdown }, logs)
    | none => none
  | .joining =>
    match s.runner, s.run.outcome? with
    | .ended, some (.ok summary) =>
      let exit := if 0 < summary.failedBundles then Exit.bundlesFailed summary.failedBundles
        else .success
      some ({ s with main := .exited exit },
        [.runComplete summary.bundles.toNat summary.failedBundles.toNat summary.elements.toNat
          summary.cancelled])
    | .ended, some (.error errors) =>
      some ({ s with main := .exited (.tornDownWithErrors errors) }, [])
    | _, _ => none
  | .givingUp error =>
    callMain { s with aborted := true } (.len s.run.stock.manager) (.surveying error) []
  | .surveying error =>
    answerMain s fun s reply =>
      let remaining := match reply with
        | .count n => n
        | _ => 0
      callMain s (.releaseAll s.run.stock.manager) (.tearingDown error remaining) []
  | .tearingDown error remaining =>
    answerMain s fun s reply =>
      let errors := match reply with
        | .errors es => es
        | _ => []
      let main := match TeardownErrors.ofList errors with
        | .ok () => MainPoint.exited (.notGraceful error)
        | .error errors => .regretting error errors
      some ({ s with main }, [.runAbandoned s.run.stock.name remaining errors.length])
  | .regretting error errors =>
    some ({ s with main := .exited (.notGraceful error) },
      [.abandonedTeardownFailed errors.message])
  | .exited _ => none

def step (s : Session) : Move → Option (Session × List LogEvent)
  | .main => s.mainStep
  | .runner => s.runnerStep
  | .pool .coordinate => none
  | .pool move =>
    match s.run.step s.shutdown.cancelled move with
    | some (run, events) => some ({ s with run }, Run.logs events)
    | none => none
  | .interrupt => some ({ s with interrupted := true }, [])
  | .pass n => some ({ s with clock := s.clock + n }, [])

def exit? (s : Session) : Option Exit :=
  match s.main with
  | .exited exit => some exit
  | _ => none

end Session
end PerWorker
