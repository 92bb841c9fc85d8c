import PerWorker.Duration
import PerWorker.Fault
import PerWorker.Log
import PerWorker.Shutdown.Latch

/-!
Graceful shutdown. Whoever awaits it sleeps until the program is interrupted or cancelled, cancels
what still runs, and gives the tasks under way a limited time to finish. Time is counted in
nanoseconds; a wait that could go on is never given up, however late it is.
-/
namespace PerWorker

/-- The tasks to wait for, the time they are given, and whether everything was told to stop. -/
structure Shutdown where
  latch : Latch := {}
  timeout : Duration := .ofSeconds 10
  cancelled : Bool := false
  deriving Repr, DecidableEq, Inhabited

inductive ShutdownError where
  | timedOut
  deriving Repr, DecidableEq, Inhabited

def ShutdownError.message : ShutdownError → String
  | .timedOut => "graceful shutdown timeout exceeded"

def ShutdownError.fault (e : ShutdownError) : Fault := { message := e.message }

namespace Shutdown

def add (s : Shutdown) (n : UInt64) : Shutdown := { s with latch := s.latch.add n }

def finish (s : Shutdown) : Shutdown := { s with latch := s.latch.settle }

def cancel (s : Shutdown) : Shutdown := { s with cancelled := true }

def setTimeout (s : Shutdown) (timeout : Duration) : Shutdown := { s with timeout }

end Shutdown

inductive Await where
  | trigger
  | cancelling
  | timing
  /-- Waits for the tasks until the deadline. -/
  | waiting (timeout : Duration) (deadline : Nat) (waiter : Waiter)
  | succeeding
  | failing (timeout : Duration)
  | ended (failure : Option ShutdownError)
  deriving Repr, DecidableEq, Inhabited

namespace Await

/-- One step of the wait, and what it logs. `interrupted` tells whether an interrupt arrived, and
`clock` is the time. -/
def step (a : Await) (s : Shutdown) (interrupted : Bool) (clock : Nat) :
    Option (Await × Shutdown × List LogEvent) :=
  match a with
  | .trigger =>
    if interrupted then some (.cancelling, s, [.shutdownStarted .interrupt])
    else if s.cancelled then some (.cancelling, s, [.shutdownStarted .cancelled])
    else none
  | .cancelling => some (.timing, s.cancel, [])
  | .timing => some (.waiting s.timeout (clock + s.timeout.nanoseconds) .fresh, s, [])
  | .waiting _ _ .satisfied => some (.succeeding, s, [])
  | .waiting timeout deadline waiter =>
    match waiter.step s.latch with
    | some waiter => some (.waiting timeout deadline waiter, s, [])
    | none => if deadline ≤ clock then some (.failing timeout, s, []) else none
  | .succeeding => some (.ended none, s, [.shutdownSucceeded])
  | .failing timeout =>
    some (.ended (some .timedOut), s,
      [.shutdownTimedOut timeout.seconds s.latch.pending.toNat])
  | .ended _ => none

def deadline? : Await → Option Nat
  | .waiting _ deadline _ => some deadline
  | _ => none

/-- More steps than a wait takes before it ends or something else has to happen. -/
def stepLimit : Nat := 16

/-- Lets the wait go on as far as it can by itself, at most that many steps. -/
def settle (a : Await) (s : Shutdown) (clock : Nat) (logs : List LogEvent) :
    Nat → Await × Shutdown × List LogEvent
  | 0 => (a, s, logs)
  | steps + 1 =>
    match a.step s false clock with
    | some (a, s, more) => a.settle s clock (logs ++ more) steps
    | none => (a, s, logs)

end Await
end PerWorker
