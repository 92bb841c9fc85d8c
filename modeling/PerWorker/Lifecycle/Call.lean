import PerWorker.Lifecycle.Counters
import PerWorker.Lifecycle.Error
import PerWorker.Log

/-!
What threads ask of managers and copies, what they get back, and what can be seen of a call while
it is under way. Managers, slots, copies and threads are numbered from zero; the number shown for a
copy is one more.
-/
namespace PerWorker

inductive Call where
  /-- The worker's copy, made and set up on first use. -/
  | get (manager : Nat) (worker : WorkerId)
  /-- The worker's copy if one is registered and set up. -/
  | peek (manager : Nat) (worker : WorkerId)
  /-- Unregisters the worker's copy and tears it down. -/
  | release (manager : Nat) (worker : WorkerId)
  /-- Unregisters and tears down every registered copy. -/
  | releaseAll (manager : Nat)
  /-- Does so for several managers in order, whatever fails. -/
  | drain (managers : List Nat)
  /-- Runs a body on the worker's copy and discards the copy if the body fails. -/
  | process (manager : Nat) (worker : WorkerId)
  /-- Runs a body on a copy through a handle to it. -/
  | use (copy : Nat)
  | contains (manager : Nat) (worker : WorkerId)
  | workers (manager : Nat)
  | len (manager : Nat)
  | isEmpty (manager : Nat)
  | counters (manager : Nat)
  | logStats (manager : Nat)
  deriving Repr, DecidableEq, Inhabited

inductive Reply (V : Type) where
  | handle (copy : Nat)
  | peeked (copy : Option Nat)
  | done
  | failed (error : LifecycleError)
  | errors (errors : List LifecycleError)
  | value (value : V)
  | fault (fault : Fault)
  | workers (workers : List WorkerId)
  | count (n : Nat)
  | flag (b : Bool)
  | counters (values : Counters)
  | panicked (message : String)
  deriving Repr, DecidableEq, Inhabited

inductive Hook where
  | setup
  | teardown
  | body
  deriving Repr, DecidableEq, Inhabited

inductive Ending where
  | returned
  | failed
  | panicked
  deriving Repr, DecidableEq, Inhabited

inductive Event (V : Type) where
  | called (call : Call)
  | returned (reply : Reply V)
  | drawing (manager : Nat)
  | hookStarted (hook : Hook) (copy : Nat)
  | hookEnded (hook : Hook) (copy : Nat) (ending : Ending)
  | logged (event : LogEvent)
  deriving Repr, DecidableEq, Inhabited

end PerWorker
