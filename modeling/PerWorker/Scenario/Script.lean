import PerWorker.Enricher
import PerWorker.Fault
import PerWorker.Json

/-!
Scripts for threads and hooks. A step is one request of a thread; a deed is what a hook or body of
a scripted worker function does: change its copy, wait at a gate, take steps of its own, and end.
-/
namespace PerWorker.Scenario

inductive WorkerRef where
  | named (name : String)
  /-- The thread that takes the step. -/
  | current
  /-- The thread with that label. -/
  | labelled (label : String)
  deriving Repr, Inhabited

inductive Conclusion where
  | value (value : Json)
  | fail (fault : Fault)
  | panic (message : String)
  deriving Repr, Inhabited

/-- What a join tells about the hooks that the joined threads ran. -/
inductive HookReport where
  | listed
  | counted
  | omitted
  deriving Repr, Inhabited

mutual
/-- What a hook or body of a scripted function does, part after part. -/
inductive Deed where
  /-- Adds numbers to what the copy has seen, gives it another deed for its teardown, waits at a
  gate, takes steps, ends. -/
  | mk (push : List Int) (onTeardown : Option (Option Deed)) (gate : Option String)
      (steps : List Step) (conclusion : Conclusion)

inductive Body where
  | deed (deed : Deed)
  /-- Opens the session of an enricher, processes elements, and closes the session. -/
  | session (opens : Bool) (elements : List UInt64) (closes : Bool)
  /-- Only looks at the copy. -/
  | view

/-- One step of a thread. Managers are numbered; handles, gates and threads have names. -/
inductive Step where
  | get (manager : Nat) (worker : WorkerRef) (store : Option String) (hidesLive : Bool)
  | peek (manager : Nat) (worker : WorkerRef) (store : Option String)
  | inspect (handle : String)
  | use (handle : String) (body : Body)
  | sameCopy (first second : String)
  | sameWorker (first second : String)
  | distinct (handles : List String)
  | release (manager : Nat) (worker : WorkerRef)
  | releaseAll (manager : Nat)
  | drain (manager : Nat)
  | drainFrom (managers : List Nat)
  | abandon (manager : Nat)
  | process (manager : Nat) (worker : WorkerRef) (body : Body)
  | len (manager : Nat)
  | isEmpty (manager : Nat)
  | contains (manager : Nat) (worker : WorkerRef)
  | name (manager : Nat)
  | workers (manager : Nat)
  | counters (manager : Nat)
  | outstanding (manager : Nat)
  | logStats (manager : Nat)
  | spawn (label : String) (steps : List Step)
  | join (labels : List String) (sorted quiet : Bool) (hooks : HookReport)
  | openGate (gate : String)
  | entered (gate : String) (count : Nat)
  | pause (milliseconds : Nat)
  | untilRegistered (manager : Nat) (worker : WorkerRef) (registered : Bool)
  | untilDead (handle : String)
end

deriving instance Inhabited for Deed
deriving instance Inhabited for Body
deriving instance Inhabited for Step

namespace Deed

def nothing : Deed := .mk [] none none [] (.value .null)

def push : Deed → List Int | .mk push _ _ _ _ => push
def onTeardown : Deed → Option (Option Deed) | .mk _ onTeardown _ _ _ => onTeardown
def gate : Deed → Option String | .mk _ _ gate _ _ => gate
def steps : Deed → List Step | .mk _ _ _ steps _ => steps
def conclusion : Deed → Conclusion | .mk _ _ _ _ conclusion => conclusion

end Deed

/-- A worker function that does what scripts say. The tag, the base and the deed for its teardown
belong to the prototype; what it has seen, its number and its state belong to the running copy. -/
structure Scripted where
  manager : Nat
  tag : String := ""
  base : List Int := []
  onTeardown : Option Deed := none
  seen : List Int := []
  number : Nat := 0
  up : Bool := false
  down : Bool := false
  deriving Inhabited

namespace Scripted

/-- What survives when the function is written and read back. -/
def written (f : Scripted) : Scripted :=
  { f with seen := [], number := 0, up := false, down := false }

def apply (f : Scripted) (deed : Deed) : Scripted :=
  { f with seen := f.seen ++ deed.push, onTeardown := deed.onTeardown.getD f.onTeardown }

end Scripted

inductive Performer where
  | scripted (f : Scripted)
  | enricher (e : Enricher)
  deriving Inhabited

end PerWorker.Scenario
