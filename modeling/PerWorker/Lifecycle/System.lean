import PerWorker.Lifecycle.Call

/-!
The shared state of managers and the stacks of the threads that use them. A manager maps workers to
slots; a slot is the cell in which one worker's copy is populated and retired under a lock of its
own, and each copy has a lock for the code that runs on it. Locks are not reentrant and record the
thread that holds them. The map of a manager is kept in shards, and a look at all its workers reads
one shard after the other.
-/
namespace PerWorker

inductive SlotState where
  /-- Registered but not populated. -/
  | vacant
  | live (copy : Nat)
  /-- Removed from the map, or about to be, and never populated again. -/
  | retired
  deriving Repr, DecidableEq, Inhabited

/-- The cell of one worker in one manager. -/
structure Slot where
  manager : Nat
  worker : WorkerId
  state : SlotState := .vacant
  holder : Option Nat := none
  deriving Repr, DecidableEq, Inhabited

/-- A copy of the worker function with the worker it is bound to. `live` turns false when the copy
is claimed for teardown. -/
structure Copy (F : Type) where
  manager : Nat
  worker : WorkerId
  value : F
  live : Bool := true
  holder : Option Nat := none
  deriving Repr, DecidableEq, Inhabited

/-- A manager: its name, the slot of each registered worker, and its counters. -/
structure Manager where
  name : String
  slots : List (WorkerId × Nat) := []
  counters : Counters := {}
  deriving Repr, DecidableEq, Inhabited

namespace Manager

def slot? (m : Manager) (worker : WorkerId) : Option Nat := m.slots.lookup worker

def insert (m : Manager) (worker : WorkerId) (slot : Nat) : Manager :=
  { m with slots := m.slots ++ [(worker, slot)] }

def erase (m : Manager) (worker : WorkerId) : Manager :=
  { m with slots := m.slots.filter (·.1 ≠ worker) }

def eraseSlot (m : Manager) (worker : WorkerId) (slot : Nat) : Manager :=
  if m.slot? worker = some slot then m.erase worker else m

def bump (m : Manager) (counter : Counter) : Manager :=
  { m with counters := m.counters.bump counter }

end Manager

structure Sharding where
  count : Nat
  shardOf : WorkerId → Fin count

def Sharding.single : Sharding := { count := 1, shardOf := fun _ => 0 }

/-- How a thread leaves a slot that it entered to get a copy. -/
inductive Departure where
  | found (copy : Nat)
  | failed (error : LifecycleError)
  /-- The slot was retired meanwhile: start over. -/
  | again
  | unwinding (message : String)
  deriving Repr, DecidableEq, Inhabited

/-- Where a `get` stands. From `enter` on, up to `leave`, it holds the slot's lock. -/
inductive GetPoint (F : Type) where
  | look
  | register
  | enter (slot : Nat)
  | replicating (slot : Nat)
  | countCloneFailure (slot : Nat) (error : CloneError)
  | logCloneFailure (slot : Nat) (error : CloneError)
  | countCopy (slot : Nat) (value : F)
  | number (slot : Nat) (value : F)
  | settingUp (slot copy : Nat)
  | countSetupFailure (slot copy : Nat) (fault : Fault)
  | logSetupFailure (slot copy : Nat) (fault : Fault)
  | countSetup (slot copy : Nat)
  | logSetup (slot copy : Nat)
  | publish (slot copy : Nat)
  | retire (slot : Nat) (error : LifecycleError)
  | leave (slot : Nat) (departure : Departure)
  | prune (slot : Nat) (error : Option LifecycleError)
  deriving Repr, DecidableEq, Inhabited

inductive PeekPoint where
  | look
  | enter (slot : Nat)
  | leave (slot : Nat) (found : Option Nat)
  deriving Repr, DecidableEq, Inhabited

/-- Where a `release` stands: the worker is unmapped, the slot is retired under its lock, and the
copy that was in it is torn down under its own. -/
inductive ReleasePoint where
  | unregister
  | enter (slot : Nat)
  | retire (slot : Nat)
  | leave (slot : Nat) (found : Option Nat)
  | kill (copy : Nat)
  | claim (copy : Nat)
  | tearingDown (copy : Nat)
  | unwind (copy : Nat) (message : String)
  | yield (copy : Nat) (fault : Option Fault)
  | countTeardown (copy : Nat) (fault : Option Fault)
  | logTeardown (copy : Nat)
  | countFailure (copy : Nat) (fault : Fault)
  | logFailure (copy : Nat) (fault : Fault)
  deriving Repr, DecidableEq, Inhabited

inductive BodyPoint (V : Type) where
  | claim (copy : Nat)
  | running (copy : Nat)
  | unwind (copy : Nat) (message : String)
  | yield (copy : Nat) (result : Except Fault V)
  deriving Repr

inductive SurveyPurpose where
  | releaseAll
  | workers
  | len
  | isEmpty
  | stats
  deriving Repr, DecidableEq, Inhabited

/-- One call under way. A frame that waits does so for the frame above it. -/
inductive Frame (F V : Type) where
  | get (manager : Nat) (worker : WorkerId) (point : GetPoint F)
  | peek (manager : Nat) (worker : WorkerId) (point : PeekPoint)
  | release (manager : Nat) (worker : WorkerId) (point : ReleasePoint)
  | use (point : BodyPoint V)
  /-- Waits for the worker's copy. -/
  | processGet (manager : Nat) (worker : WorkerId)
  | processBody (manager : Nat) (worker : WorkerId) (point : BodyPoint V)
  | processLogFailure (manager : Nat) (worker : WorkerId) (copy : Nat) (fault : Fault)
  /-- Waits for the broken copy to be released. -/
  | processRelease (manager : Nat) (worker : WorkerId) (fault : Fault)
  | processLogTeardown (manager : Nat) (worker : WorkerId) (fault : Fault)
      (error : LifecycleError)
  /-- Reads the workers of a manager from that shard on. -/
  | survey (manager : Nat) (purpose : SurveyPurpose) (shard : Nat) (seen : List WorkerId)
  /-- Waits for one of the releases of a drained manager. -/
  | releaseAll (manager : Nat) (pending : List WorkerId) (errors : List LifecycleError)
  | releaseAllLog (manager : Nat) (errors : List LifecycleError)
  /-- Waits for one of several managers to be drained. -/
  | drain (manager : Nat) (pending : List Nat) (drained : Nat) (errors : List LifecycleError)
  | drainLogFailure (manager : Nat) (pending : List Nat) (drained : Nat)
      (errors failed : List LifecycleError)
  | drainLogDone (drained : Nat) (errors : List LifecycleError)
  | contains (manager : Nat) (worker : WorkerId)
  /-- Reads the counters that are left; `registered` is known when they are to be logged. -/
  | load (manager : Nat) (left : List Counter) (read : Counters) (registered : Option Nat)
  | logStats (manager : Nat) (registered : Nat) (counters : Counters)

/-- Managers, slots, copies and the stack of calls of each thread, innermost first. -/
structure System (F V : Type) where
  sharding : Sharding := .single
  managers : Array Manager := #[]
  slots : Array Slot := #[]
  copies : Array (Copy F) := #[]
  threads : Array (List (Frame F V)) := #[]

namespace System

variable {F V : Type}

def start (names : List String) : System F V :=
  { managers := (names.map fun name => { name : Manager }).toArray, threads := #[[]] }

def addThread (s : System F V) : System F V := { s with threads := s.threads.push [] }

def stack (s : System F V) (t : Nat) : List (Frame F V) := s.threads.getD t []

def setStack (s : System F V) (t : Nat) (frames : List (Frame F V)) : System F V :=
  { s with threads := s.threads.setIfInBounds t frames }

def name (s : System F V) (m : Nat) : String := ((s.managers[m]?).map (·.name)).getD ""

def mapManager (s : System F V) (m : Nat) (f : Manager → Manager) : System F V :=
  { s with managers := s.managers.modify m f }

def mapSlot (s : System F V) (i : Nat) (f : Slot → Slot) : System F V :=
  { s with slots := s.slots.modify i f }

def mapCopy (s : System F V) (c : Nat) (f : Copy F → Copy F) : System F V :=
  { s with copies := s.copies.modify c f }

def bump (s : System F V) (m : Nat) (counter : Counter) : System F V :=
  s.mapManager m (·.bump counter)

def slot? (s : System F V) (m : Nat) (worker : WorkerId) : Option Nat :=
  (s.managers[m]?).bind (·.slot? worker)

def shardWorkers (s : System F V) (m shard : Nat) : List WorkerId :=
  match s.managers[m]? with
  | some manager =>
    (manager.slots.map (·.1)).filter fun worker => (s.sharding.shardOf worker).val = shard
  | none => []

/-- Takes the lock of a slot, unless a thread holds it. -/
def enterSlot? (s : System F V) (i t : Nat) : Option (System F V × SlotState) :=
  match s.slots[i]? with
  | some slot =>
    if slot.holder.isNone then some (s.mapSlot i ({ · with holder := some t }), slot.state)
    else none
  | none => none

def leaveSlot (s : System F V) (i : Nat) : System F V := s.mapSlot i ({ · with holder := none })

/-- Takes the lock of a copy, unless a thread holds it. -/
def claimCopy? (s : System F V) (c t : Nat) : Option (System F V) :=
  match s.copies[c]? with
  | some copy =>
    if copy.holder.isNone then some (s.mapCopy c ({ · with holder := some t })) else none
  | none => none

def yieldCopy (s : System F V) (c : Nat) : System F V := s.mapCopy c ({ · with holder := none })

def copyWorker (s : System F V) (c : Nat) : WorkerId :=
  ((s.copies[c]?).map (·.worker)).getD default

def isLive (s : System F V) (c : Nat) : Bool := ((s.copies[c]?).map (·.live)).getD false

end System
end PerWorker
