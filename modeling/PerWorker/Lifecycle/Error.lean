import PerWorker.Fault
import PerWorker.Worker

/-!
What can go wrong in the life of a copy: the prototype could not be copied, or the setup or
teardown hook of a copy failed. Teardown failures that are collected while several copies are torn
down are reported together.
-/
namespace PerWorker

inductive CloneError where
  | encode (reason : String)
  | decode (reason : String)
  | other (reason : String)
  deriving Repr, DecidableEq, Inhabited

namespace CloneError

def message : CloneError → String
  | .encode reason => "encode original: " ++ reason
  | .decode reason => "decode copy: " ++ reason
  | .other reason => reason

/-- A failed encoding or decoding is caused by the codec's own failure. -/
def causes : CloneError → List String
  | .encode reason | .decode reason => [reason]
  | .other _ => []

def fault (e : CloneError) : Fault := { message := e.message, causes := e.causes }

end CloneError

/-- A failed step in the life of a worker's copy, with the name of its manager. -/
inductive LifecycleError where
  | clone (name : String) (worker : WorkerId) (source : CloneError)
  | setup (name : String) (worker : WorkerId) (id : Nat) (source : Fault)
  | teardown (name : String) (worker : WorkerId) (id : Nat) (source : Fault)
  deriving Repr, DecidableEq, Inhabited

namespace LifecycleError

def name : LifecycleError → String
  | .clone name .. | .setup name .. | .teardown name .. => name

def worker : LifecycleError → WorkerId
  | .clone _ worker _ | .setup _ worker .. | .teardown _ worker .. => worker

def id? : LifecycleError → Option Nat
  | .clone .. => none
  | .setup _ _ id _ | .teardown _ _ id _ => some id

def isClone : LifecycleError → Bool
  | .clone .. => true
  | _ => false

def isSetup : LifecycleError → Bool
  | .setup .. => true
  | _ => false

def isTeardown : LifecycleError → Bool
  | .teardown .. => true
  | _ => false

/-- The message, with the copy's number shown in the way given. -/
def messageShowing (shown : Nat → String) : LifecycleError → String
  | .clone name worker _ => s!"{name}: failed to copy worker function for {worker.text}"
  | .setup name worker id _ => s!"{name}: setup failed for {worker.text} (instance #{shown id})"
  | .teardown name worker id _ =>
    s!"{name}: teardown failed for {worker.text} (instance #{shown id})"

def message (e : LifecycleError) : String := e.messageShowing toString

def causes : LifecycleError → List String
  | .clone _ _ source => source.fault.messages
  | .setup _ _ _ source | .teardown _ _ _ source => source.messages

def fault (e : LifecycleError) : Fault := { message := e.message, causes := e.causes }

end LifecycleError

structure TeardownErrors where
  errors : List LifecycleError
  nonempty : errors ≠ []
  deriving DecidableEq

namespace TeardownErrors

def ofList (errors : List LifecycleError) : Except TeardownErrors Unit :=
  if h : errors = [] then .ok () else .error { errors, nonempty := h }

def size (e : TeardownErrors) : Nat := e.errors.length

def message (e : TeardownErrors) : String := s!"{e.size} teardown(s) failed"

end TeardownErrors
end PerWorker
