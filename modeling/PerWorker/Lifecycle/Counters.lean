/-!
The six transition counters of a manager. They are read one at a time, in the order of
`Counter.all`.
-/
namespace PerWorker

inductive Counter where
  /-- Copies produced from the template. -/
  | copies
  /-- Failed copy attempts. -/
  | cloneFailures
  /-- Successful setup hooks. -/
  | setups
  /-- Failed setup hooks. -/
  | setupFailures
  /-- Teardown hooks run, successful or not. -/
  | teardowns
  /-- Failed teardown hooks. -/
  | teardownFailures
  deriving Repr, DecidableEq, Inhabited

def Counter.all : List Counter :=
  [.copies, .cloneFailures, .setups, .setupFailures, .teardowns, .teardownFailures]

structure Counters where
  copies : Nat := 0
  cloneFailures : Nat := 0
  setups : Nat := 0
  setupFailures : Nat := 0
  teardowns : Nat := 0
  teardownFailures : Nat := 0
  deriving Repr, DecidableEq, Inhabited

namespace Counters

def get (cs : Counters) : Counter → Nat
  | .copies => cs.copies
  | .cloneFailures => cs.cloneFailures
  | .setups => cs.setups
  | .setupFailures => cs.setupFailures
  | .teardowns => cs.teardowns
  | .teardownFailures => cs.teardownFailures

def set (cs : Counters) (counter : Counter) (value : Nat) : Counters :=
  match counter with
  | .copies => { cs with copies := value }
  | .cloneFailures => { cs with cloneFailures := value }
  | .setups => { cs with setups := value }
  | .setupFailures => { cs with setupFailures := value }
  | .teardowns => { cs with teardowns := value }
  | .teardownFailures => { cs with teardownFailures := value }

def bump (cs : Counters) (counter : Counter) : Counters := cs.set counter (cs.get counter + 1)

/-- Copies that passed setup and have not been torn down. -/
def outstanding (cs : Counters) : Int := cs.setups - cs.teardowns

@[simp] theorem get_set (cs : Counters) (k j : Counter) (n : Nat) :
    (cs.set k n).get j = if j = k then n else cs.get j := by
  cases k <;> cases j <;> simp [set, get]

theorem get_bump (cs : Counters) (k j : Counter) :
    (cs.bump k).get j = if j = k then cs.get k + 1 else cs.get j := by
  simp [bump]

end Counters
end PerWorker
