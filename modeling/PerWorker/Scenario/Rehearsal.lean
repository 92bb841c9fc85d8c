import PerWorker.Pipeline.Schedule
import PerWorker.Scenario.Cast

/-!
Rehearsals of the pipeline. The main thread first takes copies out of a manager and uses them; then
the plan is carried out several times in a row, over that manager or over a new one each time.
-/
namespace PerWorker.Scenario

open Pipeline (Plan Run Stock Summary)

/-- A use of a worker's copy before the runs. -/
structure Visit where
  worker : WorkerId
  opens : Bool
  elements : List UInt64
  closes : Bool
  deriving Repr, Inhabited

/-- The copy that was used, and the lengths that it put out. -/
structure Visited where
  copy : Nat
  result : Except Fault (List Nat)
  deriving Inhabited

/-- What a run left: its outcome, its log, and what the manager then held and had counted. -/
structure Rehearsed where
  outcome : Except TeardownErrors Summary
  logs : List LogEvent
  left : Nat
  counters : Counters

namespace Visit

def perform (v : Visit) (s : Stock) : Option (Stock × Visited) := do
  let (s, _, .handle copy) ← s.ask Stock.mainThread (.get s.manager v.worker) Run.noBody | none
  let e ← (s.system.copies[copy]?).map (·.value)
  let (result, used, _) := e.runSession v.opens v.elements v.closes
  let (s, _, _) ← s.ask Stock.mainThread (.use copy) fun _ => (result.map (·.foldl (· + ·) 0), used)
  return (s, { copy, result := result.mapError (·.fault) })

def performAll (s : Stock) : List Visit → Option (Stock × List Visited)
  | [] => some (s, [])
  | v :: rest => do
    let (s, visited) ← v.perform s
    let (s, more) ← performAll s rest
    return (s, visited :: more)

end Visit

/-- Carries a plan out once. The main manager is number zero; a run with a manager of its own has a
new one. -/
def rehearseOnce (s : Stock) (plan : Plan) (cancelled ownManager : Bool) :
    Option (Stock × Rehearsed) := do
  let (run, logs) ← Run.complete { plan, stock := if ownManager then s.renew else s } cancelled
  let outcome ← run.outcome?
  let (s, _, .count left) ← run.stock.ask Stock.mainThread (.len 0) Run.noBody | none
  let (s, _, .counters counters) ← s.ask Stock.mainThread (.counters 0) Run.noBody | none
  return (s, { outcome, logs, left, counters })

def rehearse (s : Stock) (plan : Plan) (cancelled ownManager : Bool) :
    Nat → Option (Stock × List Rehearsed)
  | 0 => some (s, [])
  | times + 1 => do
    let (s, rehearsed) ← rehearseOnce s plan cancelled ownManager
    let (s, more) ← rehearse s plan cancelled ownManager times
    return (s, rehearsed :: more)

end PerWorker.Scenario
