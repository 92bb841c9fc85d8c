import PerWorker.Shutdown.Await

/-!
A wait for the shutdown with things that happen beside it, each at its time. Time passes only when
the wait cannot go on by itself, and then to what comes next.
-/
namespace PerWorker.Shutdown

inductive Deed where
  | setTimeout (timeout : Duration)
  | add (n : UInt64)
  | finish
  | cancel
  deriving Repr, DecidableEq, Inhabited

def apply (s : Shutdown) : Deed → Shutdown
  | .setTimeout timeout => s.setTimeout timeout
  | .add n => s.add n
  | .finish => s.finish
  | .cancel => s.cancel

structure Cue where
  time : Nat
  deed : Deed
  deriving Repr, DecidableEq, Inhabited

/-- Lets a wait and the deeds beside it run until both have ended. A deed that is due late is done
late, and the others after it. -/
def awaitBeside (s : Shutdown) (a : Await) (clock : Nat) (logs : List LogEvent) :
    List Cue → Await × Shutdown × List LogEvent
  | [] =>
    let (a, s, logs) := a.settle s clock logs Await.stepLimit
    match a.deadline? with
    | some deadline => a.settle s (max clock deadline) logs Await.stepLimit
    | none => (a, s, logs)
  | cue :: rest =>
    let (a, s, logs) := a.settle s clock logs Await.stepLimit
    let (a, s, logs) := match a.deadline? with
      | some deadline =>
        if deadline < cue.time then a.settle s (max clock deadline) logs Await.stepLimit
        else (a, s, logs)
      | none => (a, s, logs)
    awaitBeside (s.apply cue.deed) a (max clock cue.time) logs rest

/-- Awaits the shutdown while the cues are played: what was logged, and why the shutdown was not
graceful, if it was not. -/
def await (s : Shutdown) (cues : List Cue) : Shutdown × List LogEvent × Option ShutdownError :=
  match awaitBeside s .trigger 0 [] cues with
  | (.ended failure, s, logs) => (s, logs, failure)
  | (_, s, logs) => (s, logs, none)

end PerWorker.Shutdown
