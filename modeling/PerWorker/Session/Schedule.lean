import PerWorker.Session

/-!
The plain schedule of a session: the main thread goes first, then the task that sees the run
through, then the plain schedule of the run; time passes when nobody can go on. An interrupt can be
set to arrive once a message holds a given text.
-/
namespace PerWorker.Session

open Pipeline (Run)

/-- The time that has to pass before the main thread goes on by itself. -/
def patience? (s : Session) : Option Nat :=
  match s.main with
  | .awaiting await => (await.deadline?.filter (s.clock < ·)).map (· - s.clock)
  | _ => none

def next? (s : Session) : Option Move :=
  if s.mainStep.isSome then some .main
  else if s.runnerStep.isSome then some .runner
  else
    match s.run.next? with
    | some (.start task thread) => some (.pool (.start task thread))
    | some (.work task) => some (.pool (.work task))
    | _ => s.patience?.map .pass

def hasBegun (s : Session) : Bool :=
  match s.run.phase with
  | .starting => false
  | _ => true

/-- Follows the plain schedule until the main thread exits, for at most that many steps. The events
that are shown are collected, the last one first. `due` tells whether the interrupt is on its way.
Nothing if the main thread does not exit. -/
def follow (s : Session) (shown : LogEvent → Bool) (text : Option String) (due : Bool)
    (logged : List LogEvent) : Nat → Option (Exit × List LogEvent)
  | 0 => none
  | steps + 1 =>
    match s.exit? with
    | some exit => some (exit, logged)
    | none =>
      match s.next? with
      | none => none
      | some move =>
        match s.step move with
        | none => none
        | some (s, logs) =>
          let logs := logs.filter shown
          let due := due || logs.any fun e => text.any fun t => e.message.contains t
          let s := if due && s.hasBegun then { s with interrupted := true } else s
          s.follow shown text due (logs.reverse ++ logged) steps

/-- Follows the plain schedule after some events, with an interrupt that arrives once one of the
events shown has a message that holds the text. -/
def complete (s : Session) (shown : LogEvent → Bool) (text : Option String)
    (before : List LogEvent) : Option (Exit × List LogEvent) :=
  let before := before.filter shown
  let due := before.any fun e => text.any fun t => e.message.contains t
  (s.follow shown text due before.reverse Run.stepLimit).map fun (exit, logged) =>
    (exit, logged.reverse)

end PerWorker.Session
