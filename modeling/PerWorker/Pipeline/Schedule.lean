import PerWorker.Pipeline.Run

/-!
The plain schedule of a run: its tasks are taken up in order by one thread of the pool, and each is
worked off before the next one. The schedule decides which copies are made, but not what a run that
is not cancelled puts out.
-/
namespace PerWorker.Pipeline.Run

def next? (r : Run) : Option Move :=
  match r.phase with
  | .ended _ => none
  | .joining joined =>
    match r.tasks[joined]? with
    | some .waiting => some (.start joined Stock.firstPoolThread)
    | some (.running ..) => some (.work joined)
    | _ => some .coordinate
  | _ => some .coordinate

/-- More steps than any run takes. -/
def stepLimit : Nat := 1000000000000

/-- Follows the plain schedule to the end of the run, for at most that many steps. The events logged
so far are collected, the last one first. Nothing if the run does not end. -/
def follow (r : Run) (cancelled : Bool) (logged : List LogEvent) :
    Nat → Option (Run × List LogEvent)
  | 0 => none
  | steps + 1 =>
    match r.next? with
    | none => some (r, logged)
    | some move =>
      match r.step cancelled move with
      | some (r, events) => r.follow cancelled ((logs events).reverse ++ logged) steps
      | none => none

/-- Follows the plain schedule to the end of the run, and gives what was logged in order. -/
def complete (r : Run) (cancelled : Bool) : Option (Run × List LogEvent) :=
  (r.follow cancelled [] stepLimit).map fun (r, logged) => (r, logged.reverse)

def outcome? (r : Run) : Option (Except TeardownErrors Summary) :=
  match r.phase with
  | .ended outcome => some outcome
  | _ => none

end PerWorker.Pipeline.Run
