import PerWorker.Proofs.Lifecycle.Points

/-!
The managers that calls are about. Main statement: when no call is made of a manager that is not
there, none is under way on one.
-/
namespace PerWorker

def Call.managers : Call → List Nat
  | .get m _ | .peek m _ | .release m _ | .releaseAll m | .process m _ | .contains m _ | .workers m
  | .len m | .isEmpty m | .counters m | .logStats m => [m]
  | .drain ms => ms
  | .use _ => []

def Action.call? {F V : Type} : Action F V → Option Call
  | .call made => some made
  | _ => none

def calls {F V : Type} (past : List (Entry F V)) : List Call := past.filterMap (·.action.call?)

def Frame.managers {F V : Type} : Frame F V → List Nat
  | .get m _ _ | .peek m _ _ | .release m _ _ | .processGet m _ | .processBody m _ _
  | .processLogFailure m _ _ _ | .processRelease m _ _ | .processLogTeardown m _ _ _
  | .survey m _ _ _ | .releaseAll m _ _ | .releaseAllLog m _ | .contains m _ | .load m _ _ _
  | .logStats m _ _ => [m]
  | .drain m pending _ _ | .drainLogFailure m pending _ _ _ => m :: pending
  | .use _ | .drainLogDone _ _ => []

namespace System

variable {F V : Type} {initial s next : System F V} {t n : Nat} {a : Action F V} {call : Call}
  {frame first : Frame F V} {below more : List (Frame F V)} {events : List (Event V)}
  {past : List (Entry F V)} {reply : Reply V}

def Within (n : Nat) (frames : List (Frame F V)) : Prop :=
  ∀ frame ∈ frames, ∀ m ∈ frame.managers, m < n

theorem lasting_within (n : Nat) :
    Lasting fun frame : Frame F V => ∀ m ∈ frame.managers, m < n where
  onward onward within := by cases onward <;> simp_all [Frame.managers]
  woken woken within := by cases woken <;> simp_all [Frame.managers]

theorem firstFrames_within (known : ∀ m ∈ call.managers, m < n) :
    Within n (firstFrames call [] : List (Frame F V)) := by
  cases call with
  | drain ms => cases ms <;> simp_all [Within,Call.managers,Frame.managers,firstFrames,nextDrain]
  | _ => simp_all [Within,Call.managers,Frame.managers,firstFrames]

/-- No call comes to concern a manager that no caller named. -/
theorem Interleaving.within (run : Interleaving initial past s)
    (idle : ∀ t, initial.stack t = [])
    (known : ∀ call ∈ calls past, ∀ m ∈ call.managers, m < n) : ∀ t, Within n (s.stack t) := by
  refine run.lasting (lasting_within n) idle fun entry member call made => ?_
  refine firstFrames_within (known call (List.mem_filterMap.mpr ⟨entry,member,?_⟩))
  simp [made,Action.call?]

end System
end PerWorker
