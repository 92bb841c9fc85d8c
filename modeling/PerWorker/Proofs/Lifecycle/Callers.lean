import PerWorker.Proofs.Lifecycle.Bodies
import PerWorker.Proofs.Lifecycle.Points

/-!
Who waits for whom on a stack. A call that waits does so for the one right above it, and that one is
of the kind it made. Main statement: every stack of an interleaving is such a chain of calls.
-/
namespace PerWorker

def Frame.isServed {F V : Type} : Frame F V → Bool
  | .get .. | .release .. | .survey _ .releaseAll _ _ | .releaseAll .. | .releaseAllLog .. => true
  | _ => false

namespace System

variable {F V : Type}

/-- The first call can stand right above the second one. -/
inductive Serves : Frame F V → Frame F V → Prop
  | get (m w point) : Serves (.get m w point) (.processGet m w)
  | discard (m w point fault) : Serves (.release m w point) (.processRelease m w fault)
  | sweep (m w point pending errors) : Serves (.release m w point) (.releaseAll m pending errors)
  | survey (m shard seen pending drained errors) :
      Serves (.survey m .releaseAll shard seen) (.drain m pending drained errors)
  | releaseAll (m left thrown pending drained errors) :
      Serves (.releaseAll m left thrown) (.drain m pending drained errors)
  | log (m thrown pending drained errors) :
      Serves (.releaseAllLog m thrown) (.drain m pending drained errors)
  | free (frame caller) (awake : caller.waits = false) : Serves frame caller

variable {initial s next : System F V} {t : Nat} {a : Action F V}
  {frame caller first : Frame F V} {below frames more : List (Frame F V)}
  {events : List (Event V)} {past : List (Entry F V)}

theorem Serves.awake (serves : Serves frame caller) (alone : frame.isServed = false) :
    caller.waits = false := by
  cases serves with
  | free _ _ awake => exact awake
  | _ => cases alone

theorem still_under (chain : (frame :: below).IsChain Serves) (alone : frame.isServed = false) :
    ∀ caller ∈ below.head?, caller.waits = false :=
  fun caller member => ((List.isChain_cons.mp chain).1 caller member).awake alone

theorem resume_under (chain : (frame :: below).IsChain Serves) (alone : frame.isServed = false)
    (reply : Reply V) : resume reply below = (below,[.returned reply]) :=
  resume_quiet (still_under chain alone)

/-- Each call still stands right above one that can wait for it when the innermost one goes on. -/
theorem Onward.chain (onward : Onward s a frame first more)
    (chain : (frame :: below).IsChain Serves) : (first :: more ++ below).IsChain Serves := by
  obtain ⟨serves,rest⟩ := List.isChain_cons.mp chain
  have on (other : Frame F V) (same : ∀ caller, Serves frame caller → Serves other caller) :
      (other :: below).IsChain Serves :=
    List.isChain_cons.mpr ⟨fun caller member => same caller (serves caller member),rest⟩
  have alone (dull : frame.isServed = false) (other : Frame F V) :
      (other :: below).IsChain Serves := on other fun caller serves => .free _ _ (serves.awake dull)
  cases onward with
  | get turn =>
    refine on _ fun caller serves => ?_
    cases serves with
    | get => exact .get ..
    | free _ _ awake => exact .free _ _ awake
  | release turn =>
    refine on _ fun caller serves => ?_
    cases serves with
    | discard => exact .discard ..
    | sweep => exact .sweep ..
    | free _ _ awake => exact .free _ _ awake
  | read m purpose shard shard' seen seen' =>
    refine on _ fun caller serves => ?_
    cases serves with
    | survey => exact .survey ..
    | free _ _ awake => exact .free _ _ awake
  | discard m w c fault => exact .cons_cons (.discard ..) (alone rfl _)
  | sweep m shard seen v rest =>
    refine .cons_cons (.sweep ..) (on _ fun caller serves => ?_)
    cases serves with
    | survey => exact .releaseAll ..
    | free _ _ awake => exact .free _ _ awake
  | drain => exact .cons_cons (.survey ..) (alone rfl _)
  | _ => exact alone rfl _

/-- A drain is answered where nothing waits for it or to a drain of several managers. -/
theorem Serves.drained {m : Nat} {pending : List WorkerId} {thrown : List LifecycleError}
    (serves : Serves (.releaseAll m pending thrown) caller) : caller.waits = false ∨
      ∃ left drained errors, caller = .drain m left drained errors := by
  cases serves with
  | releaseAll => exact Or.inr ⟨_,_,_,rfl⟩
  | free _ _ awake => exact Or.inl awake

theorem resume_chain (reply : Reply V) (chain : frames.IsChain Serves) :
    (resume reply frames).1.IsChain Serves := by
  have resumed := resumed reply frames
  generalize resume reply frames = result at resumed ⊢
  induction resumed with
  | returned => exact chain
  | @woken _ caller first more below woken =>
    obtain ⟨serves,rest⟩ := List.isChain_cons.mp chain
    have alone (dull : caller.isServed = false) (other : Frame F V) :
        (other :: below).IsChain Serves :=
      List.isChain_cons.mpr ⟨fun _ member => .free _ _ ((serves _ member).awake dull),rest⟩
    have on {m : Nat} {pending : List WorkerId} {thrown : List LifecycleError}
        (same : caller = .releaseAll m pending thrown) (other : Frame F V)
        (serves' : ∀ left drained errors, Serves other (.drain m left drained errors)) :
        (other :: below).IsChain Serves := by
      refine List.isChain_cons.mpr ⟨fun above member => ?_,rest⟩
      subst same
      obtain awake | ⟨left,drained,errors,rfl⟩ := (serves above member).drained
      · exact .free _ _ awake
      · exact serves' left drained errors
    cases woken with
    | sweep => exact .cons_cons (.sweep ..) (on rfl _ fun _ _ _ => .releaseAll ..)
    | swept => exact on rfl _ fun _ _ _ => .log ..
    | drain => exact .cons_cons (.survey ..) (alone rfl _)
    | _ => exact alone rfl _
  | passed _ _ _ ih => exact ih chain.tail

theorem firstFrames_chain (call : Call) (floor : Floor frames) (chain : frames.IsChain Serves) :
    (firstFrames call frames).IsChain Serves := by
  have on (other : Frame F V) : (other :: frames).IsChain Serves :=
    List.isChain_cons.mpr ⟨fun caller member => .free _ _ (floor.still caller member),chain⟩
  cases call with
  | process m w => exact .cons_cons (.get ..) (on _)
  | drain ms =>
    cases ms with
    | nil => exact on _
    | cons m ms => exact .cons_cons (.survey ..) (on _)
  | _ => exact on _

theorem step_chain {u : Nat} (moved : s.step t a = some (next,events))
    (chain : (s.stack u).IsChain Serves) : (next.stack u).IsChain Serves := by
  by_cases same : u = t
  · subst same
    cases step_points moved with
    | call call floor here => exact here ▸ firstFrames_chain call floor chain
    | assign value floor here => exact here ▸ chain
    | onward _ own top onward here => exact here ▸ onward.chain (top ▸ chain)
    | closes _ own top closes answers =>
      rw [top] at chain
      exact answers.1 ▸ resume_chain _ chain.tail
  · rwa [(step_effect moved).others same]

/-- Every stack is a chain of calls. -/
theorem Interleaving.chained {sharding : Sharding} {names : List String} {threads : Nat}
    (run : Interleaving (idle sharding names threads) past s) (t : Nat) :
    (s.stack t).IsChain Serves := by
  induction run with
  | start => simp [stack_idle]
  | step u a events before moved ih => exact step_chain moved ih

end System
end PerWorker
