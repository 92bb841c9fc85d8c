import PerWorker.Proofs.Lifecycle.Conservation
import PerWorker.Proofs.Lifecycle.Exchanges

/-!
Teardown hooks that fail. Each failure becomes an error that one call owes to the next, until the
call that a thread or foreign code made answers with it or has logged it. Main statement: in one
step a failure becomes an error that is owed, and an error that is owed is handed on or told.
-/
namespace PerWorker

namespace Exchange

variable {V : Type}

/-- The error that a release answers with. -/
def released? (m : Nat) (exchange : Exchange V) : Option LifecycleError :=
  match exchange.call with
  | .release n _ => if n = m then exchange.reply.error? else none
  | _ => none

/-- The list of errors that the drain of a manager answers with. -/
def drained (m : Nat) (exchange : Exchange V) : List LifecycleError :=
  match exchange.call, exchange.reply with
  | .releaseAll n, .errors errors => if n = m then errors else []
  | _, _ => []

/-- The error that a call whose body failed has logged as that of the teardown which followed. -/
def discarded? (m : Nat) (exchange : Exchange V) : Option LifecycleError :=
  match exchange.call, exchange.reply with
  | .process n _, .fault _ => if n = m then exchange.log.findSome? LogEvent.discard? else none
  | _, _ => none

def errors (m : Nat) (exchange : Exchange V) : List LifecycleError :=
  (exchange.released? m).toList ++ exchange.drained m ++ (exchange.discarded? m).toList

end Exchange

namespace Moment

variable {F V : Type}

/-- The error of a teardown hook that fails. -/
def failed? (m : Nat) (moment : Moment F V) : Option LifecycleError :=
  match moment.state.stack moment.entry.thread, moment.entry.action with
  | .release n _ (.tearingDown c) :: _, .finish (.error fault) =>
    if n = m then
      some (.teardown (moment.state.name m) (moment.state.copyWorker c) (c + 1) fault)
    else none
  | _, _ => none

/-- The list of errors that a drain of several managers has got for one of them. -/
def collected (m : Nat) (moment : Moment F V) : List LifecycleError :=
  match moment.state.stack moment.entry.thread with
  | .drainLogFailure n _ _ _ failed :: _ => if n = m then failed else []
  | _ => []

end Moment

namespace Frame

variable {F V : Type}

/-- The errors of teardowns that a call has still to hand on. -/
def owed (name : String) (m : Nat) : Frame F V → List LifecycleError
  | .release n w point => if n = m then reports name (point.torn?.toList.map (w,·)) else []
  | .releaseAll n _ errors | .releaseAllLog n errors | .drainLogFailure n _ _ _ errors =>
    if n = m then errors else []
  | .processLogTeardown n _ _ error => if n = m then [error] else []
  | _ => []

def gathers : Frame F V → Bool
  | .drain .. | .drainLogFailure .. | .drainLogDone .. => true
  | _ => false

def isUncounted (m : Nat) : Frame F V → Bool
  | .release n _ (.yield _ (some _)) | .release n _ (.countTeardown _ (some _))
  | .release n _ (.countFailure _ _) => n == m
  | _ => false

end Frame

namespace System

open Ledger

variable {F V : Type}

def failures (initial : System F V) (past : List (Entry F V)) (m : Nat) : List LifecycleError :=
  (initial.moments past).filterMap (·.failed? m)

def collected (initial : System F V) (past : List (Entry F V)) (m : Nat) : List LifecycleError :=
  (initial.moments past).flatMap (·.collected m)

variable {sharding : Sharding} {names : List String} {threads : Nat} {past : List (Entry F V)}
  {initial s shared next : System F V} {t m n : Nat} {w : WorkerId} {a : Action F V} {name : String}
  {frame caller : Frame F V} {below frames after : List (Frame F V)} {events told : List (Event V)}
  {reply : Reply V} {point : ReleasePoint} {root : Option Call} {log : List LogEvent}
  {d : Dialogue V}

def owing (name : String) (m : Nat) (frames : List (Frame F V)) : List LifecycleError :=
  frames.flatMap (Frame.owed name m)

def telling (m : Nat) (root : Option Call) (log : List LogEvent) (reply : Reply V) :
    List LifecycleError :=
  root.elim [] fun call => (Exchange.mk call log reply).errors m

def tellings (m : Nat) (root : Option Call) (log : List LogEvent) (events : List (Event V)) :
    List LifecycleError :=
  events.flatMap fun
    | .returned reply => telling m root log reply
    | _ => []

theorem owing_cons (name : String) (m : Nat) (frame : Frame F V) (below : List (Frame F V)) :
    owing name m (frame :: below) = frame.owed name m ++ owing name m below := rfl

theorem telling_disposal (call : Call) (log : List LogEvent) (reply : Reply V) :
    telling m call.disposal? log reply = (Exchange.mk call log reply).errors m := by
  cases call <;> rfl

@[simp] theorem telling_none (m : Nat) (log : List LogEvent) (reply : Reply V) :
    telling m none log reply = [] := rfl

theorem telling_release (reply : Reply V) : telling m (some (.release n w)) log reply =
    if n = m then reply.error?.toList else [] := by
  by_cases same : n = m <;> simp [telling,Exchange.errors,Exchange.released?,Exchange.drained,
    Exchange.discarded?,same]

theorem telling_errors (errors : List LifecycleError) :
    telling m (some (.releaseAll n)) log (.errors errors : Reply V) =
      if n = m then errors else [] := by
  simp [telling,Exchange.errors,Exchange.released?,Exchange.drained,Exchange.discarded?]

theorem telling_unlisted (unlisted : ∀ errors, reply ≠ .errors errors) :
    telling m (some (.releaseAll n)) log reply = [] := by
  cases reply with
  | errors errors => exact absurd rfl (unlisted errors)
  | _ => rfl

theorem telling_process (silent : log.findSome? LogEvent.discard? = none) (reply : Reply V) :
    telling m (some (.process n w)) log reply = [] := by
  cases reply <;> simp [telling,Exchange.errors,Exchange.released?,Exchange.drained,
    Exchange.discarded?,silent]

@[simp] theorem tellings_nil (m : Nat) (root : Option Call) (log : List LogEvent) :
    tellings m root log ([] : List (Event V)) = [] := rfl

@[simp] theorem tellings_returned (m : Nat) (root : Option Call) (log : List LogEvent)
    (reply : Reply V) : tellings m root log [.returned reply] = telling m root log reply :=
  List.append_nil _

theorem nextRelease_owing {pending : List WorkerId} {errors : List LifecycleError}
    (following : nextRelease n pending errors below = some after) :
    owing name m after = (if n = m then errors else []) ++ owing name m below := by
  cases pending with
  | cons w pending =>
    cases following
    simp [owing_cons,Frame.owed,ReleasePoint.torn?,reports]
  | nil => cases errors <;> cases following; rfl

theorem nextRelease_ends {pending : List WorkerId} {errors : List LifecycleError}
    (following : nextRelease n pending errors below = none) : errors = [] := by
  cases pending <;> cases errors <;> first | rfl | cases following

theorem nextDrain_owing (pending : List Nat) (drained : Nat) (errors : List LifecycleError) :
    owing name m (nextDrain pending drained errors below) = owing name m below := by
  cases pending <;> rfl

def answering (frame : Frame F V) (below : List (Frame F V)) : Option Call :=
  (roots (frame :: below)).head?.join

theorem answering_still (still : ∀ caller ∈ below.head?, caller.waits = false) :
    answering frame below = frame.disposal? := by
  rw [answering,roots_still still]
  rfl

theorem answering_served (waits : caller.waits = true) :
    answering frame (caller :: below) = answering caller below := by
  rw [answering,roots_served waits,answering]

/-- What an answer tells is told to the caller, or is owed by the call that receives it. -/
def Handed (name : String) (m : Nat) (log : List LogEvent) (frame : Frame F V)
    (below : List (Frame F V)) (reply : Reply V) : Prop :=
  (telling m frame.disposal? log reply ++ owing name m below).Perm
    (tellings m (answering frame below) log (resume reply below).2 ++
      owing name m (resume reply below).1)

theorem handed_still (still : ∀ caller ∈ below.head?, caller.waits = false) :
    Handed name m log frame below reply := by
  rw [Handed,resume_quiet still,answering_still still,tellings_returned]

theorem handed_aside (chain : (frame :: below).IsChain Serves)
    (other : ∀ n w point, frame ≠ .release n w point)
    (silent : frame.isServed = true → log.findSome? LogEvent.discard? = none) :
    Handed name m log frame below reply := by
  obtain ⟨serves,under⟩ := List.isChain_cons.mp chain
  cases below with
  | nil => exact handed_still (by simp)
  | cons caller rest =>
    cases serves caller rfl with
    | discard | sweep => exact (other _ _ _ rfl).elim
    | get n w point =>
      have still := still_under under rfl
      have root : answering (.get n w point) (.processGet n w :: rest) = some (.process n w) :=
        (answering_served rfl).trans (answering_still still)
      cases reply <;> simp [Handed,root,resume,resume_quiet still,telling_process (silent rfl),
        Frame.disposal?,owing_cons,Frame.owed]
    | survey n shard seen pending drained errors | releaseAll n left thrown pending drained errors
    | log n thrown pending drained errors =>
      have still := still_under under rfl
      have root (frame : Frame F V) : answering frame (.drain n pending drained errors :: rest) =
          none :=
        (answering_served rfl).trans (answering_still still)
      cases reply with
      | errors failed =>
        cases failed <;> simp [Handed,root,resume,nextDrain_owing,telling_errors,Frame.disposal?,
          owing_cons,Frame.owed]
      | _ => simp [Handed,root,resume,resume_quiet still,telling_unlisted,Frame.disposal?,
          owing_cons,Frame.owed]
    | free _ _ awake => exact handed_still (by simpa using awake)

theorem resume_sweep {pending : List WorkerId} {errors : List LifecycleError}
    (calm : ∀ message, reply ≠ .panicked message) :
    resume reply (.releaseAll m pending errors :: below : List (Frame F V)) =
      (nextRelease m pending (errors ++ reply.error?.toList) below).elim
        (resume (.errors (errors ++ reply.error?.toList)) below) (·,[]) := by
  cases reply with
  | panicked message => exact absurd rfl (calm message)
  | failed e => rfl
  | _ => simp only [resume,Reply.error?,Option.toList_none,List.append_nil]

/-- The error of a release is returned, or passes to the call that waits for it. -/
theorem handed_release (chain : (.release n w point :: below : List (Frame F V)).IsChain Serves)
    (silent : log.findSome? LogEvent.discard? = none)
    (calm : n = m → ∀ message, reply ≠ .panicked message) :
    Handed name m log (.release n w point) below reply := by
  obtain ⟨serves,under⟩ := List.isChain_cons.mp chain
  cases below with
  | nil => exact handed_still (by simp)
  | cons caller rest =>
    cases serves caller rfl with
    | discard _ _ _ fault =>
      have still := still_under under rfl
      have root : answering (.release n w point) (.processRelease n w fault :: rest) =
          some (.process n w) :=
        (answering_served rfl).trans (answering_still still)
      cases reply <;> simp [Handed,root,resume,resume_quiet still,telling_process silent,
        telling_release,Frame.disposal?,Reply.error?,owing_cons,Frame.owed]
    | sweep _ _ _ pending errors =>
      have root : answering (.release n w point) (.releaseAll n pending errors :: rest) =
          answering (.releaseAll n pending errors) rest := answering_served rfl
      have passed (reply : Reply V) :
          Handed name m log (.releaseAll n pending errors) rest reply :=
        handed_aside under (by simp) fun _ => silent
      have same : owing name m (.releaseAll n pending errors :: rest) =
          (if n = m then errors else []) ++ owing name m rest := owing_cons ..
      by_cases ends : ∃ message, reply = .panicked message
      · obtain ⟨message,rfl⟩ := ends
        have apart : n ≠ m := fun own => calm own message rfl
        have handed := passed (.panicked message)
        rw [Handed,root,same]
        simpa [Handed,resume,telling_release,telling_unlisted,Frame.disposal?,apart] using handed
      · have calm : ∀ message, reply ≠ .panicked message := not_exists.mp ends
        rw [Handed,root,same,resume_sweep calm]
        cases following : nextRelease n pending (errors ++ reply.error?.toList) rest with
        | none =>
          obtain ⟨rfl,none⟩ := List.append_eq_nil_iff.mp (nextRelease_ends following)
          have handed := passed (.errors [])
          simpa [Handed,telling_release,telling_errors,Frame.disposal?,none] using handed
        | some after =>
          simp only [Option.elim,nextRelease_owing following,tellings_nil,List.nil_append,
            Frame.disposal?,telling_release]
          split
          next =>
            simp only [← List.append_assoc]
            exact List.perm_append_comm.append_right _
          next => exact .rfl
    | free _ _ awake => exact handed_still (by simpa using awake)

/-- A call that answers tells what it owes. -/
theorem Replies.owed (replies : Replies s frame shared reply told)
    (silent : log.findSome? LogEvent.discard? = none)
    (worker : ∀ w c fault, frame = .release m w (.logFailure c fault) → s.copyWorker c = w) :
    frame.owed (s.name m) m =
      telling m frame.disposal? (log ++ told.filterMap Event.log?) reply := by
  cases replies with
  | @release n w _ _ _ _ replies =>
    rw [Frame.disposal?,telling_release,Frame.owed]
    split
    next same =>
      subst same
      cases replies with
      | @failed c fault =>
        have worker := worker w c fault rfl
        simp [ReleasePoint.torn?,reports,Reply.error?,worker]
      | _ => simp [ReleasePoint.torn?,reports,Reply.error?]
    next => rfl
  | body => exact (telling_process (by simpa using silent) _).symm
  | @reported n w fault e =>
    by_cases same : n = m <;> simp [Frame.owed,Frame.disposal?,telling,Exchange.errors,
      Exchange.released?,Exchange.drained,Exchange.discarded?,Event.log?,LogEvent.discard?,silent,
      same]
  | empty => simp [Frame.owed,Frame.disposal?,telling_errors]
  | listed => exact (telling_errors _).symm
  | _ => rfl

theorem Settling.tells {fresh : List (Exchange V)} (settling : Settling frame below told reply fresh)
    (m : Nat) : ∃ log, log.findSome? LogEvent.discard? = none ∧ fresh.flatMap (·.errors m) =
      tellings m (answering frame below) (log ++ told.filterMap Event.log?)
        (resume reply below).2 := by
  cases settling with
  | onward none => exact ⟨[],rfl,by simp [none]⟩
  | settles call log answer answered root silent =>
    refine ⟨log,silent,?_⟩
    rw [answered,answering,root,tellings_returned,Option.join_some,telling_disposal]
    exact List.append_nil _

/-- A call that goes on keeps what it owes, and a release owes the error of a hook that fails. -/
theorem Onward.owing {first : Frame F V} {more : List (Frame F V)} (m : Nat)
    (events : List (Event V)) (onward : Onward s a frame first more)
    (top : s.stack t = frame :: below)
    (worker : ∀ w c, frame = .release m w (.tearingDown c) → s.copyWorker c = w) :
    (Moment.failed? m ⟨s,⟨t,a,events⟩⟩).toList ++ frame.owed (s.name m) m =
      Moment.collected m ⟨s,⟨t,a,events⟩⟩ ++ System.owing (s.name m) m (first :: more) := by
  cases onward with
  | release turn =>
    cases turn with
    | finish c result =>
      rename_i n v
      by_cases same : n = m
      · subst same
        have worker := worker v c rfl
        cases result <;> simp [Moment.failed?,Moment.collected,top,System.owing,Frame.owed,
          ReleasePoint.torn?,reports,failure?,worker]
      · cases result <;> simp [Moment.failed?,Moment.collected,top,System.owing,Frame.owed,same]
    | _ => simp [Moment.failed?,Moment.collected,top,System.owing,Frame.owed,ReleasePoint.torn?,
        reports]
  | _ => simp [Moment.failed?,Moment.collected,top,System.owing,Frame.owed,ReleasePoint.torn?,
      reports]

theorem Replies.idle (replies : Replies s frame shared reply told)
    (top : s.stack t = frame :: below) (events : List (Event V)) :
    Moment.failed? m ⟨s,⟨t,a,events⟩⟩ = none ∧ Moment.collected m ⟨s,⟨t,a,events⟩⟩ = [] := by
  cases replies with
  | release replies => cases replies <;> simp [Moment.failed?,Moment.collected,top]
  | _ => simp [Moment.failed?,Moment.collected,top]

/-- An answer is told to whoever made the call, or is owed from then on by the call that waited for
it. -/
theorem Replies.owing (replies : Replies s frame shared reply told)
    (chain : (frame :: below).IsChain Serves) {fresh : List (Exchange V)}
    (settling : Settling frame below told reply fresh)
    (calm : ∀ w c message, frame ≠ .release m w (.unwind c message))
    (worker : ∀ w c fault, frame = .release m w (.logFailure c fault) → s.copyWorker c = w) :
    (System.owing (s.name m) m (frame :: below)).Perm
      (fresh.flatMap (·.errors m) ++ System.owing (s.name m) m (resume reply below).1) := by
  obtain ⟨log,before,tells⟩ := settling.tells m
  have silent (other : ∀ m w fault e, frame ≠ .processLogTeardown m w fault e) :
      (log ++ told.filterMap Event.log?).findSome? LogEvent.discard? = none := by
    rw [List.findSome?_append,before,replies.silent other,Option.or_none]
  rw [tells,owing_cons,replies.owed before worker]
  by_cases releases : ∃ n w point, frame = .release n w point
  · obtain ⟨n,w,point,rfl⟩ := releases
    refine handed_release chain (silent (by simp)) ?_
    rintro rfl message rfl
    cases replies with
    | release replies =>
      cases replies with
      | unwound => exact calm _ _ _ rfl
  · refine handed_aside chain (by simpa using releases) fun served => silent ?_
    rintro m w fault e rfl
    cases served

theorem firstFrames_owing (call : Call) (frames : List (Frame F V)) :
    System.owing name m (firstFrames call frames) = System.owing name m frames := by
  cases call with
  | drain ms => exact nextDrain_owing ..
  | _ => simp [firstFrames,owing_cons,Frame.owed,ReleasePoint.torn?,reports]

theorem collected_eq_nil (clear : ∀ frame ∈ (s.stack t).head?, frame.gathers = false) :
    Moment.collected m ⟨s,⟨t,a,events⟩⟩ = [] := by
  cases top : s.stack t with
  | nil => simp [Moment.collected,top]
  | cons frame below =>
    have clear := clear frame (by simp [top])
    cases frame with
    | drainLogFailure => cases clear
    | _ => simp [Moment.collected,top]

theorem collected_of_floor (floor : Floor (s.stack t)) :
    Moment.collected m ⟨s,⟨t,a,events⟩⟩ = [] := by
  refine collected_eq_nil fun frame member => ?_
  have foreign := floor frame member
  cases frame <;> first | rfl | cases foreign

/-- In one step a failure becomes an error that is owed, and an error that is owed is owed by
another call or told. -/
theorem step_owing (moved : s.step t a = some (next,events)) (chain : (s.stack t).IsChain Serves)
    (attuned : Attuned (s.stack t) (d.waiting t))
    (calm : ∀ w c message, .release m w (.unwind c message) ∉ s.stack t)
    (worker : ∀ w point c, .release m w point ∈ s.stack t →
      (point.takes? = some c ∨ ∃ fault, point.torn? = some (c,fault)) → s.copyWorker c = w) :
    ∃ fresh, (d.listen t events).settled = d.settled ++ fresh ∧
      ((Moment.failed? m ⟨s,⟨t,a,events⟩⟩).toList ++ System.owing (s.name m) m (s.stack t)).Perm
        (fresh.flatMap (·.errors m) ++ Moment.collected m ⟨s,⟨t,a,events⟩⟩ ++
          System.owing (s.name m) m (next.stack t)) := by
  cases step_acts moved with
  | @call call opened =>
    have bound : t < s.threads.size := by simp_all [isOpen]
    have here : (s.setStack t (firstFrames call (s.stack t))).stack t = _ := stack_setStack s _ bound
    have same : System.owing (s.name m) m (firstFrames call (s.stack t)) = _ :=
      firstFrames_owing call _
    refine ⟨[],(List.append_nil _).symm,?_⟩
    rw [here,same,collected_of_floor (floor_of_open opened)]
    simp [Moment.failed?]
  | assign running =>
    refine ⟨[],(List.append_nil _).symm,?_⟩
    rw [collected_of_floor (floor_of_running running)]
    exact .of_eq (by simp [Moment.failed?]; rfl)
  | @own _ frame below _ _ top acts =>
    have bound := bound_of_stack s t frame below top
    have member : frame ∈ s.stack t := by simp [top]
    rw [top] at chain attuned ⊢
    cases acts with
    | goes goes =>
      have handed := goes.onward.owing m events top fun w c same =>
        worker w _ c (same ▸ member) (Or.inl rfl)
      refine ⟨[],(attuned.goes goes).1.trans (List.append_nil _).symm,?_⟩
      rw [stack_setStack _ _ (goes.threads ▸ bound),owing_cons,← List.append_assoc,handed,
        List.flatMap_nil,List.nil_append,List.append_assoc]
      exact .of_eq (congrArg _ (List.flatMap_append ..).symm)
    | replies _ replies =>
      obtain ⟨fresh,settling,settled,_⟩ := attuned.replies chain replies
      obtain ⟨unfailed,uncollected⟩ := replies.idle (a := a) (m := m) top _
      refine ⟨fresh,settled,?_⟩
      rw [stack_setStack _ _ (replies.threads ▸ bound),unfailed,uncollected,List.append_nil]
      exact replies.owing chain settling (fun w c message same => calm w c message (same ▸ member))
        fun w c fault same => worker w _ c (same ▸ member) (Or.inr ⟨_,rfl⟩)

theorem resume_uncounted (reply : Reply V) (frames : List (Frame F V)) :
    (resume reply frames).1.countP (Frame.isUncounted m) =
      frames.countP (Frame.isUncounted m) := by
  have resumed := resumed reply frames
  generalize resume reply frames = result at resumed ⊢
  induction resumed with
  | returned => rfl
  | woken below woken => cases woken <;> rfl
  | @passed _ _ caller _ _ waits _ _ ih =>
    have counted : caller.isUncounted m = false := by cases caller <;> first | rfl | cases waits
    rw [ih,List.countP_cons_of_neg (by simp [counted])]

theorem firstFrames_uncounted (call : Call) (frames : List (Frame F V)) :
    (firstFrames call frames).countP (Frame.isUncounted m) =
      frames.countP (Frame.isUncounted m) := by
  cases call with
  | drain ms => cases ms <;> rfl
  | _ => rfl

/-- How many failures of a stack have been counted as teardowns and not as failures. -/
def failing (m : Nat) (frames : List (Frame F V)) : Nat :=
  (frames.filterMap (Frame.account? m)).count .failed

theorem failing_resume (reply : Reply V) (frames : List (Frame F V)) :
    failing m (resume reply frames).1 = failing m frames := by
  rw [failing,resume_accounts,failing]

theorem failing_append (above below : List (Frame F V)) :
    failing m (above ++ below) = failing m above + failing m below := by
  simp [failing,List.filterMap_append,List.count_append]

theorem failing_eq_zero (other : ∀ w c fault, frame ≠ .release m w (.countFailure c fault)) :
    failing m [frame] = 0 := by
  have apart : frame.account? m ≠ some .failed := by
    cases frame with
    | get n w point => cases point <;> simp [Frame.account?,GetPoint.account?,Account.to]
    | release n w point =>
      cases point with
      | countFailure c fault =>
        have apart : n ≠ m := by
          rintro rfl
          exact other w c fault rfl
        simp [Frame.account?,Account.to_other apart]
      | leave i found => cases found <;> simp [Frame.account?,ReleasePoint.account?,Account.to]
      | _ => simp [Frame.account?,ReleasePoint.account?,Account.to]
    | _ => simp [Frame.account?]
  cases account : frame.account? m <;> simp_all [failing]

theorem failing_eq_one {c : Nat} {fault : Fault} :
    failing m [(.release m w (.countFailure c fault) : Frame F V)] = 1 := by
  simp [failing,Frame.account?,ReleasePoint.account?,Account.to]

theorem Onward.uncounted {first : Frame F V} {more : List (Frame F V)} (m : Nat)
    (events : List (Event V)) (onward : Onward s a frame first more)
    (top : s.stack t = frame :: below) :
    (failing m [frame] - failing m (first :: more)) +
        (first :: more).countP (Frame.isUncounted m) =
      [frame].countP (Frame.isUncounted m) +
        (Moment.failed? m ⟨s,⟨t,a,events⟩⟩).toList.length := by
  cases onward with
  | @release n w _ _ turn =>
    cases turn with
    | finish c result =>
      cases result <;> by_cases same : n = m <;>
        simp [failing_eq_zero,failure?,Moment.failed?,top,Frame.isUncounted,same]
    | count c fault =>
      by_cases same : n = m
      · simp [failing_eq_zero,failing_eq_one,Moment.failed?,top,Frame.isUncounted,same]
      · simp [failing_eq_zero,Moment.failed?,top,Frame.isUncounted,same]
    | fail c fault =>
      by_cases same : n = m
      · simp [failing_eq_zero,failing_eq_one,Moment.failed?,top,Frame.isUncounted,same]
      · simp [failing_eq_zero,Moment.failed?,top,Frame.isUncounted,same]
    | yield c fault =>
      cases fault <;> simp [failing_eq_zero,Moment.failed?,top,Frame.isUncounted]
    | _ => simp [failing_eq_zero,Moment.failed?,top,Frame.isUncounted]
  | _ => simp [failing_eq_zero,Moment.failed?,top,Frame.isUncounted]

/-- In one step a hook that fails is to be counted, and it is counted once. -/
theorem step_uncounted (moved : s.step t a = some (next,events)) :
    (failing m (s.stack t) - failing m (next.stack t)) +
        (next.stack t).countP (Frame.isUncounted m) =
      (s.stack t).countP (Frame.isUncounted m) +
        (Moment.failed? m ⟨s,⟨t,a,events⟩⟩).toList.length := by
  cases step_points moved with
  | call call floor here =>
    rw [here,firstFrames_uncounted,failing,failing,firstFrames_accounts]
    simp [Moment.failed?]
  | assign value floor here => simp [here,Moment.failed?]
  | @onward _ frame below first more _ own top onward here =>
    have counted := onward.uncounted m events top
    have old := failing_append (m := m) [frame] below
    rw [here,failing_append,List.countP_append,top,← List.singleton_append,old,List.countP_append]
    omega
  | @closes _ frame below reply _ own top closes answers =>
    have none : failing m [frame] = 0 ∧ [frame].countP (Frame.isUncounted m) = 0 ∧
        Moment.failed? m ⟨s,⟨t,a,events⟩⟩ = none := by
      cases closes with
      | release ended => cases ended <;> simp [failing_eq_zero,Moment.failed?,top,Frame.isUncounted]
      | _ => simp [failing_eq_zero,Moment.failed?,top,Frame.isUncounted]
    have old := failing_append (m := m) [frame] below
    rw [answers.1,resume_uncounted,failing_resume,top,← List.singleton_append,old,
      List.countP_append]
    simp [none]

end System
end PerWorker
