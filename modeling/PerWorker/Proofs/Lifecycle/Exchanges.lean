import Mathlib.Logic.Function.Basic
import PerWorker.Proofs.Lifecycle.Callers

/-!
Which call an answer is for. A thread is answered call by call, the innermost first, so that what is
observed of it matches every answer, and everything that is logged, with one of its calls. Main
statement: over every interleaving the calls of a thread that wait for an answer are those its stack
stands for, so that each answer is matched with the call whose frame gives it.
-/
namespace PerWorker

namespace Event

variable {V : Type}

def log? : Event V → Option LogEvent
  | .logged event => some event
  | _ => none

def isAside : Event V → Bool
  | .called _ | .returned _ => false
  | _ => true

end Event

/-- A call with its answer and with what was logged while it was the innermost call of its
thread. -/
structure Exchange (V : Type) where
  call : Call
  log : List LogEvent
  reply : Reply V

/-- The calls that each thread waits for, innermost first, with what has been logged meanwhile, and
the calls that have been answered. -/
structure Dialogue (V : Type) where
  waiting : Nat → List (Call × List LogEvent) := fun _ => []
  settled : List (Exchange V) := []

namespace Dialogue

variable {V : Type}

def hear (d : Dialogue V) (t : Nat) : Event V → Dialogue V
  | .called call => { d with waiting := Function.update d.waiting t ((call,[]) :: d.waiting t) }
  | .logged event =>
    let noted := (d.waiting t).modifyHead fun (call,log) => (call,log ++ [event])
    { d with waiting := Function.update d.waiting t noted }
  | .returned reply =>
    { waiting := Function.update d.waiting t (d.waiting t).tail
      settled := d.settled ++ (d.waiting t).head?.toList.map fun (call,log) => ⟨call,log,reply⟩ }
  | _ => d

def listen (d : Dialogue V) (t : Nat) (events : List (Event V)) : Dialogue V :=
  events.foldl (·.hear t ·) d

variable {d : Dialogue V} {t u : Nat} {told : List (Event V)} {call : Call} {log : List LogEvent}
  {rest : List (Call × List LogEvent)}

theorem listen_append (d : Dialogue V) (t : Nat) (told more : List (Event V)) :
    d.listen t (told ++ more) = (d.listen t told).listen t more :=
  List.foldl_append

theorem listen_others (other : u ≠ t) (d : Dialogue V) (events : List (Event V)) :
    (d.listen t events).waiting u = d.waiting u := by
  induction events generalizing d with
  | nil => rfl
  | cons event events ih =>
    refine (ih (d.hear t event)).trans ?_
    cases event <;> simp [hear,Function.update_of_ne other]

theorem listen_aside (aside : ∀ event ∈ told, event.isAside = true)
    (waits : d.waiting t = (call,log) :: rest) :
    (d.listen t told).settled = d.settled ∧
      (d.listen t told).waiting t = (call,log ++ told.filterMap Event.log?) :: rest := by
  induction told generalizing d log with
  | nil => simp [listen,waits]
  | cons event told ih =>
    obtain ⟨first,later⟩ := List.forall_mem_cons.mp aside
    cases event with
    | called | returned => cases first
    | logged event =>
      have heard : (d.hear t (.logged event)).waiting t = (call,log ++ [event]) :: rest := by
        simp [hear,waits]
      obtain ⟨settled,waiting⟩ := ih later heard
      refine ⟨settled,waiting.trans ?_⟩
      simp [Event.log?]
    | _ => exact ih later waits

theorem listen_answer (aside : ∀ event ∈ told, event.isAside = true)
    (waits : d.waiting t = (call,log) :: rest) (reply : Reply V) :
    (d.listen t (told ++ [.returned reply])).settled =
        d.settled ++ [⟨call,log ++ told.filterMap Event.log?,reply⟩] ∧
      (d.listen t (told ++ [.returned reply])).waiting t = rest := by
  obtain ⟨settled,waiting⟩ := listen_aside aside waits
  rw [listen_append]
  change ((d.listen t told).hear t (.returned reply)).settled = _ ∧
    ((d.listen t told).hear t (.returned reply)).waiting t = rest
  simp [hear,settled,waiting]

end Dialogue

def dialogue {F V : Type} (past : List (Entry F V)) : Dialogue V :=
  past.foldl (fun d entry => d.listen entry.thread entry.events) {}

def exchanges {F V : Type} (past : List (Entry F V)) : List (Exchange V) := (dialogue past).settled

/-- The error of the teardown of a copy that was discarded because its body had failed. -/
def LogEvent.discard? : LogEvent → Option LifecycleError
  | .teardownAfterFailure _ _ error => some error
  | _ => none

/-- The call itself, if it can be told of a teardown that failed. -/
def Call.disposal? : Call → Option Call
  | .release m w => some (.release m w)
  | .releaseAll m => some (.releaseAll m)
  | .process m w => some (.process m w)
  | _ => none

def Frame.disposal? {F V : Type} : Frame F V → Option Call
  | .release m w _ => some (.release m w)
  | .survey m .releaseAll _ _ | .releaseAll m _ _ | .releaseAllLog m _ => some (.releaseAll m)
  | .processGet m w | .processBody m w _ | .processLogFailure m w _ _ | .processRelease m w _
  | .processLogTeardown m w _ _ => some (.process m w)
  | _ => none

namespace System

variable {F V : Type} {sharding : Sharding} {names : List String} {threads t u : Nat}
  {past : List (Entry F V)} {initial s shared next : System F V} {a : Action F V}
  {frame caller first : Frame F V} {below frames after more : List (Frame F V)}
  {events told : List (Event V)} {reply : Reply V} {d : Dialogue V}

/-- The calls that a stack stands for: no other call waits for them. -/
def roots : List (Frame F V) → List (Option Call)
  | [] => []
  | frame :: below =>
    if below.head?.any Frame.waits then roots below else frame.disposal? :: roots below

theorem roots_still (still : ∀ caller ∈ below.head?, caller.waits = false) :
    roots (frame :: below) = frame.disposal? :: roots below := by
  cases below with
  | nil => rfl
  | cons caller below => simp [roots,still caller rfl]

theorem roots_served (waits : caller.waits = true) :
    roots (frame :: caller :: below) = roots (caller :: below) := by
  simp [roots,waits]

/-- A frame gives way to one of the same call, with calls above that it waits for. -/
theorem roots_replaced (first : Frame F V) (below : List (Frame F V))
    (same : frame.disposal? = caller.disposal?) (waits : caller.waits = true) :
    roots (first :: caller :: below) = roots (frame :: below) := by
  rw [roots_served waits,roots,roots,same]

theorem firstFrames_roots (call : Call) (floor : Floor frames) :
    roots (firstFrames call frames : List (Frame F V)) = call.disposal? :: roots frames := by
  have still := floor.still
  cases call with
  | process m w => exact (roots_served rfl).trans (roots_still still)
  | drain ms =>
    cases ms with
    | nil => exact roots_still still
    | cons m ms => exact (roots_served rfl).trans (roots_still still)
  | _ => exact roots_still still

theorem Onward.roots (onward : Onward s a frame first more) (below : List (Frame F V)) :
    System.roots (first :: more ++ below) = System.roots (frame :: below) := by
  cases onward with
  | discard | sweep | drain => exact roots_replaced _ _ rfl rfl
  | read m purpose => cases purpose <;> rfl
  | _ => rfl

theorem Woken.roots (woken : Woken reply caller first more) (below : List (Frame F V)) :
    System.roots (first :: more ++ below) = System.roots (caller :: below) := by
  cases woken with
  | sweep | drain => exact roots_replaced _ _ rfl rfl
  | _ => rfl

/-- An answer is returned for the outermost of the calls that wait for one another, or it is for a
call that goes on. -/
theorem resume_roots (frame : Frame F V) (reply : Reply V) (below : List (Frame F V)) :
    ((resume reply below).2 = [] ∧ roots (resume reply below).1 = roots (frame :: below)) ∨
      ∃ answer root, (resume reply below).2 = [.returned answer] ∧
        roots (frame :: below) = root :: roots (resume reply below).1 := by
  have resumed := resumed reply below
  generalize resume reply below = result at resumed
  induction resumed generalizing frame with
  | returned reply below still => exact Or.inr ⟨reply,_,rfl,roots_still still⟩
  | woken below woken =>
    exact Or.inl ⟨rfl,(woken.roots below).trans (roots_served woken.waits).symm⟩
  | passed waits _ _ ih =>
    rw [roots_served waits]
    exact ih _

theorem Goes.aside (goes : Goes s t a frame shared first more told) :
    ∀ event ∈ told, event.isAside = true := by
  cases goes with
  | get goes | release goes | use goes | body goes => cases goes <;> simp [Event.isAside]
  | _ => simp [Event.isAside]

theorem Replies.aside (replies : Replies s frame shared reply told) :
    ∀ event ∈ told, event.isAside = true := by
  cases replies with
  | release replies => cases replies <;> simp [Event.isAside]
  | _ => simp [Event.isAside]

/-- The calls that wait are those that the stack stands for, and of no discard has been logged so
far that it failed: that comes with the answer. -/
structure Attuned (frames : List (Frame F V)) (waiting : List (Call × List LogEvent)) : Prop where
  kinds : waiting.map (·.1.disposal?) = roots frames
  silent : ∀ entry ∈ waiting, entry.2.findSome? LogEvent.discard? = none

theorem roots_ne_nil (frame : Frame F V) (below : List (Frame F V)) :
    roots (frame :: below) ≠ [] := by
  induction below generalizing frame with
  | nil => simp [roots]
  | cons caller below ih =>
    rw [roots]
    split
    next => exact ih caller
    next => simp

theorem Attuned.waits {waiting : List (Call × List LogEvent)}
    (attuned : Attuned (frame :: below) waiting) : ∃ call log rest,
      waiting = (call,log) :: rest ∧ log.findSome? LogEvent.discard? = none := by
  cases waiting with
  | nil => exact absurd attuned.kinds.symm (roots_ne_nil frame below)
  | cons entry rest => exact ⟨entry.1,entry.2,rest,rfl,attuned.silent entry List.mem_cons_self⟩

theorem Attuned.later {call : Call} {log more : List LogEvent} {rest : List (Call × List LogEvent)}
    (attuned : Attuned frames ((call,log) :: rest)) (same : roots after = roots frames)
    (silent : more.findSome? LogEvent.discard? = none) :
    Attuned after ((call,log ++ more) :: rest) := by
  obtain ⟨kinds,before⟩ := attuned
  obtain ⟨own,others⟩ := List.forall_mem_cons.mp before
  refine ⟨kinds.trans same.symm,List.forall_mem_cons.mpr ⟨?_,others⟩⟩
  rw [List.findSome?_append,silent,Option.or_none]
  exact own

theorem Goes.silent (goes : Goes s t a frame shared first more told) :
    (told.filterMap Event.log?).findSome? LogEvent.discard? = none := by
  cases goes with
  | get goes | release goes | use goes | body goes => cases goes <;> rfl
  | _ => rfl

theorem Replies.silent (replies : Replies s frame shared reply told)
    (other : ∀ m w fault e, frame ≠ .processLogTeardown m w fault e) :
    (told.filterMap Event.log?).findSome? LogEvent.discard? = none := by
  cases replies with
  | release replies => cases replies <;> rfl
  | reported => exact absurd rfl (other _ _ _ _)
  | _ => rfl

theorem Attuned.call (attuned : Attuned frames (d.waiting t)) (call : Call)
    (floor : Floor frames) :
    Attuned (firstFrames call frames : List (Frame F V))
      ((d.listen t [.called call]).waiting t) := by
  have waiting : (d.listen t [.called call]).waiting t = (call,[]) :: d.waiting t := by
    simp [Dialogue.listen,Dialogue.hear]
  rw [waiting]
  exact ⟨by rw [firstFrames_roots call floor,← attuned.kinds]; rfl,
    List.forall_mem_cons.mpr ⟨rfl,attuned.silent⟩⟩

/-- A call that goes on may log something and answers nothing. -/
theorem Attuned.goes (attuned : Attuned (frame :: below) (d.waiting t))
    (goes : Goes s t a frame shared first more told) :
    (d.listen t told).settled = d.settled ∧
      Attuned (first :: more ++ below) ((d.listen t told).waiting t) := by
  obtain ⟨call,log,rest,waits,_⟩ := attuned.waits
  obtain ⟨settled,waiting⟩ := Dialogue.listen_aside goes.aside waits
  refine ⟨settled,?_⟩
  rw [waiting]
  exact (waits ▸ attuned).later (goes.onward.roots below) goes.silent

/-- What is told where the innermost frame replies: no call is answered yet, or the call that has
waited is, with all that it has logged. -/
inductive Settling (frame : Frame F V) (below : List (Frame F V)) (told : List (Event V))
    (reply : Reply V) : List (Exchange V) → Prop
  | onward (none : (resume reply below).2 = []) : Settling frame below told reply []
  | settles (call log answer) (answered : (resume reply below).2 = [.returned answer])
      (root : (roots (frame :: below)).head? = some call.disposal?)
      (silent : log.findSome? LogEvent.discard? = none) :
      Settling frame below told reply [⟨call,log ++ told.filterMap Event.log?,answer⟩]

theorem Attuned.replies (attuned : Attuned (frame :: below) (d.waiting t))
    (chain : (frame :: below).IsChain Serves) (replies : Replies s frame shared reply told) :
    ∃ fresh, Settling frame below told reply fresh ∧
      (d.listen t (told ++ (resume reply below).2)).settled = d.settled ++ fresh ∧
      Attuned (resume reply below).1 ((d.listen t (told ++ (resume reply below).2)).waiting t) := by
  obtain ⟨call,log,rest,waits,silent⟩ := attuned.waits
  obtain ⟨none,same⟩ | ⟨answer,root,answered,split⟩ := resume_roots frame reply below
  · have other : ∀ m w fault e, frame ≠ .processLogTeardown m w fault e := by
      rintro m w fault e rfl
      have answers := resume_under chain rfl reply
      simp [answers] at none
    obtain ⟨settled,waiting⟩ := Dialogue.listen_aside replies.aside waits
    rw [none,List.append_nil,settled,waiting]
    exact ⟨[],.onward none,(List.append_nil _).symm,
      (waits ▸ attuned).later same (replies.silent other)⟩
  · obtain ⟨settled,waiting⟩ := Dialogue.listen_answer replies.aside waits answer
    obtain ⟨kinds,before⟩ := waits ▸ attuned
    rw [split] at kinds
    obtain ⟨kind,kinds⟩ := List.cons.inj kinds
    rw [answered,settled,waiting]
    refine ⟨_,.settles call log answer answered ?_ silent,rfl,kinds,?_⟩
    · rw [split,← kind]; rfl
    · exact fun entry member => before entry (List.mem_cons_of_mem _ member)

theorem step_attuned (moved : s.step t a = some (next,events)) (chain : (s.stack t).IsChain Serves)
    (attuned : Attuned (s.stack t) (d.waiting t)) :
    Attuned (next.stack t) ((d.listen t events).waiting t) := by
  cases step_acts moved with
  | @call call opened =>
    have bound : t < s.threads.size := by simp_all [isOpen]
    have here : (s.setStack t (firstFrames call (s.stack t))).stack t = _ := stack_setStack s _ bound
    rw [here]
    exact attuned.call call (floor_of_open opened)
  | assign => exact attuned
  | @own _ frame below _ _ top acts =>
    have bound := bound_of_stack s t frame below top
    rw [top] at chain attuned
    cases acts with
    | goes goes =>
      rw [stack_setStack _ _ (goes.threads ▸ bound)]
      exact (attuned.goes goes).2
    | replies _ replies =>
      obtain ⟨_,_,_,attuned⟩ := attuned.replies chain replies
      rw [stack_setStack _ _ (replies.threads ▸ bound)]
      exact attuned

theorem dialogue_step (past : List (Entry F V)) (t : Nat) (a : Action F V)
    (events : List (Event V)) :
    dialogue (past ++ [⟨t,a,events⟩]) = (dialogue past).listen t events := by
  simp [dialogue]

/-- Over every interleaving what is observed of a thread tells which of its calls have not been
answered. -/
theorem Interleaving.attuned (run : Interleaving (idle sharding names threads) past s) (t : Nat) :
    Attuned (s.stack t) ((dialogue past).waiting t) := by
  induction run with
  | start => exact ⟨by simp [dialogue,stack_idle,roots],by simp [dialogue]⟩
  | step u a events before moved ih =>
    rw [dialogue_step]
    by_cases same : t = u
    · subst same
      exact step_attuned moved (before.chained t) ih
    · rw [Dialogue.listen_others same,(step_effect moved).others same]
      exact ih

end System
end PerWorker
