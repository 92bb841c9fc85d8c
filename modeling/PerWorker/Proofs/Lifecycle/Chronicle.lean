import PerWorker.Proofs.Lifecycle.Identities
import PerWorker.Proofs.Lifecycle.Tallies

/-!
What the log says of copies. Every transition is logged after the hook that brings it about has
ended, and before the copy can go on to the next. Main statement: the events of a copy are the story
of one life, and when no call is under way the log and the counters agree.
-/
namespace PerWorker

namespace LogEvent

def subject? : LogEvent → Option (Nat × String × WorkerId)
  | .setup name w id | .setupFailed name w id _ | .teardown name w id | .teardownFailed name w id _
  | .processFailed name w id _ => some (id,name,w)
  | _ => none

def passage? : LogEvent → Option (Nat × Transition)
  | .setup _ _ id => some (id,.setup)
  | .setupFailed _ _ id _ => some (id,.setupFailed)
  | .teardown _ _ id => some (id,.teardown)
  | .teardownFailed _ _ id _ => some (id,.teardownFailed)
  | _ => none

end LogEvent

/-- What can be logged of the copy with that number, from first to last. -/
inductive Story (name : String) (w : WorkerId) (id : Nat) : List LogEvent → Prop
  | untold : Story name w id []
  | failed (error : String) : Story name w id [.setupFailed name w id error]
  | alive : Story name w id [.setup name w id]
  | ended : Story name w id [.setup name w id,.teardown name w id]
  | broken (error : String) : Story name w id [.setup name w id,.teardownFailed name w id error]

def storyOf {F V : Type} (id : Nat) (past : List (Entry F V)) : List LogEvent :=
  (log past).filter fun event => event.passage?.any (·.1 = id)

def under? {α : Type} (k : Nat) (x : Nat × α) : Option α := if x.1 = k then some x.2 else none

def concerning {α : Type} (k : Nat) (xs : List (Nat × α)) : List α := xs.filterMap (under? k)

/-- What can come of a copy, from first to last. -/
inductive Passed : List Transition → Prop
  | untold : Passed []
  | failed : Passed [.setupFailed]
  | alive : Passed [.setup]
  | ended : Passed [.setup,.teardown]
  | broken : Passed [.setup,.teardownFailed]

theorem Passed.initial {told all : List Transition} (passed : Passed all) (first : told <+: all) :
    Passed told := by
  obtain ⟨left,rfl⟩ := first
  obtain _ | ⟨x,_ | ⟨y,_ | ⟨z,told⟩⟩⟩ := told <;> cases passed <;> constructor

/-- No more than one thing is left of it, unless it is left from the start. -/
theorem Passed.rest {told left : List Transition} (passed : Passed (told ++ left))
    (alive : .setup ∈ left → told ++ left = [.setup]) : left.length ≤ 1 := by
  obtain _ | ⟨x,_ | ⟨y,told⟩⟩ := told
  · cases passed <;> simp_all
  · cases passed <;> simp
  · simp only [List.cons_append] at passed
    generalize all : told ++ left = tail at passed
    cases passed <;> simp [(List.append_eq_nil_iff.mp all).2]

theorem Lifeline.passed {history : List Beat} {phases : Multiset Phase}
    (line : Lifeline history phases) : Passed (history.filterMap Beat.outcome?) := by
  cases line with
  | discarded ending | gone ending => cases ending <;> constructor
  | _ => constructor

theorem concerning_append {α : Type} (k : Nat) (xs ys : List (Nat × α)) :
    concerning k (xs ++ ys) = concerning k xs ++ concerning k ys :=
  List.filterMap_append

theorem concerning_outcomes {V : Type} (c : Nat) (events : List (Event V)) :
    concerning (c + 1) (events.filterMap Event.outcome?) =
      (hookHistory c events).filterMap Beat.outcome? := by
  rw [concerning,hookHistory,beats,List.filterMap_filterMap,List.filterMap_filterMap,
    List.filterMap_filterMap]
  congr 1
  funext event
  cases event with
  | hookEnded hook d ending =>
    by_cases same : d = c <;> cases hook <;> cases ending <;>
      simp [Event.outcome?,Beat.outcome?,Event.note?,Note.beatOf?,under?,same]
  | hookStarted hook d =>
    by_cases same : d = c <;> cases hook <;>
      simp [Event.outcome?,Beat.outcome?,Event.note?,Note.beatOf?,same]
  | returned reply =>
    rw [System.note_returned]
    cases reply.handed? <;> rfl
  | _ => rfl

def GetPoint.due {F : Type} : GetPoint F → List (Nat × Transition)
  | .countSetup _ c | .logSetup _ c => [(c + 1,.setup)]
  | .countSetupFailure _ c _ | .logSetupFailure _ c _ => [(c + 1,.setupFailed)]
  | _ => []

def ReleasePoint.due : ReleasePoint → List (Nat × Transition)
  | .yield c fault | .countTeardown c fault =>
    [(c + 1,if fault.isSome then .teardownFailed else .teardown)]
  | .logTeardown c => [(c + 1,.teardown)]
  | .countFailure c _ | .logFailure c _ => [(c + 1,.teardownFailed)]
  | _ => []

def Frame.attends? {F V : Type} : Frame F V → Option (Nat × Nat × WorkerId)
  | .processBody m w point => some (point.copy,m,w)
  | .processLogFailure m w c _ => some (c,m,w)
  | _ => none

def GetPoint.discards? {F : Type} : GetPoint F → Option Nat
  | .countSetupFailure _ c _ | .logSetupFailure _ c _ => some c
  | _ => none

def dueing {F : Type} : Reading F (Nat × Transition) where
  get := fun _ _ point => point.due
  release := fun _ _ point => point.due

namespace System

open Ledger

variable {F V : Type} {sharding : Sharding} {names : List String} {threads : Nat}
  {past : List (Entry F V)} {initial s next : System F V} {t m n i c : Nat} {w : WorkerId}
  {a : Action F V} {frame : Frame F V} {below : List (Frame F V)} {events : List (Event V)}

def turnouts (past : List (Entry F V)) : List (Nat × Transition) :=
  (observed past).filterMap Event.outcome?

def passages (past : List (Entry F V)) : List (Nat × Transition) :=
  (log past).filterMap LogEvent.passage?

/-- What comes of a copy becomes due to the log, and what is logged was due. -/
theorem step_passes (moved : s.step t a = some (next,events)) :
    dueing.all s + ↑(Moment.record ⟨s,⟨t,a,events⟩⟩).outcome.toList =
      ↑((Moment.record ⟨s,⟨t,a,events⟩⟩).logs.toList.filterMap LogEvent.passage?) +
        dueing.all next := by
  obtain ⟨rest,before,after,old,new,turn⟩ := step_read dueing moved
  rw [old,new,add_right_comm,← add_assoc]
  congr 1
  have blank (bare : (Moment.record ⟨s,⟨t,a,events⟩⟩).Bare) :
      (Moment.record ⟨s,⟨t,a,events⟩⟩).outcome = none ∧
        (Moment.record ⟨s,⟨t,a,events⟩⟩).logs.toList.filterMap LogEvent.passage? = [] := by
    refine ⟨bare.outcome,List.filterMap_eq_nil_iff.mpr fun event member => ?_⟩
    have none := bare.logs event (Option.mem_toList.mp member)
    cases event <;> first | rfl | cases none
  cases turn with
  | still bare => simp [blank bare]
  | got top ended bare => cases ended <;> simp [blank bare,dueing,GetPoint.due]
  | get top turn =>
    rw [record_of_top events top]
    cases turn <;> rfl
  | release top turn =>
    rw [record_of_top events top]
    cases turn with
    | finish c result => cases result <;> rfl
    | _ => rfl
  | released top ended advances =>
    rw [record_of_top events top,advances]
    cases ended <;> rfl

theorem record_apart (events : List (Event V)) :
    (Moment.record ⟨s,⟨t,a,events⟩⟩).outcome = none ∨
      (Moment.record ⟨s,⟨t,a,events⟩⟩).logs = none := by
  obtain ⟨frame,below,rfl,top,same⟩ | ⟨outcome,same⟩ := record_cases s t a events <;> rw [same]
  · refine Or.inl ?_
    cases frame with
    | get m w point =>
      cases point with
      | leave i departure => cases departure <;> rfl
      | _ => rfl
    | peek m w point => cases point <;> rfl
    | release m w point => cases point <;> rfl
    | _ => rfl
  · exact Or.inr rfl

theorem turnouts_step (events : List (Event V)) : turnouts (past ++ [⟨t,a,events⟩]) =
    turnouts past ++ events.filterMap Event.outcome? := by
  simp [turnouts,observed]

theorem passages_step (events : List (Event V)) : passages (past ++ [⟨t,a,events⟩]) =
    passages past ++ (events.filterMap Event.log?).filterMap LogEvent.passage? := by
  simp [passages,log,observed]

/-- What has been logged and what is due are what has come of copies. -/
theorem Interleaving.settled (run : Interleaving (idle sharding names threads) past s) :
    (passages past : Multiset (Nat × Transition)) + dueing.all s = ↑(turnouts past) := by
  induction run with
  | start =>
    rw [all_idle]
    rfl
  | step t a events before moved ih =>
    -- What comes about joins what is due, and what is logged leaves it.
    obtain ⟨_,tells,_⟩ := step_recorded moved
    rw [passages_step,turnouts_step,tells.logs,tells.outcome,← Multiset.coe_add,← Multiset.coe_add,
      add_assoc,← step_passes moved,← add_assoc,ih]

/-- Whatever the interleaving, what comes of a copy is what can come of one: nothing is counted of
it twice. -/
theorem Interleaving.passed (run : Interleaving (idle sharding names threads) past s) (c : Nat) :
    Passed (concerning (c + 1) (turnouts past)) := by
  have line := run.custody.lines c
  rw [turnouts,concerning_outcomes,hookHistory_observed]
  exact line.passed

theorem Interleaving.alive (run : Interleaving (idle sharding names threads) past s)
    (due : (c + 1,.setup) ∈ dueing.all s) : concerning (c + 1) (turnouts past) = [.setup] := by
  obtain ⟨t,frame,member,owed⟩ := Reading.mem_all due
  obtain ⟨m,w,i,role⟩ : ∃ m w i, frame.role? = some (.ready m w i c) := by
    cases frame with
    | get m w point =>
      cases point with
      | countSetup i d | logSetup i d =>
        obtain rfl : c = d := by simpa [Reading.frame,dueing,GetPoint.due] using owed
        exact ⟨m,w,i,rfl⟩
      | _ => simp [Reading.frame,dueing,GetPoint.due] at owed
    | release m w point =>
      cases point with
      | yield d fault | countTeardown d fault =>
        cases fault <;> simp [Reading.frame,dueing,ReleasePoint.due] at owed
      | _ => simp [Reading.frame,dueing,ReleasePoint.due] at owed
    | _ => simp [Reading.frame] at owed
  have history := (run.custody.lines c).of_held (held_of_ready (mem_roles member role))
  rw [turnouts,concerning_outcomes,hookHistory_observed,history]
  rfl

theorem Interleaving.mem_left (run : Interleaving (idle sharding names threads) past s)
    {left : List Transition} (x : Transition)
    (whole : concerning (c + 1) (passages past) ++ left = concerning (c + 1) (turnouts past)) :
    x ∈ left ↔ (c + 1,x) ∈ dueing.all s := by
  have settled := congrArg (Multiset.filterMap (under? (c + 1))) run.settled
  rw [Multiset.filterMap_add,Multiset.filterMap_coe,Multiset.filterMap_coe,← concerning,
    ← concerning,← whole,← Multiset.coe_add] at settled
  rw [← Multiset.mem_coe,← add_left_cancel settled,Multiset.mem_filterMap]
  constructor
  · rintro ⟨⟨k,y⟩,member,own⟩
    obtain ⟨rfl,rfl⟩ : k = c + 1 ∧ y = x := by simpa [under?] using own
    exact member
  · exact fun member => ⟨_,member,by simp [under?]⟩

theorem Interleaving.ordered (run : Interleaving (idle sharding names threads) past s) (c : Nat) :
    concerning (c + 1) (passages past) <+: concerning (c + 1) (turnouts past) := by
  induction run with
  | start => exact List.prefix_rfl
  | @step past s next t a events before moved ih =>
    obtain ⟨_,tells,_⟩ := step_recorded moved
    have passes := step_passes moved
    rw [passages_step,turnouts_step,tells.logs,tells.outcome,concerning_append,concerning_append]
    have silent {more : List (Nat × Transition)} (none : concerning (c + 1) more = []) :
        concerning (c + 1) (passages past) ++ concerning (c + 1) more <+:
          concerning (c + 1) (turnouts past) ++
            concerning (c + 1) (Moment.record ⟨s,⟨t,a,events⟩⟩).outcome.toList := by
      rw [none,List.append_nil]
      exact ih.trans (List.prefix_append ..)
    cases logs : (Moment.record ⟨s,⟨t,a,events⟩⟩).logs with
    | none => exact silent rfl
    | some event =>
      have outcome : (Moment.record ⟨s,⟨t,a,events⟩⟩).outcome = none :=
        (record_apart events).resolve_right (by simp [logs])
      rw [logs,outcome,Option.toList_some,Option.toList_none,Multiset.coe_nil,add_zero] at passes
      cases passage : event.passage? with
      | none => exact silent (by simp [passage,concerning,under?])
      | some told =>
        obtain ⟨k,x⟩ := told
        rw [List.filterMap_cons_some passage,List.filterMap_nil] at passes
        by_cases own : k = c + 1
        · subst own
          -- What is due of the copy is all that is left of it, so it is next to be logged.
          obtain ⟨left,whole⟩ := ih
          have due : (c + 1,x) ∈ dueing.all s := by simp [passes]
          have single := (whole ▸ before.passed c).rest fun alive =>
            whole.trans (before.alive ((before.mem_left _ whole).mp alive))
          have member := (before.mem_left x whole).mpr due
          obtain ⟨y,rfl⟩ := List.length_eq_one_iff.mp
            (le_antisymm single (List.length_pos_of_mem member))
          obtain rfl := List.mem_singleton.mp member
          have last : concerning (c + 1) ([event].filterMap LogEvent.passage?) = [x] := by
            simp [passage,concerning,under?]
          rw [Option.toList_some,last,whole]
          exact List.prefix_append ..
        · exact silent (by simp [passage,concerning,under?,own])

theorem Interleaving.discarding (run : Interleaving (idle sharding names threads) past s)
    {point : GetPoint F} (member : .get m w point ∈ s.stack t)
    (discards : point.discards? = some c) : s.ledger.Bound c m w := by
  induction run generalizing t point with
  | start => simp [stack_idle] at member
  | step u a events before moved ih =>
    obtain old | rfl | ⟨former,below,top,turn⟩ := get_frames moved member
    · exact (ih old discards).move (step_move moved)
    · cases discards
    · have among : Frame.get m w former ∈ _ := top ▸ List.mem_cons_self
      cases turn with
      | fail i d fault =>
        cases discards
        -- The copy is discarded by the call whose setup hook has just refused it.
        have role := mem_roles (r := .settingUp m w i c) among rfl
        exact (before.bonded.fostered _ role _ _ _ rfl).move (step_move moved)
      | countFailure i d fault => exact (ih among discards).move (step_move moved)
      | _ => cases discards

theorem firstFrames_attends (call : Call) :
    ∀ frame ∈ (firstFrames call [] : List (Frame F V)), frame.attends? = none := by
  cases call with
  | drain ms => cases ms <;> simp [firstFrames,nextDrain,Frame.attends?]
  | _ => simp [firstFrames,Frame.attends?]

theorem Onward.attends {top first : Frame F V} {more : List (Frame F V)}
    (onward : Onward s a top first more) :
    ∀ frame ∈ first :: more, frame.attends? = none ∨ frame.attends? = top.attends? := by
  cases onward with
  | body m w point point' same => simp [Frame.attends?,same]
  | _ => simp [Frame.attends?,BodyPoint.copy]

theorem Woken.attends {reply : Reply V} {caller first : Frame F V} {more : List (Frame F V)}
    (woken : Woken reply caller first more) (serves : Serves frame caller) :
    ∀ other ∈ first :: more, other.attends? = none ∨
      ∃ m w point c, frame = .get m w point ∧ reply = .handle c ∧
        other.attends? = some (c,m,w) := by
  cases woken with
  | found m w c =>
    cases serves with
    | get _ _ point => simp [Frame.attends?,BodyPoint.copy]
    | free _ _ awake => cases awake
  | _ => simp [Frame.attends?]

theorem resume_attends {reply : Reply V} (chain : (frame :: below).IsChain Serves) :
    ∀ other ∈ (resume reply below).1, other ∈ below ∨ other.attends? = none ∨
      ∃ m w point c, frame = .get m w point ∧ reply = .handle c ∧
        other.attends? = some (c,m,w) := by
  have resumed := resumed reply below
  generalize resume reply below = result at resumed
  induction resumed generalizing frame with
  | returned => exact fun other member => Or.inl member
  | @woken _ caller first more below woken =>
    intro other member
    obtain new | old := List.mem_append.mp member
    · exact Or.inr (woken.attends ((List.isChain_cons.mp chain).1 caller rfl) other new)
    · exact Or.inl (List.mem_cons_of_mem _ old)
  | passed waits _ _ ih =>
    intro other member
    obtain old | none | ⟨m,w,point,c,rfl,_⟩ := ih chain.tail other member
    · exact Or.inl (List.mem_cons_of_mem _ old)
    · exact Or.inr (Or.inl none)
    · cases waits

theorem Interleaving.attending (run : Interleaving (idle sharding names threads) past s)
    (member : frame ∈ s.stack t) (attends : frame.attends? = some (c,m,w)) :
    s.ledger.Bound c m w := by
  induction run generalizing t frame with
  | start => simp [stack_idle] at member
  | @step past s next u a events before moved ih =>
    have kept {other : Frame F V} {v : Nat} (old : other ∈ s.stack v)
        (attends : other.attends? = some (c,m,w)) : next.ledger.Bound c m w :=
      (ih old attends).move (step_move moved)
    by_cases other : t ≠ u
    · exact kept ((step_effect moved).others other ▸ member) attends
    obtain rfl := not_not.mp other
    cases step_points moved with
    | call call floor here =>
      rw [here,← List.nil_append (s.stack t),firstFrames_append] at member
      obtain new | old := List.mem_append.mp member
      · cases (firstFrames_attends call frame new).symm.trans attends
      · exact kept old attends
    | assign value floor here => exact kept (here ▸ member) attends
    | onward _ own top onward here =>
      obtain new | old := List.mem_append.mp (here ▸ member)
      · obtain none | same := onward.attends frame new
        · cases none.symm.trans attends
        · exact kept (top ▸ List.mem_cons_self) (same.symm.trans attends)
      · exact kept (top ▸ List.mem_cons_of_mem _ old) attends
    | closes _ own top closes answers =>
      obtain old | none | ⟨n,v,point,d,rfl,rfl,looked⟩ :=
        resume_attends (top ▸ before.chained t) frame (answers.1 ▸ member)
      · exact kept (top ▸ List.mem_cons_of_mem _ old) attends
      · cases none.symm.trans attends
      · cases looked.symm.trans attends
        cases closes with
        | get ended =>
          cases ended with
          | found i =>
            have instanced := before.instanced
            have shown := instanced.shown t _ (top ▸ List.mem_cons_self) ⟨m,w,i,c⟩ rfl
            exact (instanced.own _ shown).2.move (step_move moved)

theorem Interleaving.subject (run : Interleaving (idle sharding names threads) past s)
    {event : LogEvent} {id : Nat} {name : String}
    (logs : (Moment.record ⟨s,⟨t,a,events⟩⟩).logs = some event)
    (subject : event.subject? = some (id,name,w)) :
    ∃ c m, id = c + 1 ∧ name = s.name m ∧ s.ledger.Bound c m w := by
  obtain ⟨frame,below,rfl,top,same⟩ | ⟨outcome,same⟩ := record_cases s t a events <;>
    rw [same] at logs
  · have member : frame ∈ s.stack t := top ▸ List.mem_cons_self
    cases frame with
    | get m v point =>
      cases point with
      | logCloneFailure i e =>
        cases logs
        cases subject
      | logSetupFailure i c fault =>
        cases logs
        cases subject
        exact ⟨c,m,rfl,rfl,run.discarding member rfl⟩
      | logSetup i c =>
        cases logs
        cases subject
        have role := mem_roles (r := .ready m w i c) member rfl
        exact ⟨c,m,rfl,rfl,run.bonded.fostered _ role _ _ _ rfl⟩
      | leave i departure => cases departure <;> cases logs
      | _ => cases logs
    | peek m v point => cases point <;> cases logs
    | release m v point =>
      cases point with
      | logTeardown c =>
        cases logs
        cases subject
        have bound := run.releasing member (Or.inr ⟨none,rfl⟩)
        exact ⟨c,m,rfl,rfl,copyWorker_of_bound bound ▸ bound⟩
      | logFailure c fault =>
        cases logs
        cases subject
        have bound := run.releasing member (Or.inr ⟨some fault,rfl⟩)
        exact ⟨c,m,rfl,rfl,copyWorker_of_bound bound ▸ bound⟩
      | _ => cases logs
    | processLogFailure m v c fault =>
      cases logs
      cases subject
      exact ⟨c,m,rfl,rfl,run.attending member rfl⟩
    | processLogTeardown | releaseAllLog | drainLogFailure | drainLogDone | logStats =>
      cases logs
      cases subject
    | _ => cases logs
  · cases logs

theorem Interleaving.subjects (run : Interleaving (idle sharding names threads) past s) :
    ∀ event ∈ log past, ∀ id name w, event.subject? = some (id,name,w) →
      ∃ c m, id = c + 1 ∧ name = s.name m ∧ s.ledger.Bound c m w := by
  induction run with
  | start => simp [log,observed]
  | @step past s next t a events before moved ih =>
    have split : log (past ++ [⟨t,a,events⟩]) = log past ++ events.filterMap Event.log? := by
      simp [log,observed]
    have onward {id : Nat} {name : String} {w : WorkerId}
        (known : ∃ c m, id = c + 1 ∧ name = s.name m ∧ s.ledger.Bound c m w) :
        ∃ c m, id = c + 1 ∧ name = next.name m ∧ next.ledger.Bound c m w := by
      obtain ⟨c,m,number,named,bound⟩ := known
      exact ⟨c,m,number,by rw [named,(step_effect moved).name m],bound.move (step_move moved)⟩
    intro event member id name w subject
    rw [split,(step_recorded moved).logs] at member
    obtain old | latest := List.mem_append.mp member
    · exact onward (ih event old id name w subject)
    · exact onward (before.subject (Option.mem_toList.mp latest) subject)

end System

/-- The event tells of the transition, in that name. -/
def LogEvent.Tells (name : String) (w : WorkerId) (id : Nat) (event : LogEvent) :
    Transition → Prop
  | .setup => event = .setup name w id
  | .setupFailed => ∃ error, event = .setupFailed name w id error
  | .teardown => event = .teardown name w id
  | .teardownFailed => ∃ error, event = .teardownFailed name w id error
  | .cloneFailed => False

theorem LogEvent.tells {event : LogEvent} {id : Nat} {name : String} {w : WorkerId} {x : Transition}
    (passage : event.passage? = some (id,x)) (subject : event.subject? = some (id,name,w)) :
    event.Tells name w id x := by
  cases event <;> cases passage <;> cases subject <;> first | rfl | exact ⟨_,rfl⟩

theorem Passed.story {name : String} {w : WorkerId} {id : Nat} {told : List Transition}
    {events : List LogEvent} (passed : Passed told)
    (tells : events.map LogEvent.passage? = told.map fun x => some (id,x))
    (named : ∀ event ∈ events, event.subject? = some (id,name,w)) : Story name w id events := by
  have said {x : Transition} {event : LogEvent} (passage : event.passage? = some (id,x))
      (member : event ∈ events) : event.Tells name w id x :=
    LogEvent.tells passage (named event member)
  cases passed with
  | untold =>
    obtain rfl := List.map_eq_nil_iff.mp tells
    exact .untold
  | failed =>
    obtain ⟨event,rfl,first⟩ := List.map_eq_singleton_iff.mp tells
    obtain ⟨error,rfl⟩ := said first (by simp)
    exact .failed error
  | alive =>
    obtain ⟨event,rfl,first⟩ := List.map_eq_singleton_iff.mp tells
    obtain rfl := said first (by simp)
    exact .alive
  | ended =>
    obtain ⟨event,_,rfl,first,rest⟩ := List.map_eq_cons_iff.mp tells
    obtain ⟨last,rfl,second⟩ := List.map_eq_singleton_iff.mp rest
    obtain rfl := said first (by simp)
    obtain rfl := said second (by simp)
    exact .ended
  | broken =>
    obtain ⟨event,_,rfl,first,rest⟩ := List.map_eq_cons_iff.mp tells
    obtain ⟨last,rfl,second⟩ := List.map_eq_singleton_iff.mp rest
    obtain rfl := said first (by simp)
    obtain ⟨error,rfl⟩ := said second (by simp)
    exact .broken error

theorem filter_passage (id : Nat) (events : List LogEvent) :
    (events.filter fun event => event.passage?.any (·.1 = id)).map LogEvent.passage? =
      (concerning id (events.filterMap LogEvent.passage?)).map fun x => some (id,x) := by
  induction events with
  | nil => rfl
  | cons event rest ih =>
    cases passage : event.passage? with
    | none => simpa [passage] using ih
    | some told =>
      obtain ⟨k,x⟩ := told
      by_cases own : k = id
      · simpa [passage,own,concerning,under?] using ih
      · simpa [passage,own,concerning,under?] using ih

theorem LogEvent.subject_of_passage {event : LogEvent} {id : Nat} {x : Transition}
    (passage : event.passage? = some (id,x)) : ∃ name w, event.subject? = some (id,name,w) := by
  cases event <;> simp_all [passage?,subject?]

namespace System

open Ledger

variable {F V : Type} {sharding : Sharding} {names : List String} {threads : Nat}
  {past : List (Entry F V)} {s : System F V}

/-- What is logged of a copy is the story of one life, in the name of its manager and its worker. -/
theorem Interleaving.storied (run : Interleaving (idle sharding names threads) past s) (id : Nat) :
    storyOf id past = [] ∨ ∃ c copy, id = c + 1 ∧ s.copies[c]? = some copy ∧
      Story (s.name copy.manager) copy.worker id (storyOf id past) := by
  cases first : storyOf id past with
  | nil => exact Or.inl rfl
  | cons event rest =>
    rw [← first]
    have told {event : LogEvent} (member : event ∈ storyOf id past) :
        ∃ c m w, id = c + 1 ∧ s.ledger.Bound c m w ∧ event.subject? = some (id,s.name m,w) := by
      obtain ⟨among,about⟩ := List.mem_filter.mp member
      obtain ⟨⟨_,x⟩,passage,same⟩ := (Option.any_eq_true _ _).mp about
      obtain rfl := of_decide_eq_true same
      obtain ⟨name,w,subject⟩ := LogEvent.subject_of_passage passage
      obtain ⟨c,m,number,rfl,bound⟩ := run.subjects event among _ _ _ subject
      exact ⟨c,m,w,number,bound,subject⟩
    obtain ⟨c,m,w,rfl,bound,_⟩ := told (first ▸ List.mem_cons_self)
    refine Or.inr ⟨c,?_⟩
    have passed := (run.passed c).initial (run.ordered c)
    obtain ⟨copy,found,rfl,rfl⟩ : ∃ copy, s.copies[c]? = some copy ∧ copy.manager = m ∧
        copy.worker = w := by simpa using bound_copy bound
    refine ⟨copy,rfl,found,passed.story (filter_passage ..) fun event member => ?_⟩
    obtain ⟨d,n,v,number,other,subject⟩ := told member
    obtain rfl : c = d := Nat.succ_inj.mp number
    obtain ⟨rfl,rfl⟩ : copy.manager = n ∧ copy.worker = v := by
      simpa [found] using bound_copy other
    exact subject

/-- The log and the counters tell the same story. Whatever calls threads make in whatever
interleaving, however templates, hooks and bodies end: the lifecycle events of a copy are none, a
failed setup, a setup, or a setup and one end of it, all in the name of its manager and its worker;
and so is every other event that bears its number. When no call is under way they are what has come
of its hooks, and the counters of a manager with a name of its own are the numbers of the events in
that name. -/
theorem Interleaving.log_agrees (run : Interleaving (idle sharding names threads) past s) :
    (∀ m (manager : m < names.length), (∀ t, s.stack t = []) →
      (∀ n (there : n < names.length), names[n] = names[m] → n = m) →
      (∀ call ∈ calls past, ∀ n ∈ call.managers, n < names.length) →
      (s.counters m).Tallied (logged names[m] past)) ∧
    (∀ id, storyOf id past = [] ∨ ∃ c copy, id = c + 1 ∧ s.copies[c]? = some copy ∧
      Story (s.name copy.manager) copy.worker id (storyOf id past)) ∧
    (∀ event ∈ log past, ∀ id name w, event.subject? = some (id,name,w) →
      ∃ c copy, id = c + 1 ∧ s.copies[c]? = some copy ∧ name = s.name copy.manager ∧
        w = copy.worker) ∧
    ((∀ t, s.stack t = []) → ∀ c, (storyOf (c + 1) past).map LogEvent.passage? =
      ((hookHistory c (observed past)).filterMap Beat.outcome?).map fun x => some (c + 1,x)) := by
  refine ⟨fun m manager quiet => run.tallied manager quiet,run.storied,?_,?_⟩
  · intro event member id name w subject
    obtain ⟨c,m,number,named,bound⟩ := run.subjects event member id name w subject
    obtain ⟨copy,found,rfl,rfl⟩ : ∃ copy, s.copies[c]? = some copy ∧ copy.manager = m ∧
        copy.worker = w := by simpa using bound_copy bound
    exact ⟨c,copy,number,found,named,rfl⟩
  · intro quiet c
    have sizes := congrArg (Multiset.filterMap (under? (c + 1))) run.settled
    rw [all_quiet _ quiet,add_zero,Multiset.filterMap_coe,Multiset.filterMap_coe] at sizes
    have whole := (run.ordered c).eq_of_length (congrArg Multiset.card sizes)
    rw [storyOf,filter_passage,← concerning_outcomes]
    exact congrArg _ whole

/-- A refusal, a setup that fails, two setups that race, a body that fails and whose copy cannot be
torn down either, and a release. -/
def ordeal : List (Nat × Action Nat Nat) :=
  [(0,.call (.get 0 (.named "a"))),(0,.advance),(0,.advance),(0,.advance),
    (0,.drawn (.refused (.other "full"))),(0,.advance),(0,.advance),(0,.advance),(0,.advance),
    (0,.advance),(0,.call (.get 0 (.named "a"))),(0,.advance),(1,.call (.get 0 (.named "b"))),
    (0,.advance),(0,.advance),(1,.advance),(0,.drawn (.copy 7)),(0,.advance),(1,.advance),
    (0,.advance),(0,.finish (.error { message := "cold" })),(1,.advance),(0,.advance),(0,.advance),
    (1,.drawn (.copy 9)),(0,.advance),(0,.advance),(1,.advance),(0,.advance),
    (0,.call (.get 0 (.named "a"))),(1,.advance),(0,.advance),(0,.advance),(1,.finish (.ok 0)),
    (0,.advance),(0,.drawn (.copy 7)),(1,.advance),(0,.advance),(0,.advance),(1,.advance),
    (0,.finish (.ok 0)),(0,.advance),(1,.advance),(0,.advance),(0,.advance),(1,.advance),
    (0,.advance),(0,.call (.process 0 (.named "a"))),(0,.advance),(0,.advance),(0,.advance),
    (0,.advance),(0,.finish (.error { message := "bad" })),(0,.advance),(0,.advance),(0,.advance),
    (0,.advance),(0,.advance),(0,.advance),(0,.advance),(0,.advance),
    (0,.finish (.error { message := "stuck" })),(0,.advance),(0,.advance),(0,.advance),(0,.advance),
    (0,.advance),(1,.call (.release 0 (.named "b"))),(1,.advance),(1,.advance),(1,.advance),
    (1,.advance),(1,.advance),(1,.advance),(1,.finish (.ok 0)),(1,.advance),(1,.advance),
    (1,.advance)]

set_option maxRecDepth 4000 in
theorem log_agrees_of_ordeal :
    ∃ (past : List (Entry Nat Nat)) (s : System Nat Nat),
      Interleaving (idle .single ["pool"] 2) past s ∧ (∀ t, s.stack t = []) ∧
      storyOf 1 past = [.setupFailed "pool" (.named "a") 1 "cold"] ∧
      storyOf 2 past = [.setup "pool" (.named "b") 2,.teardown "pool" (.named "b") 2] ∧
      storyOf 3 past =
        [.setup "pool" (.named "a") 3,.teardownFailed "pool" (.named "a") 3 "stuck"] ∧
      logged "pool" past .cloneFailed = 1 ∧ (s.counters 0).Tallied (logged "pool" past) ∧
      ∀ id, storyOf id past = [] ∨ ∃ c copy, id = c + 1 ∧ s.copies[c]? = some copy ∧
        Story (s.name copy.manager) copy.worker id (storyOf id past) := by
  obtain ⟨past,s,followed,first,second,third,refused,called,threads⟩ :
      ∃ past s, (idle .single ["pool"] 2).follow ordeal = some (s,past) ∧
        storyOf 1 past = [.setupFailed "pool" (.named "a") 1 "cold"] ∧
        storyOf 2 past = [.setup "pool" (.named "b") 2,.teardown "pool" (.named "b") 2] ∧
        storyOf 3 past =
          [.setup "pool" (.named "a") 3,.teardownFailed "pool" (.named "a") 3 "stuck"] ∧
        logged "pool" past .cloneFailed = 1 ∧
        calls past = [.get 0 (.named "a"),.get 0 (.named "a"),.get 0 (.named "b"),
          .get 0 (.named "a"),.process 0 (.named "a"),.release 0 (.named "b")] ∧
        s.threads = #[[],[]] :=
    ⟨_,_,rfl,rfl,rfl,rfl,rfl,rfl,rfl⟩
  have quiet (t : Nat) : s.stack t = [] := by
    rw [stack,threads]
    obtain _ | _ | t := t <;> rfl
  have run := Interleaving.start.follow followed
  obtain ⟨tallied,storied,-,-⟩ := run.log_agrees
  refine ⟨past,s,run,quiet,first,second,third,refused,tallied 0 Nat.one_pos quiet ?_ ?_,storied⟩
  · intro n there _
    exact Nat.lt_one_iff.mp there
  · simp [called,Call.managers]

end System
end PerWorker
