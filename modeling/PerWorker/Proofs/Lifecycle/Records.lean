import PerWorker.Proofs.Lifecycle.Reports
import PerWorker.Proofs.Lifecycle.Scope

/-!
What a step puts on record: the counter it raises, the number it gives out, what it stores in a
slot, the hook that returns or fails in it, what it logs and the copy it answers with. Main
statements: all of this is read off the innermost call, and no step writes more; and what is read
off the calls under way changes with the innermost one alone.
-/
namespace PerWorker

/-- What is counted and logged of a copy: how it was made, or was not, and how it ended. -/
inductive Transition where
  | cloneFailed
  | setup
  | setupFailed
  | teardown
  | teardownFailed
  deriving DecidableEq, Repr

def Transition.counters : Transition → List Counter
  | .cloneFailed => [.cloneFailures]
  | .setup => [.setups]
  | .setupFailed => [.setupFailures]
  | .teardown => [.teardowns]
  | .teardownFailed => [.teardowns,.teardownFailures]

def LogEvent.transition? : LogEvent → Option (String × Transition)
  | .cloneFailed name _ _ => some (name,.cloneFailed)
  | .setup name _ _ => some (name,.setup)
  | .setupFailed name _ _ _ => some (name,.setupFailed)
  | .teardown name _ _ => some (name,.teardown)
  | .teardownFailed name _ _ _ => some (name,.teardownFailed)
  | _ => none

def Beat.outcome? : Beat → Option Transition
  | .ended .setup .returned => some .setup
  | .ended .setup .failed => some .setupFailed
  | .ended .teardown .returned => some .teardown
  | .ended .teardown .failed => some .teardownFailed
  | _ => none

namespace Event

variable {V : Type}

def given? : Event V → Option Nat
  | .hookStarted .setup c => some (c + 1)
  | _ => none

def handed? : Event V → Option Nat
  | .returned reply => reply.handed?
  | _ => none

def outcome? : Event V → Option (Nat × Transition)
  | .hookEnded hook c ending => (Beat.outcome? (.ended hook ending)).map (c + 1,·)
  | _ => none

end Event

structure Record where
  counts : Option (Nat × Counter) := none
  /-- The manager and the worker of a copy that gets a number. -/
  numbers : Option (Nat × WorkerId) := none
  stores : Option (Nat × SlotState) := none
  outcome : Option (Nat × Transition) := none
  logs : Option LogEvent := none
  hands : Option Nat := none

def Record.count (record : Record) (m : Nat) (counters : Counters) : Counters :=
  match record.counts with
  | some (n,counter) => if n = m then counters.bump counter else counters
  | none => counters

def Record.store (record : Record) (i : Nat) (state : Option SlotState) : Option SlotState :=
  match record.stores with
  | some (j,new) => if j = i then some new else state
  | none => state

section Points

variable {F V : Type} (s : System F V) (m : Nat) (w : WorkerId)

def GetPoint.record : GetPoint F → Record
  | .countCloneFailure _ _ => { counts := some (m,.cloneFailures) }
  | .logCloneFailure _ e => { logs := some (.cloneFailed (s.name m) w e.message) }
  | .countCopy _ _ => { counts := some (m,.copies) }
  | .number _ _ => { numbers := some (m,w) }
  | .countSetupFailure _ _ _ => { counts := some (m,.setupFailures) }
  | .logSetupFailure _ c fault =>
    { logs := some (.setupFailed (s.name m) w (c + 1) fault.message) }
  | .countSetup _ _ => { counts := some (m,.setups) }
  | .logSetup _ c => { logs := some (.setup (s.name m) w (c + 1)) }
  | .publish i c => { stores := some (i,.live c) }
  | .retire i _ => { stores := some (i,.retired) }
  | .leave _ (.found c) => { hands := some c }
  | _ => {}

def PeekPoint.record : PeekPoint → Record
  | .leave _ found => { hands := found }
  | _ => {}

def ReleasePoint.record : ReleasePoint → Record
  | .retire i => { stores := some (i,.retired) }
  | .countTeardown _ _ => { counts := some (m,.teardowns) }
  | .logTeardown c => { logs := some (.teardown (s.name m) (s.copyWorker c) (c + 1)) }
  | .countFailure _ _ => { counts := some (m,.teardownFailures) }
  | .logFailure c fault =>
    { logs := some (.teardownFailed (s.name m) (s.copyWorker c) (c + 1) fault.message) }
  | _ => {}

def Frame.record : Frame F V → Record
  | .get m w point => point.record s m w
  | .peek _ _ point => point.record
  | .release m _ point => point.record s m
  | .processLogFailure m w c fault =>
    { logs := some (.processFailed (s.name m) w (c + 1) fault.message) }
  | .processLogTeardown m w _ e => { logs := some (.teardownAfterFailure (s.name m) w e) }
  | .releaseAllLog m errors => { logs := some (.releaseAllFailed (s.name m) errors.length) }
  | .drainLogFailure m _ _ _ failed => { logs := some (.drainFailed (s.name m) failed.length) }
  | .drainLogDone drained errors => { logs := some (.drained drained errors.length) }
  | .logStats m registered counters => { logs := some (.stats (s.name m) registered counters) }
  | _ => {}

end Points

def Frame.hookOutcome? {F V : Type} (fault : Option Fault) : Frame F V → Option (Nat × Transition)
  | .get _ _ (.settingUp _ c) => some (c + 1,if fault.isSome then .setupFailed else .setup)
  | .release _ _ (.tearingDown c) =>
    some (c + 1,if fault.isSome then .teardownFailed else .teardown)
  | _ => none

def Frame.writes {F V : Type} (s : System F V) (a : Action F V) (frame : Frame F V) : Record :=
  match a with
  | .advance => frame.record s
  | .finish result => { outcome := frame.hookOutcome? (failure? result) }
  | _ => {}

def Moment.record {F V : Type} (moment : Moment F V) : Record :=
  match moment.entry.action with
  | .advance =>
    ((moment.state.stack moment.entry.thread).head?.map (·.record moment.state)).getD {}
  | .finish result =>
    { outcome := (moment.state.stack moment.entry.thread).head?.bind
        (Frame.hookOutcome? (failure? result)) }
  | _ => {}

namespace System

variable {F V : Type}

def owners (s : System F V) : List (Nat × WorkerId) :=
  s.copies.toList.map fun copy => (copy.manager,copy.worker)

structure Enters (s : System F V) (record : Record) (shared : System F V) : Prop where
  counters : ∀ m < s.managers.size, shared.counters m = record.count m (s.counters m)
  owners : shared.owners = s.owners ++ record.numbers.toList
  states : ∀ i < s.slots.size, shared.state? i = record.store i (s.state? i)
  fresh : ∀ i, s.slots.size ≤ i → ∀ state ∈ shared.state? i, state = .vacant

structure Tells (s : System F V) (record : Record) (events : List (Event V)) : Prop where
  given : events.filterMap Event.given? = record.numbers.toList.map fun _ => s.copies.size + 1
  outcome : events.filterMap Event.outcome? = record.outcome.toList
  logs : events.filterMap Event.log? = record.logs.toList

structure Recorded (s : System F V) (record : Record) (next : System F V)
    (events : List (Event V)) : Prop extends Enters s record next, Tells s record events where
  handed : ∀ c ∈ events.filterMap Event.handed?, record.hands = some c

variable {s shared next : System F V} {t m : Nat} {w : WorkerId} {a : Action F V}
  {frame : Frame F V} {below frames : List (Frame F V)} {events told : List (Event V)}
  {reply : Reply V} {record : Record}

theorem record_of_top (events : List (Event V)) (top : s.stack t = frame :: below) :
    Moment.record ⟨s,⟨t,a,events⟩⟩ = frame.writes s a := by
  cases a <;> simp [Moment.record,Frame.writes,top]

/-- Unless a call advances, a step puts on record at most how a hook ends. -/
theorem record_cases (s : System F V) (t : Nat) (a : Action F V) (events : List (Event V)) :
    (∃ frame below, a = .advance ∧ s.stack t = frame :: below ∧
        Moment.record ⟨s,⟨t,a,events⟩⟩ = frame.record s) ∨
      ∃ outcome, Moment.record ⟨s,⟨t,a,events⟩⟩ = { outcome } := by
  cases a with
  | advance =>
    cases top : s.stack t with
    | nil => exact Or.inr ⟨none,by simp [Moment.record,top]⟩
    | cons frame below => exact Or.inl ⟨frame,below,rfl,rfl,by simp [Moment.record,top]⟩
  | _ => exact Or.inr ⟨_,rfl⟩

/-- The calls that put something into a slot: a lookup puts its copy there, and one that failed or a
release closes the slot for good. -/
inductive Storing (i : Nat) : Frame F V → SlotState → Prop
  | publish (n v c) : Storing i (.get n v (.publish i c)) (.live c)
  | fail (n v e) : Storing i (.get n v (.retire i e)) .retired
  | release (n v) : Storing i (.release n v (.retire i)) .retired

theorem storing_of_stores {i : Nat} {state : SlotState}
    (stores : (Moment.record ⟨s,⟨t,a,events⟩⟩).stores = some (i,state)) :
    a = .advance ∧ ∃ frame below, s.stack t = frame :: below ∧ Storing i frame state := by
  obtain ⟨frame,below,rfl,top,same⟩ | ⟨outcome,same⟩ := record_cases s t a events <;>
    rw [same] at stores
  · refine ⟨rfl,frame,below,top,?_⟩
    cases frame with
    | get m w point =>
      cases point with
      | publish | retire =>
        cases stores
        constructor
      | leave i departure => cases departure <;> cases stores
      | _ => cases stores
    | release m w point =>
      cases point with
      | retire =>
        cases stores
        constructor
      | _ => cases stores
    | peek m w point => cases point <;> cases stores
    | _ => cases stores
  · cases stores

theorem record_within (s : System F V) (frame : Frame F V) :
    (∀ x ∈ (frame.record s).counts, x.1 ∈ frame.managers) ∧
      (∀ x ∈ (frame.record s).numbers, x.1 ∈ frame.managers) ∧
      ∀ event ∈ (frame.record s).logs, ∀ x ∈ event.transition?,
        ∃ n ∈ frame.managers, x.1 = s.name n := by
  cases frame with
  | get n v point =>
    simp only [Frame.record,GetPoint.record]
    split <;> simp [Frame.managers,LogEvent.transition?]
  | peek n v point =>
    simp only [Frame.record,PeekPoint.record]
    split <;> simp
  | release n v point =>
    simp only [Frame.record,ReleasePoint.record]
    split <;> simp [Frame.managers,LogEvent.transition?]
  | _ => simp [Frame.record,LogEvent.transition?]

namespace Enters

theorem outside {i : Nat} (outside : s.slots.size ≤ i) : s.state? i = none := by
  simp [System.state?,Array.getElem?_eq_none outside]

theorem mk' (slots : shared.slots = s.slots)
    (counters : ∀ m < s.managers.size, shared.counters m = record.count m (s.counters m))
    (owners : shared.owners = s.owners ++ record.numbers.toList) (unstored : record.stores = none) :
    Enters s record shared := by
  have same (i : Nat) : shared.state? i = s.state? i := by rw [System.state?,slots,System.state?]
  refine ⟨counters,owners,fun i _ => ?_,fun i beyond state member => ?_⟩
  · rw [same,Record.store,unstored]
  · rw [same,outside beyond] at member
    cases member

/-- Most steps enter nothing. -/
theorem still (uncounted : record.counts = none) (unnumbered : record.numbers = none)
    (unstored : record.stores = none) : Enters s record s := by
  refine .mk' rfl (fun m _ => ?_) ?_ unstored
  · rw [Record.count,uncounted]
  · simp [unnumbered]

theorem mapManager (n : Nat) (f : Manager → Manager)
    (kept : ∀ manager, (f manager).counters = manager.counters) :
    Enters s {} (s.mapManager n f) :=
  .mk' rfl (fun _ _ => counters_mapManager s n f kept) (List.append_nil _).symm rfl

theorem mapSlot (i : Nat) (f : Slot → Slot) (stores : Option SlotState)
    (stored : ∀ slot, (f slot).state = stores.getD slot.state) :
    Enters s { stores := stores.map (i,·) } (s.mapSlot i f) := by
  refine ⟨fun _ _ => rfl,(List.append_nil _).symm,fun j bound => ?_,fun j beyond state member => ?_⟩
  · have cell : s.slots[j]? = some s.slots[j] := Array.getElem?_eq_getElem bound
    simp only [System.state?,System.mapSlot,Array.getElem?_modify,cell]
    cases stores with
    | none => split <;> simp [Record.store,stored]
    | some state => by_cases here : i = j <;> simp [Record.store,stored,here]
  · simp only [System.state?,System.mapSlot,Array.getElem?_modify,
      Array.getElem?_eq_none beyond] at member
    split at member <;> cases member

theorem lock {hands : Option Nat} (i : Nat) (holder : Option Nat) :
    Enters s { hands } (s.mapSlot i ({ · with holder })) :=
  have kept := mapSlot (s := s) i ({ · with holder }) none fun _ => rfl
  ⟨kept.counters,kept.owners,kept.states,kept.fresh⟩

theorem mapCopy (c : Nat) (f : Copy F → Copy F)
    (kept : ∀ copy, (f copy).manager = copy.manager ∧ (f copy).worker = copy.worker) :
    Enters s {} (s.mapCopy c f) := by
  refine .mk' rfl (fun _ _ => rfl) (Eq.trans ?_ (List.append_nil s.owners).symm) rfl
  apply List.ext_getElem?
  intro d
  simp only [System.owners,System.mapCopy,List.getElem?_map,Array.getElem?_toList,
    Array.getElem?_modify]
  split
  next => cases s.copies[d]? <;> simp [kept]
  next => rfl

theorem bump (n : Nat) (counter : Counter) :
    Enters s { counts := some (n,counter) } (s.bump n counter) :=
  .mk' rfl (fun _ bound => counters_bump s n counter bound) (List.append_nil _).symm rfl

theorem number (m : Nat) (w : WorkerId) (value : F) : Enters s { numbers := some (m,w) }
    { s with copies := s.copies.push { manager := m, worker := w, value } } :=
  .mk' rfl (fun _ _ => rfl) (by simp [System.owners]) rfl

/-- The slot of a new registration is vacant, so that nothing is stored by it. -/
theorem register (m : Nat) (w : WorkerId) :
    Enters s {} (System.mapManager
      { s with slots := s.slots.push { manager := m, worker := w } } m
      (·.insert w s.slots.size)) := by
  refine ⟨fun _ _ => counters_mapManager _ m _ fun _ => rfl,(List.append_nil _).symm,
    fun i bound => ?_,fun i beyond state member => ?_⟩
  · simp [System.state?,System.mapManager,Record.store,Array.getElem?_push,bound.ne]
  · simp only [System.state?,System.mapManager,Array.getElem?_push,
      Array.getElem?_eq_none beyond] at member
    split at member <;> cases member
    rfl

theorem prune (m : Nat) (w : WorkerId) (i : Nat) :
    Enters s {} (s.mapManager m (·.eraseSlot w i)) :=
  .mk' rfl (fun _ _ => counters_eraseSlot s m w i) (List.append_nil _).symm rfl

theorem setStack (enters : Enters s record shared) (t : Nat) (frames : List (Frame F V)) :
    Enters s record (shared.setStack t frames) :=
  ⟨enters.counters,enters.owners,enters.states,enters.fresh⟩

end Enters

theorem Enters.size (enters : Enters s record shared) :
    shared.copies.size = s.copies.size + record.numbers.toList.length := by
  simpa [System.owners] using congrArg List.length enters.owners

theorem resume_recorded {α : Type} {f : Event V → Option α} (reply : Reply V)
    (unread : ∀ answer, (∃ fault, answer = .fault fault) ∨ (∃ errors, answer = .errors errors) →
      f (.returned answer) = none)
    (frames : List (Frame F V)) :
    ∀ x ∈ (resume reply frames).2.filterMap f, f (.returned reply) = some x := by
  have resumed := resumed reply frames
  generalize resume reply frames = result at resumed ⊢
  induction resumed with
  | returned => simp
  | woken => simp
  | passed _ told _ ih =>
    obtain rfl | other := told
    · exact ih
    · intro x member
      have read := ih x member
      rw [unread _ other] at read
      cases read

theorem resume_unrecorded {α : Type} {f : Event V → Option α}
    (unread : ∀ reply, f (.returned reply) = none) (reply : Reply V) (frames : List (Frame F V)) :
    (resume reply frames).2.filterMap f = [] := by
  refine List.eq_nil_iff_forall_not_mem.mpr fun x member => ?_
  have read := resume_recorded reply (fun answer _ => unread answer) frames x member
  rw [unread] at read
  cases read

private theorem GetGoes.enters {point point' : GetPoint F}
    (goes : GetGoes s t m w a point shared point' told) :
    Enters s ((Frame.get m w point).writes s a) shared := by
  cases goes with
  | seen | unseen | beaten | copy | refuse | spoil | logRefusal | setUp | fail | panic | logFailure
  | logSetup => exact .still rfl rfl rfl
  | register => exact .register m w
  | occupy | meet | miss => exact .lock _ (some t)
  | countRefusal | countCopy | countFailure | countSetup => exact .bump m _
  | number => exact .number m w _
  | @publish _ c => exact .mapSlot _ _ (some (.live c)) fun _ => rfl
  | retire => exact .mapSlot _ _ (some .retired) fun _ => rfl
  | failed | again => exact .lock _ none
  | restart => exact .prune m w _

private theorem ReleaseGoes.enters {point point' : ReleasePoint}
    (goes : ReleaseGoes s t m w a point shared point' told) :
    Enters s ((Frame.release m w point).writes s a) shared := by
  cases goes with
  | unregister => exact .mapManager m _ fun _ => rfl
  | enter => exact .lock _ (some t)
  | retire => exact .mapSlot _ _ (some .retired) fun _ => rfl
  | leave => exact .lock _ none
  | kill | claim | yield => exact .mapCopy _ _ fun _ => ⟨rfl,rfl⟩
  | tornDown | fail | panic => exact .still rfl rfl rfl
  | countTeardown | countBroken | countFailure => exact .bump m _

private theorem Goes.enters {first : Frame F V} {more : List (Frame F V)}
    (goes : Goes s t a frame shared first more told) : Enters s (frame.writes s a) shared := by
  cases goes with
  | get goes => exact goes.enters
  | release goes => exact goes.enters
  | peek goes =>
    cases goes with
    | seen => exact .still rfl rfl rfl
    | meet | miss => exact .lock _ (some t)
  | use goes | body goes =>
    cases goes with
    | claim => exact .mapCopy _ _ fun _ => ⟨rfl,rfl⟩
    | finish | fail | panic => exact .still rfl rfl rfl
  | fail => exact .mapCopy _ _ fun _ => ⟨rfl,rfl⟩
  | _ => exact .still rfl rfl rfl

private theorem Goes.tells {first : Frame F V} {more : List (Frame F V)}
    (goes : Goes s t a frame shared first more told) : Tells s (frame.writes s a) told := by
  cases goes with
  | get goes | peek goes | release goes | use goes | body goes =>
    cases goes <;> exact ⟨rfl,rfl,rfl⟩
  | _ => exact ⟨rfl,rfl,rfl⟩

private theorem Goes.hands {first : Frame F V} {more : List (Frame F V)}
    (goes : Goes s t a frame shared first more told) : told.filterMap Event.handed? = [] := by
  cases goes with
  | get goes | release goes | use goes | body goes => cases goes <;> rfl
  | _ => rfl

private theorem Replies.enters (replies : Replies s frame shared reply told) :
    Enters s (frame.record s) shared := by
  cases replies with
  | get replies =>
    cases replies with
    | found | unwound => exact .lock _ none
    | failed => exact .prune _ _ _
  | peek replies =>
    cases replies with
    | unseen => exact .still rfl rfl rfl
    | left => exact .lock _ none
  | release replies =>
    cases replies with
    | absent | done | failed => exact .still rfl rfl rfl
    | empty => exact .lock _ none
    | unwound => exact .mapCopy _ _ fun _ => ⟨rfl,rfl⟩
  | use replies | body replies => cases replies <;> exact .mapCopy _ _ fun _ => ⟨rfl,rfl⟩
  | broken => exact .mapCopy _ _ fun _ => ⟨rfl,rfl⟩
  | _ => exact .still rfl rfl rfl

private theorem Replies.tells (replies : Replies s frame shared reply told) :
    Tells s (frame.record s) told := by
  cases replies with
  | get replies | peek replies | release replies => cases replies <;> exact ⟨rfl,rfl,rfl⟩
  | _ => exact ⟨rfl,rfl,rfl⟩

private theorem Replies.hands (replies : Replies s frame shared reply told) :
    told.filterMap Event.handed? = [] ∧ reply.handed? = (frame.record s).hands := by
  cases replies with
  | @peek _ _ _ _ found replies =>
    cases replies with
    | unseen => exact ⟨rfl,rfl⟩
    | left => cases found <;> exact ⟨rfl,rfl⟩
  | get replies | release replies | use replies | body replies =>
    cases replies <;> exact ⟨rfl,rfl⟩
  | _ => exact ⟨rfl,rfl⟩

/-- Whatever a thread does in one atomic step is recorded of its innermost call. -/
theorem step_recorded (moved : s.step t a = some (next,events)) :
    Recorded s (Moment.record ⟨s,⟨t,a,events⟩⟩) next events := by
  cases step_acts moved with
  | call => exact ⟨(Enters.still rfl rfl rfl).setStack t _,⟨rfl,rfl,rfl⟩,by simp [Event.handed?]⟩
  | assign => exact ⟨.mapCopy _ _ fun _ => ⟨rfl,rfl⟩,⟨rfl,rfl,rfl⟩,by simp⟩
  | @own _ _ below _ _ top acts =>
    rw [record_of_top events top]
    cases acts with
    | goes goes => exact ⟨goes.enters.setStack t _,goes.tells,by simp [goes.hands]⟩
    | @replies _ reply _ own replies =>
      obtain rfl := own
      have tells := replies.tells
      have handed := resume_recorded (f := Event.handed?) reply
        (by rintro answer (⟨fault,rfl⟩ | ⟨errors,rfl⟩) <;> rfl) below
      refine ⟨replies.enters.setStack t _,⟨?_,?_,?_⟩,?_⟩
      · rw [List.filterMap_append,resume_unrecorded (fun _ => rfl),List.append_nil]
        exact tells.given
      · rw [List.filterMap_append,resume_unrecorded (fun _ => rfl),List.append_nil]
        exact tells.outcome
      · rw [List.filterMap_append,resume_unrecorded (fun _ => rfl),List.append_nil]
        exact tells.logs
      · rw [List.filterMap_append,replies.hands.1,List.nil_append]
        exact replies.hands.2 ▸ handed

end System

structure Record.Bare (record : Record) : Prop where
  counts : record.counts = none
  numbers : record.numbers = none
  stores : record.stores = none
  outcome : record.outcome = none
  logs : ∀ event ∈ record.logs, event.transition? = none

/-- What is read off the points of lookups and releases, and nothing off those that start. -/
structure Reading (F α : Type) where
  get : Nat → WorkerId → GetPoint F → List α := fun _ _ _ => []
  release : Nat → WorkerId → ReleasePoint → List α := fun _ _ _ => []
  look : ∀ m w, get m w .look = [] := by intros; rfl
  unregister : ∀ m w, release m w .unregister = [] := by intros; rfl

namespace Reading

variable {F V α : Type}

def frame (reading : Reading F α) : Frame F V → List α
  | .get m w point => reading.get m w point
  | .release m w point => reading.release m w point
  | _ => []

def all (reading : Reading F α) (s : System F V) : Multiset α :=
  ∑ t ∈ Finset.range s.threads.size, ↑((s.stack t).flatMap reading.frame)

theorem mem_all {reading : Reading F α} {s : System F V} {x : α} (member : x ∈ reading.all s) :
    ∃ t, ∃ frame ∈ s.stack t, x ∈ reading.frame frame := by
  obtain ⟨t,_,among⟩ := Multiset.mem_sum.mp member
  obtain ⟨frame,there,read⟩ := List.mem_flatMap.mp (Multiset.mem_coe.mp among)
  exact ⟨t,frame,there,read⟩

theorem frame_waits (reading : Reading F α) {frame : Frame F V} (waits : frame.waits = true) :
    reading.frame frame = [] := by
  cases frame <;> first | rfl | cases waits

theorem waiting (reading : Reading F α) {frames : List (Frame F V)}
    (waiting : ∀ frame ∈ frames, frame.waits = true) : frames.flatMap reading.frame = [] :=
  List.flatMap_eq_nil_iff.mpr fun frame member => reading.frame_waits (waiting frame member)

/-- Whatever is read off lookups and releases is the same before and after an answer wakes a
caller. -/
theorem resume (reading : Reading F α) (reply : Reply V) (frames : List (Frame F V)) :
    (System.resume reply frames).1.flatMap reading.frame = frames.flatMap reading.frame := by
  have resumed := System.resumed reply frames
  generalize System.resume reply frames = result at resumed ⊢
  induction resumed with
  | returned => rfl
  | woken below woken =>
    rw [List.flatMap_append,List.flatMap_cons,List.flatMap_cons,reading.frame_waits woken.waits,
      reading.waiting woken.waiting,List.append_nil]
    cases woken <;> first | rfl | simp [frame,reading.unregister]
  | passed waits _ _ ih => rw [ih,List.flatMap_cons,reading.frame_waits waits,List.nil_append]

theorem firstFrames (reading : Reading F α) (call : Call) (frames : List (Frame F V)) :
    (System.firstFrames call frames).flatMap reading.frame = frames.flatMap reading.frame := by
  cases call with
  | drain ms => cases ms <;> rfl
  | get | release | process => simp [System.firstFrames,frame,reading.look,reading.unregister]
  | _ => rfl

end Reading

namespace System

variable {F V α : Type} {s next : System F V} {t m : Nat} {w : WorkerId} {a : Action F V}
  {frame : Frame F V} {below : List (Frame F V)} {events : List (Event V)}

inductive Turn (reading : Reading F α) (s : System F V) (t : Nat) (a : Action F V) :
    Record → List α → List α → Prop
  | still {record} (bare : record.Bare) : Turn reading s t a record [] []
  | get {m w point point' below record} (top : s.stack t = .get m w point :: below)
      (turn : GetTurn s m w a point point') :
      Turn reading s t a record (reading.get m w point) (reading.get m w point')
  | got {m w point below record} {reply : Reply V} (top : s.stack t = .get m w point :: below)
      (ended : GetEnd point reply) (bare : record.Bare) :
      Turn reading s t a record (reading.get m w point) []
  | release {m w point point' below record} (top : s.stack t = .release m w point :: below)
      (turn : ReleaseTurn s m w a point point') :
      Turn reading s t a record (reading.release m w point) (reading.release m w point')
  | released {m w point below record} {reply : Reply V}
      (top : s.stack t = .release m w point :: below) (ended : ReleaseEnd s m w point reply)
      (advances : a = .advance) : Turn reading s t a record (reading.release m w point) []

theorem bare_of_other (events : List (Event V)) (top : s.stack t = frame :: below)
    (lookup : ∀ m w point, frame ≠ .get m w point)
    (release : ∀ m w point, frame ≠ .release m w point) :
    (Moment.record ⟨s,⟨t,a,events⟩⟩).Bare := by
  rw [record_of_top events top]
  cases a with
  | advance =>
    cases frame with
    | get m w point => exact absurd rfl (lookup m w point)
    | release m w point => exact absurd rfl (release m w point)
    | peek m w point =>
      cases point <;> constructor <;> simp [Frame.writes,Frame.record,PeekPoint.record]
    | _ => constructor <;> simp [Frame.writes,Frame.record,LogEvent.transition?]
  | finish result =>
    cases frame with
    | get m w point => exact absurd rfl (lookup m w point)
    | release m w point => exact absurd rfl (release m w point)
    | _ => constructor <;> simp [Frame.writes,Frame.hookOutcome?]
  | _ => constructor <;> simp [Frame.writes]

theorem turn_of_onward {first : Frame F V} {more : List (Frame F V)} (reading : Reading F α)
    (events : List (Event V)) (top : s.stack t = frame :: below)
    (onward : Onward s a frame first more) :
    Turn reading s t a (Moment.record ⟨s,⟨t,a,events⟩⟩) (reading.frame frame)
      (reading.frame first) := by
  cases onward with
  | get turn => exact .get top turn
  | release turn => exact .release top turn
  | discard | sweep =>
    have fresh := reading.unregister
    simp only [Reading.frame,fresh]
    exact .still (bare_of_other events top (by simp) (by simp))
  | _ => exact .still (bare_of_other events top (by simp) (by simp))

theorem turn_of_closes {reply : Reply V} (reading : Reading F α) (events : List (Event V))
    (own : a.isOwn = true) (moved : s.step t a = some (next,events))
    (top : s.stack t = frame :: below) (closes : Closes s frame reply) :
    Turn reading s t a (Moment.record ⟨s,⟨t,a,events⟩⟩) (reading.frame frame) [] := by
  cases closes with
  | get ended =>
    obtain rfl := only_advance top own moved (by cases ended <;> rfl)
    refine .got top ended ?_
    rw [record_of_top events top]
    cases ended <;> constructor <;> simp [Frame.writes,Frame.record,GetPoint.record]
  | release ended => exact .released top ended (only_advance top own moved (by cases ended <;> rfl))
  | _ => exact .still (bare_of_other events top (by simp) (by simp))

/-- A step changes what is read off its innermost call, and of no other. -/
theorem step_read (reading : Reading F α) (moved : s.step t a = some (next,events)) :
    ∃ (rest : Multiset α) (before after : List α), reading.all s = ↑before + rest ∧
      reading.all next = ↑after + rest ∧
        Turn reading s t a (Moment.record ⟨s,⟨t,a,events⟩⟩) before after := by
  obtain ⟨rest,old,new⟩ := step_sum
    (fun frames => (frames.flatMap reading.frame : Multiset α)) moved
  change reading.all s = _ at old
  change reading.all next = _ at new
  cases step_points moved with
  | call call floor here =>
    rw [here,reading.firstFrames] at new
    refine ⟨_,[],[],old.trans (zero_add _).symm,new.trans (zero_add _).symm,.still ?_⟩
    constructor <;> simp [Moment.record]
  | assign value floor here =>
    rw [here] at new
    refine ⟨_,[],[],old.trans (zero_add _).symm,new.trans (zero_add _).symm,.still ?_⟩
    constructor <;> simp [Moment.record]
  | @onward _ frame below first more _ own top onward here =>
    refine ⟨↑(below.flatMap reading.frame) + rest,_,_,?_,?_,
      turn_of_onward reading events top onward⟩
    · rw [old,top,List.flatMap_cons,← Multiset.coe_add,add_assoc]
    · rw [new,here,List.flatMap_append,List.flatMap_cons,reading.waiting onward.waiting.2.2,
        List.append_nil,← Multiset.coe_add,add_assoc]
  | @closes _ frame below reply _ own top closes answers =>
    refine ⟨↑(below.flatMap reading.frame) + rest,_,_,?_,?_,
      turn_of_closes reading events own moved top closes⟩
    · rw [old,top,List.flatMap_cons,← Multiset.coe_add,add_assoc]
    · rw [new,answers.1,reading.resume,Multiset.coe_nil,zero_add]

theorem all_idle (reading : Reading F α) (sharding : Sharding) (names : List String)
    (threads : Nat) : reading.all (idle sharding names threads : System F V) = 0 := by
  refine Finset.sum_eq_zero fun t _ => ?_
  rw [stack_idle]
  rfl

theorem all_quiet (reading : Reading F α) (quiet : ∀ t, s.stack t = []) : reading.all s = 0 := by
  refine Finset.sum_eq_zero fun t _ => ?_
  rw [quiet]
  rfl

end System
end PerWorker
