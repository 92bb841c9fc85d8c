import PerWorker.Proofs.Lifecycle.Overtaking
import PerWorker.Proofs.Lifecycle.Progress

/-!
What one atomic step does to the stack of the thread that takes it, and the one access to shared
state that goes with it. Only the innermost call acts. It goes on in place, with other calls above
it, or it answers to the calls that wait below; a new call starts where nothing waits. The frames
below foreign code are not looked at.
-/
namespace PerWorker

namespace Frame

variable {F V : Type}

def waits : Frame F V → Bool
  | .processGet .. | .processRelease .. | .releaseAll .. | .drain .. => true
  | _ => false

def grips? : Frame F V → Option Nat
  | .release _ _ (.tearingDown c) | .release _ _ (.unwind c _) | .release _ _ (.yield c _)
  | .use (.running c) | .use (.unwind c _) | .use (.yield c _)
  | .processBody _ _ (.running c) | .processBody _ _ (.unwind c _)
  | .processBody _ _ (.yield c _) => some c
  | _ => none

end Frame

def Action.isOwn {F V : Type} : Action F V → Bool
  | .call _ | .assign _ => false
  | .advance | .drawn _ | .finish _ | .panic _ => true

/-- An idle thread, or one in which foreign code runs. -/
def Floor {F V : Type} (frames : List (Frame F V)) : Prop :=
  ∀ frame ∈ frames.head?, frame.isForeign = true

theorem Floor.still {F V : Type} {base : List (Frame F V)} (floor : Floor base) :
    ∀ frame ∈ base.head?, frame.waits = false := by
  intro frame member
  have foreign := floor frame member
  cases frame <;> first | rfl | cases foreign

namespace Manager

def Distinct (manager : Manager) : Prop := (manager.slots.map (·.1)).Nodup

/-- A manager maps no worker twice. -/
theorem Distinct.insert {manager : Manager} (distinct : manager.Distinct) (w : WorkerId) (i : Nat)
    (missing : manager.slot? w = none) : (manager.insert w i).Distinct := by
  have absent : w ∉ manager.slots.map (·.1) := by
    intro member
    obtain ⟨⟨v,j⟩,present,rfl⟩ := List.mem_map.mp member
    have other := List.lookup_eq_none_iff.mp missing (v,j) present
    simp at other
  unfold Distinct Manager.insert
  rw [List.map_append]
  refine List.Nodup.append distinct (List.nodup_singleton w) ?_
  rintro v member own
  obtain rfl := List.mem_singleton.mp own
  exact absent member

theorem Distinct.erase {manager : Manager} (distinct : manager.Distinct) (w : WorkerId) :
    (manager.erase w).Distinct :=
  List.Nodup.sublist (List.filter_sublist.map _) distinct

theorem Distinct.eraseSlot {manager : Manager} (distinct : manager.Distinct) (w : WorkerId)
    (i : Nat) : (manager.eraseSlot w i).Distinct := by
  unfold Manager.eraseSlot
  split
  next => exact distinct.erase w
  next => exact distinct

end Manager

namespace System

variable {F V : Type}

def copyHolder? (s : System F V) (c : Nat) : Option Nat := (s.copies[c]?).bind (·.holder)

/-- The one access to shared state of a step, with the copy whose lock is given back and the one
whose lock is taken. -/
inductive Change (s : System F V) (t : Nat) : Option Nat → Option Nat → System F V → Prop
  | still (grip) : Change s t grip grip s
  | manager (grip m f) (named : ∀ manager, (f manager).name = manager.name)
      (distinct : ∀ manager, manager.Distinct → (f manager).Distinct) :
      Change s t grip grip (s.mapManager m f)
  | register (m w) (missing : s.slot? m w = none) :
      Change s t none none
        ({ s with slots := s.slots.push { manager := m, worker := w } }.mapManager m
          (·.insert w s.slots.size))
  | slot (i f) : Change s t none none (s.mapSlot i f)
  | number (copy) (free : copy.holder = none) :
      Change s t none none { s with copies := s.copies.push copy }
  | copy (grip c f) (kept : ∀ copy, (f copy).holder = copy.holder) :
      Change s t grip grip (s.mapCopy c f)
  | claim (c copy) (entry : s.copies[c]? = some copy) (free : copy.holder = none) :
      Change s t none (some c) (s.mapCopy c ({ · with holder := some t }))
  | yield (c) : Change s t (some c) none (s.yieldCopy c)

inductive Reach : List (Frame F V) → Action F V → Option Nat → Option Nat → List (Frame F V) →
    List (Event V) → Prop
  | assign (frames value) : Reach frames (.assign value) none none frames []
  | call (frames call) (floor : Floor frames) :
      Reach frames (.call call) none none (firstFrames call frames) [.called call]
  | go (frame below first more a after told) (own : a.isOwn = true)
      (waiting : ∀ other ∈ more, other.waits = true)
      (bodiless : ∀ m w c, first ≠ .processBody m w (.claim c))
      (grips : first.grips? = after) (quiet : ∀ reply, .returned reply ∉ told) :
      Reach (frame :: below) a frame.grips? after (first :: more ++ below) told
  | answer (frame below reply told)
      (handed : ∀ c, reply = .handle c → ∃ m w i, frame = .get m w (.leave i (.found c)))
      (quiet : ∀ reply, .returned reply ∉ told) :
      Reach (frame :: below) .advance frame.grips? none (resume reply below).1
        (told ++ (resume reply below).2)

structure Effect (s : System F V) (t : Nat) (a : Action F V) (next : System F V)
    (events : List (Event V)) : Prop where
  bound : t < s.threads.size
  parts : ∃ shared before after frames, next = shared.setStack t frames ∧
    Change s t before after shared ∧ Reach (s.stack t) a before after frames events

theorem Change.threads {s shared : System F V} {t : Nat} {before after : Option Nat}
    (change : Change s t before after shared) : shared.threads = s.threads := by
  cases change <;> rfl

theorem Change.sharding {s shared : System F V} {t : Nat} {before after : Option Nat}
    (change : Change s t before after shared) : shared.sharding = s.sharding := by
  cases change <;> rfl

theorem Change.name {s shared : System F V} {t : Nat} {before after : Option Nat}
    (change : Change s t before after shared) (m : Nat) : shared.name m = s.name m := by
  cases change with
  | manager grip n f named distinct => exact name_mapManager s n m f named
  | register n w missing => exact name_mapManager _ n m _ fun _ => rfl
  | still | slot | number | copy | claim | yield => rfl

section

variable {s shared next : System F V} {t m : Nat} {w : WorkerId} {a : Action F V}
  {frame first : Frame F V} {more : List (Frame F V)} {reply : Reply V}
  {events told : List (Event V)}

private theorem counted_change (s : System F V) (t m : Nat) (counter : Counter)
    (grip : Option Nat) : Change s t grip grip (s.bump m counter) :=
  .manager grip m _ (fun _ => rfl) fun _ distinct => distinct

private theorem pruned_change (s : System F V) (t m : Nat) (w : WorkerId) (i : Nat) :
    Change s t none none (s.mapManager m (·.eraseSlot w i)) := by
  refine .manager none m _ (fun manager => ?_) fun _ distinct => distinct.eraseSlot w i
  unfold Manager.eraseSlot
  split <;> rfl

private theorem GetGoes.change {point point' : GetPoint F}
    (goes : GetGoes s t m w a point shared point' told) : Change s t none none shared := by
  cases goes with
  | seen | unseen | beaten | copy | refuse | spoil | logRefusal | setUp | fail | panic | logFailure
  | logSetup => exact .still none
  | register missing => exact .register m w missing
  | occupy | meet | miss | publish | retire | failed | again => exact .slot _ _
  | countRefusal | countCopy | countFailure | countSetup => exact counted_change ..
  | number => exact .number _ rfl
  | restart => exact pruned_change ..

private theorem PeekGoes.change {point point' : PeekPoint}
    (goes : PeekGoes s t m w point shared point') : Change s t none none shared := by
  cases goes with
  | seen => exact .still none
  | meet | miss => exact .slot _ _

private theorem locked_change {c : Nat} (free : s.FreeCopy c) :
    Change s t none (some c) (s.lockCopy t c) := by
  obtain ⟨copy,entry,free⟩ := free
  exact .claim c copy entry free

private theorem ReleaseGoes.change {point point' : ReleasePoint}
    (goes : ReleaseGoes s t m w a point shared point' told) :
    Change s t (Frame.release m w point : Frame F V).grips?
      (Frame.release m w point' : Frame F V).grips? shared := by
  cases goes with
  | unregister => exact .manager none m _ (fun _ => rfl) fun _ distinct => distinct.erase w
  | enter | retire | leave => exact .slot _ _
  | kill => exact .copy none _ _ fun _ => rfl
  | claim free => exact locked_change free
  | tornDown | fail | panic => exact .still _
  | yield => exact .yield _
  | countTeardown | countBroken | countFailure => exact counted_change ..

theorem Goes.change (goes : Goes s t a frame shared first more told) :
    Change s t frame.grips? first.grips? shared := by
  cases goes with
  | get goes => exact goes.change
  | peek goes => exact goes.change
  | release goes => exact goes.change
  | use goes | body goes =>
    cases goes with
    | claim free => exact locked_change free
    | finish | fail | panic => exact .still _
  | fail => exact .yield _
  | _ => exact .still none

theorem Replies.change (replies : Replies s frame shared reply told) :
    Change s t frame.grips? none shared := by
  cases replies with
  | get replies =>
    cases replies with
    | found | unwound => exact .slot _ _
    | failed => exact pruned_change ..
  | peek replies =>
    cases replies with
    | unseen => exact .still none
    | left => exact .slot _ _
  | release replies =>
    cases replies with
    | absent | done | failed => exact .still none
    | empty => exact .slot _ _
    | unwound => exact .yield _
  | use replies | body replies => cases replies <;> exact .yield _
  | broken => exact .yield _
  | _ => exact .still none

theorem Goes.own (goes : Goes s t a frame shared first more told) : a.isOwn = true := by
  cases goes with
  | get goes | release goes | use goes | body goes => cases goes <;> rfl
  | _ => rfl

theorem Goes.reach (goes : Goes s t a frame shared first more told) (below : List (Frame F V)) :
    Reach (frame :: below) a frame.grips? first.grips? (first :: more ++ below) told := by
  have bodiless : ∀ m w c, first ≠ .processBody m w (.claim c) := by
    cases goes with
    | body goes => cases goes <;> simp
    | _ => simp
  have quiet : ∀ reply, .returned reply ∉ told := by
    cases goes with
    | get goes | release goes | use goes | body goes => cases goes <;> simp
    | _ => simp
  refine .go frame below first more a _ told goes.own ?_ bodiless rfl quiet
  cases goes <;> simp [Frame.waits]

theorem Replies.quiet (replies : Replies s frame shared reply told) (other : Reply V) :
    .returned other ∉ told := by
  cases replies with
  | release replies => cases replies <;> simp
  | _ => simp

theorem Replies.reach (replies : Replies s frame shared reply told) (below : List (Frame F V)) :
    Reach (frame :: below) .advance frame.grips? none (resume reply below).1
      (told ++ (resume reply below).2) := by
  refine .answer frame below reply told ?_ replies.quiet
  rintro c rfl
  cases replies with
  | get replies =>
    cases replies
    exact ⟨_,_,_,rfl⟩
  | release replies | use replies | body replies => cases replies

theorem floor_of_open (opened : s.isOpen t = true) : Floor (s.stack t) := by
  intro frame member
  have foreign : ((s.stack t).head?.map (·.isForeign)).getD true = true := by
    simp_all [isOpen]
  rwa [Option.mem_def.mp member] at foreign

theorem setStack_stack (s : System F V) (t : Nat) : s.setStack t (s.stack t) = s := by
  have same : s.threads.setIfInBounds t (s.threads.getD t []) = s.threads := by
    apply Array.ext
    · simp
    · intro u _ bound
      rw [Array.getElem_setIfInBounds]
      split
      next here =>
        subst here
        simp [Array.getD_eq_getD_getElem?,bound]
      next => rfl
  unfold setStack stack
  rw [same]

/-- Whatever a step does, it changes one stack and has access to one shared thing. -/
theorem step_effect (moved : s.step t a = some (next,events)) : Effect s t a next events := by
  cases step_acts moved with
  | call opened =>
    have bound : t < s.threads.size := by simp_all [isOpen]
    exact ⟨bound,s,_,_,_,rfl,.still none,.call _ _ (floor_of_open opened)⟩
  | @assign value _ c running =>
    obtain ⟨frame,head,_⟩ := Option.bind_eq_some_iff.mp running
    obtain ⟨below,top⟩ := List.head?_eq_some_iff.mp head
    have bound := bound_of_stack s t frame below top
    have same := setStack_stack (s.mapCopy c ({ · with value })) t
    exact ⟨bound,_,_,_,_,same.symm,.copy none c _ fun _ => rfl,.assign (s.stack t) value⟩
  | @own _ frame below _ _ top acts =>
    refine ⟨bound_of_stack s t frame below top,?_⟩
    rw [top]
    cases acts with
    | goes goes => exact ⟨_,_,_,_,rfl,goes.change,goes.reach below⟩
    | replies own replies =>
      subst own
      exact ⟨_,_,_,_,rfl,replies.change,replies.reach below⟩

end

section

variable {reply : Reply V} {frames above base : List (Frame F V)}

theorem resume_quiet (still : ∀ frame ∈ frames.head?, frame.waits = false) :
    resume reply frames = (frames,[.returned reply]) := by
  cases frames with
  | nil => simp [resume]
  | cons frame below =>
    have still := still frame rfl
    cases frame <;> first | rfl | cases still

private theorem head_still (noGet : ∀ m w below, frames = .processGet m w :: below → False)
    (noRelease : ∀ m w fault below, frames = .processRelease m w fault :: below → False)
    (noReleaseAll : ∀ m pending errors below,
      frames = .releaseAll m pending errors :: below → False)
    (noDrain : ∀ m pending drained errors below,
      frames = .drain m pending drained errors :: below → False) :
    ∀ frame ∈ frames.head?, frame.waits = false := by
  intro frame member
  obtain ⟨below,rfl⟩ := List.head?_eq_some_iff.mp member
  cases frame with
  | processGet m w => exact (noGet m w below rfl).elim
  | processRelease m w fault => exact (noRelease m w fault below rfl).elim
  | releaseAll m pending errors => exact (noReleaseAll m pending errors below rfl).elim
  | drain m pending drained errors => exact (noDrain m pending drained errors below rfl).elim
  | _ => rfl

inductive Woken : Reply V → Frame F V → Frame F V → List (Frame F V) → Prop
  | found (m w c) : Woken (.handle c) (.processGet m w) (.processBody m w (.claim c)) []
  | discarded (m w fault e) :
      Woken (.failed e) (.processRelease m w fault) (.processLogTeardown m w fault e) []
  | sweep (reply m w pending errors errors') : Woken reply (.releaseAll m (w :: pending) errors)
      (.release m w .unregister) [.releaseAll m pending errors']
  | swept (reply m errors errors') :
      Woken reply (.releaseAll m [] errors) (.releaseAllLog m errors') []
  | drain (m n pending drained errors) : Woken (.errors []) (.drain m (n :: pending) drained errors)
      (.survey n .releaseAll 0 []) [.drain n pending (drained + 1) errors]
  | drained (m drained errors) :
      Woken (.errors []) (.drain m [] drained errors) (.drainLogDone (drained + 1) errors) []
  | failed (m pending drained errors failed) : Woken (.errors failed)
      (.drain m pending drained errors) (.drainLogFailure m pending drained errors failed) []

theorem Woken.waits {caller first : Frame F V} {more : List (Frame F V)}
    (woken : Woken reply caller first more) : caller.waits = true := by
  cases woken <;> rfl

theorem Woken.waiting {caller first : Frame F V} {more : List (Frame F V)}
    (woken : Woken reply caller first more) : ∀ other ∈ more, other.waits = true := by
  intro other member
  cases woken with
  | sweep | drain =>
    obtain rfl := List.mem_singleton.mp member
    rfl
  | _ => cases member

/-- An answer is returned where nothing waits for it, wakes the call that waits, or ends that call
with an answer of its own. -/
inductive Resumed : Reply V → List (Frame F V) → List (Frame F V) × List (Event V) → Prop
  | returned (reply below) (still : ∀ frame ∈ below.head?, frame.waits = false) :
      Resumed reply below (below,[.returned reply])
  | woken {reply caller first more} (below) (woken : Woken reply caller first more) :
      Resumed reply (caller :: below) (first :: more ++ below,[])
  | passed {reply answer caller below result} (waits : caller.waits = true)
      (told : answer = reply ∨ (∃ fault, answer = .fault fault) ∨ ∃ errors, answer = .errors errors)
      (rest : Resumed answer below result) : Resumed reply (caller :: below) result

private theorem Resumed.released {m : Nat} {pending : List WorkerId} {below : List (Frame F V)}
    {errors errors' : List LifecycleError}
    (rest : Resumed (.errors errors') below (resume (.errors errors') below)) :
    Resumed reply (.releaseAll m pending errors :: below)
      ((nextRelease m pending errors' below).elim (resume (.errors errors') below) (·,[])) := by
  cases pending with
  | cons w pending => exact .woken below (.sweep reply m w pending errors errors')
  | nil =>
    cases errors' with
    | nil => exact .passed rfl (Or.inr (Or.inr ⟨[],rfl⟩)) rest
    | cons e more => exact .woken below (.swept reply m errors (e :: more))

/-- All that an answer can do to the calls below it. -/
theorem resumed (reply : Reply V) (frames : List (Frame F V)) :
    Resumed reply frames (resume reply frames) := by
  fun_induction resume reply frames with
  | case1 m w below c => exact .woken below (.found m w c)
  | case3 m w fault below e => exact .woken below (.discarded m w fault e)
  | case2 | case4 | case6 | case11 =>
    rename_i ih
    exact .passed rfl (Or.inl rfl) ih
  | case5 reply m w fault below _ _ ih => exact .passed rfl (Or.inr (Or.inl ⟨fault,rfl⟩)) ih
  | case7 m pending errors below e ih | case8 reply m pending errors below _ _ ih =>
    exact .released ih
  | case9 m pending drained errors below =>
    cases pending with
    | nil => exact .woken below (.drained m drained errors)
    | cons n pending => exact .woken below (.drain m n pending drained errors)
  | case10 m pending drained errors below failed =>
    exact .woken below (.failed m pending drained errors failed)
  | case12 reply frames noGet noRelease noReleaseAll noDrain =>
    exact .returned reply frames (head_still noGet noRelease noReleaseAll noDrain)

/-- What is read off frames one by one stays as it is under an answer, if it is nothing for calls
that wait and for calls that have just been woken. -/
theorem resume_filterMap {β : Type} {read? : Frame F V → Option β}
    (waiting : ∀ frame, frame.waits = true → read? frame = none)
    (woken : ∀ {reply caller first more}, Woken reply caller first more → read? first = none)
    (reply : Reply V) (frames : List (Frame F V)) :
    (resume reply frames).1.filterMap read? = frames.filterMap read? := by
  have resumed := resumed reply frames
  generalize resume reply frames = result at resumed ⊢
  induction resumed with
  | returned => rfl
  | @woken _ caller first more below wakes =>
    have idle : more.filterMap read? = [] :=
      List.filterMap_eq_nil_iff.mpr fun other member => waiting other (wakes.waiting other member)
    rw [List.filterMap_append,List.filterMap_cons_none (woken wakes),idle,
      List.filterMap_cons_none (waiting caller wakes.waits),List.nil_append]
  | passed waits _ _ ih => rw [ih,List.filterMap_cons_none (waiting _ waits)]

theorem nextRelease_append (m : Nat) (pending : List WorkerId) (errors : List LifecycleError)
    (above base : List (Frame F V)) : nextRelease m pending errors (above ++ base) =
      (nextRelease m pending errors above).map (· ++ base) := by
  cases pending with
  | nil => cases errors <;> rfl
  | cons w rest => rfl

theorem nextDrain_append (pending : List Nat) (drained : Nat) (errors : List LifecycleError)
    (above base : List (Frame F V)) :
    nextDrain pending drained errors (above ++ base) =
      nextDrain pending drained errors above ++ base := by
  cases pending <;> rfl

theorem firstFrames_append (call : Call) (above base : List (Frame F V)) :
    firstFrames call (above ++ base) = firstFrames call above ++ base := by
  cases call <;> first | exact nextDrain_append .. | rfl

/-- An answer goes no further down than to the foreign code that made the call. -/
theorem resume_append (floor : Floor base) (reply : Reply V) (above : List (Frame F V)) :
    resume reply (above ++ base) = ((resume reply above).1 ++ base,(resume reply above).2) := by
  fun_induction resume reply above with
  | case1 | case3 | case9 | case10 => simp [resume,nextDrain_append]
  | case2 m w below reply other ih | case11 m pending drained errors below reply _ _ ih =>
    simp_all [resume]
  | case4 m w fault below message ih | case6 m pending errors below message ih =>
    simpa [resume] using ih
  | case5 reply m w fault below _ _ ih => simp_all [resume]
  | case7 m pending errors below e ih =>
    simp only [List.cons_append,resume,nextRelease_append]
    cases nextRelease m pending (errors ++ [e]) below with
    | none => simpa using ih
    | some frames => rfl
  | case8 reply m pending errors below _ _ ih =>
    have same : resume reply (.releaseAll m pending errors :: (below ++ base)) =
        (nextRelease m pending errors (below ++ base)).elim
          (resume (.errors errors) (below ++ base)) (·,[]) := by simp_all [resume]
    rw [List.cons_append,same,nextRelease_append]
    cases nextRelease m pending errors below with
    | none => simpa using ih
    | some frames => rfl
  | case12 reply frames noGet noRelease noReleaseAll noDrain =>
    apply resume_quiet
    cases frames with
    | nil => exact floor.still
    | cons frame below =>
      have still := head_still noGet noRelease noReleaseAll noDrain
      exact fun other member => still other member

/-- An answer to calls that all wait ends every one of them, or makes one go on. -/
theorem resume_waiting (reply : Reply V) (waiting : ∀ frame ∈ frames, frame.waits = true) :
    ((resume reply frames).1 = [] ∧ ∃ last, (resume reply frames).2 = [.returned last]) ∨
      ∃ frame below, (resume reply frames).1 = frame :: below ∧ (resume reply frames).2 = [] ∧
        ∀ other ∈ below, other.waits = true := by
  have resumed := resumed reply frames
  generalize resume reply frames = result at resumed
  induction resumed with
  | returned reply below still =>
    cases below with
    | nil => exact Or.inl ⟨rfl,reply,rfl⟩
    | cons frame below => simp [still frame rfl] at waiting
  | woken below woken =>
    refine Or.inr ⟨_,_,rfl,rfl,fun other member => ?_⟩
    obtain new | old := List.mem_append.mp member
    · exact woken.waiting other new
    · exact waiting other (List.mem_cons_of_mem _ old)
  | passed _ _ _ ih => exact ih (List.forall_mem_cons.mp waiting).2

/-- Steps above foreign code do not depend on what is below it. -/
theorem Reach.split {frame : Frame F V} {a : Action F V} {before after : Option Nat}
    {result : List (Frame F V)} {events : List (Event V)} (floor : Floor base)
    (reach : Reach (frame :: above ++ base) a before after result events) :
    ∃ rest, result = rest ++ base ∧ Reach (frame :: above) a before after rest events := by
  cases reach with
  | assign _ value => exact ⟨_,rfl,.assign _ value⟩
  | call _ call open' => exact ⟨_,firstFrames_append call _ base,.call _ call open'⟩
  | go _ _ first more _ _ _ own waiting bodiless grips quiet =>
    exact ⟨first :: more ++ above,by simp,
      .go _ above first more _ _ _ own waiting bodiless grips quiet⟩
  | answer _ _ reply told handed quiet =>
    change ∃ rest, (resume reply (above ++ base)).1 = rest ++ base ∧
      Reach (frame :: above) .advance _ _ rest (told ++ (resume reply (above ++ base)).2)
    rw [resume_append floor]
    exact ⟨_,rfl,.answer frame above reply told handed quiet⟩

end

end System
end PerWorker
