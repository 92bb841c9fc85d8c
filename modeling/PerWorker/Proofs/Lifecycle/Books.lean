import PerWorker.Proofs.Lifecycle.Drains

/-!
The books of a manager: its six counters, what calls under way have still to enter into them, and
the copies that rest in its slots. Main statement: every atomic step is one posting, which carries a
unit from one account to another, or it leaves the books as they are.
-/
namespace PerWorker

/-- What a call under way has not entered into the counters yet, or not in full. -/
inductive Account where
  /-- The template gave no copy, and this has not been counted. -/
  | refused
  /-- A copy was counted, and what came of its setup has not been. -/
  | made
  /-- A setup was counted whose copy is in no slot and whose teardown has not been counted. -/
  | standing
  /-- A teardown was counted, and not that it failed. -/
  | failed
  /-- The teardown hook has panicked. -/
  | unwinding
  deriving DecidableEq

/-- Foreign code in a call let it down in a way that the counters show. -/
inductive Mishap where
  | refusal
  | setupPanic
  | teardownPanic
  deriving DecidableEq

def Account.to (n m : Nat) : Option Account → Option Account
  | none => none
  | some account => if n = m then some account else none

@[simp] theorem Account.to_none (n m : Nat) : Account.to n m none = none := rfl

theorem Account.to_self (m : Nat) (account : Option Account) : Account.to m m account = account := by
  cases account <;> simp [Account.to]

theorem Account.to_other {n m : Nat} (apart : n ≠ m) (account : Option Account) :
    Account.to n m account = none := by
  cases account <;> simp [Account.to,apart]

def GetPoint.account? {F : Type} : GetPoint F → Option Account
  | .countCloneFailure _ _ => some .refused
  | .number _ _ | .settingUp _ _ | .countSetupFailure _ _ _ | .countSetup _ _ => some .made
  | .logSetup _ _ | .publish _ _ => some .standing
  | _ => none

def ReleasePoint.account? : ReleasePoint → Option Account
  | .leave _ (some _) | .kill _ | .claim _ | .tearingDown _ | .yield _ _ | .countTeardown _ _ =>
    some .standing
  | .countFailure _ _ => some .failed
  | .unwind _ _ => some .unwinding
  | _ => none

def Frame.account? {F V : Type} (m : Nat) : Frame F V → Option Account
  | .get n _ point => Account.to n m point.account?
  | .release n _ point => Account.to n m point.account?
  | _ => none

def Slot.rests (m : Nat) (slot : Slot) : Bool :=
  slot.manager == m && match slot.state with
    | .live _ => true
    | .vacant | .retired => false

/-- The counters of a manager, what is due to them, and how many copies rest in its slots. -/
structure Books where
  counters : Counters
  due : Account → Nat
  resting : Nat

namespace Books

def count (b : Books) (counter : Counter) : Books := { b with counters := b.counters.bump counter }

def owe (b : Books) (account : Account) : Books :=
  { b with due := fun other => b.due other + if other = account then 1 else 0 }

def owes (b : Books) (account : Option Account) : Books := account.elim b b.owe

def rest (b : Books) : Books := { b with resting := b.resting + 1 }

/-- What one atomic step does to the books, and what went wrong in it. -/
inductive Posting : Books → Option Mishap → Books → Prop
  | still (b) : Posting b none b
  | refuse (b : Books) : Posting b (some .refusal) (b.owe .refused)
  | countRefusal (b : Books) : Posting (b.owe .refused) none (b.count .cloneFailures)
  | countCopy (b : Books) : Posting b none ((b.count .copies).owe .made)
  | countSetupFailure (b : Books) : Posting (b.owe .made) none (b.count .setupFailures)
  | setupPanic (b : Books) : Posting (b.owe .made) (some .setupPanic) b
  | countSetup (b : Books) : Posting (b.owe .made) none ((b.count .setups).owe .standing)
  | publish (b : Books) : Posting (b.owe .standing) none b.rest
  | withdraw (b : Books) : Posting b.rest none (b.owe .standing)
  | teardownPanic (b : Books) :
      Posting (b.owe .standing) (some .teardownPanic) (b.owe .unwinding)
  | unwound (b : Books) : Posting (b.owe .unwinding) none b
  | countTeardown (b : Books) : Posting (b.owe .standing) none (b.count .teardowns)
  | countFailed (b : Books) : Posting (b.owe .standing) none ((b.count .teardowns).owe .failed)
  | countFailure (b : Books) : Posting (b.owe .failed) none (b.count .teardownFailures)

end Books

def Moment.mishap? {F V : Type} (moment : Moment F V) : Option (Nat × Mishap) :=
  match moment.state.stack moment.entry.thread, moment.entry.action with
  | .get m _ (.replicating _) :: _, .drawn (.refused _) => some (m,.refusal)
  | .get m _ (.settingUp _ _) :: _, .panic _ => some (m,.setupPanic)
  | .release m _ (.tearingDown _) :: _, .panic _ => some (m,.teardownPanic)
  | _, _ => none

def Moment.mishapOf? {F V : Type} (m : Nat) (moment : Moment F V) : Option Mishap :=
  match moment.mishap? with
  | some (n,mishap) => if n = m then some mishap else none
  | none => none

namespace System

open Books Ledger

variable {F V : Type}

def counters (s : System F V) (m : Nat) : Counters :=
  ((s.managers[m]?).map (·.counters)).getD {}

def resting (s : System F V) (m : Nat) : Nat := s.slots.countP (Slot.rests m)

def accounts (s : System F V) (m : Nat) : List Account := s.collect fun _ frame => frame.account? m

def books (s : System F V) (m : Nat) : Books where
  counters := s.counters m
  due := fun account => (s.accounts m).count account
  resting := s.resting m

variable {s shared next : System F V} {t m n : Nat} {w : WorkerId} {frame other : Frame F V}
  {below frames : List (Frame F V)} {reply : Reply V} {events told : List (Event V)}
  {a : Action F V} {mishap : Option Mishap}

theorem collect_split {α : Type} (f : Nat → Frame F V → Option α) (bound : t < s.threads.size) :
    ∃ rest : Multiset α, ∀ frames, ((s.setStack t frames).collect f : Multiset α) =
      ↑(frames.filterMap (f t)) + rest := by
  refine ⟨∑ u ∈ (Finset.range s.threads.size).erase t, ↑((s.stack u).filterMap (f u)),?_⟩
  intro frames
  have size : (s.setStack t frames).threads.size = s.threads.size := by simp [setStack]
  rw [collect,coe_flatMap_range,size,← Finset.add_sum_erase _ _ (Finset.mem_range.mpr bound),
    stack_setStack s _ bound]
  congr 1
  refine Finset.sum_congr rfl fun u member => ?_
  have apart : t ≠ u := (Finset.ne_of_mem_erase member).symm
  simp [stack,setStack,apart]

theorem books_split (m : Nat) (bound : t < s.threads.size) :
    ∃ due : Account → Nat, ∀ shared : System F V, shared.threads = s.threads → ∀ frames,
      (shared.setStack t frames).books m =
        ⟨shared.counters m,
          fun account => (frames.filterMap (Frame.account? m)).count account + due account,
          shared.resting m⟩ := by
  obtain ⟨rest,split⟩ := collect_split (fun _ frame => frame.account? m) bound
  refine ⟨fun account => rest.count account,?_⟩
  intro shared same frames
  have alike : (shared.setStack t frames).accounts m = (s.setStack t frames).accounts m := by
    simp only [accounts,collect,setStack,stack,same]
  unfold books
  rw [alike]
  congr 1
  funext account
  rw [accounts,← Multiset.coe_count,split,Multiset.count_add,Multiset.coe_count]

/-- A thread replaces its innermost frame. What the frames below it owe stays as it is. -/
theorem posting_of_top (m : Nat) (after : Option Account) (top : s.stack t = frame :: below)
    (same : shared.threads = s.threads)
    (new : frames.filterMap (Frame.account? m) = after.toList ++ below.filterMap (Frame.account? m))
    (posting : ∀ due, Posting (Books.owes ⟨s.counters m,due,s.resting m⟩ (frame.account? m)) mishap
      (Books.owes ⟨shared.counters m,due,shared.resting m⟩ after)) :
    Posting (s.books m) mishap ((shared.setStack t frames).books m) := by
  have bound := bound_of_stack s t frame below top
  obtain ⟨due,split⟩ := books_split m bound
  have old := split s rfl (s.stack t)
  rw [setStack_stack,top] at old
  have posted := posting fun account =>
    (below.filterMap (Frame.account? m)).count account + due account
  have owes (b : Books) (account : Option Account) (below : List Account) :
      Books.owes ⟨b.counters,fun x => below.count x + b.due x,b.resting⟩ account =
        ⟨b.counters,fun x => (account.toList ++ below).count x + b.due x,b.resting⟩ := by
    cases account with
    | none => rfl
    | some account =>
      simp only [Books.owes,Option.elim,Books.owe,Option.toList,List.singleton_append]
      congr 1
      funext x
      by_cases same : x = account
      · simp only [same,List.count_cons_self,if_true]
        omega
      · simp [same,Ne.symm same]
  have front : (frame :: below).filterMap (Frame.account? m) =
      (frame.account? m).toList ++ below.filterMap (Frame.account? m) := by
    cases here : frame.account? m <;> simp [here]
  rw [old,split shared same frames,new,front,← owes ⟨s.counters m,due,s.resting m⟩,
    ← owes ⟨shared.counters m,due,shared.resting m⟩]
  exact posted

theorem counters_mapManager (s : System F V) (n : Nat) (f : Manager → Manager)
    (kept : ∀ manager, (f manager).counters = manager.counters) :
    (s.mapManager n f).counters m = s.counters m := by
  simp only [counters,mapManager,Array.getElem?_modify]
  split
  next same =>
    subst same
    cases s.managers[n]? <;> simp [kept]
  next => rfl

theorem counters_bump (s : System F V) (n : Nat) (counter : Counter) (bound : m < s.managers.size) :
    (s.bump n counter).counters m =
      if n = m then (s.counters m).bump counter else s.counters m := by
  simp only [counters,bump,mapManager,Array.getElem?_modify]
  split
  next same =>
    subst same
    simp [bound,Manager.bump]
  next => rfl

theorem resting_mapSlot {s : System F V} {i : Nat} {slot : Slot} (f : Slot → Slot)
    (cell : s.slots[i]? = some slot) :
    (s.mapSlot i f).resting m + (if slot.rests m then 1 else 0) =
      s.resting m + if (f slot).rests m then 1 else 0 := by
  obtain ⟨bound,rfl⟩ := Array.getElem?_eq_some_iff.mp cell
  have set : s.slots.modify i f = s.slots.set i (f s.slots[i]) bound := by
    ext1
    · simp
    next j _ _ => simp only [Array.getElem_modify,Array.getElem_set]; split <;> simp_all
  have some : (if s.slots[i].rests m then 1 else 0) ≤ s.slots.countP (Slot.rests m) := by
    split
    next rests => exact Array.countP_pos_iff.mpr ⟨_,Array.getElem_mem bound,rests⟩
    next => exact Nat.zero_le _
  simp only [resting,mapSlot,set,Array.countP_set]
  omega

theorem resting_lock (s : System F V) (i : Nat) (holder : Option Nat) :
    (s.mapSlot i ({ · with holder })).resting m = s.resting m := by
  cases cell : s.slots[i]? with
  | none =>
    have same : s.slots.modify i ({ · with holder }) = s.slots := by
      ext1
      · simp
      next j _ bound =>
        have apart : i ≠ j := by
          rintro rfl
          simp [bound] at cell
        simp [Array.getElem_modify,apart]
    simp only [resting,mapSlot,same]
  | some slot => simpa [Slot.rests] using resting_mapSlot (m := m) ({ · with holder }) cell

theorem nextDrain_accounts (pending : List Nat) (drained : Nat) (errors : List LifecycleError)
    (below : List (Frame F V)) : (nextDrain pending drained errors below).filterMap
      (Frame.account? m) = below.filterMap (Frame.account? m) := by
  cases pending <;> rfl

theorem resume_accounts (reply : Reply V) (frames : List (Frame F V)) :
    (resume reply frames).1.filterMap (Frame.account? m) = frames.filterMap (Frame.account? m) := by
  refine resume_filterMap (fun frame waits => ?_) (fun woken => ?_) reply frames
  · cases frame <;> first | rfl | cases waits
  · cases woken <;> rfl

theorem firstFrames_accounts (call : Call) (frames : List (Frame F V)) :
    (firstFrames call frames).filterMap (Frame.account? m) =
      frames.filterMap (Frame.account? m) := by
  cases call with
  | drain ms => exact nextDrain_accounts ..
  | _ => rfl

private theorem counted_posting {counter : Counter} (bound : m < s.managers.size)
    (before after : Option Account)
    (posting : ∀ b : Books, Posting (b.owes before) none ((b.count counter).owes after))
    (due : Account → Nat) :
    Posting (Books.owes ⟨s.counters m,due,s.resting m⟩ (Account.to n m before)) none
      (Books.owes ⟨(s.bump n counter).counters m,due,(s.bump n counter).resting m⟩
        (Account.to n m after)) := by
  rw [counters_bump s n counter bound]
  split
  next own =>
    rw [own,Account.to_self,Account.to_self]
    exact posting ⟨s.counters m,due,s.resting m⟩
  next other =>
    rw [Account.to_other other,Account.to_other other]
    exact .still _

private theorem still_posting {account : Option Account}
    (resting : shared.resting m = s.resting m) (counters : shared.counters m = s.counters m)
    (due : Account → Nat) :
    Posting (Books.owes ⟨s.counters m,due,s.resting m⟩ account) none
      (Books.owes ⟨shared.counters m,due,shared.resting m⟩ account) := by
  rw [counters,resting]
  exact .still _

private theorem lock_posting (account : Option Account) (i : Nat) (holder : Option Nat)
    (due : Account → Nat) :
    Posting (Books.owes ⟨s.counters m,due,s.resting m⟩ account) none
      (Books.owes ⟨(s.mapSlot i ({ · with holder })).counters m,due,
        (s.mapSlot i ({ · with holder })).resting m⟩ account) :=
  still_posting (resting_lock s i holder) rfl due

private theorem maps_posting {account : Option Account} (f : Manager → Manager)
    (kept : ∀ manager, (f manager).counters = manager.counters) (due : Account → Nat) :
    Posting (Books.owes ⟨s.counters m,due,s.resting m⟩ account) none
      (Books.owes ⟨(s.mapManager n f).counters m,due,(s.mapManager n f).resting m⟩ account) :=
  still_posting (by rfl) (counters_mapManager s n f kept) due

theorem cell_of_role {r : Role} {i : Nat} (sound : s.ledger.Sound) (member : (t,r) ∈ s.roles)
    (home : r.home? = some (n,w,i)) : ∃ slot, s.slots[i]? = some slot ∧ slot.manager = n := by
  obtain ⟨slot,cell,own,_⟩ := sound.homes.roles _ member n w i home
  exact ⟨slot,cell,own⟩

theorem vacant_of_role {r : Role} {i : Nat} (sound : s.ledger.Sound) (member : (t,r) ∈ s.roles)
    (home : r.home? = some (n,w,i)) (fills : r.fills? = some i) :
    ∃ slot, s.slots[i]? = some slot ∧ slot.manager = n ∧ slot.state = .vacant := by
  obtain ⟨slot,cell,own⟩ := cell_of_role sound member home
  have vacant : s.ledger.state? i = some .vacant := sound.guarded.fills _ member i fills
  exact ⟨slot,cell,own,by simpa [Ledger.state?,ledger,cell] using vacant⟩

theorem resting_retire {s : System F V} {i : Nat} {slot : Slot} (cell : s.slots[i]? = some slot)
    (bare : ∀ c, slot.state ≠ .live c) :
    (s.mapSlot i ({ · with state := .retired })).resting m = s.resting m := by
  have rests := resting_mapSlot (m := m) ({ · with state := .retired }) cell
  cases state : slot.state with
  | live c => exact absurd state (bare c)
  | vacant | retired => simpa [Slot.rests,state] using rests

private theorem filled_posting {i c : Nat} {slot : Slot} (cell : s.slots[i]? = some slot)
    (vacant : slot.state = .vacant) (due : Account → Nat) :
    Posting (Books.owes ⟨s.counters m,due,s.resting m⟩
        (Account.to slot.manager m (some .standing))) none
      ⟨s.counters m,due,(s.mapSlot i ({ · with state := .live c })).resting m⟩ := by
  have rests := resting_mapSlot (m := m) ({ · with state := .live c }) cell
  by_cases own : slot.manager = m
  · simp only [Slot.rests,vacant,own,beq_self_eq_true,Bool.and_false,Bool.and_true,
      Bool.false_eq_true,if_false,if_true,Nat.add_zero] at rests
    rw [rests,own,Account.to_self]
    exact .publish ⟨s.counters m,due,s.resting m⟩
  · have apart : (slot.manager == m) = false := by simpa using own
    simp only [Slot.rests,apart,Bool.false_and,Bool.false_eq_true,if_false,Nat.add_zero] at rests
    rw [rests,Account.to_other own]
    exact .still _

private theorem withdrawn_posting {i c : Nat} {slot : Slot} (cell : s.slots[i]? = some slot)
    (live : slot.state = .live c) (due : Account → Nat) :
    Posting ⟨s.counters m,due,s.resting m⟩ none
      (Books.owes ⟨s.counters m,due,(s.mapSlot i ({ · with state := .retired })).resting m⟩
        (Account.to slot.manager m (some .standing))) := by
  have rests := resting_mapSlot (m := m) ({ · with state := .retired }) cell
  have emptied : ({ slot with state := .retired } : Slot).rests m = false := by simp [Slot.rests]
  simp only [emptied,Bool.false_eq_true,if_false,Nat.add_zero] at rests
  by_cases own : slot.manager = m
  · simp only [Slot.rests,live,own,beq_self_eq_true,Bool.and_true,if_true] at rests
    rw [← rests,own,Account.to_self]
    exact .withdraw ⟨s.counters m,due,_⟩
  · have apart : (slot.manager == m) = false := by simpa using own
    simp only [Slot.rests,apart,Bool.false_and,Bool.false_eq_true,if_false,Nat.add_zero] at rests
    rw [rests,Account.to_other own]
    exact .still _

private theorem own_posting (before after : Option Account)
    (posting : ∀ b : Books, Posting (b.owes before) mishap (b.owes after)) (due : Account → Nat) :
    Posting (Books.owes ⟨s.counters m,due,s.resting m⟩ (Account.to n m before))
      (if n = m then mishap else none)
      (Books.owes ⟨s.counters m,due,s.resting m⟩ (Account.to n m after)) := by
  by_cases own : n = m
  · rw [own,Account.to_self,Account.to_self,if_pos rfl]
    exact posting ⟨s.counters m,due,s.resting m⟩
  · rw [Account.to_other own,Account.to_other own,if_neg own]
    exact .still _

theorem counters_eraseSlot (s : System F V) (n : Nat) (w : WorkerId) (i : Nat) :
    (s.mapManager n (·.eraseSlot w i)).counters m = s.counters m := by
  apply counters_mapManager
  intro manager
  unfold Manager.eraseSlot
  split <;> rfl

private theorem pruned_posting {account : Option Account} (i : Nat) (due : Account → Nat) :
    Posting (Books.owes ⟨s.counters m,due,s.resting m⟩ account) none
      (Books.owes ⟨(s.mapManager n (·.eraseSlot w i)).counters m,due,
        (s.mapManager n (·.eraseSlot w i)).resting m⟩ account) :=
  still_posting (by rfl) (counters_eraseSlot s n w i) due

private theorem GetGoes.posting {point point' : GetPoint F} (sound : s.ledger.Sound)
    (bound : m < s.managers.size) (top : s.stack t = .get n w point :: below)
    (goes : GetGoes s t n w a point shared point' told) (due : Account → Nat) :
    Posting (Books.owes ⟨s.counters m,due,s.resting m⟩ (Account.to n m point.account?))
      (Moment.mishapOf? m ⟨s,⟨t,a,told⟩⟩)
      (Books.owes ⟨shared.counters m,due,shared.resting m⟩ (Account.to n m point'.account?)) := by
  have member : .get n w point ∈ s.stack t := by simp [top]
  simp only [Moment.mishapOf?,Moment.mishap?,top]
  cases goes with
  | seen | unseen | beaten | copy | spoil | logRefusal | number | setUp | fail | logFailure
  | logSetup => exact still_posting rfl rfl due
  | register =>
    refine still_posting ?_ ?_ due
    · simp [resting,mapManager,Slot.rests]
    · exact counters_mapManager _ n _ fun _ => rfl
  | occupy | meet | miss => exact lock_posting _ _ (some t) due
  | refuse => exact own_posting none (some .refused) .refuse due
  | countRefusal => exact counted_posting bound (some .refused) none .countRefusal due
  | countCopy => exact counted_posting bound none (some .made) .countCopy due
  | panic => exact own_posting (some .made) none .setupPanic due
  | countFailure => exact counted_posting bound (some .made) none .countSetupFailure due
  | countSetup => exact counted_posting bound (some .made) (some .standing) .countSetup due
  | publish =>
    obtain ⟨slot,cell,rfl,vacant⟩ := vacant_of_role sound (mem_roles member rfl) rfl rfl
    exact filled_posting cell vacant due
  | retire =>
    obtain ⟨slot,cell,-,vacant⟩ := vacant_of_role sound (mem_roles member rfl) rfl rfl
    exact still_posting (resting_retire cell (by simp [vacant])) rfl due
  | failed | again => exact lock_posting _ _ none due
  | restart => exact pruned_posting _ due

private theorem PeekGoes.posting {point point' : PeekPoint}
    (goes : PeekGoes s t n w point shared point') (due : Account → Nat) :
    Posting ⟨s.counters m,due,s.resting m⟩ none ⟨shared.counters m,due,shared.resting m⟩ := by
  cases goes with
  | seen => exact .still _
  | meet | miss => exact lock_posting none _ (some t) due

private theorem ReleaseGoes.posting {point point' : ReleasePoint} (sound : s.ledger.Sound)
    (bound : m < s.managers.size) (top : s.stack t = .release n w point :: below)
    (goes : ReleaseGoes s t n w a point shared point' told) (due : Account → Nat) :
    Posting (Books.owes ⟨s.counters m,due,s.resting m⟩ (Account.to n m point.account?))
      (Moment.mishapOf? m ⟨s,⟨t,a,told⟩⟩)
      (Books.owes ⟨shared.counters m,due,shared.resting m⟩ (Account.to n m point'.account?)) := by
  have member : .release n w point ∈ s.stack t := by simp [top]
  simp only [Moment.mishapOf?,Moment.mishap?,top]
  cases goes with
  | unregister => exact maps_posting (·.erase w) (fun _ => rfl) due
  | enter => exact lock_posting _ _ (some t) due
  | @retire i found live =>
    obtain ⟨slot,cell,rfl⟩ := cell_of_role sound (mem_roles member rfl) rfl
    simp only [cell,Option.map_some,Option.some.injEq] at live
    cases found with
    | none =>
      exact still_posting (resting_retire cell fun c full => by cases (live c).mpr full) rfl due
    | some c => exact withdrawn_posting cell ((live c).mp rfl) due
  | leave => exact lock_posting _ _ none due
  | kill | claim | tornDown | fail | yield => exact still_posting rfl rfl due
  | panic => exact own_posting (some .standing) (some .unwinding) .teardownPanic due
  | countTeardown => exact counted_posting bound (some .standing) none .countTeardown due
  | countBroken => exact counted_posting bound (some .standing) (some .failed) .countFailed due
  | countFailure => exact counted_posting bound (some .failed) none .countFailure due

private theorem BodyGoes.posting {point point' : BodyPoint V}
    (goes : BodyGoes s t a point shared point' told) (due : Account → Nat) :
    Posting ⟨s.counters m,due,s.resting m⟩ none ⟨shared.counters m,due,shared.resting m⟩ := by
  cases goes <;> exact .still _

/-- A step of a call that goes on enters into the books what it counts. -/
private theorem Goes.posting {first : Frame F V} {more : List (Frame F V)} (sound : s.ledger.Sound)
    (bound : m < s.managers.size) (top : s.stack t = frame :: below)
    (goes : Goes s t a frame shared first more told) :
    Posting (s.books m) (Moment.mishapOf? m ⟨s,⟨t,a,told⟩⟩)
      ((shared.setStack t (first :: more ++ below)).books m) := by
  have threads := goes.threads
  have idle : more.filterMap (Frame.account? m) = [] := by
    cases goes <;> rfl
  refine posting_of_top m (first.account? m) top threads ?_ fun due => ?_
  · rw [List.filterMap_append]
    cases here : first.account? m <;> simp [here,idle]
  · cases goes with
    | get goes => exact goes.posting sound bound top due
    | release goes => exact goes.posting sound bound top due
    | peek goes | use goes | body goes =>
      simp only [Moment.mishapOf?,Moment.mishap?,top]
      exact goes.posting due
    | _ =>
      simp only [Moment.mishapOf?,Moment.mishap?,top]
      exact still_posting rfl rfl due

/-- An answer enters nothing: what is due then is due from the call that waited. -/
private theorem Replies.posting (top : s.stack t = frame :: below)
    (replies : Replies s frame shared reply told) :
    Posting (s.books m) none ((shared.setStack t (resume reply below).1).books m) := by
  refine posting_of_top m none top replies.threads (resume_accounts reply below) fun due => ?_
  cases replies with
  | get replies =>
    cases replies with
    | found | unwound => exact lock_posting _ _ none due
    | failed => exact pruned_posting _ due
  | peek replies =>
    cases replies with
    | unseen => exact .still _
    | left => exact lock_posting none _ none due
  | @release n w _ _ _ _ replies =>
    cases replies with
    | absent | done | failed => exact still_posting rfl rfl due
    | empty => exact lock_posting _ _ none due
    | unwound =>
      have posted := own_posting (s := s) (m := m) (n := n) (some .unwinding) none .unwound due
      rwa [ite_self] at posted
  | use replies | body replies => cases replies <;> exact .still _
  | _ => exact .still _

theorem mishapOf_advance : Moment.mishapOf? m ⟨s,⟨t,.advance,events⟩⟩ = none := by
  simp [Moment.mishapOf?,Moment.mishap?]

/-- Whatever a thread does in one atomic step, the books of each manager show one posting at most. -/
theorem step_posting (sound : s.ledger.Sound) (bound : m < s.managers.size)
    (moved : s.step t a = some (next,events)) :
    Posting (s.books m) (Moment.mishapOf? m ⟨s,⟨t,a,events⟩⟩) (next.books m) := by
  cases step_acts moved with
  | call opened =>
    have inside : t < s.threads.size := by simp_all [isOpen]
    obtain ⟨due,split⟩ := books_split m inside
    have old := split s rfl (s.stack t)
    rw [setStack_stack] at old
    rw [old,split s rfl,firstFrames_accounts]
    simpa [Moment.mishapOf?,Moment.mishap?] using Posting.still _
  | @assign value =>
    have quiet : Moment.mishapOf? m ⟨s,⟨t,.assign value,[]⟩⟩ = none := by
      simp [Moment.mishapOf?,Moment.mishap?]
    rw [quiet]
    exact .still (s.books m)
  | own top acts =>
    cases acts with
    | goes goes => exact goes.posting sound bound top
    | replies advances replies =>
      rw [advances,mishapOf_advance]
      exact replies.posting top

end System
end PerWorker
