import PerWorker.Proofs.Lifecycle.Interleaving

/-!
The atomic steps told as judgments. The innermost call goes on, with an access to what is shared and
something observed, or it replies to the calls below; otherwise a call is made or a copy is changed
by the code that runs on it. Main statement: every step is one of these. What steps do is read off
the judgments, not off the code of the steps.
-/
namespace PerWorker
namespace System

variable {F V : Type}

section

variable (s : System F V) (t m : Nat) (w : WorkerId)

def lockSlot (i : Nat) : System F V := s.mapSlot i ({ · with holder := some t })

def lockCopy (c : Nat) : System F V := s.mapCopy c ({ · with holder := some t })

def FreeSlot (i : Nat) (state : SlotState) : Prop :=
  ∃ slot, s.slots[i]? = some slot ∧ slot.holder = none ∧ slot.state = state

def FreeCopy (c : Nat) : Prop := ∃ copy, s.copies[c]? = some copy ∧ copy.holder = none

inductive GetGoes : Action F V → GetPoint F → System F V → GetPoint F → List (Event V) → Prop
  | seen {i} (mapped : s.slot? m w = some i) : GetGoes .advance .look s (.enter i) []
  | unseen (missing : s.slot? m w = none) : GetGoes .advance .look s .register []
  | beaten {i} (mapped : s.slot? m w = some i) : GetGoes .advance .register s (.enter i) []
  | register (missing : s.slot? m w = none) :
      GetGoes .advance .register
        ({ s with slots := s.slots.push { manager := m, worker := w } }.mapManager m
          (·.insert w s.slots.size))
        (.enter s.slots.size) []
  | occupy {i} (free : s.FreeSlot i .vacant) :
      GetGoes .advance (.enter i) (s.lockSlot t i) (.replicating i) [.drawing m]
  | meet {i c} (free : s.FreeSlot i (.live c)) :
      GetGoes .advance (.enter i) (s.lockSlot t i) (.leave i (.found c)) []
  | miss {i} (free : s.FreeSlot i .retired) :
      GetGoes .advance (.enter i) (s.lockSlot t i) (.leave i .again) []
  | copy {i f} : GetGoes (.drawn (.copy f)) (.replicating i) s (.countCopy i f) []
  | refuse {i e} : GetGoes (.drawn (.refused e)) (.replicating i) s (.countCloneFailure i e) []
  | spoil {i message} :
      GetGoes (.drawn (.panicked message)) (.replicating i) s (.leave i (.unwinding message)) []
  | countRefusal {i e} : GetGoes .advance (.countCloneFailure i e) (s.bump m .cloneFailures)
      (.logCloneFailure i e) []
  | logRefusal {i e} : GetGoes .advance (.logCloneFailure i e) s
      (.retire i (.clone (s.name m) w e)) [.logged (.cloneFailed (s.name m) w e.message)]
  | countCopy {i f} : GetGoes .advance (.countCopy i f) (s.bump m .copies) (.number i f) []
  | number {i f} : GetGoes .advance (.number i f)
      { s with copies := s.copies.push { manager := m, worker := w, value := f } }
      (.settingUp i s.copies.size) [.hookStarted .setup s.copies.size]
  | setUp {i c v} : GetGoes (.finish (.ok v)) (.settingUp i c) s (.countSetup i c)
      [.hookEnded .setup c .returned]
  | fail {i c fault} : GetGoes (.finish (.error fault)) (.settingUp i c) s
      (.countSetupFailure i c fault) [.hookEnded .setup c .failed]
  | panic {i c message} : GetGoes (.panic message) (.settingUp i c) s
      (.leave i (.unwinding message)) [.hookEnded .setup c .panicked]
  | countFailure {i c fault} : GetGoes .advance (.countSetupFailure i c fault)
      (s.bump m .setupFailures) (.logSetupFailure i c fault) []
  | logFailure {i c fault} : GetGoes .advance (.logSetupFailure i c fault) s
      (.retire i (.setup (s.name m) w (c + 1) fault))
      [.logged (.setupFailed (s.name m) w (c + 1) fault.message)]
  | countSetup {i c} : GetGoes .advance (.countSetup i c) (s.bump m .setups) (.logSetup i c) []
  | logSetup {i c} : GetGoes .advance (.logSetup i c) s (.publish i c)
      [.logged (.setup (s.name m) w (c + 1))]
  | publish {i c} : GetGoes .advance (.publish i c) (s.mapSlot i ({ · with state := .live c }))
      (.leave i (.found c)) []
  | retire {i e} : GetGoes .advance (.retire i e) (s.mapSlot i ({ · with state := .retired }))
      (.leave i (.failed e)) []
  | failed {i e} : GetGoes .advance (.leave i (.failed e)) (s.leaveSlot i) (.prune i (some e)) []
  | again {i} : GetGoes .advance (.leave i .again) (s.leaveSlot i) (.prune i none) []
  | restart {i} : GetGoes .advance (.prune i none) (s.mapManager m (·.eraseSlot w i)) .look []

inductive GetReplies : GetPoint F → System F V → Reply V → Prop
  | found {i c} : GetReplies (.leave i (.found c)) (s.leaveSlot i) (.handle c)
  | unwound {i message} :
      GetReplies (.leave i (.unwinding message)) (s.leaveSlot i) (.panicked message)
  | failed {i e} : GetReplies (.prune i (some e)) (s.mapManager m (·.eraseSlot w i)) (.failed e)

inductive PeekGoes : PeekPoint → System F V → PeekPoint → Prop
  | seen {i} (mapped : s.slot? m w = some i) : PeekGoes .look s (.enter i)
  | meet {i c} (free : s.FreeSlot i (.live c)) :
      PeekGoes (.enter i) (s.lockSlot t i) (.leave i (some c))
  | miss {i state} (free : s.FreeSlot i state) (bare : ∀ c, state ≠ .live c) :
      PeekGoes (.enter i) (s.lockSlot t i) (.leave i none)

inductive PeekReplies : PeekPoint → System F V → Option Nat → Prop
  | unseen (missing : s.slot? m w = none) : PeekReplies .look s none
  | left {i found} : PeekReplies (.leave i found) (s.leaveSlot i) found

inductive ReleaseGoes :
    Action F V → ReleasePoint → System F V → ReleasePoint → List (Event V) → Prop
  | unregister {i} (mapped : s.slot? m w = some i) :
      ReleaseGoes .advance .unregister (s.mapManager m (·.erase w)) (.enter i) []
  | enter {i state} (free : s.FreeSlot i state) :
      ReleaseGoes .advance (.enter i) (s.lockSlot t i) (.retire i) []
  | retire {i found}
      (live : ∀ c, found = some c ↔ (s.slots[i]?).map (·.state) = some (.live c)) :
      ReleaseGoes .advance (.retire i) (s.mapSlot i ({ · with state := .retired }))
        (.leave i found) []
  | leave {i c} : ReleaseGoes .advance (.leave i (some c)) (s.leaveSlot i) (.kill c) []
  | kill {c} : ReleaseGoes .advance (.kill c) (s.mapCopy c ({ · with live := false })) (.claim c) []
  | claim {c} (free : s.FreeCopy c) : ReleaseGoes .advance (.claim c) (s.lockCopy t c)
      (.tearingDown c) [.hookStarted .teardown c]
  | tornDown {c v} : ReleaseGoes (.finish (.ok v)) (.tearingDown c) s (.yield c none)
      [.hookEnded .teardown c .returned]
  | fail {c fault} : ReleaseGoes (.finish (.error fault)) (.tearingDown c) s (.yield c (some fault))
      [.hookEnded .teardown c .failed]
  | panic {c message} : ReleaseGoes (.panic message) (.tearingDown c) s (.unwind c message)
      [.hookEnded .teardown c .panicked]
  | yield {c fault} :
      ReleaseGoes .advance (.yield c fault) (s.yieldCopy c) (.countTeardown c fault) []
  | countTeardown {c} : ReleaseGoes .advance (.countTeardown c none) (s.bump m .teardowns)
      (.logTeardown c) []
  | countBroken {c fault} : ReleaseGoes .advance (.countTeardown c (some fault))
      (s.bump m .teardowns) (.countFailure c fault) []
  | countFailure {c fault} : ReleaseGoes .advance (.countFailure c fault)
      (s.bump m .teardownFailures) (.logFailure c fault) []

inductive ReleaseReplies : ReleasePoint → System F V → Reply V → List (Event V) → Prop
  | absent (missing : s.slot? m w = none) : ReleaseReplies .unregister s .done []
  | empty {i} : ReleaseReplies (.leave i none) (s.leaveSlot i) .done []
  | unwound {c message} : ReleaseReplies (.unwind c message) (s.yieldCopy c) (.panicked message) []
  | done {c} : ReleaseReplies (.logTeardown c) s .done
      [.logged (.teardown (s.name m) (s.copyWorker c) (c + 1))]
  | failed {c fault} : ReleaseReplies (.logFailure c fault) s
      (.failed (.teardown (s.name m) (s.copyWorker c) (c + 1) fault))
      [.logged (.teardownFailed (s.name m) (s.copyWorker c) (c + 1) fault.message)]

inductive BodyGoes : Action F V → BodyPoint V → System F V → BodyPoint V → List (Event V) → Prop
  | claim {c} (free : s.FreeCopy c) :
      BodyGoes .advance (.claim c) (s.lockCopy t c) (.running c) [.hookStarted .body c]
  | finish {c v} : BodyGoes (.finish (.ok v)) (.running c) s (.yield c (.ok v))
      [.hookEnded .body c .returned]
  | fail {c fault} : BodyGoes (.finish (.error fault)) (.running c) s (.yield c (.error fault))
      [.hookEnded .body c .failed]
  | panic {c message} : BodyGoes (.panic message) (.running c) s (.unwind c message)
      [.hookEnded .body c .panicked]

inductive BodyReplies : BodyPoint V → System F V → Reply V → Prop
  | unwound {c message} : BodyReplies (.unwind c message) (s.yieldCopy c) (.panicked message)
  | returned {c v} : BodyReplies (.yield c (.ok v)) (s.yieldCopy c) (.value v)

/-- The innermost call goes on: what is shared, what stands in the place of its frame, and what can
be observed. -/
inductive Goes :
    Action F V → Frame F V → System F V → Frame F V → List (Frame F V) → List (Event V) → Prop
  | get {m w a point shared point' told} (goes : GetGoes s t m w a point shared point' told) :
      Goes a (.get m w point) shared (.get m w point') [] told
  | peek {m w point shared point'} (goes : PeekGoes s t m w point shared point') :
      Goes .advance (.peek m w point) shared (.peek m w point') [] []
  | release {m w a point shared point' told}
      (goes : ReleaseGoes s t m w a point shared point' told) :
      Goes a (.release m w point) shared (.release m w point') [] told
  | use {a point shared point' told} (goes : BodyGoes s t a point shared point' told) :
      Goes a (.use point) shared (.use point') [] told
  | body {m w a point shared point' told} (goes : BodyGoes s t a point shared point' told) :
      Goes a (.processBody m w point) shared (.processBody m w point') [] told
  | fail {m w c fault} : Goes .advance (.processBody m w (.yield c (.error fault))) (s.yieldCopy c)
      (.processLogFailure m w c fault) [] []
  | discard {m w c fault} : Goes .advance (.processLogFailure m w c fault) s
      (.release m w .unregister) [.processRelease m w fault]
      [.logged (.processFailed (s.name m) w (c + 1) fault.message)]
  | read {m purpose shard seen} (more : shard + 1 < s.sharding.count) :
      Goes .advance (.survey m purpose shard seen) s
        (.survey m purpose (shard + 1) (seen ++ s.shardWorkers m shard)) [] []
  | sweep {m shard seen v rest} (last : ¬shard + 1 < s.sharding.count)
      (listed : seen ++ s.shardWorkers m shard = v :: rest) :
      Goes .advance (.survey m .releaseAll shard seen) s (.release m v .unregister)
        [.releaseAll m rest []] []
  | tally {m shard seen} (last : ¬shard + 1 < s.sharding.count) :
      Goes .advance (.survey m .stats shard seen) s
        (.load m Counter.all {} (some (seen ++ s.shardWorkers m shard).length)) [] []
  | drain {m n rest drained errors failed} :
      Goes .advance (.drainLogFailure m (n :: rest) drained errors failed) s
        (.survey n .releaseAll 0 []) [.drain n rest (drained + 1) (errors ++ failed)]
        [.logged (.drainFailed (s.name m) failed.length)]
  | drained {m drained errors failed} :
      Goes .advance (.drainLogFailure m [] drained errors failed) s
        (.drainLogDone (drained + 1) (errors ++ failed)) []
        [.logged (.drainFailed (s.name m) failed.length)]
  | load {m counter rest read registered} :
      Goes .advance (.load m (counter :: rest) read registered) s
        (.load m rest (read.set counter
          (((s.managers[m]?).map (·.counters.get counter)).getD 0)) registered) [] []
  | loaded {m read n} : Goes .advance (.load m [] read (some n)) s (.logStats m n read) [] []

inductive Replies : Frame F V → System F V → Reply V → List (Event V) → Prop
  | get {m w point shared reply} (replies : GetReplies s m w point shared reply) :
      Replies (.get m w point) shared reply []
  | peek {m w point shared found} (replies : PeekReplies s m w point shared found) :
      Replies (.peek m w point) shared (.peeked found) []
  | release {m w point shared reply told}
      (replies : ReleaseReplies s m w point shared reply told) :
      Replies (.release m w point) shared reply told
  | use {point shared reply} (replies : BodyReplies s point shared reply) :
      Replies (.use point) shared reply []
  | broken {c fault} : Replies (.use (.yield c (.error fault))) (s.yieldCopy c) (.fault fault) []
  | body {m w point shared reply} (replies : BodyReplies s point shared reply) :
      Replies (.processBody m w point) shared reply []
  | reported {m w fault e} : Replies (.processLogTeardown m w fault e) s (.fault fault)
      [.logged (.teardownAfterFailure (s.name m) w e)]
  | empty {m shard seen} (last : ¬shard + 1 < s.sharding.count)
      (unlisted : seen ++ s.shardWorkers m shard = []) :
      Replies (.survey m .releaseAll shard seen) s (.errors []) []
  | workers {m shard seen} (last : ¬shard + 1 < s.sharding.count) :
      Replies (.survey m .workers shard seen) s (.workers (seen ++ s.shardWorkers m shard)) []
  | len {m shard seen} (last : ¬shard + 1 < s.sharding.count) :
      Replies (.survey m .len shard seen) s (.count (seen ++ s.shardWorkers m shard).length) []
  | isEmpty {m shard seen} (last : ¬shard + 1 < s.sharding.count) :
      Replies (.survey m .isEmpty shard seen) s (.flag (seen ++ s.shardWorkers m shard).isEmpty) []
  | listed {m errors} : Replies (.releaseAllLog m errors) s (.errors errors)
      [.logged (.releaseAllFailed (s.name m) errors.length)]
  | drained {drained errors} : Replies (.drainLogDone drained errors) s (.errors errors)
      [.logged (.drained drained errors.length)]
  | contains {m : Nat} {w : WorkerId} : Replies (.contains m w) s (.flag (s.slot? m w).isSome) []
  | loaded {m read} : Replies (.load m [] read none) s (.counters read) []
  | logged {m n counters} : Replies (.logStats m n counters) s .done
      [.logged (.stats (s.name m) n counters)]

inductive OwnActs (a : Action F V) (frame : Frame F V) (below : List (Frame F V)) :
    System F V → List (Event V) → Prop
  | goes {shared first more told} (goes : Goes s t a frame shared first more told) :
      OwnActs a frame below (shared.setStack t (first :: more ++ below)) told
  | replies {shared reply told} (own : a = .advance) (replies : Replies s frame shared reply told) :
      OwnActs a frame below (shared.setStack t (resume reply below).1)
        (told ++ (resume reply below).2)

/-- All that a step of a thread can be. -/
inductive Acts : Action F V → System F V → List (Event V) → Prop
  | call {call} (opened : s.isOpen t = true) :
      Acts (.call call) (s.setStack t (firstFrames call (s.stack t))) [.called call]
  | assign {value hook c} (running : (s.stack t).head?.bind Frame.hook? = some (hook,c)) :
      Acts (.assign value) (s.mapCopy c ({ · with value })) []
  | own {a frame below next events} (top : s.stack t = frame :: below)
      (acts : OwnActs s t a frame below next events) : Acts a next events

end

variable {s shared next : System F V} {t m : Nat} {w : WorkerId} {a : Action F V}
  {frame : Frame F V} {below : List (Frame F V)} {reply : Reply V} {told events : List (Event V)}

theorem enterSlot?_free (s : System F V) (i t : Nat) :
    s.enterSlot? i t = none ∨
      ∃ state, s.FreeSlot i state ∧ s.enterSlot? i t = some (s.lockSlot t i,state) := by
  unfold enterSlot?
  cases cell : s.slots[i]? with
  | none => exact Or.inl rfl
  | some slot =>
    cases free : slot.holder with
    | none => exact Or.inr ⟨slot.state,⟨slot,cell,free,rfl⟩,by simp [free,lockSlot]⟩
    | some u => exact Or.inl (by simp [free])

theorem claimCopy?_free {c : Nat} (claimed : s.claimCopy? c t = some shared) :
    s.FreeCopy c ∧ shared = s.lockCopy t c := by
  unfold claimCopy? at claimed
  split at claimed
  next copy cell =>
    split at claimed
    next free => exact ⟨⟨copy,cell,by simpa using free⟩,(Option.some.inj claimed).symm⟩
    next => contradiction
  next => contradiction

theorem OwnActs.of_push {first : Frame F V} {more : List (Frame F V)}
    (goes : Goes s t a frame shared first more told)
    (same : some (shared.goto t (first :: more ++ below) told) = some (next,events)) :
    OwnActs s t a frame below next events := by
  obtain ⟨rfl,rfl⟩ := Prod.mk.inj (Option.some.inj same)
  exact .goes goes

theorem OwnActs.of_goto {first : Frame F V} (goes : Goes s t a frame shared first [] told)
    (same : some (shared.goto t (first :: below) told) = some (next,events)) :
    OwnActs s t a frame below next events :=
  .of_push goes same

theorem OwnActs.of_answer (replies : Replies s frame shared reply told)
    (same : some (shared.answer t reply below told) = some (next,events)) :
    OwnActs s t .advance frame below next events := by
  obtain ⟨rfl,rfl⟩ := Prod.mk.inj (Option.some.inj same)
  exact .replies rfl replies

theorem advanceGet_acts {point : GetPoint F}
    (moved : s.advanceGet t m w point below = some (next,events)) :
    OwnActs s t .advance (.get m w point) below next events := by
  have on {shared point' told} (goes : GetGoes s t m w .advance point shared point' told)
      (same : some (shared.goto t (.get m w point' :: below) told) = some (next,events)) :
      OwnActs s t .advance (.get m w point) below next events :=
    .of_goto (.get goes) same
  have ends {shared reply} (replies : GetReplies s m w point shared reply)
      (same : some (shared.answer t reply below) = some (next,events)) :
      OwnActs s t .advance (.get m w point) below next events :=
    .of_answer (.get replies) same
  cases point with
  | look =>
    cases mapped : s.slot? m w <;> simp only [advanceGet,mapped] at moved
    · exact on (.unseen mapped) moved
    · exact on (.seen mapped) moved
  | register =>
    cases mapped : s.slot? m w <;> simp only [advanceGet,mapped] at moved
    · exact on (.register mapped) moved
    · exact on (.beaten mapped) moved
  | enter i =>
    obtain busy | ⟨state,free,entered⟩ := enterSlot?_free s i t
    · simp [advanceGet,busy] at moved
    cases state <;> simp only [advanceGet,entered] at moved
    · exact on (.occupy free) moved
    · exact on (.meet free) moved
    · exact on (.miss free) moved
  | replicating | settingUp => simp [advanceGet] at moved
  | countCloneFailure => exact on .countRefusal moved
  | logCloneFailure => exact on .logRefusal moved
  | countCopy => exact on .countCopy moved
  | number => exact on .number moved
  | countSetupFailure => exact on .countFailure moved
  | logSetupFailure => exact on .logFailure moved
  | countSetup => exact on .countSetup moved
  | logSetup => exact on .logSetup moved
  | publish => exact on .publish moved
  | retire => exact on .retire moved
  | leave i departure =>
    cases departure with
    | found => exact ends .found moved
    | failed => exact on .failed moved
    | again => exact on .again moved
    | unwinding => exact ends .unwound moved
  | prune i e =>
    cases e with
    | some => exact ends .failed moved
    | none => exact on .restart moved

theorem advancePeek_acts {point : PeekPoint}
    (moved : s.advancePeek t m w point below = some (next,events)) :
    OwnActs s t .advance (.peek m w point) below next events := by
  have on {shared point'} (goes : PeekGoes s t m w point shared point')
      (same : some (shared.goto t (.peek m w point' :: below)) = some (next,events)) :
      OwnActs s t .advance (.peek m w point) below next events :=
    .of_goto (.peek goes) same
  have ends {shared found} (replies : PeekReplies s m w point shared found)
      (same : some (shared.answer t (.peeked found) below) = some (next,events)) :
      OwnActs s t .advance (.peek m w point) below next events :=
    .of_answer (.peek replies) same
  cases point with
  | look =>
    cases mapped : s.slot? m w <;> simp only [advancePeek,mapped] at moved
    · exact ends (.unseen mapped) moved
    · exact on (.seen mapped) moved
  | enter i =>
    obtain busy | ⟨state,free,entered⟩ := enterSlot?_free s i t
    · simp [advancePeek,busy] at moved
    cases state <;> simp only [advancePeek,entered] at moved
    · exact on (.miss free (by simp)) moved
    · exact on (.meet free) moved
    · exact on (.miss free (by simp)) moved
  | leave => exact ends .left moved

theorem advanceRelease_acts {point : ReleasePoint}
    (moved : s.advanceRelease t m w point below = some (next,events)) :
    OwnActs s t .advance (.release m w point) below next events := by
  have on {shared point' told} (goes : ReleaseGoes s t m w .advance point shared point' told)
      (same : some (shared.goto t (.release m w point' :: below) told) = some (next,events)) :
      OwnActs s t .advance (.release m w point) below next events :=
    .of_goto (.release goes) same
  have ends {shared reply told} (replies : ReleaseReplies s m w point shared reply told)
      (same : some (shared.answer t reply below told) = some (next,events)) :
      OwnActs s t .advance (.release m w point) below next events :=
    .of_answer (.release replies) same
  cases point with
  | unregister =>
    cases mapped : s.slot? m w <;> simp only [advanceRelease,mapped] at moved
    · exact ends (.absent mapped) moved
    · exact on (.unregister mapped) moved
  | enter i =>
    obtain busy | ⟨state,free,entered⟩ := enterSlot?_free s i t
    · simp [advanceRelease,busy] at moved
    simp only [advanceRelease,entered] at moved
    exact on (.enter free) moved
  | retire i =>
    refine on (.retire fun c => ?_) moved
    cases cell : s.slots[i]? with
    | none => simp
    | some slot => cases state : slot.state <;> simp [state]
  | leave i found =>
    cases found with
    | none => exact ends .empty moved
    | some => exact on .leave moved
  | kill => exact on .kill moved
  | claim c =>
    cases claimed : s.claimCopy? c t with
    | none => simp [advanceRelease,claimed] at moved
    | some shared =>
      obtain ⟨free,rfl⟩ := claimCopy?_free claimed
      simp only [advanceRelease,claimed] at moved
      exact on (.claim free) moved
  | tearingDown => simp [advanceRelease] at moved
  | unwind => exact ends .unwound moved
  | yield => exact on .yield moved
  | countTeardown c fault =>
    cases fault with
    | none => exact on .countTeardown moved
    | some => exact on .countBroken moved
  | logTeardown => exact ends .done moved
  | countFailure => exact on .countFailure moved
  | logFailure => exact ends .failed moved

theorem advanceSurvey_acts {purpose : SurveyPurpose} {shard : Nat} {seen : List WorkerId}
    (moved : some (s.advanceSurvey t m purpose shard seen below) = some (next,events)) :
    OwnActs s t .advance (.survey m purpose shard seen) below next events := by
  unfold advanceSurvey at moved
  split at moved
  next more => exact .of_goto (.read more) moved
  next last =>
    cases purpose with
    | releaseAll =>
      cases listed : seen ++ s.shardWorkers m shard with
      | nil =>
        simp only [listed,nextRelease,List.isEmpty_nil,if_true] at moved
        exact .of_answer (.empty last listed) moved
      | cons v rest =>
        simp only [listed,nextRelease] at moved
        exact .of_push (.sweep last listed) moved
    | workers => exact .of_answer (.workers last) moved
    | len => exact .of_answer (.len last) moved
    | isEmpty => exact .of_answer (.isEmpty last) moved
    | stats => exact .of_goto (.tally last) moved

theorem advance_acts (top : s.stack t = frame :: below)
    (moved : s.advance t = some (next,events)) : OwnActs s t .advance frame below next events := by
  simp only [advance,top] at moved
  have on {shared first told} (goes : Goes s t .advance frame shared first [] told)
      (same : some (shared.goto t (first :: below) told) = some (next,events)) :
      OwnActs s t .advance frame below next events :=
    .of_goto goes same
  have ends {shared reply told} (replies : Replies s frame shared reply told)
      (same : some (shared.answer t reply below told) = some (next,events)) :
      OwnActs s t .advance frame below next events :=
    .of_answer replies same
  cases frame with
  | get m w point => exact advanceGet_acts moved
  | peek m w point => exact advancePeek_acts moved
  | release m w point => exact advanceRelease_acts moved
  | use point =>
    cases point with
    | claim c =>
      obtain ⟨shared,claimed,same⟩ := Option.map_eq_some_iff.mp moved
      obtain ⟨free,rfl⟩ := claimCopy?_free claimed
      exact on (.use (.claim free)) (congrArg some same)
    | running => simp at moved
    | unwind => exact ends (.use .unwound) moved
    | yield c result =>
      cases result with
      | ok => exact ends (.use .returned) moved
      | error => exact ends .broken moved
  | processBody m w point =>
    cases point with
    | claim c =>
      obtain ⟨shared,claimed,same⟩ := Option.map_eq_some_iff.mp moved
      obtain ⟨free,rfl⟩ := claimCopy?_free claimed
      exact on (.body (.claim free)) (congrArg some same)
    | running => simp at moved
    | unwind => exact ends (.body .unwound) moved
    | yield c result =>
      cases result with
      | ok => exact ends (.body .returned) moved
      | error => exact on .fail moved
  | processLogFailure => exact .of_push .discard moved
  | processLogTeardown => exact ends .reported moved
  | survey => exact advanceSurvey_acts moved
  | releaseAllLog => exact ends .listed moved
  | drainLogFailure m pending drained errors failed =>
    cases pending with
    | nil => exact on .drained moved
    | cons n rest => exact .of_push .drain moved
  | drainLogDone => exact ends .drained moved
  | contains => exact ends .contains moved
  | load m left read registered =>
    cases left with
    | cons counter rest => exact on .load moved
    | nil =>
      cases registered with
      | some n => exact on .loaded moved
      | none => exact ends .loaded moved
  | logStats => exact ends .logged moved
  | processGet | processRelease | releaseAll | drain => simp at moved

theorem draw_acts {drawn : Draw F} (moved : s.draw t drawn = some (next,events)) :
    Acts s t (.drawn drawn) next events := by
  unfold draw at moved
  split at moved
  next top =>
    cases drawn with
    | copy => exact .own top (.of_goto (.get .copy) moved)
    | refused => exact .own top (.of_goto (.get .refuse) moved)
    | panicked => exact .own top (.of_goto (.get .spoil) moved)
  next => contradiction

theorem finish_acts {result : Except Fault V} (moved : s.finish t result = some (next,events)) :
    Acts s t (.finish result) next events := by
  unfold finish at moved
  cases result with
  | ok =>
    dsimp only at moved
    split at moved
    next top => exact .own top (.of_goto (.get .setUp) moved)
    next top => exact .own top (.of_goto (.release .tornDown) moved)
    next top => exact .own top (.of_goto (.use .finish) moved)
    next top => exact .own top (.of_goto (.body .finish) moved)
    next => contradiction
  | error =>
    dsimp only at moved
    split at moved
    next top => exact .own top (.of_goto (.get .fail) moved)
    next top => exact .own top (.of_goto (.release .fail) moved)
    next top => exact .own top (.of_goto (.use .fail) moved)
    next top => exact .own top (.of_goto (.body .fail) moved)
    next => contradiction

theorem unwind_acts {message : String} (moved : s.unwind t message = some (next,events)) :
    Acts s t (.panic message) next events := by
  unfold unwind at moved
  split at moved
  next top => exact .own top (.of_goto (.get .panic) moved)
  next top => exact .own top (.of_goto (.release .panic) moved)
  next top => exact .own top (.of_goto (.use .panic) moved)
  next top => exact .own top (.of_goto (.body .panic) moved)
  next => contradiction

/-- Whatever a thread does in one atomic step is one of the acts. -/
theorem step_acts (moved : s.step t a = some (next,events)) : Acts s t a next events := by
  cases a with
  | advance =>
    cases top : s.stack t with
    | nil => simp [step,advance,top] at moved
    | cons frame below => exact .own top (advance_acts top moved)
  | call call =>
    simp only [step] at moved
    split at moved
    next opened =>
      cases moved
      exact .call opened
    next => contradiction
  | drawn drawn => exact draw_acts moved
  | assign value =>
    simp only [step] at moved
    split at moved
    next running =>
      cases moved
      exact .assign running
    next => contradiction
  | finish result => exact finish_acts moved
  | panic message => exact unwind_acts moved

/-- A step changes the stack of its own thread only. -/
theorem Goes.threads {first : Frame F V} {more : List (Frame F V)}
    (goes : Goes s t a frame shared first more told) : shared.threads = s.threads := by
  cases goes with
  | get goes | peek goes | release goes | use goes | body goes => cases goes <;> rfl
  | _ => rfl

theorem Replies.threads (replies : Replies s frame shared reply told) :
    shared.threads = s.threads := by
  cases replies with
  | get replies | peek replies | release replies | use replies | body replies =>
    cases replies <;> rfl
  | _ => rfl

theorem name_mapManager (s : System F V) (k n : Nat) (f : Manager → Manager)
    (kept : ∀ manager, (f manager).name = manager.name) : (s.mapManager k f).name n = s.name n := by
  unfold name mapManager
  rw [Array.getElem?_modify]
  split
  next => cases s.managers[n]? <;> simp [kept]
  next => rfl

theorem name_eraseSlot (s : System F V) (k n : Nat) (w : WorkerId) (i : Nat) :
    (s.mapManager k (·.eraseSlot w i)).name n = s.name n := by
  apply name_mapManager
  intro manager
  unfold Manager.eraseSlot
  split <;> rfl

/-- Managers keep their names. -/
theorem Goes.name {first : Frame F V} {more : List (Frame F V)}
    (goes : Goes s t a frame shared first more told) (n : Nat) : shared.name n = s.name n := by
  cases goes with
  | get goes =>
    cases goes with
    | register | countRefusal | countCopy | countFailure | countSetup =>
      exact name_mapManager _ _ _ _ fun _ => rfl
    | restart => exact name_eraseSlot ..
    | _ => rfl
  | peek goes | use goes | body goes => cases goes <;> rfl
  | release goes =>
    cases goes with
    | unregister | countTeardown | countBroken | countFailure =>
      exact name_mapManager _ _ _ _ fun _ => rfl
    | _ => rfl
  | _ => rfl

theorem Replies.name (replies : Replies s frame shared reply told) (n : Nat) :
    shared.name n = s.name n := by
  cases replies with
  | get replies =>
    cases replies with
    | failed => exact name_eraseSlot ..
    | found | unwound => rfl
  | peek replies | release replies | use replies | body replies => cases replies <;> rfl
  | _ => rfl

end System
end PerWorker
