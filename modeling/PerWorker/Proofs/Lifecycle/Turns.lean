import PerWorker.Proofs.Lifecycle.Spans

/-!
What the innermost call can do next, told call by call: how a lookup or a release goes from one
point to the next and what it answers, how a body ends, and how a drain goes from worker to worker.
Each is read off the steps once, so that what these calls keep can be shown without them.
-/
namespace PerWorker

def Reply.error? {V : Type} : Reply V → Option LifecycleError
  | .failed e => some e
  | _ => none

def GetPoint.slot? {F : Type} : GetPoint F → Option Nat
  | .look | .register => none
  | .enter i | .replicating i | .countCloneFailure i _ | .logCloneFailure i _ | .countCopy i _
  | .number i _ | .settingUp i _ | .countSetupFailure i _ _ | .logSetupFailure i _ _
  | .countSetup i _ | .logSetup i _ | .publish i _ | .retire i _ | .leave i _ | .prune i _ => some i

def PeekPoint.slot? : PeekPoint → Option Nat
  | .look => none
  | .enter i | .leave i _ => some i

def Frame.seeks? {F V : Type} : Frame F V → Option (Nat × WorkerId × Option Nat)
  | .get m w point => some (m,w,point.slot?)
  | .peek m w point => some (m,w,point.slot?)
  | _ => none

namespace System

variable {F V : Type}

inductive ReleaseTurn (s : System F V) (m : Nat) (w : WorkerId) :
    Action F V → ReleasePoint → ReleasePoint → Prop
  | unregister (i) (mapped : s.slot? m w = some i) :
      ReleaseTurn s m w .advance .unregister (.enter i)
  | enter (i) : ReleaseTurn s m w .advance (.enter i) (.retire i)
  | retire (i found) (live : ∀ c, found = some c ↔ s.state? i = some (.live c)) :
      ReleaseTurn s m w .advance (.retire i) (.leave i found)
  | leave (i c) : ReleaseTurn s m w .advance (.leave i (some c)) (.kill c)
  | kill (c) : ReleaseTurn s m w .advance (.kill c) (.claim c)
  | claim (c) : ReleaseTurn s m w .advance (.claim c) (.tearingDown c)
  | finish (c result) :
      ReleaseTurn s m w (.finish result) (.tearingDown c) (.yield c (failure? result))
  | panic (c message) : ReleaseTurn s m w (.panic message) (.tearingDown c) (.unwind c message)
  | yield (c fault) : ReleaseTurn s m w .advance (.yield c fault) (.countTeardown c fault)
  | succeed (c) : ReleaseTurn s m w .advance (.countTeardown c none) (.logTeardown c)
  | fail (c fault) :
      ReleaseTurn s m w .advance (.countTeardown c (some fault)) (.countFailure c fault)
  | count (c fault) : ReleaseTurn s m w .advance (.countFailure c fault) (.logFailure c fault)

inductive ReleaseEnd (s : System F V) (m : Nat) (w : WorkerId) : ReleasePoint → Reply V → Prop
  | absent (missing : s.slot? m w = none) : ReleaseEnd s m w .unregister .done
  | empty (i) : ReleaseEnd s m w (.leave i none) .done
  | unwound (c message) : ReleaseEnd s m w (.unwind c message) (.panicked message)
  | done (c) : ReleaseEnd s m w (.logTeardown c) .done
  | failed (c fault) : ReleaseEnd s m w (.logFailure c fault)
      (.failed (.teardown (s.name m) (s.copyWorker c) (c + 1) fault))

variable {s shared next : System F V} {t m : Nat} {w : WorkerId} {a : Action F V}
  {frame first : Frame F V} {below frames rest : List (Frame F V)} {reply : Reply V}
  {events told : List (Event V)}

/-- The frames on which a call that is answered goes on, with the answer among what is told. -/
def Answers? (reply : Reply V) (below frames : List (Frame F V)) (events : List (Event V)) : Prop :=
  frames = (resume reply below).1 ∧
    ∃ told, events = told ++ (resume reply below).2 ∧ ∀ other, .returned other ∉ told

/-- A step of a thread that has a call under way and makes no new one is an act of the innermost
call. -/
theorem own_step (top : s.stack t = frame :: below) (own : a.isOwn = true)
    (moved : s.step t a = some (next,events)) :
    (∃ shared first more, Goes s t a frame shared first more events ∧
        next = shared.setStack t (first :: more ++ below) ∧ next.stack t = first :: more ++ below) ∨
      ∃ shared reply told, Replies s frame shared reply told ∧ a = .advance ∧
        next = shared.setStack t (resume reply below).1 ∧
        Answers? reply below (next.stack t) events := by
  have bound := bound_of_stack s t frame below top
  cases step_acts moved with
  | call | assign => cases own
  | own here acts =>
    obtain ⟨rfl,rfl⟩ := List.cons.inj (top.symm.trans here)
    cases acts with
    | goes goes =>
      exact Or.inl ⟨_,_,_,goes,rfl,stack_setStack _ _ (goes.threads ▸ bound)⟩
    | @replies shared reply _ advances replies =>
      have here := stack_setStack shared (resume reply below).1 (replies.threads ▸ bound)
      exact Or.inr ⟨_,_,_,replies,advances,rfl,here,_,rfl,replies.quiet⟩

theorem only_advance (top : s.stack t = frame :: below) (own : a.isOwn = true)
    (moved : s.step t a = some (next,events)) (still : frame.isForeign = false) : a = .advance := by
  obtain ⟨_,_,_,goes,_⟩ | ⟨_,_,_,_,advances,_⟩ := own_step top own moved
  · cases goes with
    | get goes | release goes | use goes | body goes => cases goes <;> first | rfl | cases still
    | _ => rfl
  · exact advances

/-- A step of a release is one of the turns that a release can take. -/
theorem ReleaseGoes.turn {point point' : ReleasePoint}
    (goes : ReleaseGoes s t m w a point shared point' told) : ReleaseTurn s m w a point point' := by
  cases goes with
  | unregister mapped => exact .unregister _ mapped
  | retire live => exact .retire _ _ live
  | tornDown => exact .finish _ _
  | fail => exact .finish _ _
  | _ => constructor

theorem ReleaseReplies.ended {point : ReleasePoint}
    (replies : ReleaseReplies s m w point shared reply told) : ReleaseEnd s m w point reply := by
  cases replies with
  | absent missing => exact .absent missing
  | _ => constructor

theorem release_turn {point : ReleasePoint} (top : s.stack t = .release m w point :: below)
    (own : a.isOwn = true) (moved : s.step t a = some (next,events)) :
    (∃ point', ReleaseTurn s m w a point point' ∧ next.stack t = .release m w point' :: below) ∨
      ∃ reply, ReleaseEnd s m w point reply ∧ Answers? reply below (next.stack t) events := by
  obtain ⟨_,_,_,goes,_,here⟩ | ⟨_,reply,_,replies,_,_,answers⟩ := own_step top own moved
  · cases goes with
    | release goes => exact Or.inl ⟨_,goes.turn,here⟩
  · cases replies with
    | release replies => exact Or.inr ⟨_,replies.ended,answers⟩

/-- A release takes its worker out of the map with its first step, whether or not it was in it. -/
theorem unregister_missing (top : s.stack t = .release m w .unregister :: below)
    (own : a.isOwn = true) (moved : s.step t a = some (next,events)) : next.slot? m w = none := by
  obtain ⟨_,_,_,goes,rfl,_⟩ | ⟨_,_,_,replies,_,rfl,_⟩ := own_step top own moved
  · cases goes with
    | release goes =>
      cases goes with
      | unregister =>
        change (s.mapManager m (·.erase w)).slot? m w = none
        simp [slot?_erase]
  · cases replies with
    | release replies =>
      cases replies with
      | absent missing => exact missing

/-- A lookup comes to refer to a slot only if its worker's is that one or is made by it. It
answers with a copy only when it leaves a slot in which it found that copy. -/
inductive SeekTurn (s next : System F V) (t m : Nat) (w : WorkerId) (slot : Option Nat)
    (frame : Frame F V) (below : List (Frame F V)) (events : List (Event V)) : Prop
  | goes (frame' : Frame F V) (slot' : Option Nat) (seeks : frame'.seeks? = some (m,w,slot'))
      (here : next.stack t = frame' :: below)
      (known : ∀ i, slot' = some i → slot = some i ∨ s.slot? m w = some i ∨ i = s.slots.size)
      (alike : ∀ point, frame = .get m w point → ∃ point', frame' = .get m w point' := by simp)
  | ends (reply : Reply V) (answers : Answers? reply below (next.stack t) events)
      (handed : ∀ c, reply.handed? = some c →
        ∃ i, slot = some i ∧ frame.role? = some (.leaving m w i (some c)))
      (faultless : ∀ fault, reply ≠ .fault fault := by simp)

/-- A lookup comes to refer to a slot that its worker is mapped to, or to the next one to be
made. -/
theorem GetGoes.known {point point' : GetPoint F} {i : Nat}
    (goes : GetGoes s t m w a point shared point' told) (refers : point'.slot? = some i) :
    point.slot? = some i ∨ s.slot? m w = some i ∨ i = s.slots.size := by
  cases goes with
  | seen mapped | beaten mapped => exact Or.inr (Or.inl (mapped.trans refers))
  | register => exact Or.inr (Or.inr (Option.some.inj refers).symm)
  | unseen | restart => cases refers
  | _ => exact Or.inl refers

theorem PeekGoes.known {point point' : PeekPoint} {i : Nat}
    (goes : PeekGoes s t m w point shared point') (refers : point'.slot? = some i) :
    point.slot? = some i ∨ s.slot? m w = some i ∨ i = s.slots.size := by
  cases goes with
  | seen mapped => exact Or.inr (Or.inl (mapped.trans refers))
  | meet | miss => exact Or.inl refers

theorem Replies.handing {slot : Option Nat} {c : Nat} (replies : Replies s frame shared reply told)
    (seeks : frame.seeks? = some (m,w,slot)) (handed : reply.handed? = some c) :
    ∃ i, slot = some i ∧ frame.role? = some (.leaving m w i (some c)) := by
  cases replies with
  | get replies =>
    cases seeks
    cases replies <;> cases handed
    exact ⟨_,rfl,rfl⟩
  | @peek _ _ _ _ found replies =>
    cases seeks
    cases found with
    | none => cases handed
    | some d =>
      cases replies
      cases handed
      exact ⟨_,rfl,rfl⟩
  | _ => cases seeks

theorem seek_turn {slot : Option Nat} (seeks : frame.seeks? = some (m,w,slot))
    (top : s.stack t = frame :: below) (own : a.isOwn = true)
    (moved : s.step t a = some (next,events)) :
    SeekTurn s next t m w slot frame below events := by
  obtain ⟨_,_,_,goes,_,here⟩ | ⟨_,reply,_,replies,_,_,answers⟩ := own_step top own moved
  · cases goes with
    | get goes =>
      cases seeks
      exact .goes _ _ rfl here fun i => goes.known
    | peek goes =>
      cases seeks
      exact .goes _ _ rfl here fun i => goes.known
    | _ => cases seeks
  · refine .ends reply answers (fun c => replies.handing seeks) ?_
    cases replies with
    | get replies => cases replies <;> simp
    | peek replies => simp
    | _ => cases seeks

/-- Where nothing waits for an answer it is returned, and nothing else is. -/
theorem Answers?.returned (floor : Floor below) (answers : Answers? reply below frames events) :
    frames = below ∧ ∀ other, .returned other ∈ events ↔ other = reply := by
  obtain ⟨rfl,told,rfl,quiet⟩ := answers
  rw [resume_quiet floor.still]
  refine ⟨rfl,fun other => ?_⟩
  simp [quiet]

theorem Answers?.passed {other : Reply V} (answers : Answers? reply (frame :: below) frames events)
    (passed : resume reply (frame :: below) = resume other below) :
    Answers? other below frames events := by
  obtain ⟨here,told,said,quiet⟩ := answers
  exact ⟨by rw [here,passed],told,by rw [said,passed],quiet⟩

inductive Processing (m : Nat) (w : WorkerId) : Frame F V → List (Frame F V) → Prop
  | look (point) : Processing m w (.get m w point) [.processGet m w]
  | body (point) : Processing m w (.processBody m w point) []
  | failing (c fault) : Processing m w (.processLogFailure m w c fault) []
  | release (point fault) : Processing m w (.release m w point) [.processRelease m w fault]
  | failed (fault e) : Processing m w (.processLogTeardown m w fault e) []

inductive ProcessTurn (s : System F V) (m : Nat) (w : WorkerId) (a : Action F V) :
    Frame F V → List (Frame F V) → Frame F V → List (Frame F V) → Prop
  | look (point point') (known : ∀ i, point'.slot? = some i →
      point.slot? = some i ∨ s.slot? m w = some i ∨ i = s.slots.size) :
      ProcessTurn s m w a (.get m w point) [.processGet m w] (.get m w point') [.processGet m w]
  | serve (i c) : ProcessTurn s m w a (.get m w (.leave i (.found c))) [.processGet m w]
      (.processBody m w (.claim c)) []
  | run (point point') (same : point'.copy = point.copy) :
      ProcessTurn s m w a (.processBody m w point) [] (.processBody m w point') []
  | fail (c fault) : ProcessTurn s m w a (.processBody m w (.yield c (.error fault))) []
      (.processLogFailure m w c fault) []
  | discard (c fault) : ProcessTurn s m w a (.processLogFailure m w c fault) []
      (.release m w .unregister) [.processRelease m w fault]
  | release (point point' fault) (turn : ReleaseTurn s m w a point point') :
      ProcessTurn s m w a (.release m w point) [.processRelease m w fault]
        (.release m w point') [.processRelease m w fault]
  | report (point fault e) (ended : ReleaseEnd s m w point (.failed e : Reply V)) :
      ProcessTurn s m w a (.release m w point) [.processRelease m w fault]
        (.processLogTeardown m w fault e) []

inductive ProcessEnd (s : System F V) (m : Nat) (w : WorkerId) :
    Frame F V → List (Frame F V) → Reply V → Prop
  | unserved (point reply) (faultless : ∀ fault, reply ≠ .fault fault) :
      ProcessEnd s m w (.get m w point) [.processGet m w] reply
  | served (point reply) (faultless : ∀ fault, reply ≠ .fault fault) :
      ProcessEnd s m w (.processBody m w point) [] reply
  | discarded (point fault) (ended : ReleaseEnd s m w point (.done : Reply V)) :
      ProcessEnd s m w (.release m w point) [.processRelease m w fault] (.fault fault)
  | unwound (point fault message) (ended : ReleaseEnd s m w point (.panicked message : Reply V)) :
      ProcessEnd s m w (.release m w point) [.processRelease m w fault] (.panicked message)
  | reported (fault e) : ProcessEnd s m w (.processLogTeardown m w fault e) [] (.fault fault)

inductive Draining (m : Nat) : Frame F V → List (Frame F V) → Prop
  | survey (shard seen) : Draining m (.survey m .releaseAll shard seen) []
  | release (w point pending errors) :
      Draining m (.release m w point) [.releaseAll m pending errors]
  | log (errors) : Draining m (.releaseAllLog m errors) []

inductive DrainTurn (s : System F V) (m : Nat) (a : Action F V) :
    Frame F V → List (Frame F V) → Frame F V → List (Frame F V) → Prop
  | read (shard seen) (more : shard + 1 < s.sharding.count) :
      DrainTurn s m a (.survey m .releaseAll shard seen) []
        (.survey m .releaseAll (shard + 1) (seen ++ s.shardWorkers m shard)) []
  | first (shard seen w rest) (last : ¬shard + 1 < s.sharding.count)
      (listed : seen ++ s.shardWorkers m shard = w :: rest) :
      DrainTurn s m a (.survey m .releaseAll shard seen) []
        (.release m w .unregister) [.releaseAll m rest []]
  | release (w point point' pending errors) (turn : ReleaseTurn s m w a point point') :
      DrainTurn s m a (.release m w point) [.releaseAll m pending errors]
        (.release m w point') [.releaseAll m pending errors]
  | next (w point v rest errors) (reply : Reply V) (ended : ReleaseEnd s m w point reply)
      (calm : ∀ message, reply ≠ .panicked message) :
      DrainTurn s m a (.release m w point) [.releaseAll m (v :: rest) errors]
        (.release m v .unregister) [.releaseAll m rest (errors ++ reply.error?.toList)]
  | report (w point errors) (reply : Reply V) (ended : ReleaseEnd s m w point reply)
      (calm : ∀ message, reply ≠ .panicked message) :
      DrainTurn s m a (.release m w point) [.releaseAll m [] errors]
        (.releaseAllLog m (errors ++ reply.error?.toList)) []

theorem DrainTurn.shape {s : System F V} {m : Nat} {a : Action F V} {frame frame' : Frame F V}
    {below below' : List (Frame F V)} (turn : DrainTurn s m a frame below frame' below') :
    Draining m frame' below' := by
  cases turn <;> constructor

inductive DrainEnd (s : System F V) (m : Nat) : Frame F V → List (Frame F V) → Reply V → Prop
  | empty (shard seen) (last : ¬shard + 1 < s.sharding.count)
      (unlisted : seen ++ s.shardWorkers m shard = []) :
      DrainEnd s m (.survey m .releaseAll shard seen) [] (.errors [])
  | unwound (w point pending errors message)
      (ended : ReleaseEnd s m w point (.panicked message : Reply V)) :
      DrainEnd s m (.release m w point) [.releaseAll m pending errors] (.panicked message)
  | clean (w point) (reply : Reply V) (ended : ReleaseEnd s m w point reply)
      (calm : ∀ message, reply ≠ .panicked message) (errorless : reply.error? = none) :
      DrainEnd s m (.release m w point) [.releaseAll m [] []] (.errors [])
  | logged (errors) : DrainEnd s m (.releaseAllLog m errors) [] (.errors errors)

theorem DrainEnd.answers {s : System F V} {m : Nat} {frame : Frame F V} {below : List (Frame F V)}
    {reply : Reply V} (ended : DrainEnd s m frame below reply) :
    (∃ errors, reply = .errors errors) ∨ ∃ message, reply = .panicked message := by
  cases ended <;> simp

theorem body_turn {point : BodyPoint V} (top : s.stack t = .processBody m w point :: below)
    (own : a.isOwn = true) (moved : s.step t a = some (next,events)) :
    (∃ point', point'.copy = point.copy ∧ next.stack t = .processBody m w point' :: below) ∨
      (∃ c fault, point = .yield c (.error fault) ∧
        next.stack t = .processLogFailure m w c fault :: below) ∨
      ∃ reply, Answers? reply below (next.stack t) events ∧ ∀ fault, reply ≠ .fault fault := by
  obtain ⟨_,_,_,goes,_,here⟩ | ⟨_,reply,_,replies,_,_,answers⟩ := own_step top own moved
  · cases goes with
    | body goes => exact Or.inl ⟨_,by cases goes <;> rfl,here⟩
    | fail => exact Or.inr (Or.inl ⟨_,_,rfl,here⟩)
  · refine Or.inr (Or.inr ⟨reply,answers,?_⟩)
    cases replies with
    | body replies => cases replies <;> simp

private theorem found_of_leaving {point : GetPoint F} {i c : Nat}
    (role : (Frame.get m w point : Frame F V).role? = some (.leaving m w i (some c))) :
    point = .leave i (.found c) := by
  cases point with
  | leave j departure =>
    cases departure <;> cases role
    rfl
  | _ => cases role

theorem process_turn (shape : Processing m w frame below) (top : s.stack t = frame :: below ++ rest)
    (own : a.isOwn = true) (moved : s.step t a = some (next,events)) :
    (∃ frame' below', ProcessTurn s m w a frame below frame' below' ∧
        next.stack t = frame' :: below' ++ rest) ∨
      ∃ reply, ProcessEnd s m w frame below reply ∧ Answers? reply rest (next.stack t) events := by
  cases shape with
  | look point =>
    have turn : SeekTurn s next t m w point.slot? (.get m w point) (.processGet m w :: rest)
        events := seek_turn rfl top own moved
    cases turn with
    | goes frame' slot' seeks here known alike =>
      obtain ⟨point',rfl⟩ := alike point rfl
      cases seeks
      exact Or.inl ⟨_,_,.look point point' known,here⟩
    | ends reply answers handed faultless =>
      cases reply with
      | handle c =>
        obtain ⟨i,_,role⟩ := handed c rfl
        obtain rfl := found_of_leaving role
        exact Or.inl ⟨_,_,.serve i c,answers.1⟩
      | _ => exact Or.inr ⟨_,.unserved point _ faultless,answers.passed rfl⟩
  | body point =>
    obtain ⟨point',same,here⟩ | ⟨c,fault,rfl,here⟩ | ⟨reply,answers,faultless⟩ :=
      body_turn top own moved
    · exact Or.inl ⟨_,_,.run point point' same,here⟩
    · exact Or.inl ⟨_,_,.fail c fault,here⟩
    · exact Or.inr ⟨reply,.served point reply faultless,answers⟩
  | failing c fault =>
    obtain ⟨_,_,_,goes,_,here⟩ | ⟨_,_,_,replies,_⟩ := own_step top own moved
    · cases goes
      exact Or.inl ⟨_,_,.discard c fault,here⟩
    · cases replies
  | release point fault =>
    obtain ⟨point',turn,here⟩ | ⟨reply,ended,answers⟩ := release_turn top own moved
    · exact Or.inl ⟨_,_,.release point point' fault turn,here⟩
    · cases reply with
      | done => exact Or.inr ⟨_,.discarded point fault ended,answers.passed rfl⟩
      | failed e => exact Or.inl ⟨_,_,.report point fault e ended,answers.1⟩
      | panicked message => exact Or.inr ⟨_,.unwound point fault message ended,answers.passed rfl⟩
      | _ => cases ended
  | failed fault e =>
    obtain ⟨_,_,_,goes,_⟩ | ⟨_,_,_,replies,_,_,answers⟩ := own_step top own moved
    · cases goes
    · cases replies
      exact Or.inr ⟨_,.reported fault e,answers⟩

theorem drain_turn (shape : Draining m frame below) (top : s.stack t = frame :: below ++ rest)
    (own : a.isOwn = true) (moved : s.step t a = some (next,events)) :
    (∃ frame' below', DrainTurn s m a frame below frame' below' ∧
        next.stack t = frame' :: below' ++ rest) ∨
      ∃ reply, DrainEnd s m frame below reply ∧ Answers? reply rest (next.stack t) events := by
  cases shape with
  | survey shard seen =>
    replace top : s.stack t = .survey m .releaseAll shard seen :: rest := top
    obtain ⟨_,_,_,goes,_,here⟩ | ⟨_,_,_,replies,_,_,answers⟩ := own_step top own moved
    · cases goes with
      | read more => exact Or.inl ⟨_,_,.read shard seen more,here⟩
      | sweep last listed => exact Or.inl ⟨_,_,.first shard seen _ _ last listed,here⟩
    · cases replies with
      | empty last unlisted => exact Or.inr ⟨_,.empty shard seen last unlisted,answers⟩
  | release w point pending errors =>
    obtain ⟨point',turn,here⟩ | ⟨reply,ended,answers⟩ := release_turn top own moved
    · exact Or.inl ⟨_,_,.release w point point' pending errors turn,here⟩
    -- What the drain makes of an answer depends on whether workers are left and errors came up.
    · cases reply with
      | panicked message =>
        exact Or.inr ⟨_,.unwound w point pending errors message ended,answers.passed rfl⟩
      | done =>
        cases pending with
        | cons v others =>
          exact Or.inl ⟨_,_,.next w point v others errors _ ended (by simp),
            by simp [answers.1,resume,nextRelease,Reply.error?]⟩
        | nil =>
          cases errors with
          | nil => exact Or.inr ⟨_,.clean w point _ ended (by simp) rfl,answers.passed rfl⟩
          | cons first others =>
            exact Or.inl ⟨_,_,.report w point _ _ ended (by simp),
              by simp [answers.1,resume,nextRelease,Reply.error?]⟩
      | failed e =>
        cases pending with
        | cons v others =>
          exact Or.inl ⟨_,_,.next w point v others errors _ ended (by simp),
            by simp [answers.1,resume,nextRelease,Reply.error?]⟩
        | nil =>
          exact Or.inl ⟨_,_,.report w point errors _ ended (by simp),
            by simp [answers.1,resume,nextRelease,Reply.error?]⟩
      | _ => cases ended
  | log errors =>
    obtain ⟨_,_,_,goes,_⟩ | ⟨_,_,_,replies,_,_,answers⟩ := own_step top own moved
    · cases goes
    · cases replies
      exact Or.inr ⟨_,.logged errors,answers⟩

section

variable {now last : System F V} {frame' : Frame F V} {below' floor : List (Frame F V)}
  {call : Call} {span : List (Moment F V)}

theorem parts_unique {other : Frame F V} {under : List (Frame F V)}
    (here : frames = frame :: below ++ floor) (there : frames = other :: under ++ floor) :
    frame = other ∧ below = under :=
  List.cons.inj (List.append_cancel_right (here.symm.trans there))

theorem parts_above (here : frames = frame :: below ++ floor) : frames ≠ floor := by
  rintro rfl
  have size := congrArg List.length here
  simp only [List.cons_append,List.length_cons,List.length_append] at size
  omega

theorem seek_onward {slot : Option Nat} (seeks : frame.seeks? = some (m,w,slot))
    (stands : Floor floor) (top : s.stack t = frame :: [] ++ floor) (own : a.isOwn = true)
    (moved : s.step t a = some (next,events)) (here : next.stack t = frame' :: below' ++ floor) :
    below' = [] ∧ ∃ slot', frame'.seeks? = some (m,w,slot') ∧
      ∀ i, slot' = some i → slot = some i ∨ s.slot? m w = some i ∨ i = s.slots.size := by
  cases seek_turn seeks top own moved with
  | goes other slot' seeks there known =>
    replace there : next.stack t = other :: [] ++ floor := there
    obtain ⟨rfl,rfl⟩ := parts_unique there here
    exact ⟨rfl,slot',seeks,known⟩
  | ends reply answers => exact absurd (answers.returned stands).1 (parts_above here)

theorem release_onward {point : ReleasePoint} (stands : Floor floor)
    (top : s.stack t = .release m w point :: [] ++ floor) (own : a.isOwn = true)
    (moved : s.step t a = some (next,events)) (here : next.stack t = frame' :: below' ++ floor) :
    below' = [] ∧ ∃ point', frame' = .release m w point' ∧ ReleaseTurn s m w a point point' := by
  obtain ⟨point',turn,there⟩ | ⟨reply,ended,answers⟩ := release_turn top own moved
  · replace there : next.stack t = .release m w point' :: [] ++ floor := there
    obtain ⟨rfl,rfl⟩ := parts_unique there here
    exact ⟨rfl,point',rfl,turn⟩
  · exact absurd (answers.returned stands).1 (parts_above here)

theorem process_onward (shape : Processing m w frame below) (stands : Floor floor)
    (top : s.stack t = frame :: below ++ floor) (own : a.isOwn = true)
    (moved : s.step t a = some (next,events)) (here : next.stack t = frame' :: below' ++ floor) :
    ProcessTurn s m w a frame below frame' below' := by
  obtain ⟨other,under,turn,there⟩ | ⟨reply,ended,answers⟩ := process_turn shape top own moved
  · obtain ⟨rfl,rfl⟩ := parts_unique there here
    exact turn
  · exact absurd (answers.returned stands).1 (parts_above here)

theorem drain_onward (shape : Draining m frame below) (stands : Floor floor)
    (top : s.stack t = frame :: below ++ floor) (own : a.isOwn = true)
    (moved : s.step t a = some (next,events)) (here : next.stack t = frame' :: below' ++ floor) :
    DrainTurn s m a frame below frame' below' := by
  obtain ⟨other,under,turn,there⟩ | ⟨reply,ended,answers⟩ := drain_turn shape top own moved
  · obtain ⟨rfl,rfl⟩ := parts_unique there here
    exact turn
  · exact absurd (answers.returned stands).1 (parts_above here)

theorem seek_ended {slot : Option Nat} (seeks : frame.seeks? = some (m,w,slot))
    (answering : Answering s t call span now frame [] a events reply last) {c : Nat}
    (handed : reply.handed? = some c) :
    ∃ i, slot = some i ∧ frame.role? = some (.leaving m w i (some c)) := by
  cases seek_turn seeks answering.top answering.own answering.moved with
  | goes other slot' seeks there known =>
    replace there : last.stack t = other :: [] ++ s.stack t := there
    exact absurd answering.back (parts_above there)
  | ends other answers found =>
    obtain rfl := ((answers.returned answering.under.stands).2 reply).mp answering.told
    exact found c handed

theorem process_ended (shape : Processing m w frame below)
    (answering : Answering s t call span now frame below a events reply last) :
    ProcessEnd now m w frame below reply := by
  obtain ⟨other,under,turn,there⟩ | ⟨other,ended,answers⟩ :=
    process_turn shape answering.top answering.own answering.moved
  · exact absurd answering.back (parts_above there)
  · obtain rfl := ((answers.returned answering.under.stands).2 reply).mp answering.told
    exact ended

theorem drain_ended (shape : Draining m frame below)
    (answering : Answering s t call span now frame below a events reply last) :
    DrainEnd now m frame below reply := by
  obtain ⟨other,under,turn,there⟩ | ⟨other,ended,answers⟩ :=
    drain_turn shape answering.top answering.own answering.moved
  · exact absurd answering.back (parts_above there)
  · obtain rfl := ((answers.returned answering.under.stands).2 reply).mp answering.told
    exact ended

end

end System
end PerWorker
