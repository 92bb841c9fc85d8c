import PerWorker.Proofs.Lifecycle.Turns

/-!
All that the innermost call can do next. A `get` goes from point to point under conditions on the
slot it refers to, and every other call likewise puts something in the place of its frame or
answers. Main statements: a step that is not a new call is one of these; whatever stands on a
stack after a step stood there before, is at its start, or has just gone on from its last point;
and a property of calls that none of this takes away holds of all that are under way.
-/
namespace PerWorker

/-- A call that has not touched what is shared yet, or touches neither maps nor slots. -/
def Frame.starts {F V : Type} : Frame F V → Bool
  | .get _ _ .look | .peek _ _ .look | .release _ _ .unregister => true
  | .get .. | .peek .. | .release .. => false
  | _ => true

namespace System

variable {F V : Type}

inductive GetTurn (s : System F V) (m : Nat) (w : WorkerId) :
    Action F V → GetPoint F → GetPoint F → Prop
  | seen (i) (mapped : s.slot? m w = some i) : GetTurn s m w .advance .look (.enter i)
  | unseen (missing : s.slot? m w = none) : GetTurn s m w .advance .look .register
  | beaten (i) (mapped : s.slot? m w = some i) : GetTurn s m w .advance .register (.enter i)
  | register (missing : s.slot? m w = none) :
      GetTurn s m w .advance .register (.enter s.slots.size)
  | meet (i c) (live : s.state? i = some (.live c)) :
      GetTurn s m w .advance (.enter i) (.leave i (.found c))
  | miss (i) (retired : s.state? i = some .retired) :
      GetTurn s m w .advance (.enter i) (.leave i .again)
  | occupy (i) (vacant : s.state? i = some .vacant) :
      GetTurn s m w .advance (.enter i) (.replicating i)
  | copy (i f) : GetTurn s m w (.drawn (.copy f)) (.replicating i) (.countCopy i f)
  | refuse (i e) : GetTurn s m w (.drawn (.refused e)) (.replicating i) (.countCloneFailure i e)
  | spoil (i message) :
      GetTurn s m w (.drawn (.panicked message)) (.replicating i) (.leave i (.unwinding message))
  | countRefusal (i e) : GetTurn s m w .advance (.countCloneFailure i e) (.logCloneFailure i e)
  | logRefusal (i e) :
      GetTurn s m w .advance (.logCloneFailure i e) (.retire i (.clone (s.name m) w e))
  | countCopy (i f) : GetTurn s m w .advance (.countCopy i f) (.number i f)
  | number (i f) : GetTurn s m w .advance (.number i f) (.settingUp i s.copies.size)
  | setUp (i c v) : GetTurn s m w (.finish (.ok v)) (.settingUp i c) (.countSetup i c)
  | fail (i c fault) :
      GetTurn s m w (.finish (.error fault)) (.settingUp i c) (.countSetupFailure i c fault)
  | panic (i c message) :
      GetTurn s m w (.panic message) (.settingUp i c) (.leave i (.unwinding message))
  | countFailure (i c fault) :
      GetTurn s m w .advance (.countSetupFailure i c fault) (.logSetupFailure i c fault)
  | logFailure (i c fault) : GetTurn s m w .advance (.logSetupFailure i c fault)
      (.retire i (.setup (s.name m) w (c + 1) fault))
  | countSetup (i c) : GetTurn s m w .advance (.countSetup i c) (.logSetup i c)
  | logSetup (i c) : GetTurn s m w .advance (.logSetup i c) (.publish i c)
  | publish (i c) : GetTurn s m w .advance (.publish i c) (.leave i (.found c))
  | retire (i e) : GetTurn s m w .advance (.retire i e) (.leave i (.failed e))
  | failed (i e) : GetTurn s m w .advance (.leave i (.failed e)) (.prune i (some e))
  | again (i) : GetTurn s m w .advance (.leave i .again) (.prune i none)
  | restart (i) : GetTurn s m w .advance (.prune i none) .look

inductive GetEnd : GetPoint F → Reply V → Prop
  | found (i c) : GetEnd (.leave i (.found c)) (.handle c)
  | unwound (i message) : GetEnd (.leave i (.unwinding message)) (.panicked message)
  | failed (i e) : GetEnd (.prune i (some e)) (.failed e)

inductive Onward (s : System F V) (a : Action F V) :
    Frame F V → Frame F V → List (Frame F V) → Prop
  | get {m w point point'} (turn : GetTurn s m w a point point') :
      Onward s a (.get m w point) (.get m w point') []
  | peek (m w point point') : Onward s a (.peek m w point) (.peek m w point') []
  | release {m w point point'} (turn : ReleaseTurn s m w a point point') :
      Onward s a (.release m w point) (.release m w point') []
  | use (point point') (same : point'.copy = point.copy) (begun : ∀ c, point' ≠ .claim c) :
      Onward s a (.use point) (.use point') []
  | body (m w point point') (same : point'.copy = point.copy) (begun : ∀ c, point' ≠ .claim c) :
      Onward s a (.processBody m w point) (.processBody m w point') []
  | fail (m w c fault) : Onward s a (.processBody m w (.yield c (.error fault)))
      (.processLogFailure m w c fault) []
  | discard (m w c fault) : Onward s a (.processLogFailure m w c fault)
      (.release m w .unregister) [.processRelease m w fault]
  | read (m purpose shard shard' seen seen') :
      Onward s a (.survey m purpose shard seen) (.survey m purpose shard' seen') []
  | sweep (m shard seen v rest) : Onward s a (.survey m .releaseAll shard seen)
      (.release m v .unregister) [.releaseAll m rest []]
  | tally (m shard seen left read registered) :
      Onward s a (.survey m .stats shard seen) (.load m left read registered) []
  | drain (m n rest drained drained' errors errors' failed) :
      Onward s a (.drainLogFailure m (n :: rest) drained errors failed)
        (.survey n .releaseAll 0 []) [.drain n rest drained' errors']
  | drained (m drained drained' errors errors' failed) :
      Onward s a (.drainLogFailure m [] drained errors failed) (.drainLogDone drained' errors') []
  | load (m left left' read read' registered registered') :
      Onward s a (.load m left read registered) (.load m left' read' registered') []
  | loaded (m left read registered n counters) :
      Onward s a (.load m left read registered) (.logStats m n counters) []

inductive Closes (s : System F V) : Frame F V → Reply V → Prop
  | get {m w point reply} (ended : GetEnd point reply) : Closes s (.get m w point) reply
  | peek (m w point found) : Closes s (.peek m w point) (.peeked found)
  | release {m w point reply} (ended : ReleaseEnd s m w point reply) :
      Closes s (.release m w point) reply
  | use (point reply) (errorless : reply.error? = none)
      (unlisted : ∀ errors, reply ≠ .errors errors) : Closes s (.use point) reply
  | body (m w point reply) (errorless : reply.error? = none)
      (unlisted : ∀ errors, reply ≠ .errors errors) : Closes s (.processBody m w point) reply
  | reported (m w fault e) : Closes s (.processLogTeardown m w fault e) (.fault fault)
  | survey (m purpose shard seen reply) (errorless : reply.error? = none)
      (unlisted : ∀ errors, reply = .errors errors → errors = []) :
      Closes s (.survey m purpose shard seen) reply
  | listed (m errors) : Closes s (.releaseAllLog m errors) (.errors errors)
  | drained (drained errors) : Closes s (.drainLogDone drained errors) (.errors errors)
  | contains (m w b) : Closes s (.contains m w) (.flag b)
  | loaded (m left read registered counters) :
      Closes s (.load m left read registered) (.counters counters)
  | logged (m n counters) : Closes s (.logStats m n counters) .done

variable {s shared next : System F V} {t m : Nat} {w : WorkerId} {a : Action F V}
  {frame : Frame F V} {below : List (Frame F V)} {events told : List (Event V)}

/-- A step of a lookup is one of the turns that a lookup can take. -/
theorem GetGoes.turn {point point' : GetPoint F}
    (goes : GetGoes s t m w a point shared point' told) : GetTurn s m w a point point' := by
  cases goes with
  | seen mapped => exact .seen _ mapped
  | unseen missing => exact .unseen missing
  | beaten mapped => exact .beaten _ mapped
  | register missing => exact .register missing
  | occupy free => exact .occupy _ (state_of_free free)
  | meet free => exact .meet _ _ (state_of_free free)
  | miss free => exact .miss _ (state_of_free free)
  | _ => constructor

theorem GetReplies.ended {point : GetPoint F} {reply : Reply V}
    (replies : GetReplies s m w point shared reply) : GetEnd point reply := by
  cases replies <;> constructor

theorem get_points {point : GetPoint F} (top : s.stack t = .get m w point :: below)
    (own : a.isOwn = true) (moved : s.step t a = some (next,events)) :
    (∃ point', GetTurn s m w a point point' ∧ next.stack t = .get m w point' :: below) ∨
      ∃ reply, GetEnd point reply ∧ Answers? reply below (next.stack t) events := by
  obtain ⟨_,_,_,goes,_,here⟩ | ⟨_,reply,_,replies,_,_,answers⟩ := own_step top own moved
  · cases goes with
    | get goes => exact Or.inl ⟨_,goes.turn,here⟩
  · cases replies with
    | get replies => exact Or.inr ⟨_,replies.ended,answers⟩

theorem Goes.onward {first : Frame F V} {more : List (Frame F V)}
    (goes : Goes s t a frame shared first more told) : Onward s a frame first more := by
  cases goes with
  | get goes => exact .get goes.turn
  | peek => exact .peek ..
  | release goes => exact .release goes.turn
  | use goes => cases goes <;> exact .use _ _ rfl (by simp)
  | body goes => cases goes <;> exact .body _ _ _ _ rfl (by simp)
  | _ => constructor

theorem Replies.closes {reply : Reply V} (replies : Replies s frame shared reply told) :
    Closes s frame reply := by
  cases replies with
  | get replies => exact .get replies.ended
  | peek => exact .peek ..
  | release replies => exact .release replies.ended
  | use replies => cases replies <;> exact .use _ _ rfl (by simp)
  | broken => exact .use _ _ rfl (by simp)
  | body replies => cases replies <;> exact .body _ _ _ _ rfl (by simp)
  | empty | workers | len | isEmpty => exact .survey _ _ _ _ _ rfl (by simp)
  | _ => constructor

theorem own_points (top : s.stack t = frame :: below) (own : a.isOwn = true)
    (moved : s.step t a = some (next,events)) :
    (∃ first more, Onward s a frame first more ∧ next.stack t = first :: more ++ below) ∨
      ∃ reply, Closes s frame reply ∧ Answers? reply below (next.stack t) events := by
  obtain ⟨_,first,more,goes,_,here⟩ | ⟨_,reply,_,replies,_,_,answers⟩ := own_step top own moved
  · exact Or.inl ⟨first,more,goes.onward,here⟩
  · exact Or.inr ⟨reply,replies.closes,answers⟩

theorem starts_of_waits (waits : frame.waits = true) : frame.starts = true := by
  cases frame <;> first | rfl | cases waits

theorem Onward.waiting {first : Frame F V} {more : List (Frame F V)}
    (onward : Onward s a frame first more) :
    first.waits = false ∧ (∀ c, first ≠ .use (.claim c)) ∧ ∀ other ∈ more, other.waits = true := by
  cases onward with
  | use point point' same begun => exact ⟨rfl,by simp [begun],by simp⟩
  | _ => exact ⟨rfl,by simp,by simp [Frame.waits]⟩

theorem resume_starts (reply : Reply V) (frames : List (Frame F V)) :
    ∀ frame ∈ (resume reply frames).1, frame ∈ frames ∨ frame.starts = true := by
  have resumed := resumed reply frames
  generalize resume reply frames = result at resumed ⊢
  induction resumed with
  | returned => exact fun frame member => Or.inl member
  | woken below woken =>
    intro frame member
    obtain new | old := List.mem_append.mp member
    · obtain rfl | behind := List.mem_cons.mp new
      · exact Or.inr (by cases woken <;> rfl)
      · exact Or.inr (starts_of_waits (woken.waiting frame behind))
    · exact Or.inl (List.mem_cons_of_mem _ old)
  | passed _ _ _ ih => exact fun frame member => (ih frame member).imp_left (List.mem_cons_of_mem _)

theorem firstFrames_starts (call : Call) (frames : List (Frame F V)) :
    ∀ frame ∈ firstFrames call frames, frame ∈ frames ∨ frame.starts = true := by
  have on {first : Frame F V} {below : List (Frame F V)} (starts : first.starts = true)
      (rest : ∀ frame ∈ below, frame ∈ frames ∨ frame.starts = true) :
      ∀ frame ∈ first :: below, frame ∈ frames ∨ frame.starts = true :=
    List.forall_mem_cons.mpr ⟨Or.inr starts,rest⟩
  have old : ∀ frame ∈ frames, frame ∈ frames ∨ frame.starts = true := fun _ => Or.inl
  cases call with
  | process m w => exact on rfl (on rfl old)
  | drain ms =>
    cases ms with
    | nil => exact on rfl old
    | cons m ms => exact on rfl (on rfl old)
  | _ => exact on rfl old

inductive Points (s : System F V) (t : Nat) (next : System F V) :
    Action F V → List (Event V) → Prop
  | call (call) (floor : Floor (s.stack t)) (here : next.stack t = firstFrames call (s.stack t)) :
      Points s t next (.call call) [.called call]
  | assign (value) (floor : Floor (s.stack t)) (here : next.stack t = s.stack t) :
      Points s t next (.assign value) []
  | onward {a frame below first more} (events) (own : a.isOwn = true)
      (top : s.stack t = frame :: below) (onward : Onward s a frame first more)
      (here : next.stack t = first :: more ++ below) : Points s t next a events
  | closes {a frame below reply} (events) (own : a.isOwn = true)
      (top : s.stack t = frame :: below) (closes : Closes s frame reply)
      (answers : Answers? reply below (next.stack t) events) : Points s t next a events

theorem floor_of_running {hook : Hook} {c : Nat}
    (running : (s.stack t).head?.bind Frame.hook? = some (hook,c)) : Floor (s.stack t) := by
  intro frame member
  rw [member,Option.bind_some] at running
  simp [Frame.isForeign,running]

/-- What any step means to the call that takes it, without what it does to counters and locks. -/
theorem step_points (moved : s.step t a = some (next,events)) : Points s t next a events := by
  cases step_acts moved with
  | call opened =>
    have bound : t < s.threads.size := by simp_all [isOpen]
    exact .call _ (floor_of_open opened) (stack_setStack s _ bound)
  | assign running => exact .assign _ (floor_of_running running) rfl
  | own top acts =>
    have own : a.isOwn = true := by
      cases acts with
      | goes goes => exact goes.own
      | replies advances => exact advances ▸ rfl
    obtain ⟨_,_,onward,here⟩ | ⟨_,closes,answers⟩ := own_points top own moved
    · exact .onward events own top onward here
    · exact .closes events own top closes answers

theorem own_of_plain (top : s.stack t = frame :: below) (plain : frame.isForeign = false)
    (moved : s.step t a = some (next,events)) : a.isOwn = true := by
  have busy (floor : Floor (s.stack t)) : False := by
    rw [top] at floor
    cases plain.symm.trans (floor frame rfl)
  cases step_points moved with
  | call call floor => exact (busy floor).elim
  | assign value floor => exact (busy floor).elim
  | onward _ own | closes _ own => exact own

theorem step_frames {u : Nat} (moved : s.step t a = some (next,events))
    (member : frame ∈ next.stack u) : frame ∈ s.stack u ∨ frame.starts = true ∨
      u = t ∧ ∃ top below more, s.stack t = top :: below ∧ Onward s a top frame more := by
  by_cases same : u = t
  · subst same
    cases step_points moved with
    | call call floor here =>
      rw [here] at member
      exact (firstFrames_starts call _ frame member).imp_right Or.inl
    | assign value floor here => exact Or.inl (here ▸ member)
    | @onward _ _ below first more _ own top onward here =>
      rw [top]
      rw [here] at member
      obtain active | old := List.mem_append.mp member
      · obtain rfl | behind := List.mem_cons.mp active
        · exact Or.inr (Or.inr ⟨rfl,_,below,more,rfl,onward⟩)
        · exact Or.inr (Or.inl (starts_of_waits (onward.waiting.2.2 frame behind)))
      · exact Or.inl (List.mem_cons_of_mem _ old)
    | @closes _ _ below reply _ own top closes answers =>
      rw [answers.1] at member
      rw [top]
      exact (resume_starts reply below frame member).imp (List.mem_cons_of_mem _) Or.inl
  · rw [(step_effect moved).others same] at member
    exact Or.inl member

theorem resume_keeps (reply : Reply V) (frames : List (Frame F V)) :
    ∀ frame ∈ frames, frame.waits = false → frame ∈ (resume reply frames).1 := by
  intro frame member still
  have resumed := resumed reply frames
  generalize resume reply frames = result at resumed ⊢
  have under {caller : Frame F V} {below : List (Frame F V)} (waits : caller.waits = true)
      (member : frame ∈ caller :: below) : frame ∈ below := by
    refine (List.mem_cons.mp member).resolve_left ?_
    rintro rfl
    exact Bool.false_ne_true (still.symm.trans waits)
  induction resumed with
  | returned => exact member
  | woken below woken => exact List.mem_append_right _ (under woken.waits member)
  | passed waits _ _ ih => exact ih (under waits member)

/-- Only the innermost call leaves its place, and those that wait for an answer. -/
theorem step_stays {u : Nat} (moved : s.step t a = some (next,events))
    (member : frame ∈ s.stack u) (still : frame.waits = false) : frame ∈ next.stack u ∨
      u = t ∧ a.isOwn = true ∧ ∃ below, s.stack t = frame :: below := by
  by_cases same : u = t
  · subst same
    obtain ⟨_,_,reach⟩ := (step_effect moved).stack
    generalize s.stack u = old, next.stack u = new at reach member ⊢
    cases reach with
    | assign => exact Or.inl member
    | call _ call =>
      rw [← List.nil_append old,firstFrames_append]
      exact Or.inl (List.mem_append_right _ member)
    | go first below _ _ _ _ _ own =>
      obtain rfl | behind := List.mem_cons.mp member
      · exact Or.inr ⟨rfl,own,below,rfl⟩
      · exact Or.inl (List.mem_append_right _ behind)
    | answer first below reply =>
      obtain rfl | behind := List.mem_cons.mp member
      · exact Or.inr ⟨rfl,rfl,below,rfl⟩
      · exact Or.inl (resume_keeps reply below frame behind still)
  · rw [(step_effect moved).others same]
    exact Or.inl member

/-- Whatever takes the place of a frame of which it holds, with the calls above it, has it too. -/
structure Lasting (holds : Frame F V → Prop) : Prop where
  onward : ∀ {s : System F V} {a : Action F V} {frame first : Frame F V} {more : List (Frame F V)},
    Onward s a frame first more → holds frame → ∀ other ∈ first :: more, holds other
  woken : ∀ {reply : Reply V} {caller first : Frame F V} {more : List (Frame F V)},
    Woken reply caller first more → holds caller → ∀ other ∈ first :: more, holds other

theorem Lasting.resume {holds : Frame F V → Prop} (lasting : Lasting holds) (reply : Reply V)
    (before : ∀ frame ∈ below, holds frame) : ∀ frame ∈ (resume reply below).1, holds frame := by
  have resumed := resumed reply below
  generalize System.resume reply below = result at resumed ⊢
  induction resumed with
  | returned => exact before
  | woken below woken =>
    obtain ⟨caller,rest⟩ := List.forall_mem_cons.mp before
    exact List.forall_mem_append.mpr ⟨lasting.woken woken caller,rest⟩
  | passed _ _ _ ih => exact ih (List.forall_mem_cons.mp before).2

theorem Lasting.step {holds : Frame F V → Prop} (lasting : Lasting holds)
    (moved : s.step t a = some (next,events))
    (made : ∀ call, a = .call call → ∀ frame ∈ firstFrames call [], holds frame)
    (before : ∀ frame ∈ s.stack t, holds frame) : ∀ frame ∈ next.stack t, holds frame := by
  cases step_points moved with
  | call call floor here =>
    rw [here,← List.nil_append (s.stack t),firstFrames_append]
    exact List.forall_mem_append.mpr ⟨made call rfl,before⟩
  | assign value floor here => exact here ▸ before
  | onward events own top onward here =>
    obtain ⟨top,rest⟩ := List.forall_mem_cons.mp (top ▸ before)
    exact here ▸ List.forall_mem_append.mpr ⟨lasting.onward onward top,rest⟩
  | closes events own top closes answers =>
    exact answers.1 ▸ lasting.resume _ (List.forall_mem_cons.mp (top ▸ before)).2

/-- What lasts, and holds of the frames that calls are made with, holds of every call under way. -/
theorem Interleaving.lasting {holds : Frame F V → Prop} {initial : System F V}
    {past : List (Entry F V)} (run : Interleaving initial past s) (lasting : Lasting holds)
    (idle : ∀ t, initial.stack t = [])
    (made : ∀ entry ∈ past, ∀ call, entry.action = .call call →
      ∀ frame ∈ firstFrames call [], holds frame) : ∀ t, ∀ frame ∈ s.stack t, holds frame := by
  induction run with
  | start => simp [idle]
  | step t a events before moved ih =>
    obtain ⟨earlier,last⟩ := List.forall_mem_append.mp made
    intro u
    by_cases same : u = t
    · subst same
      exact lasting.step moved (last _ List.mem_cons_self) (ih earlier u)
    · exact (step_effect moved).others same ▸ ih earlier u

end System
end PerWorker
