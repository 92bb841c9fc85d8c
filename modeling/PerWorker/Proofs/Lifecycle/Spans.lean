import PerWorker.Proofs.Lifecycle.Stacks

/-!
One call from the step that makes it to the step that answers it, with everything that other
threads and the foreign code in it do in between. Main statement: what the step that makes the call
establishes, what steps outside its own frames keep and what its own steps keep holds while the
call is under way and up to its answer.
-/
namespace PerWorker

structure Moment (F V : Type) where
  state : System F V
  entry : Entry F V

namespace Moment

variable {F V : Type}

/-- The frame that acts for the call which a thread made over so many frames, unless foreign code
in that call does. -/
def acting? (t depth : Nat) (moment : Moment F V) : Option (Frame F V) :=
  if moment.entry.thread = t ∧ moment.entry.action.isOwn = true then
    match (moment.state.stack t).take ((moment.state.stack t).length - depth) with
    | frame :: below => if below.all Frame.waits then some frame else none
    | [] => none
  else none

theorem acting?_top {t : Nat} (moment : Moment F V) {frame : Frame F V}
    {below floor : List (Frame F V)} (thread : moment.entry.thread = t)
    (own : moment.entry.action.isOwn = true) (top : moment.state.stack t = frame :: below ++ floor)
    (waiting : ∀ other ∈ below, other.waits = true) :
    moment.acting? t floor.length = some frame := by
  have all : below.all Frame.waits = true := List.all_eq_true.mpr waiting
  have taken : (frame :: below ++ floor).take ((frame :: below ++ floor).length - floor.length) =
      frame :: below := by
    rw [List.length_append,Nat.add_sub_cancel,List.take_left]
  unfold acting?
  rw [if_pos ⟨thread,own⟩,top,taken]
  exact if_pos all

theorem acting?_nested {t : Nat} (moment : Moment F V) {first frame : Frame F V}
    {above below floor : List (Frame F V)} (foreign : frame.isForeign = true)
    (nested : moment.state.stack t = first :: above ++ (frame :: below ++ floor)) :
    moment.acting? t floor.length = none := by
  have stands : Floor [frame] := by simpa [Floor] using foreign
  have still : frame.waits = false := stands.still frame rfl
  have parts : moment.state.stack t = (first :: above ++ frame :: below) ++ floor := by
    simp [nested]
  have taken : ((first :: above ++ frame :: below) ++ floor).take
      (((first :: above ++ frame :: below) ++ floor).length - floor.length) =
      first :: (above ++ frame :: below) := by
    rw [List.length_append,Nat.add_sub_cancel,List.take_left,List.cons_append]
  unfold acting?
  split
  next =>
    rw [parts,taken]
    simp [still]
  next => rfl

theorem stack_of_acting {t depth : Nat} {moment : Moment F V} {frame : Frame F V}
    (acting : moment.acting? t depth = some frame) :
    moment.entry.thread = t ∧ ∃ rest, moment.state.stack t = frame :: rest := by
  unfold acting? at acting
  split at acting
  next own =>
    split at acting
    next first below taken =>
      split at acting
      next =>
        cases acting
        refine ⟨own.1,?_⟩
        have whole := List.take_append_drop
          ((moment.state.stack t).length - depth) (moment.state.stack t)
        rw [taken] at whole
        exact ⟨_,whole.symm⟩
      next => contradiction
    next => contradiction
  next => contradiction

end Moment

namespace System

variable {F V : Type}

inductive Trail (s : System F V) : List (Moment F V) → System F V → Prop
  | start : Trail s [] s
  | on {span now next} (u a) {events} (before : Trail s span now)
      (moved : now.step u a = some (next,events)) : Trail s (span ++ [⟨now,⟨u,a,events⟩⟩]) next

/-- The steps from the one with which a thread makes a call to a state in which the call is still
under way. -/
inductive Underway (s : System F V) (t : Nat) (call : Call) :
    List (Moment F V) → System F V → Prop
  | made {next events} (moved : s.step t (.call call) = some (next,events)) :
      Underway s t call [⟨s,⟨t,.call call,events⟩⟩] next
  | on {span now next} (u a) {events} (before : Underway s t call span now)
      (moved : now.step u a = some (next,events))
      (within : (s.stack t).length < (next.stack t).length) :
      Underway s t call (span ++ [⟨now,⟨u,a,events⟩⟩]) next

/-- The steps of a call up to the one that answers it, after which none of its frames is left. -/
inductive Answered (s : System F V) (t : Nat) (call : Call) :
    List (Moment F V) → Reply V → System F V → Prop
  | mk {span now last a events reply} (before : Underway s t call span now)
      (moved : now.step t a = some (last,events))
      (back : (last.stack t).length ≤ (s.stack t).length)
      (told : .returned reply ∈ events) :
      Answered s t call (span ++ [⟨now,⟨t,a,events⟩⟩]) reply last

/-- The frames of a call stand on those that were there before it. Whatever is above them belongs
to foreign code in the call. -/
structure Stood (t : Nat) (floor : List (Frame F V)) (frame : Frame F V)
    (below : List (Frame F V)) (now : System F V) : Prop where
  waiting : ∀ other ∈ below, other.waits = true
  stack : now.stack t = frame :: below ++ floor ∨ frame.isForeign = true ∧
    ∃ first above, now.stack t = first :: above ++ (frame :: below ++ floor)

def pursue (s : System F V) (t depth : Nat) :
    List (Nat × Action F V) → Option (System F V × List (Moment F V))
  | [] => some (s,[])
  | (u,a) :: turns => do
    let (next,events) ← s.step u a
    if depth < (next.stack t).length then
      let (last,span) ← next.pursue t depth turns
      return (last,⟨s,⟨u,a,events⟩⟩ :: span)
    else none

/-- What a call comes to when these steps are taken after the one that makes it, and its thread
advances once more. -/
def perform (s : System F V) (t : Nat) (call : Call) (turns : List (Nat × Action F V)) :
    Option (List (Moment F V) × Reply V × System F V) := do
  let (first,called) ← s.step t (.call call)
  let (now,span) ← first.pursue t (s.stack t).length turns
  let (last,told) ← now.step t .advance
  match told.getLast? with
  | some (.returned reply) =>
    if (last.stack t).length ≤ (s.stack t).length then
      return (⟨s,⟨t,.call call,called⟩⟩ :: span ++ [⟨now,⟨t,.advance,told⟩⟩],reply,last)
    else none
  | _ => none

variable {s now next last : System F V} {t u : Nat} {call : Call} {a : Action F V}
  {span : List (Moment F V)} {events : List (Event V)} {past : List (Entry F V)}
  {floor below : List (Frame F V)} {frame : Frame F V} {reply : Reply V}

theorem Underway.pursue {turns : List (Nat × Action F V)} {more : List (Moment F V)}
    (under : Underway s t call span now)
    (pursued : now.pursue t (s.stack t).length turns = some (last,more)) :
    Underway s t call (span ++ more) last := by
  induction turns generalizing span now more with
  | nil =>
    cases pursued
    simpa using under
  | cons turn turns ih =>
    obtain ⟨u,a⟩ := turn
    obtain ⟨⟨next,events⟩,moved,pursued⟩ := Option.bind_eq_some_iff.mp pursued
    dsimp only at pursued
    split at pursued
    next within =>
      obtain ⟨⟨reached,rest⟩,continued,same⟩ := Option.bind_eq_some_iff.mp pursued
      cases same
      simpa using ih (under.on u a moved within) continued
    next => contradiction

/-- A call that is run to its end by some schedule has been answered. -/
theorem Answered.perform {turns : List (Nat × Action F V)}
    (performed : s.perform t call turns = some (span,reply,last)) :
    Answered s t call span reply last := by
  obtain ⟨⟨first,called⟩,made,performed⟩ := Option.bind_eq_some_iff.mp performed
  obtain ⟨⟨now,before⟩,pursued,performed⟩ := Option.bind_eq_some_iff.mp performed
  obtain ⟨⟨reached,told⟩,moved,performed⟩ := Option.bind_eq_some_iff.mp performed
  dsimp only at performed
  split at performed
  next answer said =>
    split at performed
    next back =>
      cases performed
      have under := (Underway.made made).pursue pursued
      exact .mk under moved back (List.mem_of_getLast? said)
    next => contradiction
  next => contradiction

theorem Stood.mem (stood : Stood t floor frame below now) : frame ∈ now.stack t := by
  obtain top | ⟨_,first,above,nested⟩ := stood.stack
  · simp [top]
  · simp [nested]

theorem Effect.stack (effect : Effect s t a next events) :
    ∃ before after, Reach (s.stack t) a before after (next.stack t) events := by
  obtain ⟨bound,shared,before,after,frames,rfl,change,reach⟩ := effect
  have bound : t < shared.threads.size := change.threads ▸ bound
  refine ⟨before,after,?_⟩
  rw [stack_setStack shared frames bound]
  exact reach

theorem Effect.others (effect : Effect s t a next events) (other : u ≠ t) :
    next.stack u = s.stack u := by
  obtain ⟨bound,shared,before,after,frames,rfl,change,reach⟩ := effect
  exact stack_other frames change.threads other

theorem Effect.name (effect : Effect s t a next events) (m : Nat) : next.name m = s.name m := by
  obtain ⟨bound,shared,before,after,frames,rfl,change,reach⟩ := effect
  exact change.name m

theorem Effect.sharding (effect : Effect s t a next events) : next.sharding = s.sharding := by
  obtain ⟨bound,shared,before,after,frames,rfl,change,reach⟩ := effect
  exact change.sharding

/-- What a step of the call's own innermost frame leaves of the call: nothing, when it answers, or
one frame and those that wait for it. -/
theorem Reach.own {before after : Option Nat} {frames : List (Frame F V)} (own : a.isOwn = true)
    (waiting : ∀ other ∈ below, other.waits = true)
    (reach : Reach (frame :: below) a before after frames events) :
    (frames = [] ∧ ∃ reply, .returned reply ∈ events) ∨
      ∃ frame' below', frames = frame' :: below' ∧ (∀ reply, .returned reply ∉ events) ∧
        ∀ other ∈ below', other.waits = true := by
  cases reach with
  | assign | call => cases own
  | go _ _ first more _ _ _ _ waiting' bodiless grips quiet =>
    refine Or.inr ⟨first,more ++ below,rfl,quiet,?_⟩
    intro other member
    exact (List.mem_append.mp member).elim (waiting' other) (waiting other)
  | answer _ _ reply told handed quiet =>
    obtain ⟨done,last,said⟩ | ⟨frame',below',here,silent,waiting'⟩ := resume_waiting reply waiting
    · exact Or.inl ⟨done,last,by simp [said]⟩
    · refine Or.inr ⟨frame',below',here,?_,waiting'⟩
      rw [silent,List.append_nil]
      exact quiet

theorem firstFrames_waiting (call : Call) : ∃ frame below,
    (firstFrames call [] : List (Frame F V)) = frame :: below ∧
      ∀ other ∈ below, other.waits = true := by
  cases call with
  | drain ms => cases ms <;> exact ⟨_,_,rfl,by simp [Frame.waits]⟩
  | _ => exact ⟨_,_,rfl,by simp [Frame.waits]⟩

theorem step_call (moved : s.step t (.call call) = some (next,events)) :
    Floor (s.stack t) ∧ next.stack t = firstFrames call [] ++ s.stack t ∧
      events = [.called call] := by
  obtain ⟨before,after,reach⟩ := (step_effect moved).stack
  generalize s.stack t = old, next.stack t = new at reach ⊢
  cases reach with
  | call _ _ floor => exact ⟨floor,firstFrames_append call [] old,rfl⟩
  | go _ _ _ _ _ _ _ own => cases own

/-- Steps of other threads, and of foreign code in a call, leave the frames of the call where they
are. -/
theorem Stood.apart (stood : Stood t floor frame below now)
    (moved : now.step u a = some (next,events))
    (apart : u = t → a.isOwn = true → now.stack t ≠ frame :: below ++ floor) :
    Stood t floor frame below next ∧ Moment.acting? t floor.length ⟨now,⟨u,a,events⟩⟩ = none := by
  by_cases same : u = t
  · subst same
    obtain ⟨before,after,reach⟩ := (step_effect moved).stack
    obtain top | ⟨foreign,first,above,nested⟩ := stood.stack
    · have idle : ¬a.isOwn = true := fun own => apart rfl own top
      have silent : Moment.acting? u floor.length ⟨now,⟨u,a,events⟩⟩ = none := by
        unfold Moment.acting?
        exact if_neg fun acts => idle acts.2
      refine ⟨⟨stood.waiting,?_⟩,silent⟩
      rw [top] at reach
      generalize next.stack u = frames at reach ⊢
      cases reach with
      | assign => exact Or.inl rfl
      | call _ call open' =>
        obtain ⟨first,more,opening,_⟩ := firstFrames_waiting (F := F) (V := V) call
        refine Or.inr ⟨open' frame rfl,first,more,?_⟩
        have added := firstFrames_append call [] (frame :: below ++ floor)
        rw [List.nil_append,opening] at added
        exact added
      | go _ _ _ _ _ _ _ own => exact absurd own idle
      | answer => exact absurd rfl idle
    · have silent := Moment.acting?_nested ⟨now,⟨u,a,events⟩⟩ foreign nested
      refine ⟨⟨stood.waiting,?_⟩,silent⟩
      have stands : Floor (frame :: below ++ floor) := by simpa [Floor] using foreign
      rw [nested] at reach
      obtain ⟨rest,here,_⟩ := reach.split stands
      cases rest with
      | nil => exact Or.inl here
      | cons first above => exact Or.inr ⟨foreign,first,above,here⟩
  · have silent : Moment.acting? t floor.length ⟨now,⟨u,a,events⟩⟩ = none := by
      unfold Moment.acting?
      exact if_neg fun acts => same acts.1
    refine ⟨⟨stood.waiting,?_⟩,silent⟩
    rw [(step_effect moved).others (Ne.symm same)]
    exact stood.stack

/-- A property of a call under way, of the steps so far and of the frames it stands on, that every
step keeps. -/
structure Kept (s : System F V) (t : Nat) (call : Call)
    (holds : List (Moment F V) → Frame F V → List (Frame F V) → System F V → Prop) : Prop where
  made : ∀ next frame below, s.step t (.call call) = some (next,[.called call]) →
    firstFrames call [] = frame :: below → Stood t (s.stack t) frame below next →
    holds [⟨s,⟨t,.call call,[.called call]⟩⟩] frame below next
  aside : ∀ span now frame below u a next events, Underway s t call span now →
    holds span frame below now → now.step u a = some (next,events) →
    Stood t (s.stack t) frame below next →
    Moment.acting? t (s.stack t).length ⟨now,⟨u,a,events⟩⟩ = none →
    holds (span ++ [⟨now,⟨u,a,events⟩⟩]) frame below next
  onward : ∀ span now frame below a next events frame' below', Underway s t call span now →
    holds span frame below now → now.step t a = some (next,events) → a.isOwn = true →
    now.stack t = frame :: below ++ s.stack t → next.stack t = frame' :: below' ++ s.stack t →
    Moment.acting? t (s.stack t).length ⟨now,⟨t,a,events⟩⟩ = some frame →
    Stood t (s.stack t) frame' below' next →
    holds (span ++ [⟨now,⟨t,a,events⟩⟩]) frame' below' next

theorem Underway.stands (under : Underway s t call span now) : Floor (s.stack t) := by
  induction under with
  | made moved => exact (step_call moved).1
  | on u a before moved within ih => exact ih

/-- What every step keeps holds as long as the call is under way. -/
theorem Kept.holds {holds : List (Moment F V) → Frame F V → List (Frame F V) → System F V → Prop}
    (kept : Kept s t call holds) (under : Underway s t call span now) :
    ∃ frame below, Stood t (s.stack t) frame below now ∧ holds span frame below now := by
  induction under with
  | made moved =>
    obtain ⟨floor,top,rfl⟩ := step_call moved
    obtain ⟨frame,below,opening,waiting⟩ := firstFrames_waiting (F := F) (V := V) call
    have stood : Stood t (s.stack t) frame below _ := ⟨waiting,Or.inl (by rw [top,opening])⟩
    exact ⟨frame,below,stood,kept.made _ frame below moved opening stood⟩
  | @on span now next u a events before moved within ih =>
    obtain ⟨frame,below,stood,held⟩ := ih
    -- The call goes on only when its own thread takes a step with the frame on top.
    by_cases own : u = t ∧ a.isOwn = true ∧ now.stack t = frame :: below ++ s.stack t
    · obtain ⟨rfl,own,top⟩ := own
      obtain ⟨taken,given,reach⟩ := (step_effect moved).stack
      rw [top] at reach
      obtain ⟨rest,here,reach⟩ := reach.split before.stands
      obtain ⟨rfl,_⟩ | ⟨frame',below',rfl,_,waiting⟩ := reach.own own stood.waiting
      · simp [here] at within
      · have acting := Moment.acting?_top ⟨now,⟨u,a,events⟩⟩ rfl own top stood.waiting
        have stood' : Stood u (s.stack u) frame' below' next := ⟨waiting,Or.inl here⟩
        exact ⟨frame',below',stood',
          kept.onward span now frame below a next events frame' below' before held moved own top
            here acting stood'⟩
    · have apart : u = t → a.isOwn = true → now.stack t ≠ frame :: below ++ s.stack t :=
        fun same owned top => own ⟨same,owned,top⟩
      obtain ⟨stood',silent⟩ := stood.apart moved apart
      exact ⟨frame,below,stood',kept.aside span now frame below u a next events before held moved
        stood' silent⟩

structure Answering (s : System F V) (t : Nat) (call : Call) (before : List (Moment F V))
    (now : System F V) (frame : Frame F V) (below : List (Frame F V)) (a : Action F V)
    (events : List (Event V)) (reply : Reply V) (last : System F V) : Prop where
  under : Underway s t call before now
  own : a.isOwn = true
  top : now.stack t = frame :: below ++ s.stack t
  moved : now.step t a = some (last,events)
  told : .returned reply ∈ events
  back : last.stack t = s.stack t
  acting : Moment.acting? t (s.stack t).length ⟨now,⟨t,a,events⟩⟩ = some frame

/-- What every step keeps holds up to the step that answers the call. -/
theorem Kept.ends {holds : List (Moment F V) → Frame F V → List (Frame F V) → System F V → Prop}
    (kept : Kept s t call holds) (answered : Answered s t call span reply last) :
    ∃ before now frame below a events, span = before ++ [⟨now,⟨t,a,events⟩⟩] ∧
      Answering s t call before now frame below a events reply last ∧
        holds before frame below now := by
  obtain ⟨before,moved,back,told⟩ := answered
  next before' now a events =>
  obtain ⟨frame,below,stood,held⟩ := kept.holds before
  by_cases own : a.isOwn = true ∧ now.stack t = frame :: below ++ s.stack t
  · obtain ⟨own,top⟩ := own
    have acting := Moment.acting?_top ⟨now,⟨t,a,events⟩⟩ rfl own top stood.waiting
    obtain ⟨taken,given,reach⟩ := (step_effect moved).stack
    rw [top] at reach
    obtain ⟨rest,here,_⟩ := reach.split before.stands
    have none : rest = [] := by
      rw [here,List.length_append] at back
      exact List.eq_nil_of_length_eq_zero (by omega)
    have same : last.stack t = s.stack t := by rw [here,none,List.nil_append]
    exact ⟨_,now,frame,below,a,events,rfl,⟨before,own,top,moved,told,same,acting⟩,held⟩
  · obtain ⟨stood',_⟩ := stood.apart moved fun _ owned top => own ⟨owned,top⟩
    obtain top | ⟨_,first,above,nested⟩ := stood'.stack
    · rw [top] at back
      simp only [List.cons_append,List.length_append,List.length_cons] at back
      omega
    · rw [nested] at back
      simp only [List.length_append,List.length_cons] at back
      omega

def Taken (moment : Moment F V) : Prop :=
  ∃ next, moment.state.step moment.entry.thread moment.entry.action =
    some (next,moment.entry.events)

def entries (span : List (Moment F V)) : List (Entry F V) := span.map (·.entry)

section

variable {more : List (Moment F V)} {q : Moment F V}

theorem Trail.sharding (trail : Trail s span last) : last.sharding = s.sharding := by
  induction trail with
  | start => rfl
  | on u a before moved ih => exact (step_effect moved).sharding.trans ih

theorem Trail.name (trail : Trail s span last) (m : Nat) : last.name m = s.name m := by
  induction trail with
  | start => rfl
  | on u a before moved ih => exact ((step_effect moved).name m).trans ih

theorem Trail.trans (trail : Trail s span now) (onward : Trail now more last) :
    Trail s (span ++ more) last := by
  induction onward with
  | start => simpa using trail
  | on u a before moved ih =>
    rw [← List.append_assoc]
    exact ih.on u a moved

/-- A sequence of steps can be cut at any of them. -/
theorem Trail.split (trail : Trail s span last) (member : q ∈ span) :
    ∃ before after, span = before ++ q :: after ∧ Trail s before q.state ∧
      Trail q.state (q :: after) last := by
  induction trail with
  | start => cases member
  | @on span now next u a events trail moved ih =>
    rcases List.mem_append.mp member with old | new
    · obtain ⟨before,after,rfl,ahead,behind⟩ := ih old
      have longer : Trail q.state (q :: (after ++ [⟨now,⟨u,a,events⟩⟩])) next := behind.on u a moved
      exact ⟨before,_,List.append_assoc ..,ahead,longer⟩
    · obtain rfl := List.mem_singleton.mp new
      exact ⟨span,[],rfl,trail,Trail.start.on u a moved⟩

theorem Trail.taken (trail : Trail s span last) : ∀ moment ∈ span, Taken moment := by
  induction trail with
  | start => simp
  | @on span now next u a events before moved ih =>
    intro moment member
    rcases List.mem_append.mp member with old | new
    · exact ih moment old
    · obtain rfl := List.mem_singleton.mp new
      exact ⟨next,moved⟩

theorem Trail.run {initial : System F V} (trail : Trail s span last)
    (run : Interleaving initial past s) : Interleaving initial (past ++ entries span) last := by
  induction trail with
  | start => simpa [entries] using run
  | on u a before moved ih =>
    simp only [entries,List.map_append,List.map_cons,List.map_nil,← List.append_assoc]
    exact ih.step u a _ moved

theorem Underway.trail (under : Underway s t call span now) : Trail s span now := by
  induction under with
  | made moved => exact Trail.start.on t _ moved
  | on u a before moved within ih => exact ih.on u a moved

theorem Answered.trail (answered : Answered s t call span reply last) : Trail s span last := by
  obtain ⟨before,moved,_,_⟩ := answered
  exact before.trail.on t _ moved

theorem Underway.sharding (under : Underway s t call span now) : now.sharding = s.sharding :=
  under.trail.sharding

theorem Answered.taken (answered : Answered s t call span reply last) :
    ∀ moment ∈ span, Taken moment := answered.trail.taken

theorem Underway.run {initial : System F V} (under : Underway s t call span now)
    (run : Interleaving initial past s) : Interleaving initial (past ++ entries span) now :=
  under.trail.run run

theorem Answered.run {initial : System F V} (answered : Answered s t call span reply last)
    (run : Interleaving initial past s) : Interleaving initial (past ++ entries span) last :=
  answered.trail.run run

theorem Trail.reached {initial : System F V} (trail : Trail s span last)
    (run : Interleaving initial past s) (member : q ∈ span) :
    ∃ before after, span = before ++ q :: after ∧
      Interleaving initial (past ++ entries before) q.state := by
  obtain ⟨before,after,rfl,ahead,_⟩ := trail.split member
  exact ⟨before,after,rfl,ahead.run run⟩

end

end System
end PerWorker
