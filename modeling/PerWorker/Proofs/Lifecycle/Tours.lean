import PerWorker.Proofs.Lifecycle.Completion

/-!
Draining several managers with one call. The call goes from manager to manager, and what it does
about one of them is all that a drain of that manager does. Main statement: when the call answers,
it has gone through the whole list in order, and its errors are those of the drains one after the
other, whatever failed in them and whatever went on meanwhile.
-/
namespace PerWorker

/-- What a call that drains several managers does about one of them: the state it comes to that
manager in, its steps there, the errors that come of them and the state it leaves. -/
structure Leg (F V : Type) where
  manager : Nat
  first : System F V
  span : List (Moment F V)
  errors : List LifecycleError
  last : System F V

def Frame.isLogging {F V : Type} : Frame F V → Bool
  | .drainLogFailure .. | .drainLogDone .. => true
  | _ => false

/-- A step that neither lists a worker for a call nor takes one out of the map or tears it down. -/
structure Moment.Rests {F V : Type} (t depth : Nat) (moment : Moment F V) : Prop where
  unlisted : moment.listed t depth = []
  untried : moment.attempt? t depth = none
  untorn : moment.torn? t depth = none

namespace System

open Ledger

variable {F V : Type}

structure Sweep (past : List (Entry F V)) (first : System F V) (t depth m : Nat)
    (span : List (Moment F V)) (frame : Frame F V) (below : List (Frame F V)) (now : System F V) :
    Prop where
  trail : Trail first span now
  sweeping : Sweeping t depth m span frame below now
  reporting : Reporting t depth m (first.name m) span frame below now
  accounted : Accounted past t depth span frame.releases? now
  clearing : Clearing first.slots.size first.copies.size m frame below now

structure Complete (past : List (Entry F V)) (t depth : Nat) (leg : Leg F V) : Prop where
  trail : Trail leg.first leg.span leg.last
  swept : Swept t depth leg.first.sharding.count leg.span
  reported : leg.errors = reports (leg.first.name leg.manager) (teardowns t depth leg.span)
  accounted : Accounted past t depth leg.span none leg.last
  cleared : ∀ v, Cleared leg.first.slots.size leg.first.copies.size leg.manager v leg.last

/-- The legs of a call up to some state, one after the other, and its steps up to there. In those
between the legs it rests. -/
inductive Route (past : List (Entry F V)) (s : System F V) (t depth : Nat) :
    List (Leg F V) → List (Moment F V) → System F V → Prop
  | start : Route past s t depth [] [] s
  | pause {legs span now next} (u a) {events} (before : Route past s t depth legs span now)
      (moved : now.step u a = some (next,events))
      (rests : Moment.Rests t depth ⟨now,⟨u,a,events⟩⟩) :
      Route past s t depth legs (span ++ [⟨now,⟨u,a,events⟩⟩]) next
  | leg {legs span} (leg : Leg F V) (before : Route past s t depth legs span leg.first)
      (complete : Complete (past ++ entries span) t depth leg) :
      Route past s t depth (legs ++ [leg]) (span ++ leg.span) leg.last

inductive Touring (past : List (Entry F V)) (s : System F V) (t depth : Nat) (ms : List Nat) :
    List (Moment F V) → Frame F V → List (Frame F V) → System F V → Prop
  | sweeping {legs before first m rest span frame below now}
      (route : Route past s t depth legs before first)
      (order : legs.map (·.manager) ++ m :: rest = ms)
      (spent : ownSteps t depth before ≤
        legs.length * (s.sharding.count + 2) + 11 * (listed t depth before).length)
      (sweep : Sweep (past ++ entries before) first t depth m span frame below now) :
      Touring past s t depth ms (before ++ span) frame
        (below ++ [.drain m rest legs.length (legs.flatMap (·.errors))]) now
  | failing {legs leg rest span now} (route : Route past s t depth (legs ++ [leg]) span now)
      (order : (legs ++ [leg]).map (·.manager) ++ rest = ms)
      (spent : ownSteps t depth span + 1 ≤
        (legs.length + 1) * (s.sharding.count + 2) + 11 * (listed t depth span).length) :
      Touring past s t depth ms span (.drainLogFailure leg.manager rest legs.length
        (legs.flatMap (·.errors)) leg.errors) [] now
  | done {legs span now} (route : Route past s t depth legs span now)
      (order : legs.map (·.manager) = ms)
      (spent : ownSteps t depth span ≤
        legs.length * (s.sharding.count + 2) + 11 * (listed t depth span).length) :
      Touring past s t depth ms span (.drainLogDone legs.length (legs.flatMap (·.errors))) [] now

variable {sharding : Sharding} {names : List String} {threads : Nat}
  {past prior : List (Entry F V)} {initial s first now next last : System F V}
  {t u m depth : Nat} {w : WorkerId} {call : Call} {a : Action F V} {events : List (Event V)}
  {span more : List (Moment F V)} {frame frame' : Frame F V} {below below' floor : List (Frame F V)}
  {moment q : Moment F V} {reply : Reply V} {errors : List LifecycleError} {ms rest : List Nat}
  {legs : List (Leg F V)}

theorem Sweep.start (past : List (Entry F V)) (first : System F V) (t depth m : Nat) :
    Sweep past first t depth m [] (.survey m .releaseAll 0 []) [] first :=
  ⟨.start,.start t depth m first,.start t depth rfl,.start past t depth first,.start m first⟩

theorem Sweep.aside (run : Interleaving (idle sharding names threads) prior now)
    (sweep : Sweep past first t depth m span frame below now)
    (moved : now.step u a = some (next,events)) (member : frame ∈ next.stack t)
    (silent : Moment.acting? t depth ⟨now,⟨u,a,events⟩⟩ = none) :
    Sweep past first t depth m (span ++ [⟨now,⟨u,a,events⟩⟩]) frame below next where
  trail := sweep.trail.on u a moved
  sweeping := sweep.sweeping.aside moved silent
  reporting := sweep.reporting.aside moved silent
  accounted := sweep.accounted.aside run.sound moved member silent
  clearing := sweep.clearing.aside moved

/-- Whatever is known of a drain on its own is known of each leg of a longer one. -/
theorem Sweep.onward (run : Interleaving (idle sharding names threads) prior now)
    (sweep : Sweep past first t depth m span frame below now) (top : now.stack t = frame :: floor)
    (own : a.isOwn = true) (moved : now.step t a = some (next,events))
    (turn : DrainTurn now m a frame below frame' below') (member : frame' ∈ next.stack t)
    (acting : Moment.acting? t depth ⟨now,⟨t,a,events⟩⟩ = some frame) :
    Sweep past first t depth m (span ++ [⟨now,⟨t,a,events⟩⟩]) frame' below' next where
  trail := sweep.trail.on t a moved
  sweeping := sweep.sweeping.onward (run.shardWorkers_nodup m) moved turn acting
  reporting := sweep.reporting.onward run moved turn (by simp [top]) acting
  accounted := sweep.accounted.onward run.sound top moved turn acting member
  clearing := sweep.clearing.onward run top own moved turn

/-- A leg is complete once its drain has answered. -/
theorem Sweep.over (run : Interleaving (idle sharding names threads) prior now)
    (sweep : Sweep past first t depth m span frame below now) (top : now.stack t = frame :: floor)
    (own : a.isOwn = true) (moved : now.step t a = some (next,events))
    (ended : DrainEnd now m frame below (.errors errors : Reply V))
    (acting : Moment.acting? t depth ⟨now,⟨t,a,events⟩⟩ = some frame) :
    Complete past t depth ⟨m,first,span ++ [⟨now,⟨t,a,events⟩⟩],errors,next⟩ where
  trail := sweep.trail.on t a moved
  swept := sweep.trail.sharding ▸ sweep.sweeping.over ended acting
  reported := (sweep.reporting.over moved ended acting).1
  accounted := sweep.accounted.over ended acting
  cleared := sweep.clearing.over run top own moved ended

theorem Route.trail (route : Route past s t depth legs span now) : Trail s span now := by
  induction route with
  | start => exact .start
  | pause u a before moved rests ih => exact ih.on u a moved
  | leg leg before complete ih => exact ih.trans complete.trail

theorem rests_of_silent (silent : moment.acting? t depth = none) : moment.Rests t depth :=
  ⟨by simp [Moment.listed,silent],by simp [Moment.attempt?,silent],by simp [Moment.torn?,silent]⟩

theorem rests_of_log (acting : moment.acting? t depth = some frame)
    (logs : frame.isLogging = true) : moment.Rests t depth := by
  cases frame with
  | drainLogFailure | drainLogDone =>
    exact ⟨by simp [Moment.listed,acting],by simp [Moment.attempt?,acting],
      by simp [Moment.torn?,acting]⟩
  | _ => cases logs

theorem teardowns_concat (span more : List (Moment F V)) :
    teardowns t depth (span ++ more) = teardowns t depth span ++ teardowns t depth more :=
  List.filterMap_append ..

theorem listed_concat (span more : List (Moment F V)) :
    listed t depth (span ++ more) = listed t depth span ++ listed t depth more :=
  List.flatMap_append ..

theorem ownSteps_concat (span more : List (Moment F V)) :
    ownSteps t depth (span ++ more) = ownSteps t depth span + ownSteps t depth more := by
  simp [ownSteps]

theorem Route.whole (route : Route past s t depth legs span now) :
    teardowns t depth span = legs.flatMap fun leg => teardowns t depth leg.span := by
  induction route with
  | start => rfl
  | pause u a before moved rests ih => simp [teardowns_append,rests.untorn,ih]
  | leg leg before complete ih => simp [teardowns_concat,ih]

/-- A route can be cut at any of its legs. -/
theorem Route.split {leg : Leg F V} {front back : List (Leg F V)}
    (route : Route past s t depth legs span now) (cut : legs = front ++ leg :: back) :
    ∃ before after, span = before ++ leg.span ++ after ∧
      Route past s t depth front before leg.first ∧
      Complete (past ++ entries before) t depth leg ∧ Trail leg.last after now := by
  induction route generalizing back with
  | start => simp at cut
  | pause u a before moved rests ih =>
    obtain ⟨ahead,after,rfl,route,complete,trail⟩ := ih cut
    exact ⟨ahead,_,List.append_assoc ..,route,complete,trail.on u a moved⟩
  | @leg legs span other before complete ih =>
    rcases back.eq_nil_or_concat with rfl | ⟨back,final,rfl⟩
    · obtain ⟨rfl,same⟩ := List.append_inj' cut rfl
      cases same
      exact ⟨span,[],(List.append_nil _).symm,before,complete,.start⟩
    · have same : legs ++ [other] = (front ++ leg :: back) ++ [final] := by simpa using cut
      obtain ⟨rfl,_⟩ := List.append_inj' same rfl
      obtain ⟨ahead,after,rfl,route,done,trail⟩ := ih rfl
      exact ⟨ahead,_,List.append_assoc ..,route,done,trail.trans complete.trail⟩

theorem Touring.proceed (floor : List (Frame F V)) (route : Route past s t depth legs span now)
    (order : legs.map (·.manager) ++ rest = ms)
    (spent : ownSteps t depth span ≤
      legs.length * (s.sharding.count + 2) + 11 * (listed t depth span).length) :
    ∃ frame below, nextDrain rest legs.length (legs.flatMap (·.errors)) floor =
        frame :: below ++ floor ∧ Touring past s t depth ms span frame below now := by
  cases rest with
  | nil => exact ⟨_,[],rfl,.done route (by simpa using order) spent⟩
  | cons m rest =>
    have start := Touring.sweeping route order spent (.start (past ++ entries span) now t depth m)
    rw [List.append_nil] at start
    exact ⟨_,_,rfl,start⟩

theorem Sweep.arrive {before : List (Moment F V)}
    (run : Interleaving (idle sharding names threads) prior now)
    (route : Route past s t depth legs before first)
    (spent : ownSteps t depth before ≤
      legs.length * (s.sharding.count + 2) + 11 * (listed t depth before).length)
    (sweep : Sweep (past ++ entries before) first t depth m span frame below now)
    (top : now.stack t = frame :: floor) (own : a.isOwn = true)
    (moved : now.step t a = some (next,events))
    (ended : DrainEnd now m frame below (.errors errors : Reply V))
    (acting : Moment.acting? t depth ⟨now,⟨t,a,events⟩⟩ = some frame) :
    Route past s t depth (legs ++ [⟨m,first,span ++ [⟨now,⟨t,a,events⟩⟩],errors,next⟩])
        (before ++ (span ++ [⟨now,⟨t,a,events⟩⟩])) next ∧
      ownSteps t depth (before ++ (span ++ [⟨now,⟨t,a,events⟩⟩])) + 1 ≤
        (legs.length + 1) * (s.sharding.count + 2) +
          11 * (listed t depth (before ++ (span ++ [⟨now,⟨t,a,events⟩⟩]))).length := by
  have complete := sweep.over run top own moved ended acting
  refine ⟨.leg _ route complete,?_⟩
  have steps := complete.swept.steps
  dsimp only at steps
  have same : first.sharding = s.sharding := route.trail.sharding
  rw [same] at steps
  rw [ownSteps_concat,listed_concat,List.length_append,Nat.add_mul]
  omega

/-- A step of the call itself takes it on, or answers when it has been to every manager, or passes
on the panic of a teardown hook. -/
theorem Touring.turn (run : Interleaving (idle sharding names threads) prior now)
    (touring : Touring past s t depth ms span frame below now)
    (top : now.stack t = frame :: below ++ floor) (own : a.isOwn = true)
    (moved : now.step t a = some (next,events))
    (acting : Moment.acting? t depth ⟨now,⟨t,a,events⟩⟩ = some frame) :
    (∃ frame' below', next.stack t = frame' :: below' ++ floor ∧
        Touring past s t depth ms (span ++ [⟨now,⟨t,a,events⟩⟩]) frame' below' next) ∨
      (∃ legs : List (Leg F V), legs.map (·.manager) = ms ∧
        Route past s t depth legs (span ++ [⟨now,⟨t,a,events⟩⟩]) next ∧
        Answers? (.errors (legs.flatMap (·.errors))) floor (next.stack t) events) ∨
      ∃ message, Answers? (.panicked message) floor (next.stack t) events ∧
        ¬∀ q ∈ span, q.panics t = false := by
  cases touring with
  | @sweeping legs before first m rest current frame inner now route order spent sweep =>
    replace top : now.stack t = frame :: inner ++ (.drain m rest legs.length
        (legs.flatMap (·.errors)) :: floor) := by simpa using top
    rw [List.append_assoc]
    rcases drain_turn sweep.sweeping.shape top own moved with
      ⟨frame',inner',turn,here⟩ | ⟨reply,ended,answers⟩
    · have onward := sweep.onward run top own moved turn (by simp [here]) acting
      exact Or.inl ⟨_,_,by simpa using here,.sweeping route order spent onward⟩
    · rcases ended.answers with ⟨errors,rfl⟩ | ⟨message,rfl⟩
      · obtain ⟨route',spent'⟩ := sweep.arrive run route spent top own moved ended acting
        cases errors with
        | nil =>
          have here : next.stack t = nextDrain rest (legs.length + 1)
            (legs.flatMap (·.errors)) floor := answers.1
          obtain ⟨frame',below',same,touring⟩ := Touring.proceed floor route' (by simpa using order)
            (by simpa using Nat.le_of_succ_le spent')
          exact Or.inl ⟨frame',below',here.trans (by simpa using same),touring⟩
        | cons e others =>
          exact Or.inl ⟨_,[],answers.1,.failing route' (by simpa using order) spent'⟩
      · refine Or.inr (Or.inr ⟨message,answers.passed rfl,fun calm => ?_⟩)
        obtain ⟨errors,same⟩ := sweep.sweeping.answers ended fun q member =>
          calm q (List.mem_append_right _ member)
        cases same
  | @failing legs leg rest span now route order spent =>
    obtain rfl := only_advance top own moved rfl
    have rests := rests_of_log acting rfl
    have route' := route.pause t _ moved rests
    have spent' : ownSteps t depth (span ++ [⟨now,⟨t,.advance,events⟩⟩]) ≤
        (legs ++ [leg]).length * (s.sharding.count + 2) +
          11 * (listed t depth (span ++ [⟨now,⟨t,.advance,events⟩⟩])).length := by
      rw [ownSteps_append,acting,listed_append,rests.unlisted]
      simpa using spent
    replace top : now.stack t = .drainLogFailure leg.manager rest legs.length
        (legs.flatMap (·.errors)) leg.errors :: floor := top
    have here : next.stack t = nextDrain rest (legs.length + 1)
        (legs.flatMap (·.errors) ++ leg.errors) floor := by
      obtain ⟨_,_,_,goes,_,here⟩ | ⟨_,_,_,replies,_⟩ := own_step top own moved
      · cases goes <;> exact here
      · cases replies
    obtain ⟨frame',below',same,touring⟩ := Touring.proceed floor route' order spent'
    exact Or.inl ⟨frame',below',here.trans (by simpa using same),touring⟩
  | @done legs span now route order spent =>
    obtain rfl := only_advance top own moved rfl
    have route' := route.pause t _ moved (rests_of_log acting rfl)
    replace top : now.stack t = .drainLogDone legs.length (legs.flatMap (·.errors)) :: floor := top
    obtain ⟨_,_,_,goes,_⟩ | ⟨_,_,_,replies,_,_,answers⟩ := own_step top own moved
    · cases goes
    · cases replies
      exact Or.inr (Or.inl ⟨legs,order,route',answers⟩)

theorem tour_kept (run : Interleaving (idle sharding names threads) past s) :
    Kept s t (.drain ms) (Touring past s t (s.stack t).length ms) where
  made := by
    intro next frame below moved opening stood
    have silent : Moment.acting? t (s.stack t).length
        (⟨s,⟨t,.call (.drain ms),[.called (.drain ms)]⟩⟩ : Moment F V) = none := by
      simp [Moment.acting?,Action.isOwn]
    have route : Route past s t (s.stack t).length [] [⟨s,⟨t,.call (.drain ms),_⟩⟩] next :=
      Route.start.pause t _ moved (rests_of_silent silent)
    obtain ⟨frame',below',same,touring⟩ :=
      Touring.proceed [] route rfl (by simp [ownSteps,silent])
    have parts : nextDrain ms 0 [] [] = frame :: below ++ [] :=
      opening.trans (List.append_nil _).symm
    obtain ⟨rfl,rfl⟩ := parts_unique same parts
    exact touring
  aside := by
    rintro span now frame below u a next events under touring moved stood silent
    have rests := rests_of_silent silent
    have still := (silent_readings span silent).2.2.2
    have unlisted := (silent_readings span silent).1
    cases touring with
    | sweeping route order spent sweep =>
      have onward := sweep.aside (under.run run) moved stood.mem silent
      rw [List.append_assoc]
      exact .sweeping route order spent onward
    | failing route order spent =>
      exact .failing (route.pause u a moved rests) order (by rwa [still,unlisted])
    | done route order spent =>
      exact .done (route.pause u a moved rests) order (by rwa [still,unlisted])
  onward := by
    rintro span now frame below a next events frame' below' under touring moved own top here
      acting stood
    rcases touring.turn (under.run run) top own moved acting with
      ⟨other,under',there,onward⟩ | ⟨legs,order,route,answers⟩ | ⟨message,answers,_⟩
    · obtain ⟨rfl,rfl⟩ := parts_unique there here
      exact onward
    · exact absurd (answers.returned under.stands).1 (parts_above here)
    · exact absurd (answers.returned under.stands).1 (parts_above here)

/-- A call that drains several managers answers when it has been to each in order, and no earlier,
unless a teardown hook that it runs panics. -/
theorem Answered.toured (run : Interleaving (idle sharding names threads) past s)
    (answered : Answered s t (.drain ms) span reply last)
    (calm : ∀ q ∈ span, q.panics t = false) :
    ∃ legs : List (Leg F V), legs.map (·.manager) = ms ∧ reply = .errors (legs.flatMap (·.errors)) ∧
      Route past s t (s.stack t).length legs span last := by
  obtain ⟨before,now,frame,below,a,events,rfl,answering,touring⟩ := (tour_kept run).ends answered
  obtain ⟨under,own,top,moved,told,back,acting⟩ := answering
  rcases touring.turn (under.run run) top own moved acting with
    ⟨other,under',there,_⟩ | ⟨legs,order,route,answers⟩ | ⟨message,answers,panics⟩
  · exact absurd back (parts_above there)
  · exact ⟨legs,order,((answers.returned under.stands).2 reply).mp told,route⟩
  · exact absurd (fun q member => calm q (List.mem_append_left _ member)) panics

theorem Underway.toured (run : Interleaving (idle sharding names threads) past s)
    (under : Underway s t (.drain ms) span now) : ownSteps t (s.stack t).length span ≤
      ms.length * (s.sharding.count + 2) + 11 * (listed t (s.stack t).length span).length := by
  obtain ⟨frame,below,_,touring⟩ := (tour_kept run).holds under
  cases touring with
  | @sweeping legs before first m rest current frame inner now route order spent sweep =>
    have left : 1 ≤ frame.left now.sharding.count inner := by
      cases sweep.sweeping.shape <;> simp [Frame.left]
    have steps := sweep.sweeping.steps
    have same : now.sharding = s.sharding := under.sharding
    have size : ms.length = legs.length + 1 + rest.length := by
      simp only [← order,List.length_append,List.length_map,List.length_cons]
      omega
    rw [same] at left steps
    rw [ownSteps_concat,listed_concat,List.length_append,size,Nat.add_mul,Nat.add_mul]
    omega
  | @failing legs leg rest span now route order spent =>
    have size : ms.length = legs.length + 1 + rest.length := by
      simp only [← order,List.length_append,List.length_map,List.length_singleton]
    rw [size,Nat.add_mul _ rest.length]
    omega
  | done route order spent =>
    rwa [← order,List.length_map]

end System
end PerWorker
