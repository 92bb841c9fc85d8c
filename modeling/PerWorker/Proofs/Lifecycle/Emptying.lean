import PerWorker.Proofs.Lifecycle.Deadlocks
import PerWorker.Proofs.Lifecycle.Races
import PerWorker.Proofs.Lifecycle.Reports
import PerWorker.Proofs.Lifecycle.Tours

/-!
What becomes of the copies when several managers are drained with one call while nothing else goes
on. Teardown hooks may look up workers of any manager and so register new copies. Main statement:
the call comes to an end, goes through the managers in order whatever fails, and tears down every
copy that is registered in one of them before it gets there, each once.
-/
namespace PerWorker
namespace System

open Ledger

variable {F V : Type}

def Registered (s : System F V) (m : Nat) (w : WorkerId) (c : Nat) : Prop :=
  ∃ i, s.slot? m w = some i ∧ s.state? i = some (.live c)

/-- A call that a thread makes when none is under way, and in which nothing is done but by the
thread: no hook panics, and only teardown hooks make calls, to look copies up. -/
structure Solo (s : System F V) (t : Nat) (span : List (Moment F V)) : Prop where
  still : ∀ u, s.stack u = []
  alone : ∀ q ∈ span, q.entry.thread = t
  permitted : ∀ q ∈ span, q.isPermitted = true
  calm : ∀ q ∈ span, q.panics t = false

/-- What a call does about one of the managers that it drains. -/
structure Visited (s : System F V) (t depth : Nat) (leg : Leg F V) : Prop where
  tried : (attempts t depth leg.span).map Prod.fst = listed t depth leg.span
  once : (listed t depth leg.span).Nodup
  unmapped : ∀ w i, leg.first.slot? leg.manager w = some i →
    ∀ v, leg.last.slot? leg.manager v ≠ some i
  reported : leg.errors = reports (s.name leg.manager) (teardowns t depth leg.span)

/-- What a call has done that has drained several managers, one after the other. -/
structure Toured (past : List (Entry F V)) (s : System F V) (t : Nat) (ms : List Nat)
    (span : List (Moment F V)) (legs : List (Leg F V)) (errors : List LifecycleError)
    (last : System F V) : Prop where
  order : legs.map (·.manager) = ms
  route : Route past s t (s.stack t).length legs span last
  visited : ∀ leg ∈ legs, Visited s t (s.stack t).length leg
  whole : teardowns t (s.stack t).length span =
    legs.flatMap fun leg => teardowns t (s.stack t).length leg.span
  collected : errors = legs.flatMap (·.errors)
  result : TeardownErrors.ofList errors = .ok () ↔
    ∀ torn ∈ teardowns t (s.stack t).length span, torn.2.2 = none
  single : ((teardowns t (s.stack t).length span).map (·.2.1)).Nodup
  history : ∀ w c fault, (w,c,fault) ∈ teardowns t (s.stack t).length span →
    hookHistory c (observed (past ++ entries span)) =
      [.began .setup,.ended .setup .returned,.began .teardown,.ended .teardown (.ofFault fault)]

/-- Every copy is torn down that is registered in one of the managers when the call begins, or
before the call comes to the manager. -/
structure Thorough (s : System F V) (t : Nat) (span : List (Moment F V)) (legs : List (Leg F V)) :
    Prop where
  found : ∀ leg ∈ legs, ∀ w c, Registered s leg.manager w c →
    ∃ fault, (w,c,fault) ∈ teardowns t (s.stack t).length span
  added : ∀ before leg after, legs = before ++ leg :: after → ∀ earlier ∈ before,
    ∀ q ∈ earlier.span, ∀ w c, Registered q.state leg.manager w c →
      ∃ fault, (w,c,fault) ∈ teardowns t (s.stack t).length span

variable {sharding : Sharding} {names : List String} {threads : Nat}
  {past : List (Entry F V)} {s now last : System F V} {t u m i c depth : Nat} {w : WorkerId}
  {span : List (Moment F V)} {q : Moment F V} {reply : Reply V} {ms : List Nat}
  {legs : List (Leg F V)} {leg : Leg F V}

theorem Trail.layered (trail : Trail s span last) (still : ∀ u, s.stack u = [])
    (permitted : ∀ q ∈ span, q.isPermitted = true) :
    ∀ u, Layered last.copies.size (last.stack u) := by
  induction trail with
  | start =>
    intro u
    rw [still]
    exact .idle
  | on u a before moved ih =>
    rw [List.forall_mem_append] at permitted
    exact Layered.step (ih permitted.1) (permitted.2 _ List.mem_cons_self) moved

/-- The only calls above those of the drain are lookups, which take no worker out of the map. -/
theorem Solo.attempt (solo : Solo s t span) (trail : Trail s span last) (member : q ∈ span)
    (removed : q.removed? m w = some i) :
    q.attempt? t (s.stack t).length = some (w,some i) := by
  obtain ⟨before,after,rfl,ahead,_⟩ := trail.split member
  have layered := ahead.layered solo.still
    (fun p earlier => solo.permitted p (List.mem_append_left _ earlier)) t
  have thread := solo.alone q member
  unfold Moment.removed? at removed
  rw [thread] at removed
  split at removed
  next n v top action =>
    split at removed
    next same =>
      obtain ⟨rfl,rfl⟩ := same
      obtain ⟨below,top⟩ := List.head?_eq_some_iff.mp top
      rw [top] at layered
      cases layered with
      | call _ _ _ waiting =>
        rw [← List.append_nil (_ :: below)] at top
        have acting := Moment.acting?_top q thread (by simp [action,Action.isOwn]) top waiting
        rw [solo.still]
        simp only [Moment.attempt?,acting,removed]
      | nested _ _ _ seeks => simp [Frame.seeks?] at seeks
    next => contradiction
  next => contradiction

/-- A copy stays registered until a release takes its slot out of the map. -/
theorem Trail.stays (run : Interleaving (idle sharding names threads) past s)
    (trail : Trail s span last) (mapped : s.slot? m w = some i)
    (live : s.state? i = some (.live c)) :
    last.slot? m w = some i ∧ last.state? i = some (.live c) ∨
      ∃ q ∈ span, q.removed? m w = some i ∧ q.state.state? i = some (.live c) := by
  induction trail with
  | start => exact Or.inl ⟨mapped,live⟩
  | @on span now next u a events before moved ih =>
    rcases ih with ⟨mapped,live⟩ | ⟨q,member,removed⟩
    · have sound := (before.run run).sound
      have onward := (step_move moved).live_on sound mapped live
      rcases step_unmaps sound moved mapped with kept | retired | removed
      · exact Or.inl ⟨kept,onward⟩
      · cases retired.symm.trans live
      · exact Or.inr ⟨_,List.mem_append_right _ List.mem_cons_self,removed,live⟩
    · exact Or.inr ⟨q,List.mem_append_left _ member,removed⟩

theorem Trail.torn_once (run : Interleaving (idle sharding names threads) past s)
    (trail : Trail s span last) : ((teardowns t depth span).map (·.2.1)).Nodup := by
  induction trail with
  | start => exact List.nodup_nil
  | @on span now next u a events before moved ih =>
    rw [teardowns_append]
    cases torn : Moment.torn? t depth ⟨now,⟨u,a,events⟩⟩ with
    | none => simpa using ih
    | some ended =>
      obtain ⟨w,c,fault⟩ := ended
      obtain rfl := torn_told moved torn
      rw [Option.toList_some,List.map_append,List.map_singleton]
      refine ih.append (List.nodup_singleton c) ?_
      rw [List.disjoint_singleton]
      intro again
      obtain ⟨⟨v,d,fault'⟩,old,same⟩ := List.mem_map.mp again
      obtain rfl : d = c := same
      have noted : .beat d (.ended .teardown (.ofFault fault')) ∈ notes (past ++ entries span) := by
        simp only [notes,List.flatMap_append]
        exact List.mem_append_right _ (torn_noted before.taken old)
      exact (before.run run).torn_once moved noted

theorem Route.attempted {x : WorkerId × Option Nat} (route : Route past s t depth legs span now)
    (member : q ∈ span) (tried : q.attempt? t depth = some x) : ∃ leg ∈ legs, q ∈ leg.span := by
  induction route with
  | start => cases member
  | pause u a before moved rests ih =>
    rcases List.mem_append.mp member with old | new
    · exact ih old
    · obtain rfl := List.mem_singleton.mp new
      cases rests.untried.symm.trans tried
  | leg leg before complete ih =>
    rcases List.mem_append.mp member with old | new
    · obtain ⟨other,among,inside⟩ := ih old
      exact ⟨other,List.mem_append_left _ among,inside⟩
    · exact ⟨leg,List.mem_append_right _ List.mem_cons_self,new⟩

theorem Route.tears (run : Interleaving (idle sharding names threads) past s)
    (route : Route past s t depth legs span now) (member : q ∈ span)
    (tried : q.attempt? t depth = some (w,some i)) (live : q.state.state? i = some (.live c)) :
    ∃ fault, (w,c,fault) ∈ teardowns t depth span := by
  obtain ⟨leg,among,inside⟩ := route.attempted member tried
  obtain ⟨front,back,cut⟩ := List.append_of_mem among
  obtain ⟨before,after,rfl,ahead,complete,_⟩ := route.split cut
  obtain ⟨fault,torn⟩ :=
    complete.trail.tears (ahead.trail.run run) complete.accounted inside tried live
  refine ⟨fault,?_⟩
  rw [teardowns_concat,teardowns_concat]
  exact List.mem_append_left _ (List.mem_append_right _ torn)

/-- A copy that is registered before the call comes to its manager is torn down: it stays registered
until the call takes it out of the map, and when the call leaves the manager it is not there. -/
theorem Route.thorough {prior : List (Entry F V)} {earlier since rest : List (Moment F V)}
    {x : System F V} (run : Interleaving (idle sharding names threads) past s)
    (route : Route past s t depth legs span now)
    (sole : ∀ q ∈ span, ∀ m w i, q.removed? m w = some i → q.attempt? t depth = some (w,some i))
    (parts : span = earlier ++ (since ++ leg.span) ++ rest) (ahead : Trail s earlier x)
    (onward : Trail x since leg.first) (complete : Complete prior t depth leg)
    (registered : Registered x leg.manager w c) :
    ∃ fault, (w,c,fault) ∈ teardowns t depth span := by
  obtain ⟨i,mapped,live⟩ := registered
  have reached := ahead.run run
  rcases (onward.trans complete.trail).stays reached mapped live with
    ⟨kept,_⟩ | ⟨q,member,removed,there⟩
  · have old : i < x.slots.size := (reached.sound.homes.mapped leg.manager w i mapped).lt
    have later := onward.grows.1
    obtain ⟨a,b,older,_,renewed⟩ := complete.cleared w
    have new := renewed.mapped i kept
    omega
  · have among : q ∈ span := by
      rw [parts]
      exact List.mem_append_left _ (List.mem_append_right _ member)
    exact route.tears run among (sole q among _ _ _ removed) there

theorem Solo.thorough (run : Interleaving (idle sharding names threads) past s)
    (solo : Solo s t span) (route : Route past s t (s.stack t).length legs span last) :
    Thorough s t span legs where
  found := by
    intro leg member w c registered
    obtain ⟨front,back,cut⟩ := List.append_of_mem member
    obtain ⟨before,after,parts,ahead,complete,_⟩ := route.split cut
    rw [← List.nil_append (before ++ leg.span)] at parts
    exact route.thorough run (fun q among _ _ _ => solo.attempt route.trail among) parts .start
      ahead.trail complete registered
  added := by
    intro front leg back cut earlier member q inside w c registered
    obtain ⟨before,after,parts,ahead,complete,_⟩ := route.split cut
    obtain ⟨left,right,rfl⟩ := List.append_of_mem member
    obtain ⟨most,more,rfl,behind,first,since⟩ := ahead.split rfl
    obtain ⟨start,later,here,trail,onward⟩ := first.trail.split inside
    have whole : span = most ++ start ++ (q :: later ++ more ++ leg.span) ++ after := by
      simp [parts,here]
    exact route.thorough run (fun q among _ _ _ => solo.attempt route.trail among) whole
      (behind.trail.trans trail) (onward.trans since) complete registered

theorem Solo.others (solo : Solo s t span) (trail : Trail s span now) (other : u ≠ t) :
    now.stack u = [] := by
  have still := solo.still
  have alone := solo.alone
  clear solo
  induction trail with
  | start => exact still u
  | on v a before moved ih =>
    rw [List.forall_mem_append] at alone
    have own : v = t := alone.2 _ List.mem_cons_self
    rw [(step_effect moved).others (own.symm ▸ other)]
    exact ih alone.1

/-- Nothing stops the call: the locks that its thread waits for would have to be its own. -/
theorem Solo.able (run : Interleaving (idle sharding names threads) past s) (solo : Solo s t span)
    (under : Underway s t (.drain ms) span now) : now.Able t := by
  have trail := under.trail
  have reached := trail.run run
  have layered := trail.layered solo.still solo.permitted
  have busy : now.stack t ≠ [] := by
    obtain ⟨frame,below,stood,_⟩ := (tour_kept run).holds under
    exact List.ne_nil_of_mem stood.mem
  rcases reached.heeds_layered (layered t) busy with able | ⟨u,waits⟩
  · exact able
  · have own : u = t := by
      by_contra other
      exact waits.busy reached (solo.others trail other)
    subst own
    exact absurd (waits.rank_lt reached layered) (Nat.lt_irrefl _)

theorem ofList_ok (errors : List LifecycleError) :
    TeardownErrors.ofList errors = .ok () ↔ errors = [] := by
  unfold TeardownErrors.ofList
  split <;> simp_all

theorem reports_nil (name : String) (torn : List (WorkerId × Nat × Option Fault)) :
    reports name torn = [] ↔ ∀ ended ∈ torn, ended.2.2 = none := by
  simp [reports,List.filterMap_eq_nil_iff]

theorem Route.visited (route : Route past s t depth legs span now)
    (run : Interleaving (idle sharding names threads) past s) (member : leg ∈ legs) :
    Visited s t depth leg := by
  obtain ⟨front,back,cut⟩ := List.append_of_mem member
  obtain ⟨before,after,parts,ahead,complete,_⟩ := route.split cut
  refine ⟨complete.swept.tried,complete.swept.once,?_,?_⟩
  · intro w i mapped v again
    -- A slot that is mapped at the end is new, and this one is not.
    have old := ((ahead.trail.run run).sound.homes.mapped leg.manager w i mapped).lt
    obtain ⟨a,b,older,_,renewed⟩ := complete.cleared v
    exact absurd (older.trans (renewed.mapped i again)) (Nat.not_le.mpr old)
  · rw [complete.reported,ahead.trail.name]

theorem Route.toured (run : Interleaving (idle sharding names threads) past s)
    (route : Route past s t (s.stack t).length legs span last)
    (order : legs.map (·.manager) = ms) :
    Toured past s t ms span legs (legs.flatMap (·.errors)) last where
  order
  route
  visited leg := route.visited run
  whole := route.whole
  collected := rfl
  result := by
    rw [ofList_ok,List.flatMap_eq_nil_iff,route.whole,List.forall_mem_flatMap]
    refine forall₂_congr fun leg member => ?_
    rw [(route.visited run member).reported,reports_nil]
  single := route.trail.torn_once run
  history := by
    intro w c fault torn
    refine (route.trail.run run).torn_down ?_
    simp only [notes,List.flatMap_append]
    exact List.mem_append_right _ (torn_noted route.trail.taken torn)

/-- Draining several managers, some of them maybe more than once. A call that has the system to
itself, but for teardown hooks that look copies up, is never stuck, and its own steps are bounded by
the number of workers that it lists. When it returns and no hook panicked, it has gone through the
managers in order, whatever failed: it has tried every worker that it listed in each, and its errors
are those of the managers one after the other, one for every teardown that failed. No copy is torn
down twice, and each that is registered in one of the managers when the call begins, or is added
before the call comes to that manager, is torn down. -/
theorem Interleaving.drains_in_turn (run : Interleaving (idle sharding names threads) past s)
    (t : Nat) (ms : List Nat) :
    (∀ span now, Underway s t (.drain ms) span now → Solo s t span →
      now.Able t ∧ ownSteps t (s.stack t).length span ≤
        ms.length * (s.sharding.count + 2) + 11 * (listed t (s.stack t).length span).length) ∧
      ∀ span reply last, Answered s t (.drain ms) span reply last →
        (∀ q ∈ span, q.panics t = false) →
        ∃ legs errors, reply = .errors errors ∧ Toured past s t ms span legs errors last ∧
          (Solo s t span → Thorough s t span legs) := by
  refine ⟨fun span now under solo => ⟨solo.able run under,under.toured run⟩,?_⟩
  intro span reply last answered calm
  obtain ⟨legs,order,rfl,route⟩ := answered.toured run calm
  exact ⟨legs,_,rfl,route.toured run order,fun solo => solo.thorough run route⟩

def stocked : System Nat Nat where
  managers := #[{
    name := "pool", slots := [(.named "a",0)], counters := { copies := 1, setups := 1 } },
    { name := "back" }]
  slots := #[{ manager := 0, worker := .named "a", state := .live 0 }]
  copies := #[{ manager := 0, worker := .named "a", value := 7 }]
  threads := #[[]]

/-- The teardown hook of the first manager's copy adds a copy to the second manager and fails. -/
def addingDrain : List (Nat × Action Nat Nat) :=
  advances 7 ++ (0,.call (.get 1 (.named "b"))) :: settingUp ++
    (0,.finish (.error { message := "stuck" })) :: advances 13 ++ (0,.finish (.ok 0)) :: advances 4

theorem drains_in_turn_of_adding :
    ∃ (past : List (Entry Nat Nat)) (span : List (Moment Nat Nat)) (last : System Nat Nat),
      Interleaving (idle .single ["pool","back"] 1) past stocked ∧ Solo stocked 0 span ∧
      Answered stocked 0 (.drain [0,1,0]) span
        (.errors [.teardown "pool" (.named "a") 1 { message := "stuck" }]) last ∧
      teardowns 0 0 span = [(.named "a",0,some { message := "stuck" }),(.named "b",1,none)] ∧
      (∃ span now, Underway stocked 0 (.drain [0,1,0]) span now ∧ Solo stocked 0 span ∧
        now.Able 0) ∧
      ∃ legs errors, Toured past stocked 0 [0,1,0] span legs errors last ∧
        Thorough stocked 0 span legs := by
  obtain ⟨past,followed⟩ : ∃ past,
      (idle .single ["pool","back"] 1).follow firstGet = some (stocked,past) := ⟨_,rfl⟩
  have run := Interleaving.start.follow followed
  have still (u : Nat) : stocked.stack u = [] := by
    cases u <;> simp [stocked,stack]
  have solo {span : List (Moment Nat Nat)} (quiet : span.all (fun q =>
      q.entry.thread == 0 && q.isPermitted && !q.panics 0) = true) : Solo stocked 0 span := by
    simp only [List.all_eq_true,Bool.and_eq_true,beq_iff_eq,Bool.not_eq_true'] at quiet
    exact ⟨still,fun q member => (quiet q member).1.1,fun q member => (quiet q member).1.2,
      fun q member => (quiet q member).2⟩
  obtain ⟨span,last,performed,quiet,torn⟩ : ∃ span last,
      stocked.perform 0 (.drain [0,1,0]) addingDrain = some (span,
        .errors [.teardown "pool" (.named "a") 1 { message := "stuck" }],last) ∧
      span.all (fun q => q.entry.thread == 0 && q.isPermitted && !q.panics 0) = true ∧
      teardowns 0 0 span = [(.named "a",0,some { message := "stuck" }),(.named "b",1,none)] :=
    ⟨_,_,rfl,rfl,rfl⟩
  obtain ⟨now,events,made⟩ : ∃ now events,
      stocked.step 0 (.call (.drain [0,1,0])) = some (now,events) := ⟨_,_,rfl⟩
  have answered := Answered.perform performed
  have alone := solo quiet
  have first : Solo stocked 0 [⟨stocked,⟨0,.call (.drain [0,1,0]),events⟩⟩] := solo rfl
  have drains := run.drains_in_turn 0 [0,1,0]
  have able := (drains.1 _ now (.made made) first).1
  obtain ⟨legs,errors,_,toured,thorough⟩ := drains.2 span _ last answered alone.calm
  exact ⟨past,span,last,run,alone,answered,torn,⟨_,now,.made made,first,able⟩,legs,errors,toured,
    thorough alone⟩

end System
end PerWorker
