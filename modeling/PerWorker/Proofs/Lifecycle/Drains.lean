import PerWorker.Proofs.Lifecycle.Keeping
import PerWorker.Proofs.Lifecycle.Linearization

/-!
Draining a manager while other threads go on using it. The workers are listed shard by shard and
then released one after the other, each once. Main statements: whatever the others do, what a drain
under way has listed, tried, torn down and collected agrees from step to step, and the steps that it
takes of itself are bounded by the number of workers listed.
-/
namespace PerWorker

/-- The errors of the teardowns that failed, in order. -/
def reports (name : String) (torn : List (WorkerId × Nat × Option Fault)) : List LifecycleError :=
  torn.filterMap fun (w,c,fault) => fault.map (.teardown name w (c + 1))

namespace ReleasePoint

def torn? : ReleasePoint → Option (Nat × Option Fault)
  | .yield c fault | .countTeardown c fault => some (c,fault)
  | .logTeardown c => some (c,none)
  | .countFailure c fault | .logFailure c fault => some (c,some fault)
  | _ => none

def left : ReleasePoint → Nat
  | .unregister => 11
  | .enter _ => 10
  | .retire _ => 9
  | .leave _ _ => 8
  | .kill _ => 7
  | .claim _ => 6
  | .tearingDown _ => 5
  | .yield _ _ => 4
  | .countTeardown _ _ => 3
  | .countFailure _ _ => 2
  | .logFailure _ _ | .logTeardown _ | .unwind _ _ => 1

end ReleasePoint

namespace Frame

variable {F V : Type}

/-- The workers that a drain has listed and not yet tried to take out of the map. -/
def ahead : Frame F V → List (Frame F V) → List WorkerId
  | .survey _ _ _ seen, _ => seen
  | .release _ w .unregister, .releaseAll _ pending _ :: _ => w :: pending
  | .release .., .releaseAll _ pending _ :: _ => pending
  | _, _ => []

def left (shards : Nat) : Frame F V → List (Frame F V) → Nat
  | .survey _ _ shard seen, _ => shards - shard + 11 * seen.length + 1
  | .release _ _ point, .releaseAll _ pending _ :: _ => point.left + 11 * pending.length + 1
  | _, _ => 1

def collected (name : String) : Frame F V → List (Frame F V) → List LifecycleError
  | .release _ w point, .releaseAll _ _ errors :: _ =>
    errors ++ reports name (point.torn?.toList.map (w,·))
  | .releaseAllLog _ errors, _ => errors
  | _, _ => []

end Frame

namespace Moment

variable {F V : Type}

def listed (t depth : Nat) (moment : Moment F V) : List WorkerId :=
  match moment.acting? t depth with
  | some (.survey m .releaseAll shard _) => moment.state.shardWorkers m shard
  | _ => []

def panics (t : Nat) (moment : Moment F V) : Bool :=
  match moment.entry.action with
  | .panic _ => moment.entry.thread == t
  | _ => false

end Moment

namespace System

open Ledger

variable {F V : Type} {sharding : Sharding} {names : List String} {threads : Nat}
  {past : List (Entry F V)} {s shared now next last : System F V} {t u m depth : Nat} {w : WorkerId}
  {call : Call} {a : Action F V} {events : List (Event V)} {span : List (Moment F V)}
  {frame frame' : Frame F V} {below below' floor : List (Frame F V)} {moment : Moment F V}
  {reply : Reply V} {errors : List LifecycleError}

def listed (t depth : Nat) (span : List (Moment F V)) : List WorkerId :=
  span.flatMap (·.listed t depth)

/-- How many steps a call has taken of itself, those of foreign code in it left out. -/
def ownSteps (t depth : Nat) (span : List (Moment F V)) : Nat :=
  (span.filterMap (·.acting? t depth)).length

section

variable (span)

theorem listed_append (moment : Moment F V) :
    listed t depth (span ++ [moment]) = listed t depth span ++ moment.listed t depth := by
  simp [listed]

theorem ownSteps_append (moment : Moment F V) : ownSteps t depth (span ++ [moment]) =
    ownSteps t depth span + (moment.acting? t depth).toList.length := by
  cases acting : moment.acting? t depth <;> simp [ownSteps,acting]

end

def Distinct (s : System F V) : Prop :=
  ∀ (m : Nat) (manager : Manager), s.managers[m]? = some manager → manager.Distinct

theorem Distinct.mapManager {f : Manager → Manager} (distinct : Distinct s)
    (kept : ∀ manager : Manager, s.managers[m]? = some manager → manager.Distinct →
      (f manager).Distinct) : Distinct (s.mapManager m f) := by
  intro n manager found
  simp only [System.mapManager,Array.getElem?_modify] at found
  split at found
  next same =>
    subst same
    obtain ⟨former,there,rfl⟩ := Option.map_eq_some_iff.mp found
    exact kept former there (distinct m former there)
  next => exact distinct n manager found

theorem Change.distinct {before after : Option Nat} (change : Change s t before after shared)
    (distinct : Distinct s) : Distinct shared := by
  cases change with
  | manager grip n f named preserved =>
    exact distinct.mapManager fun manager _ => preserved manager
  | register n v missing =>
    have pushed : Distinct { s with slots := s.slots.push { manager := n, worker := v } } :=
      distinct
    refine pushed.mapManager fun manager there once => once.insert v _ ?_
    change s.managers[n]? = some manager at there
    simpa [slot?,there] using missing
  | still | slot | number | copy | claim | yield => exact distinct

theorem Interleaving.distinct (run : Interleaving (idle sharding names threads) past s) :
    Distinct s := by
  induction run with
  | start =>
    intro m manager found
    have fresh : manager.slots = [] := by
      simp only [idle,System.start,List.getElem?_toArray,List.getElem?_map] at found
      obtain ⟨name,_,rfl⟩ := Option.map_eq_some_iff.mp found
      rfl
    simp [Manager.Distinct,fresh]
  | step t a events before moved ih =>
    obtain ⟨_,shared,_,_,frames,rfl,change,_⟩ := step_effect moved
    exact change.distinct ih

theorem Interleaving.shardWorkers_nodup (run : Interleaving (idle sharding names threads) past s)
    (m shard : Nat) : (s.shardWorkers m shard).Nodup := by
  unfold shardWorkers
  split
  next manager found => exact (run.distinct m manager found).filter _
  next => exact List.nodup_nil

theorem shardOf_mem {shard : Nat} {v : WorkerId} (member : v ∈ s.shardWorkers m shard) :
    (s.sharding.shardOf v).val = shard := by
  unfold shardWorkers at member
  split at member
  next => exact of_decide_eq_true (List.mem_filter.mp member).2
  next => cases member

/-- How far a drain has come: the workers that it listed, each once, are those it has tried to take
out of the map and those ahead of it; and its steps are bounded by their number. -/
structure Sweeping (t depth m : Nat) (span : List (Moment F V)) (frame : Frame F V)
    (below : List (Frame F V)) (now : System F V) : Prop where
  shape : Draining m frame below
  order : (attempts t depth span).map Prod.fst ++ frame.ahead below = listed t depth span
  steps : ownSteps t depth span + frame.left now.sharding.count below ≤
    now.sharding.count + 11 * (listed t depth span).length + 1
  distinct : (listed t depth span).Nodup
  shards : ∀ shard seen, frame = .survey m .releaseAll shard seen → shard < now.sharding.count ∧
    ∀ v ∈ listed t depth span, (now.sharding.shardOf v).val < shard
  torn : ((teardowns t depth span).map Prod.fst ++ frame.due).Sublist
    ((attempts t depth span).map Prod.fst)
  calm : ∀ w c message, frame = .release m w (.unwind c message) → span.any (·.panics t) = true

theorem Sweeping.read {shard : Nat} {seen : List WorkerId}
    (sweeping : Sweeping t depth m span (.survey m .releaseAll shard seen) [] now)
    (distinct : (now.shardWorkers m shard).Nodup) :
    (listed t depth span ++ now.shardWorkers m shard).Nodup ∧
      ∀ v ∈ listed t depth span ++ now.shardWorkers m shard,
        (now.sharding.shardOf v).val < shard + 1 := by
  obtain ⟨_,earlier⟩ := sweeping.shards shard seen rfl
  -- Workers of earlier shards are not found again in this one, whatever was mapped meanwhile.
  refine ⟨List.Nodup.append sweeping.distinct distinct ?_,?_⟩
  · intro v old new
    have before := earlier v old
    have here := shardOf_mem new
    omega
  · intro v member
    obtain old | new := List.mem_append.mp member
    · exact Nat.lt_succ_of_lt (earlier v old)
    · exact (shardOf_mem new).trans_lt (Nat.lt_succ_self shard)

theorem Sweeping.turn {point point' : ReleasePoint} {pending : List WorkerId}
    (sweeping : Sweeping t depth m span (.release m w point) [.releaseAll m pending errors] now)
    (turn : ReleaseTurn now m w a point point')
    (acting : Moment.acting? t depth ⟨now,⟨t,a,events⟩⟩ = some (.release m w point))
    (same : next.sharding = now.sharding) :
    Sweeping t depth m (span ++ [⟨now,⟨t,a,events⟩⟩]) (.release m w point')
      [.releaseAll m pending errors] next := by
  obtain ⟨shape,order,steps,distinct,shards,torn,calm⟩ := sweeping
  have unlisted : Moment.listed t depth ⟨now,⟨t,a,events⟩⟩ = [] := by simp [Moment.listed,acting]
  refine ⟨.release w point' pending errors,?_,?_,?_,by simp,?_,?_⟩
  · rw [listed_append,unlisted,List.append_nil,← order,attempts_append]
    cases turn <;> simp [Moment.attempt?,acting,Frame.ahead]
  · rw [listed_append,unlisted,List.append_nil,ownSteps_append,acting,same]
    cases turn <;>
      simp only [Frame.left,ReleasePoint.left,Option.toList,List.length_singleton] at steps ⊢ <;>
      omega
  · rw [listed_append,unlisted,List.append_nil]
    exact distinct
  · rw [teardowns_append,attempts_append]
    cases turn <;>
      simpa [Moment.torn?,Moment.attempt?,acting,Frame.due,ReleasePoint.isDue] using torn
  · rintro v c message same
    cases same
    cases turn with
    | panic => simp [Moment.panics]

theorem Sweeping.ended {point : ReleasePoint} {pending : List WorkerId} {reply : Reply V}
    (sweeping : Sweeping t depth m span (.release m w point) [.releaseAll m pending errors] now)
    (ended : ReleaseEnd now m w point reply)
    (acting : Moment.acting? t depth ⟨now,⟨t,a,events⟩⟩ = some (.release m w point)) :
    (attempts t depth (span ++ [⟨now,⟨t,a,events⟩⟩])).map Prod.fst ++ pending =
        listed t depth (span ++ [⟨now,⟨t,a,events⟩⟩]) ∧
      ownSteps t depth (span ++ [⟨now,⟨t,a,events⟩⟩]) + 11 * pending.length + 1 ≤
        now.sharding.count + 11 * (listed t depth (span ++ [⟨now,⟨t,a,events⟩⟩])).length + 1 ∧
      (listed t depth (span ++ [⟨now,⟨t,a,events⟩⟩])).Nodup ∧
      ((teardowns t depth (span ++ [⟨now,⟨t,a,events⟩⟩])).map Prod.fst).Sublist
        ((attempts t depth (span ++ [⟨now,⟨t,a,events⟩⟩])).map Prod.fst) := by
  obtain ⟨shape,order,steps,distinct,shards,torn,_⟩ := sweeping
  have unlisted : Moment.listed t depth ⟨now,⟨t,a,events⟩⟩ = [] := by simp [Moment.listed,acting]
  have same : listed t depth (span ++ [⟨now,⟨t,a,events⟩⟩]) = listed t depth span := by
    rw [listed_append,unlisted,List.append_nil]
  have untorn : Moment.torn? t depth ⟨now,⟨t,a,events⟩⟩ = none := by
    cases ended <;> simp [Moment.torn?,acting]
  rw [same]
  refine ⟨?_,?_,distinct,?_⟩
  · rw [← order,attempts_append]
    cases ended <;> simp [Moment.attempt?,acting,Frame.ahead]
  · rw [ownSteps_append,acting]
    cases ended <;>
      simp only [Frame.left,ReleasePoint.left,Option.toList,List.length_singleton] at steps ⊢ <;>
      omega
  · rw [teardowns_append,untorn,attempts_append,List.map_append]
    have older := (List.sublist_append_left _ _).trans torn
    simpa using older.trans (List.sublist_append_left _ _)

theorem survey_readings (span : List (Moment F V)) {shard : Nat} {seen : List WorkerId}
    (acting : Moment.acting? t depth ⟨now,⟨t,a,events⟩⟩ = some (.survey m .releaseAll shard seen)) :
    listed t depth (span ++ [⟨now,⟨t,a,events⟩⟩]) =
        listed t depth span ++ now.shardWorkers m shard ∧
      attempts t depth (span ++ [⟨now,⟨t,a,events⟩⟩]) = attempts t depth span ∧
      teardowns t depth (span ++ [⟨now,⟨t,a,events⟩⟩]) = teardowns t depth span ∧
      ownSteps t depth (span ++ [⟨now,⟨t,a,events⟩⟩]) = ownSteps t depth span + 1 := by
  refine ⟨?_,?_,?_,?_⟩
  · simp [listed_append,Moment.listed,acting]
  · simp [attempts_append,Moment.attempt?,acting]
  · simp [teardowns_append,Moment.torn?,acting]
  · simp [ownSteps_append,acting]

theorem silent_readings (span : List (Moment F V)) (silent : moment.acting? t depth = none) :
    listed t depth (span ++ [moment]) = listed t depth span ∧
      attempts t depth (span ++ [moment]) = attempts t depth span ∧
      teardowns t depth (span ++ [moment]) = teardowns t depth span ∧
      ownSteps t depth (span ++ [moment]) = ownSteps t depth span := by
  refine ⟨?_,?_,?_,?_⟩
  · simp [listed_append,Moment.listed,silent]
  · simp [attempts_append,Moment.attempt?,silent]
  · simp [teardowns_append,Moment.torn?,silent]
  · simp [ownSteps_append,silent]

theorem log_readings (span : List (Moment F V))
    (acting : Moment.acting? t depth ⟨now,⟨t,a,events⟩⟩ = some (.releaseAllLog m errors)) :
    listed t depth (span ++ [⟨now,⟨t,a,events⟩⟩]) = listed t depth span ∧
      attempts t depth (span ++ [⟨now,⟨t,a,events⟩⟩]) = attempts t depth span ∧
      teardowns t depth (span ++ [⟨now,⟨t,a,events⟩⟩]) = teardowns t depth span ∧
      ownSteps t depth (span ++ [⟨now,⟨t,a,events⟩⟩]) = ownSteps t depth span + 1 := by
  refine ⟨?_,?_,?_,?_⟩
  · simp [listed_append,Moment.listed,acting]
  · simp [attempts_append,Moment.attempt?,acting]
  · simp [teardowns_append,Moment.torn?,acting]
  · simp [ownSteps_append,acting]

theorem Sweeping.start (t depth m : Nat) (now : System F V) :
    Sweeping t depth m [] (.survey m .releaseAll 0 []) [] now where
  shape := .survey 0 []
  order := rfl
  steps := by simp [ownSteps,listed,Frame.left]
  distinct := List.nodup_nil
  shards := by
    rintro shard seen same
    cases same
    exact ⟨(now.sharding.shardOf default).pos,by simp [listed]⟩
  torn := List.Sublist.refl []
  calm := by simp

theorem Sweeping.aside (sweeping : Sweeping t depth m span frame below now)
    (moved : now.step u a = some (next,events))
    (silent : Moment.acting? t depth ⟨now,⟨u,a,events⟩⟩ = none) :
    Sweeping t depth m (span ++ [⟨now,⟨u,a,events⟩⟩]) frame below next := by
  obtain ⟨shape,order,steps,distinct,shards,torn,calm⟩ := sweeping
  obtain ⟨unlisted,untried,untorn,still⟩ := silent_readings span silent
  have same := (step_effect moved).sharding
  refine ⟨shape,?_,?_,?_,?_,?_,?_⟩
  · rwa [untried,unlisted]
  · rwa [still,unlisted,same]
  · rwa [unlisted]
  · rwa [unlisted,same]
  · rwa [untorn,untried]
  · intro w c message unwinding
    simp [calm w c message unwinding]

/-- A drain that goes on keeps account of the workers that it has listed and of its steps. -/
theorem Sweeping.onward (sweeping : Sweeping t depth m span frame below now)
    (distinct : ∀ shard, (now.shardWorkers m shard).Nodup)
    (moved : now.step t a = some (next,events)) (turn : DrainTurn now m a frame below frame' below')
    (acting : Moment.acting? t depth ⟨now,⟨t,a,events⟩⟩ = some frame) :
    Sweeping t depth m (span ++ [⟨now,⟨t,a,events⟩⟩]) frame' below' next := by
  have same := (step_effect moved).sharding
  cases turn with
  | read shard seen more =>
    obtain ⟨nodup,earlier⟩ := sweeping.read (distinct shard)
    obtain ⟨found,untried,untorn,step⟩ := survey_readings span acting
    obtain ⟨shape,order,steps,_,_,torn,_⟩ := sweeping
    refine ⟨.survey _ _,?_,?_,?_,?_,?_,by simp⟩
    · rw [untried,found,← order]
      simp [Frame.ahead]
    · rw [step,found,same]
      simp only [Frame.left,List.length_append] at steps ⊢
      omega
    · rwa [found]
    · rintro _ _ alike
      cases alike
      rw [found,same]
      exact ⟨more,earlier⟩
    · rwa [untried,untorn]
  | first shard seen x rest last workers =>
    obtain ⟨nodup,_⟩ := sweeping.read (distinct shard)
    obtain ⟨found,untried,untorn,step⟩ := survey_readings span acting
    obtain ⟨within,_⟩ := sweeping.shards shard seen rfl
    obtain ⟨shape,order,steps,_,_,torn,_⟩ := sweeping
    refine ⟨.release x _ rest [],?_,?_,?_,by simp,?_,by simp⟩
    · rw [untried,found,← order]
      simp [Frame.ahead,workers]
    · have size := congrArg List.length workers
      rw [step,found,same]
      simp only [Frame.left,ReleasePoint.left,List.length_append,List.length_cons] at steps size ⊢
      omega
    · rwa [found]
    · simpa [untried,untorn,Frame.due,ReleasePoint.isDue] using torn
  | release x point point' pending errors turn => exact sweeping.turn turn acting same
  | next x point y rest errors reply ended calm =>
    obtain ⟨order,steps,nodup,torn⟩ := sweeping.ended ended acting
    refine ⟨.release y _ rest _,order,?_,nodup,by simp,?_,by simp⟩
    · simp only [Frame.left,ReleasePoint.left,List.length_cons] at steps ⊢
      rw [same]
      omega
    · simpa [Frame.due,ReleasePoint.isDue] using torn
  | report x point errors reply ended calm =>
    obtain ⟨order,steps,nodup,torn⟩ := sweeping.ended ended acting
    refine ⟨.log _,by simpa [Frame.ahead] using order,?_,nodup,by simp,?_,by simp⟩
    · simp only [Frame.left,List.length_nil] at steps ⊢
      rw [same]
      omega
    · simpa [Frame.due] using torn

structure Swept (t depth shards : Nat) (span : List (Moment F V)) : Prop where
  tried : (attempts t depth span).map Prod.fst = listed t depth span
  once : (listed t depth span).Nodup
  workers : ((teardowns t depth span).map Prod.fst).Nodup
  steps : ownSteps t depth span ≤ shards + 11 * (listed t depth span).length + 1

theorem Sweeping.over (sweeping : Sweeping t depth m span frame below now)
    (ended : DrainEnd now m frame below (.errors errors : Reply V))
    (acting : Moment.acting? t depth ⟨now,⟨t,a,events⟩⟩ = some frame) :
    Swept t depth now.sharding.count (span ++ [⟨now,⟨t,a,events⟩⟩]) := by
  cases ended with
  | empty shard seen end' unlisted =>
    obtain ⟨rfl,none⟩ := List.append_eq_nil_iff.mp unlisted
    obtain ⟨found,untried,untorn,step⟩ := survey_readings span acting
    obtain ⟨_,order,steps,nodup,shards,torn,_⟩ := sweeping
    rw [none,List.append_nil] at found
    have within := (shards shard [] rfl).1
    simp only [Frame.left,Frame.ahead,Frame.due,List.append_nil] at order steps torn
    exact ⟨by rw [found,untried,order],found ▸ nodup,
      by rw [untorn]; exact torn.nodup (order ▸ nodup),
      by rw [found,step]; simp only [List.length_nil] at steps; omega⟩
  | clean w point reply ended =>
    obtain ⟨order,steps,nodup,torn⟩ := sweeping.ended ended acting
    rw [List.append_nil] at order
    exact ⟨order,nodup,torn.nodup (order ▸ nodup),by simp only [List.length_nil] at steps; omega⟩
  | logged errors =>
    obtain ⟨found,untried,untorn,step⟩ := log_readings span acting
    obtain ⟨_,order,steps,nodup,_,torn,_⟩ := sweeping
    simp only [Frame.left,Frame.ahead,Frame.due,List.append_nil] at order steps torn
    exact ⟨by rw [found,untried,order],found ▸ nodup,
      by rw [untorn]; exact torn.nodup (order ▸ nodup),by rw [found,step]; exact steps⟩

/-- A drain answers with errors, maybe with none, unless a teardown hook that it runs panics. -/
theorem Sweeping.answers (sweeping : Sweeping t depth m span frame below now)
    (ended : DrainEnd now m frame below reply) (calm : ∀ q ∈ span, q.panics t = false) :
    ∃ errors, reply = .errors errors := by
  cases ended with
  | empty => exact ⟨[],rfl⟩
  | clean => exact ⟨[],rfl⟩
  | logged errors => exact ⟨errors,rfl⟩
  | unwound w point pending errors message ended =>
    cases ended with
    | unwound c =>
      obtain ⟨q,member,panics⟩ := List.any_eq_true.mp (sweeping.calm w c message rfl)
      simp [calm q member] at panics

theorem sweep_kept (run : Interleaving (idle sharding names threads) past s) :
    Kept s t (.releaseAll m) (Sweeping t (s.stack t).length m) where
  made := by
    intro next frame below moved opening stood
    cases opening
    exact (Sweeping.start t _ m s).aside moved (by simp [Moment.acting?,Action.isOwn])
  aside := by
    rintro span now frame below u a next events under sweeping moved stood silent
    exact sweeping.aside moved silent
  onward := by
    rintro span now frame below a next events frame' below' under sweeping moved own top here
      acting stood
    exact sweeping.onward ((under.run run).shardWorkers_nodup m) moved
      (drain_onward sweeping.shape under.stands top own moved here) acting

/-- The errors of a drain are those of the teardowns that returned to it, each with the worker that
was taken out of the map. -/
structure Reporting (t depth m : Nat) (name : String) (span : List (Moment F V)) (frame : Frame F V)
    (below : List (Frame F V)) (now : System F V) : Prop where
  shape : Draining m frame below
  named : now.name m = name
  errors : frame.collected name below = reports name (teardowns t depth span)
  bound : ∀ w point c, frame = .release m w point →
    (point.takes? = some c ∨ ∃ fault, point.torn? = some (c,fault)) → now.ledger.Bound c m w
  owned : ∀ w c fault, (w,c,fault) ∈ teardowns t depth span → now.ledger.Bound c m w

theorem Interleaving.bound_of_retiring (run : Interleaving (idle sharding names threads) past s)
    {i c : Nat} (member : .release m w (.retire i) ∈ s.stack t)
    (live : s.state? i = some (.live c)) : s.ledger.Bound c m w := by
  have retiring : (t,Role.retiring m w i) ∈ s.ledger.roles := mem_roles member rfl
  have homed := run.sound.homes.roles _ retiring m w i rfl
  obtain ⟨n,v,bound,home⟩ := run.bonded.live i c live
  obtain ⟨rfl,rfl⟩ := homed.unique home
  exact bound

theorem Reporting.owns {name : String}
    (reporting : Reporting t depth m name span frame below now)
    (moved : now.step u a = some (next,events))
    (untorn : Moment.torn? t depth ⟨now,⟨u,a,events⟩⟩ = none) (w : WorkerId) (c : Nat)
    (fault : Option Fault) (torn : (w,c,fault) ∈ teardowns t depth (span ++ [⟨now,⟨u,a,events⟩⟩])) :
    next.ledger.Bound c m w := by
  rw [teardowns_append,untorn,Option.toList_none,List.append_nil] at torn
  exact (reporting.owned w c fault torn).move (step_move moved)

theorem Reporting.turn {name : String} {point point' : ReleasePoint} {pending : List WorkerId}
    (run : Interleaving (idle sharding names threads) past now)
    (reporting : Reporting t depth m name span (.release m w point)
      [.releaseAll m pending errors] now)
    (moved : now.step t a = some (next,events)) (turn : ReleaseTurn now m w a point point')
    (member : .release m w point ∈ now.stack t)
    (acting : Moment.acting? t depth ⟨now,⟨t,a,events⟩⟩ = some (.release m w point)) :
    Reporting t depth m name (span ++ [⟨now,⟨t,a,events⟩⟩]) (.release m w point')
      [.releaseAll m pending errors] next := by
  have owns := reporting.owns moved
  obtain ⟨shape,named,collected,bound,owned⟩ := reporting
  refine ⟨.release w point' pending errors,((step_effect moved).name m).trans named,?_,?_,?_⟩
  · rw [teardowns_append]
    cases turn with
    | finish c result =>
      have old : errors = reports name (teardowns t depth span) := by
        simpa [Frame.collected,ReleasePoint.torn?,reports] using collected
      simp only [Moment.torn?,acting,Frame.collected,ReleasePoint.torn?,reports,old]
      cases result <;> simp [failure?]
    | _ => simpa [Moment.torn?,acting,Frame.collected,ReleasePoint.torn?,reports] using collected
  · rintro _ _ c same copy
    cases same
    have kept (before : point.takes? = some c ∨ ∃ fault, point.torn? = some (c,fault)) :
        next.ledger.Bound c m w := (bound w point c rfl before).move (step_move moved)
    cases turn with
    | retire i found live =>
      obtain taken | ⟨fault,none⟩ := copy
      · exact (run.bound_of_retiring member ((live c).mp taken)).move (step_move moved)
      · cases none
    | unregister | enter => simp [ReleasePoint.takes?,ReleasePoint.torn?] at copy
    | _ => exact kept (by simpa [ReleasePoint.takes?,ReleasePoint.torn?] using copy)
  · intro v c fault torn
    cases turn with
    | finish d result =>
      rw [teardowns_append] at torn
      obtain old | new := List.mem_append.mp torn
      · exact (owned v c fault old).move (step_move moved)
      · obtain ⟨rfl,rfl,_⟩ : v = w ∧ c = d ∧ fault = failure? result := by
          simpa [Moment.torn?,acting] using new
        exact (bound v _ c rfl (Or.inl rfl)).move (step_move moved)
    | _ => exact owns (by simp [Moment.torn?,acting]) v c fault torn

theorem Reporting.ended {name : String} {point : ReleasePoint} {pending : List WorkerId}
    {reply : Reply V} (reporting : Reporting t depth m name span (.release m w point)
      [.releaseAll m pending errors] now) (ended : ReleaseEnd now m w point reply)
    (calm : ∀ message, reply ≠ .panicked message)
    (acting : Moment.acting? t depth ⟨now,⟨t,a,events⟩⟩ = some (.release m w point)) :
    Moment.torn? t depth ⟨now,⟨t,a,events⟩⟩ = none ∧ errors ++ reply.error?.toList =
      reports name (teardowns t depth (span ++ [⟨now,⟨t,a,events⟩⟩])) := by
  obtain ⟨shape,named,collected,bound,_⟩ := reporting
  have untorn : Moment.torn? t depth ⟨now,⟨t,a,events⟩⟩ = none := by
    cases ended <;> simp [Moment.torn?,acting]
  refine ⟨untorn,?_⟩
  rw [teardowns_append,untorn,Option.toList_none,List.append_nil,← collected]
  cases ended with
  | unwound c message => exact absurd rfl (calm message)
  | failed c fault =>
    have worker := copyWorker_of_bound (bound w _ c rfl (Or.inr ⟨_,rfl⟩))
    simp [Frame.collected,ReleasePoint.torn?,reports,Reply.error?,worker,named]
  | absent | empty | done => simp [Frame.collected,ReleasePoint.torn?,reports,Reply.error?]

theorem Reporting.start {name : String} (t depth : Nat) (named : now.name m = name) :
    Reporting t depth m name [] (.survey m .releaseAll 0 []) [] now :=
  ⟨.survey 0 [],named,rfl,by simp,by simp [teardowns]⟩

theorem Reporting.aside {name : String} (reporting : Reporting t depth m name span frame below now)
    (moved : now.step u a = some (next,events))
    (silent : Moment.acting? t depth ⟨now,⟨u,a,events⟩⟩ = none) :
    Reporting t depth m name (span ++ [⟨now,⟨u,a,events⟩⟩]) frame below next := by
  obtain ⟨shape,named,collected,bound,owned⟩ := reporting
  obtain ⟨_,_,untorn,_⟩ := silent_readings span silent
  refine ⟨shape,((step_effect moved).name m).trans named,by rwa [untorn],?_,?_⟩
  · intro w point c same copy
    exact (bound w point c same copy).move (step_move moved)
  · intro w c fault torn
    exact (owned w c fault (untorn ▸ torn)).move (step_move moved)

/-- The errors that a drain has gathered are those of the teardowns that have returned to it. -/
theorem Reporting.onward {name : String}
    (run : Interleaving (idle sharding names threads) past now)
    (reporting : Reporting t depth m name span frame below now)
    (moved : now.step t a = some (next,events)) (turn : DrainTurn now m a frame below frame' below')
    (member : frame ∈ now.stack t)
    (acting : Moment.acting? t depth ⟨now,⟨t,a,events⟩⟩ = some frame) :
    Reporting t depth m name (span ++ [⟨now,⟨t,a,events⟩⟩]) frame' below' next := by
  have named : next.name m = name := ((step_effect moved).name m).trans reporting.named
  have owns := reporting.owns moved
  have errors := reporting.errors
  have fresh (v x : WorkerId) (point : ReleasePoint) (c : Nat)
      (same : (Frame.release m v .unregister : Frame F V) = .release m x point)
      (copy : point.takes? = some c ∨ ∃ fault, point.torn? = some (c,fault)) :
      next.ledger.Bound c m x := by
    cases same
    simp [ReleasePoint.takes?,ReleasePoint.torn?] at copy
  cases turn with
  | read shard seen more =>
    have untorn : Moment.torn? t depth ⟨now,⟨t,a,events⟩⟩ = none := by simp [Moment.torn?,acting]
    obtain ⟨_,_,same,_⟩ := survey_readings span acting
    exact ⟨.survey _ _,named,same ▸ errors,by simp,owns untorn⟩
  | first shard seen x rest last workers =>
    have untorn : Moment.torn? t depth ⟨now,⟨t,a,events⟩⟩ = none := by simp [Moment.torn?,acting]
    obtain ⟨_,_,same,_⟩ := survey_readings span acting
    exact ⟨.release x _ rest [],named,same ▸ errors,fresh x,owns untorn⟩
  | release x point point' pending errors turn => exact reporting.turn run moved turn member acting
  | next x point y rest errors reply ended calm =>
    obtain ⟨untorn,reported⟩ := reporting.ended ended calm acting
    refine ⟨.release y _ rest _,named,?_,fresh y,owns untorn⟩
    simpa [Frame.collected,ReleasePoint.torn?,reports] using reported
  | report x point errors reply ended calm =>
    obtain ⟨untorn,reported⟩ := reporting.ended ended calm acting
    exact ⟨.log _,named,reported,by simp,owns untorn⟩

theorem Reporting.over {name : String} (reporting : Reporting t depth m name span frame below now)
    (moved : now.step t a = some (last,events))
    (ended : DrainEnd now m frame below (.errors errors : Reply V))
    (acting : Moment.acting? t depth ⟨now,⟨t,a,events⟩⟩ = some frame) :
    errors = reports name (teardowns t depth (span ++ [⟨now,⟨t,a,events⟩⟩])) ∧
      ∀ w c fault, (w,c,fault) ∈ teardowns t depth (span ++ [⟨now,⟨t,a,events⟩⟩]) →
        last.ledger.Bound c m w := by
  have owns := reporting.owns moved
  cases ended with
  | empty shard seen =>
    obtain ⟨_,_,untorn,_⟩ := survey_readings span acting
    exact ⟨untorn ▸ reporting.errors,owns (by simp [Moment.torn?,acting])⟩
  | clean w point reply ended calm errorless =>
    obtain ⟨untorn,reported⟩ := reporting.ended ended calm acting
    exact ⟨by simpa [errorless] using reported,owns untorn⟩
  | logged errors =>
    obtain ⟨_,_,untorn,_⟩ := log_readings span acting
    exact ⟨untorn ▸ reporting.errors,owns (by simp [Moment.torn?,acting])⟩

theorem report_kept (run : Interleaving (idle sharding names threads) past s) :
    Kept s t (.releaseAll m) (Reporting t (s.stack t).length m (s.name m)) where
  made := by
    intro next frame below moved opening stood
    cases opening
    exact (Reporting.start t _ rfl).aside moved (by simp [Moment.acting?,Action.isOwn])
  aside := by
    rintro span now frame below u a next events under reporting moved stood silent
    exact reporting.aside moved silent
  onward := by
    rintro span now frame below a next events frame' below' under reporting moved own top here
      acting stood
    have member : frame ∈ now.stack t := by simp [top]
    exact reporting.onward (under.run run) moved
      (drain_onward reporting.shape under.stands top own moved here) member acting

/-- Whatever a drain has taken out of the map it has torn down, or is about to. -/
theorem Accounted.onward (accounted : Accounted past t depth span frame.releases? now)
    (reached : now.ledger.Sound) (top : now.stack t = frame :: floor)
    (moved : now.step t a = some (next,events)) (turn : DrainTurn now m a frame below frame' below')
    (acting : Moment.acting? t depth ⟨now,⟨t,a,events⟩⟩ = some frame)
    (member : frame' ∈ next.stack t) :
    Accounted past t depth (span ++ [⟨now,⟨t,a,events⟩⟩]) frame'.releases? next := by
  cases turn with
  | read shard seen more =>
    refine accounted.rest ?_ ?_ ?_ ?_
    · simp [Moment.detached?,acting]
    · simp [Moment.torn?,acting]
    · simp [Frame.releases?]
    · simp [Frame.releases?]
  | first shard seen x rest last workers =>
    refine accounted.rest ?_ ?_ ?_ ?_
    · simp [Moment.detached?,acting]
    · simp [Moment.torn?,acting]
    · simp [Frame.releases?]
    · simp [Frame.releases?,ReleasePoint.slot?,ReleasePoint.takes?]
  | release x point point' pending errors turn =>
    exact accounted.turn reached moved turn top acting member
  | next x point y rest errors reply ended calm =>
    refine accounted.ended ended calm acting ?_
    rintro v other same
    cases same
    rfl
  | report x point errors reply ended calm =>
    exact accounted.ended ended calm acting (by simp [Frame.releases?])

theorem Accounted.over (accounted : Accounted past t depth span frame.releases? now)
    (ended : DrainEnd now m frame below (.errors errors : Reply V))
    (acting : Moment.acting? t depth ⟨now,⟨t,a,events⟩⟩ = some frame) :
    Accounted past t depth (span ++ [⟨now,⟨t,a,events⟩⟩]) none last := by
  cases ended with
  | empty | logged =>
    refine accounted.rest ?_ ?_ ?_ (by simp)
    · simp [Moment.detached?,acting]
    · simp [Moment.torn?,acting]
    · simp [Frame.releases?]
  | clean w point reply ended calm => exact accounted.ended ended calm acting (by simp)

theorem account_kept (run : Interleaving (idle sharding names threads) past s) :
    Kept s t (.releaseAll m) fun span frame below now => Draining m frame below ∧
      Accounted past t (s.stack t).length span frame.releases? now where
  made := by
    intro next frame below moved opening stood
    cases opening
    exact ⟨.survey 0 [],(Accounted.start past t _ s).rest (by simp [Moment.detached?,Moment.acting?,
      Action.isOwn]) (by simp [Moment.torn?,Moment.acting?,Action.isOwn]) (by simp)
      (by simp [Frame.releases?])⟩
  aside := by
    rintro span now frame below u a next events under ⟨shape,accounted⟩ moved stood silent
    exact ⟨shape,accounted.aside (under.run run).sound moved stood.mem silent⟩
  onward := by
    rintro span now frame below a next events frame' below' under ⟨shape,accounted⟩ moved own top
      here acting stood
    have turn := drain_onward shape under.stands top own moved here
    exact ⟨turn.shape,accounted.onward (under.run run).sound top moved turn acting stood.mem⟩

end System
end PerWorker
