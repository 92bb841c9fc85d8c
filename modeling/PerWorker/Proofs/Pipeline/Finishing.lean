import PerWorker.Proofs.Pipeline.Crew

/-!
The end of a run, from the moment when all its tasks are joined. Nobody but the run itself has a
step left. Main statement: it goes on, in as many steps as the workers that are registered call for,
until none is registered, and ends with a summary and without an error.
-/
namespace PerWorker.Pipeline

open PerWorker.System (Keeps Touches Spares firstFrames nextRelease nextDrain resume)

namespace Run

/-- What the setups of a joined run come to. A worker that keeps its copy pays once more for each
bundle that failed. -/
structure Paid (p : Enricher) (past : List Turn) (r : Run) (tallied : List Bundle) : Prop where
  clears : r.plan.releaseAfterBundle = true → r.counters.setups = (claimed past).length
  atLeast : r.plan.releaseAfterBundle = false → tallied.countP (·.fails p) ≤ r.counters.setups
  atMost : r.plan.releaseAfterBundle = false →
    r.counters.setups ≤ tallied.countP (·.fails p) + (claimers past).toFinset.card

structure Joined (p : Enricher) (past : List Turn) (r : Run) (standing : Nat → Nat)
    (tallied : List Bundle) : Prop where
  yields : r.stock.template.Yields p
  managed : r.stock.manager < r.stock.system.managers.size
  sharding : r.stock.system.sharding = .single
  threads : Stock.firstPoolThread ≤ r.stock.system.threads.size
  ended : ∀ (i : Nat) task, r.tasks[i]? = some task → task = .ended []
  enlisted : ∀ w, r.stock.system.slot? r.stock.manager w ≠ none → ∃ t ∈ r.pool, w = worker t
  bundles : (claimed past).Perm tallied
  progress : r.progress = tallied.foldl (Progress.tally p) {}
  paid : Paid p past r tallied
  standing : r.counters.setups = r.counters.teardowns + ∑ t ∈ r.pool, standing t
  thrown : r.thrown = []

section

variable (p : Enricher) (r : Run) (standing : Nat → Nat)

def AtRest : Prop :=
  ∀ t ∈ r.pool, Stands p r.stock.system r.stock.manager (worker t) (standing t)

def Emptied : Prop := ∀ w, r.stock.system.slot? r.stock.manager w = none

inductive Stage : Nat → Prop
  | survey (phase : r.phase = .showingStats) (top : r.stock.system.stack Stock.runThread =
      [.survey r.stock.manager .stats 0 []]) (rest : AtRest p r standing) :
      Stage (11 * r.stock.system.registrations r.stock.manager + 22)
  | load {left : List Counter} {read : Counters} {n : Nat} (phase : r.phase = .showingStats)
      (top : r.stock.system.stack Stock.runThread = [.load r.stock.manager left read (some n)])
      (rest : AtRest p r standing) :
      Stage (11 * r.stock.system.registrations r.stock.manager + left.length + 15)
  | logStats {n : Nat} {read : Counters} (phase : r.phase = .showingStats)
      (top : r.stock.system.stack Stock.runThread = [.logStats r.stock.manager n read])
      (rest : AtRest p r standing) :
      Stage (11 * r.stock.system.registrations r.stock.manager + 14)
  | sweep (phase : r.phase = .draining) (top : r.stock.system.stack Stock.runThread =
      [.survey r.stock.manager .releaseAll 0 [],.drain r.stock.manager [] 0 []])
      (rest : AtRest p r standing) :
      Stage (11 * r.stock.system.registrations r.stock.manager + 13)
  | release {u left : Nat} {point : ReleasePoint} {pending : List WorkerId}
      (phase : r.phase = .draining) (top : r.stock.system.stack Stock.runThread =
        [.release r.stock.manager (worker u) point,.releaseAll r.stock.manager pending [],
          .drain r.stock.manager [] 0 []])
      (member : u ∈ r.pool) (releasing : Releasing p r.stock.system Stock.runThread r.stock.manager
        (worker u) point (standing u) left)
      (rest : ∀ t ∈ r.pool, t ≠ u →
        Stands p r.stock.system r.stock.manager (worker t) (standing t))
      (listed : ∀ t ∈ r.pool, t ≠ u → r.stock.system.slot? r.stock.manager (worker t) ≠ none →
        worker t ∈ pending)
      (known : ∀ w ∈ pending, ∃ t ∈ r.pool, w = worker t) :
      Stage (left + 11 * pending.length + 11)
  | drained (phase : r.phase = .draining)
      (top : r.stock.system.stack Stock.runThread = [.drainLogDone 1 []])
      (rest : AtRest p r standing) (out : Emptied r) : Stage 10
  | count {left : List Counter} {read : Counters} (phase : r.phase = .counting [])
      (top : r.stock.system.stack Stock.runThread = [.load r.stock.manager left read none])
      (rest : AtRest p r standing) (out : Emptied r)
      (told : ∀ counter, counter ∉ left → read.get counter = r.counters.get counter) :
      Stage (left.length + 2)
  | closing (phase : r.phase = .closing [] r.counters) (rest : AtRest p r standing)
      (out : Emptied r) : Stage 1
  | ended (phase : r.phase = .ended (.ok (r.summary r.counters))) (rest : AtRest p r standing)
      (out : Emptied r) : Stage 0

def passed (frames : List (Frame Enricher Nat)) (phase : Phase) : Run :=
  { r with phase, stock := { r.stock with
    system := r.stock.system.setStack Stock.runThread frames } }

end

variable {p : Enricher} {past : List Turn} {r next : Run} {standing : Nat → Nat}
  {tallied : List Bundle} {events : List Event} {frames : List (Frame Enricher Nat)} {phase : Phase}
  {told : List (PerWorker.Event Nat)} {frame : Frame Enricher Nat}
  {below : List (Frame Enricher Nat)}

theorem Joined.room (joined : Joined p past r standing tallied) :
    Stock.runThread < r.stock.system.threads.size :=
  Nat.lt_of_lt_of_le (by decide) joined.threads

theorem passed_top (joined : Joined p past r standing tallied) (frames : List (Frame Enricher Nat))
    (phase : Phase) : (r.passed frames phase).stock.system.stack Stock.runThread = frames :=
  System.stack_setStack _ _ joined.room

theorem pool_passed (frames : List (Frame Enricher Nat)) (phase : Phase) :
    (r.passed frames phase).pool = r.pool :=
  pool_eq (by simp [passed,System.setStack])

theorem AtRest.pass (rest : AtRest p r standing) (frames : List (Frame Enricher Nat))
    (phase : Phase) : AtRest p (r.passed frames phase) standing :=
  fun t member => (rest t (pool_passed frames phase ▸ member)).keeps (.setStack ..)

theorem silent_coordinate (claims : events.filterMap Event.claimed? = []) :
    Silent ⟨r,.coordinate,events⟩ :=
  ⟨rfl,claims,rfl⟩

theorem Paid.coordinate {turn : Turn} (paid : Paid p past r tallied) (plan : next.plan = r.plan)
    (setups : next.counters.setups = r.counters.setups) (silent : Silent turn) :
    Paid p (past ++ [turn]) next tallied := by
  obtain ⟨clears,atLeast,atMost⟩ := paid
  refine ⟨?_,?_,?_⟩ <;> rw [plan,setups]
  · rwa [silent.claimed]
  · exact atLeast
  · rwa [silent.claimers]

theorem Joined.pass (joined : Joined p past r standing tallied)
    (claims : events.filterMap Event.claimed? = []) (frames : List (Frame Enricher Nat))
    (phase : Phase) :
    Joined p (past ++ [⟨r,.coordinate,events⟩]) (r.passed frames phase) standing tallied := by
  have pools : (r.passed frames phase).pool = r.pool := pool_passed frames phase
  have silent : Silent ⟨r,.coordinate,events⟩ := silent_coordinate claims
  refine { joined with
    threads := ?_, enlisted := ?_, bundles := ?_, paid := joined.paid.coordinate rfl rfl silent
    standing := ?_ }
  · simpa [passed,System.setStack] using joined.threads
  · rw [pools]
    exact joined.enlisted
  · rw [silent.claimed]
    exact joined.bundles
  · rw [pools]
    exact joined.standing

theorem Joined.took {stock : Stock} {u standing' rest rest' : Nat}
    (joined : Joined p past r standing tallied) (member : u ∈ r.pool)
    (took : Took p Stock.runThread r.stock.manager (worker u) r.stock ⟨0,standing u,rest⟩ told stock
      ⟨0,standing',rest'⟩) :
    Joined p (past ++ [⟨r,.coordinate,told.map (.called Stock.runThread)⟩]) { r with stock }
      (Function.update standing u standing') tallied := by
  have silent : Silent ⟨r,.coordinate,told.map (.called Stock.runThread)⟩ :=
    silent_coordinate (claimed?_called ..)
  have pools : ({ r with stock } : Run).pool = r.pool := pool_eq took.spares.threads
  have counters : ({ r with stock } : Run).counters = stock.system.counters r.stock.manager :=
    congrArg _ took.manager
  have setups : (stock.system.counters r.stock.manager).setups = r.counters.setups := took.paid
  refine { joined with
    yields := took.yields, managed := ?_, sharding := took.spares.sharding.trans joined.sharding
    threads := ?_, enlisted := ?_, bundles := ?_, paid := ?_, standing := ?_ }
  · change stock.manager < stock.system.managers.size
    rw [took.manager,took.spares.managers]
    exact joined.managed
  · exact joined.threads.trans_eq took.spares.threads.symm
  · intro w mapped
    rw [pools]
    by_cases own : w = worker u
    · exact ⟨u,member,own⟩
    · change stock.system.slot? stock.manager w ≠ none at mapped
      rw [took.manager,(took.spares.keeps w own).mapped] at mapped
      exact joined.enlisted w mapped
  · rw [silent.claimed]
    exact joined.bundles
  · exact joined.paid.coordinate rfl (counters ▸ setups) silent
  · have sums := sum_update id standing standing' member
    have before := joined.standing
    have standing := took.standing
    simp only [id_eq] at sums
    rw [pools,counters]
    rw [Run.counters] at before
    dsimp only at standing
    omega

theorem setStack_setStack (s : System Enricher Nat) (t : Nat)
    (first second : List (Frame Enricher Nat)) :
    (s.setStack t first).setStack t second = s.setStack t second := by
  simp [System.setStack,Array.setIfInBounds_setIfInBounds]

theorem coordinate_stepped {stock : Stock} (waits : r.phase = .showingStats ∨ r.phase = .draining ∨
      ∃ drained, r.phase = .counting drained)
    (stepped : r.stock.step Stock.runThread noBody = some (stock,told))
    (silent : Stock.reply? told = none) :
    r.coordinate = some ({ r with stock },told.map (.called Stock.runThread)) := by
  obtain ⟨goes,same⟩ : ∃ goes, r.coordinate = r.await goes := by
    obtain phase | phase | ⟨drained,phase⟩ := waits <;> exact ⟨_,by rw [coordinate,phase]⟩
  rw [same]
  simp only [await,stepped,silent]
  rfl

theorem coordinate_silent (waits : r.phase = .showingStats ∨ r.phase = .draining ∨
      ∃ drained, r.phase = .counting drained)
    (top : r.stock.system.stack Stock.runThread = frame :: below)
    (own : frame.isForeign = false) (advanced : r.stock.system.advance Stock.runThread =
      some (r.stock.system.setStack Stock.runThread frames,told))
    (silent : Stock.reply? told = none) :
    r.coordinate = some (r.passed frames r.phase,told.map (.called Stock.runThread)) :=
  coordinate_stepped waits (step_of_advance noBody top own advanced) silent

theorem await_enter {reply : Reply Nat} {call : Call}
    (joined : Joined p past r standing tallied)
    (top : r.stock.system.stack Stock.runThread = frame :: below)
    (own : frame.isForeign = false) (advanced : r.stock.system.advance Stock.runThread =
      some (r.stock.system.setStack Stock.runThread [],told))
    (answered : Stock.reply? told = some reply)
    (goes : Run → Reply Nat → Option (Run × List Event))
    (enters : ∀ q : Run, q.stock.manager = r.stock.manager → goes q reply = q.enter call phase) :
    r.await goes = some (r.passed (firstFrames call []) phase,
      (told ++ [PerWorker.Event.called call]).map (.called Stock.runThread)) := by
  have room := joined.room
  have quiet := System.stack_setStack r.stock.system [] room
  have called := @call_eq _ { r.stock with system := r.stock.system.setStack Stock.runThread [] }
    quiet (by simpa [System.setStack] using room) call
  dsimp only at called
  rw [setStack_setStack] at called
  have entered := enters { r with stock := { r.stock with
    system := r.stock.system.setStack Stock.runThread [] } } rfl
  simp only [enter,called] at entered
  simp only [await,step_of_advance noBody top own advanced,answered,entered,List.map_append]
  rfl

theorem advance_load {s : System Enricher Nat} {t m : Nat} {counter : Counter} {left : List Counter}
    {read : Counters} {registered : Option Nat}
    (top : s.stack t = .load m (counter :: left) read registered :: below) : s.advance t =
      some (s.setStack t (.load m left (read.set counter ((s.counters m).get counter)) registered ::
        below),[]) := by
  have value : ((s.managers[m]?).map (·.counters.get counter)).getD 0 =
      (s.counters m).get counter := by
    rw [System.counters]
    cases s.managers[m]? with
    | none => cases counter <;> rfl
    | some manager => rfl
  simp only [System.advance,top,System.goto,value]

theorem mapped_of_mem {s : System Enricher Nat} {m shard : Nat} {w : WorkerId}
    (member : w ∈ s.shardWorkers m shard) : s.slot? m w ≠ none := by
  unfold System.shardWorkers at member
  split at member
  next manager found =>
    obtain ⟨⟨v,i⟩,inside,rfl⟩ := List.mem_map.mp (List.mem_filter.mp member).1
    simp only [System.slot?,found,Option.bind_some,Manager.slot?]
    rw [ne_eq,List.lookup_eq_none_iff]
    intro absent
    simpa using absent _ inside
  next => cases member

theorem shardWorkers_le (s : System Enricher Nat) (m shard : Nat) :
    (s.shardWorkers m shard).length ≤ s.registrations m := by
  unfold System.shardWorkers System.registrations
  cases s.managers[m]? with
  | none => exact le_rfl
  | some manager => exact (List.length_filter_le ..).trans_eq (List.length_map _)

theorem mem_of_mapped {s : System Enricher Nat} {m : Nat} {w : WorkerId}
    (single : s.sharding = .single) (mapped : s.slot? m w ≠ none) : w ∈ s.shardWorkers m 0 := by
  obtain ⟨i,mapped⟩ := Option.ne_none_iff_exists'.mp mapped
  have member := System.mem_shardWorkers mapped
  rwa [single] at member

theorem ext_get {first second : Counters}
    (same : ∀ counter, first.get counter = second.get counter) : first = second := by
  cases first
  cases second
  simpa [Counters.get] using ⟨same .copies,same .cloneFailures,same .setups,same .setupFailures,
    same .teardowns,same .teardownFailures⟩

def Proceeds (p : Enricher) (past : List Turn) (r : Run) (tallied : List Bundle) (left : Nat) :
    Prop :=
  ∃ next events standing' left', r.coordinate = some (next,events) ∧ Calm events ∧
    Joined p (past ++ [⟨r,.coordinate,events⟩]) next standing' tallied ∧
    Stage p next standing' left' ∧ left' < left

variable {left : Nat}

theorem proceeds_of_pass {left' : Nat} (joined : Joined p past r standing tallied)
    (moved : r.coordinate = some (r.passed frames phase,told.map (.called Stock.runThread)))
    (calm : Pipeline.Calm told) (stage : Stage p (r.passed frames phase) standing left')
    (less : left' < left) : Proceeds p past r tallied left :=
  ⟨_,_,standing,left',moved,calm_called calm _,joined.pass (claimed?_called ..) frames phase,stage,
    less⟩

/-- The run lists the workers that are left and turns to the first of them. -/
theorem Joined.sweep (joined : Joined p past r standing tallied) (phase : r.phase = .draining)
    (top : r.stock.system.stack Stock.runThread =
      [.survey r.stock.manager .releaseAll 0 [],.drain r.stock.manager [] 0 []])
    (rest : AtRest p r standing) :
    Proceeds p past r tallied (11 * r.stock.system.registrations r.stock.manager + 13) := by
  have kept (frames : List (Frame Enricher Nat)) := rest.pass frames r.phase
  have within := shardWorkers_le r.stock.system r.stock.manager 0
  have all {w : WorkerId} (member : w ∈ r.stock.system.shardWorkers r.stock.manager 0) :=
    joined.enlisted w (mapped_of_mem member)
  have listed {w : WorkerId} (mapped : r.stock.system.slot? r.stock.manager w ≠ none) :
      w ∈ r.stock.system.shardWorkers r.stock.manager 0 := mem_of_mapped joined.sharding mapped
  generalize seen : r.stock.system.shardWorkers r.stock.manager 0 = found at within all listed
  cases found with
  | nil =>
    have advanced : r.stock.system.advance Stock.runThread =
        some (r.stock.system.setStack Stock.runThread [.drainLogDone 1 []],[]) := by
      simp only [System.advance,top,System.advanceSurvey,joined.sharding,Sharding.single,seen]
      rfl
    have moved := coordinate_silent (Or.inr (Or.inl phase)) top rfl advanced rfl
    refine proceeds_of_pass joined moved (by simp [Pipeline.Calm])
      (.drained phase (passed_top joined ..) (kept _) fun w => ?_) (by omega)
    by_contra mapped
    cases listed mapped
  | cons w pending =>
    obtain ⟨u,member,rfl⟩ := all List.mem_cons_self
    have advanced : r.stock.system.advance Stock.runThread = some (r.stock.system.setStack
        Stock.runThread [.release r.stock.manager (worker u) .unregister,
          .releaseAll r.stock.manager pending [],.drain r.stock.manager [] 0 []],[]) := by
      simp only [System.advance,top,System.advanceSurvey,joined.sharding,Sharding.single,seen]
      rfl
    have moved := coordinate_silent (Or.inr (Or.inl phase)) top rfl advanced rfl
    have pools := pool_passed (r := r) [.release r.stock.manager (worker u) .unregister,
      .releaseAll r.stock.manager pending [],.drain r.stock.manager [] 0 []] r.phase
    rw [List.length_cons] at within
    refine proceeds_of_pass joined moved (by simp [Pipeline.Calm])
      (.release phase (passed_top joined ..) (pools ▸ member)
        (.unregister (kept _ u (pools ▸ member))) (fun t inside _ => kept _ t inside)
        (fun t _ away mapped => ?_) fun v inside => ?_) (by omega)
    · obtain same | inside := List.mem_cons.mp (listed mapped)
      · exact absurd (worker_injective same) away
      · exact inside
    · rw [pools]
      exact all (List.mem_cons_of_mem _ inside)

theorem Joined.proceeds {stock : Stock} {u standing' rest rest' left' : Nat}
    (joined : Joined p past r standing tallied) (phase : r.phase = .draining) (member : u ∈ r.pool)
    (stepped : r.stock.step Stock.runThread noBody = some (stock,told))
    (silent : Stock.reply? told = none)
    (took : Took p Stock.runThread r.stock.manager (worker u) r.stock ⟨0,standing u,rest⟩ told stock
      ⟨0,standing',rest'⟩)
    (stage : Stage p { r with stock } (Function.update standing u standing') left')
    (less : left' < left) : Proceeds p past r tallied left :=
  ⟨_,_,_,left',coordinate_stepped (Or.inr (Or.inl phase)) stepped silent,calm_called took.calm _,
    joined.took member took,stage,less⟩

section

variable {system : System Enricher Nat} {template : Template Enricher} {u : Nat}
  {pending : List WorkerId}

theorem stands_beside {standing' : Nat}
    (spares : Spares r.stock.manager Stock.runThread (worker u) r.stock.system system)
    (rest : ∀ t ∈ r.pool, t ≠ u → Stands p r.stock.system r.stock.manager (worker t) (standing t))
    (t : Nat) (inside : t ∈ r.pool) (away : t ≠ u) :
    Stands p system r.stock.manager (worker t) (Function.update standing u standing' t) := by
  rw [Function.update_of_ne away]
  exact (rest t inside away).keeps (keeps_of_ne spares away)

theorem listed_beside
    (spares : Spares r.stock.manager Stock.runThread (worker u) r.stock.system system)
    (listed : ∀ t ∈ r.pool, t ≠ u → r.stock.system.slot? r.stock.manager (worker t) ≠ none →
      worker t ∈ pending)
    (t : Nat) (inside : t ∈ r.pool) (away : t ≠ u)
    (mapped : system.slot? r.stock.manager (worker t) ≠ none) : worker t ∈ pending :=
  listed t inside away ((keeps_of_ne spares away).mapped ▸ mapped)

theorem atRest_released
    (spares : Spares r.stock.manager Stock.runThread (worker u) r.stock.system system)
    (out : system.slot? r.stock.manager (worker u) = none)
    (rest : ∀ t ∈ r.pool, t ≠ u → Stands p r.stock.system r.stock.manager (worker t) (standing t)) :
    AtRest p { r with stock := ⟨system,r.stock.manager,template⟩ }
      (Function.update standing u 0) := by
  intro t inside
  have pools : ({ r with stock := ⟨system,r.stock.manager,template⟩ } : Run).pool = r.pool :=
    pool_eq spares.threads
  rw [pools] at inside
  by_cases own : t = u
  · subst own
    rw [Function.update_self]
    exact .out out
  · exact stands_beside spares rest t inside own

theorem Joined.released (joined : Joined p past r standing tallied) (phase : r.phase = .draining)
    (member : u ∈ r.pool)
    (stepped : r.stock.step Stock.runThread noBody =
      some (⟨system,r.stock.manager,template⟩,told))
    (silent : Stock.reply? told = none)
    (took : Took p Stock.runThread r.stock.manager (worker u) r.stock ⟨0,standing u,left⟩ told
      ⟨system,r.stock.manager,template⟩ ⟨0,0,0⟩)
    (top : system.stack Stock.runThread = (resume (.done : Reply Nat)
      [.releaseAll r.stock.manager pending [],.drain r.stock.manager [] 0 []]).1)
    (out : system.slot? r.stock.manager (worker u) = none)
    (rest : ∀ t ∈ r.pool, t ≠ u → Stands p r.stock.system r.stock.manager (worker t) (standing t))
    (listed : ∀ t ∈ r.pool, t ≠ u → r.stock.system.slot? r.stock.manager (worker t) ≠ none →
      worker t ∈ pending)
    (known : ∀ w ∈ pending, ∃ t ∈ r.pool, w = worker t) :
    Proceeds p past r tallied (left + 11 * pending.length + 11) := by
  have spares := took.spares
  have pools : ({ r with stock := ⟨system,r.stock.manager,template⟩ } : Run).pool = r.pool :=
    pool_eq spares.threads
  have rest : AtRest p { r with stock := ⟨system,r.stock.manager,template⟩ }
      (Function.update standing u 0) := atRest_released spares out rest
  have gone {t : Nat} (mapped : system.slot? r.stock.manager (worker t) ≠ none) : t ≠ u := by
    rintro rfl
    exact mapped out
  cases pending with
  | nil =>
    refine joined.proceeds phase member stepped silent took
      (.drained phase top rest fun w => ?_) (by omega)
    by_contra mapped
    by_cases own : w = worker u
    · exact mapped (own ▸ out)
    · obtain ⟨t,inside,rfl⟩ := joined.enlisted w ((spares.keeps w own).mapped ▸ mapped)
      cases listed_beside spares listed t inside (gone mapped) mapped
  | cons w pending =>
    obtain ⟨t,inside,rfl⟩ := known w List.mem_cons_self
    have stage : Stage p { r with stock := ⟨system,r.stock.manager,template⟩ }
        (Function.update standing u 0) (10 + 11 * pending.length + 11) := by
      refine .release phase top (pools ▸ inside) (.unregister (rest t (pools ▸ inside)))
        (fun v member _ => rest v member) (fun v member away mapped => ?_) fun w member => ?_
      · rw [pools] at member
        obtain same | pends :=
          List.mem_cons.mp (listed_beside spares listed v member (gone mapped) mapped)
        · exact absurd (worker_injective same) away
        · exact pends
      · rw [pools]
        exact known w (List.mem_cons_of_mem _ member)
    refine joined.proceeds phase member stepped silent took stage ?_
    rw [List.length_cons]
    omega

/-- The run gets on with the release of a worker, which is none of the other workers' business. -/
theorem Joined.release {point : ReleasePoint}
    (joined : Joined p past r standing tallied) (phase : r.phase = .draining)
    (top : r.stock.system.stack Stock.runThread = [.release r.stock.manager (worker u) point,
      .releaseAll r.stock.manager pending [],.drain r.stock.manager [] 0 []])
    (member : u ∈ r.pool) (releasing : Releasing p r.stock.system Stock.runThread r.stock.manager
      (worker u) point (standing u) left)
    (rest : ∀ t ∈ r.pool, t ≠ u → Stands p r.stock.system r.stock.manager (worker t) (standing t))
    (listed : ∀ t ∈ r.pool, t ≠ u → r.stock.system.slot? r.stock.manager (worker t) ≠ none →
      worker t ∈ pending)
    (known : ∀ w ∈ pending, ∃ t ∈ r.pool, w = worker t) :
    Proceeds p past r tallied (left + 11 * pending.length + 11) := by
  obtain ⟨⟨system,manager,template⟩,told,stepped,releases⟩ :=
    releasing.step joined.yields joined.managed noBody top
  cases releases with
  | @on point standing' left' top releasing less silent took =>
    obtain rfl : manager = r.stock.manager := (took 0).manager
    have spares := (took 0).spares
    have pools : ({ r with stock := ⟨system,r.stock.manager,template⟩ } : Run).pool = r.pool :=
      pool_eq spares.threads
    have stage : Stage p { r with stock := ⟨system,r.stock.manager,template⟩ }
        (Function.update standing u standing') (left' + 11 * pending.length + 11) := by
      refine .release phase top (pools ▸ member) ?_ ?_ ?_ ?_
      · rwa [Function.update_self]
      · exact pools.symm ▸ stands_beside spares rest
      · exact pools.symm ▸ listed_beside spares listed
      · exact pools.symm ▸ known
    exact joined.proceeds phase member stepped silent (took 0) stage (by omega)
  | done told' top said silent out took =>
    obtain rfl : manager = r.stock.manager := (took 0).manager
    have silent : Stock.reply? told = none := by
      rw [said,reply?_append silent]
      cases pending <;> rfl
    exact joined.released phase member stepped silent (took 0) top out rest listed known

end

theorem Joined.survey (joined : Joined p past r standing tallied) (phase : r.phase = .showingStats)
    (top : r.stock.system.stack Stock.runThread = [.survey r.stock.manager .stats 0 []])
    (rest : AtRest p r standing) :
    Proceeds p past r tallied (11 * r.stock.system.registrations r.stock.manager + 22) := by
  have advanced : r.stock.system.advance Stock.runThread =
      some (r.stock.system.setStack Stock.runThread [.load r.stock.manager Counter.all {}
        (some (r.stock.system.shardWorkers r.stock.manager 0).length)],[]) := by
    simp only [System.advance,top,System.advanceSurvey,joined.sharding,Sharding.single,
      System.goto]
    rfl
  have moved := coordinate_silent (Or.inl phase) top rfl advanced rfl
  refine proceeds_of_pass joined moved (by simp [Pipeline.Calm])
    (.load phase (passed_top joined ..) (rest.pass _ _)) ?_
  change 11 * r.stock.system.registrations r.stock.manager + 6 + 15 < _
  omega

theorem Joined.load {left : List Counter} {read : Counters} {n : Nat}
    (joined : Joined p past r standing tallied) (phase : r.phase = .showingStats)
    (top : r.stock.system.stack Stock.runThread = [.load r.stock.manager left read (some n)])
    (rest : AtRest p r standing) : Proceeds p past r tallied
      (11 * r.stock.system.registrations r.stock.manager + left.length + 15) := by
  cases left with
  | cons counter left =>
    have moved := coordinate_silent (Or.inl phase) top rfl (advance_load top) rfl
    refine proceeds_of_pass joined moved (by simp [Pipeline.Calm])
      (.load phase (passed_top joined ..) (rest.pass _ _)) ?_
    change 11 * r.stock.system.registrations r.stock.manager + left.length + 15 < _
    rw [List.length_cons]
    omega
  | nil =>
    have advanced : r.stock.system.advance Stock.runThread =
        some (r.stock.system.setStack Stock.runThread [.logStats r.stock.manager n read],[]) := by
      simp only [System.advance,top,System.goto]
    have moved := coordinate_silent (Or.inl phase) top rfl advanced rfl
    refine proceeds_of_pass joined moved (by simp [Pipeline.Calm])
      (.logStats phase (passed_top joined ..) (rest.pass _ _)) ?_
    change 11 * r.stock.system.registrations r.stock.manager + 14 < _
    rw [List.length_nil]
    omega

theorem Joined.logStats {n : Nat} {read : Counters} (joined : Joined p past r standing tallied)
    (phase : r.phase = .showingStats)
    (top : r.stock.system.stack Stock.runThread = [.logStats r.stock.manager n read])
    (rest : AtRest p r standing) :
    Proceeds p past r tallied (11 * r.stock.system.registrations r.stock.manager + 14) := by
  have advanced : r.stock.system.advance Stock.runThread = some (r.stock.system.setStack
      Stock.runThread [],[.logged (.stats (r.stock.system.name r.stock.manager) n read),
        .returned .done]) := by
    simp only [System.advance,top,System.answer]
    rfl
  have moved : r.coordinate = some
      (r.passed (firstFrames (.drain [r.stock.manager]) []) .draining,
        ([.logged (.stats (r.stock.system.name r.stock.manager) n read),.returned .done,
          .called (.drain [r.stock.manager])] : List (PerWorker.Event Nat)).map
            (.called Stock.runThread)) := by
    simp only [coordinate,phase]
    exact await_enter joined top rfl advanced rfl _ fun q same => by rw [same]
  refine proceeds_of_pass joined moved (by simp [Pipeline.Calm])
    (.sweep rfl (passed_top joined ..) (rest.pass _ _)) ?_
  change 11 * r.stock.system.registrations r.stock.manager + 13 < _
  omega

/-- With the last worker gone the run turns to its counters. -/
theorem Joined.drained (joined : Joined p past r standing tallied) (phase : r.phase = .draining)
    (top : r.stock.system.stack Stock.runThread = [.drainLogDone 1 []])
    (rest : AtRest p r standing) (out : Emptied r) : Proceeds p past r tallied 10 := by
  have advanced : r.stock.system.advance Stock.runThread = some (r.stock.system.setStack
      Stock.runThread [],[.logged (.drained 1 0),.returned (.errors [])]) := by
    simp only [System.advance,top,System.answer]
    rfl
  have moved : r.coordinate = some (r.passed (firstFrames (.counters r.stock.manager) [])
      (.counting []),([.logged (.drained 1 0),.returned (.errors []),
        .called (.counters r.stock.manager)] : List (PerWorker.Event Nat)).map
          (.called Stock.runThread)) := by
    simp only [coordinate,phase]
    exact await_enter joined top rfl advanced rfl _ fun q same => by rw [same]
  exact proceeds_of_pass joined moved (by simp [Pipeline.Calm])
    (.count rfl (passed_top joined ..) (rest.pass _ _) out fun counter absent =>
      absurd (by cases counter <;> decide) absent) (by decide)

/-- The counters are read for the summary. Nobody counts any more, so that what is read is exact. -/
theorem Joined.count {left : List Counter} {read : Counters}
    (joined : Joined p past r standing tallied) (phase : r.phase = .counting [])
    (top : r.stock.system.stack Stock.runThread = [.load r.stock.manager left read none])
    (rest : AtRest p r standing) (out : Emptied r)
    (told : ∀ counter, counter ∉ left → read.get counter = r.counters.get counter) :
    Proceeds p past r tallied (left.length + 2) := by
  cases left with
  | cons counter left =>
    have moved := coordinate_silent (Or.inr (Or.inr ⟨_,phase⟩)) top rfl (advance_load top) rfl
    refine proceeds_of_pass joined moved (by simp [Pipeline.Calm])
      (.count phase (passed_top joined ..) (rest.pass _ _) out fun other absent => ?_) ?_
    · rw [Counters.get_set]
      split
      next same => rw [same]; rfl
      next apart => exact told other (by simp [apart,absent])
    · rw [List.length_cons]
      omega
  | nil =>
    have advanced : r.stock.system.advance Stock.runThread = some (r.stock.system.setStack
        Stock.runThread [],[.returned (.counters read)]) := by
      simp only [System.advance,top,System.answer]
      rfl
    have same : read = r.counters := ext_get fun counter => told counter (by simp)
    have moved : r.coordinate = some (r.passed [] (.closing [] read),
        [PerWorker.Event.returned (.counters read)].map (.called Stock.runThread)) := by
      simp only [coordinate,phase,await,step_of_advance noBody top rfl advanced]
      rfl
    exact proceeds_of_pass joined moved (by simp [Pipeline.Calm])
      (.closing (congrArg _ same) (rest.pass _ _) out) (by simp)

theorem Joined.closing (joined : Joined p past r standing tallied)
    (phase : r.phase = .closing [] r.counters) (rest : AtRest p r standing) (out : Emptied r) :
    Proceeds p past r tallied 1 := by
  have still := System.setStack_stack r.stock.system Stock.runThread
  obtain ⟨events,moved,logs⟩ : ∃ events, r.coordinate = some (r.passed
      (r.stock.system.stack Stock.runThread) (.ended (.ok (r.summary r.counters))),events) ∧
        ∀ e ∈ events, ∃ told, e = .logged told := by
    simp only [coordinate,phase,joined.thrown,passed,still]
    exact ⟨_,rfl,by simp⟩
  exact ⟨_,_,standing,0,moved,calm_logged logs,joined.pass (claimed?_logged logs) _ _,
    .ended rfl (rest.pass _ _) out,Nat.one_pos⟩

theorem Stage.step (stage : Stage p r standing left) (joined : Joined p past r standing tallied)
    (unfinished : ∀ outcome, r.phase ≠ .ended outcome) : Proceeds p past r tallied left := by
  cases stage with
  | survey phase top rest => exact joined.survey phase top rest
  | load phase top rest => exact joined.load phase top rest
  | logStats phase top rest => exact joined.logStats phase top rest
  | sweep phase top rest => exact joined.sweep phase top rest
  | release phase top member releasing rest listed known =>
    exact joined.release phase top member releasing rest listed known
  | drained phase top rest out => exact joined.drained phase top rest out
  | count phase top rest out told => exact joined.count phase top rest out told
  | closing phase rest out => exact joined.closing phase rest out
  | ended phase => exact absurd phase (unfinished _)

end Run
end PerWorker.Pipeline
