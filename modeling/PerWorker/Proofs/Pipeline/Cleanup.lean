import PerWorker.Proofs.Pipeline.Whole

/-!
What a run leaves behind. Main statement: whatever the order of its steps and whenever it is
cancelled, a run ends with a summary; no hook failed on the way, no worker is registered any more,
and the setups, which were all torn down, are told by the bundles and the threads that claimed them.
-/
namespace PerWorker.Pipeline
namespace Run

def Turn.taker? (turn : Turn) : Option Nat :=
  match turn.move with
  | .start _ thread => some thread
  | _ => none

def takers (past : List Turn) : List Nat := past.filterMap Turn.taker?

/-- Each thread that runs a task or claimed a bundle took a task up, and each task was taken up once
at most. -/
structure Hired (past : List Turn) (r : Run) : Prop where
  once : (takers past).length + r.tasks.countP Task.waits ≤ r.tasks.size
  runs : ∀ i t, r.thread? i = some t → t ∈ takers past
  claims : ∀ t ∈ claimers past, t ∈ takers past

variable {past : List Turn} {r next : Run} {cancelled : Bool} {move : Move} {events : List Event}
  {i t : Nat} {point : TaskPoint} {thrown : List LifecycleError}

theorem takers_append (turn : Turn) :
    takers (past ++ [turn]) = takers past ++ turn.taker?.toList := by
  cases made : turn.taker? <;> simp [takers,made]

theorem Working.tasks (runs : r.tasks[i]? = some (.running t point thrown))
    (working : Working r cancelled i t thrown point events next) :
    ∃ task, next.tasks = r.tasks.setIfInBounds i task ∧ task.waits = false ∧
      ∀ u, task.thread? = some u → u = t := by
  cases working with
  | stop | exhausted => exact ⟨_,rfl,rfl,by simp [Task.thread?]⟩
  | serve | release =>
    exact ⟨_,(setIfInBounds_same runs).symm,rfl,fun u same => (Option.some.inj same).symm⟩
  | _ => exact ⟨_,rfl,rfl,fun u same => (Option.some.inj same).symm⟩

theorem Coordinating.tasks (coordinating : Coordinating r events next) :
    (r.phase = .starting ∧ next.tasks = Array.replicate r.plan.workers .waiting) ∨
      next.tasks = r.tasks := by
  cases coordinating with
  | begin events starting => exact Or.inl ⟨starting,rfl⟩
  | _ => exact Or.inr rfl

theorem thread?_set {task task' : Task} {j u : Nat} (here : r.tasks[i]? = some task)
    (tasks : next.tasks = r.tasks.setIfInBounds i task') (runs : next.thread? j = some u) :
    r.thread? j = some u ∨ task'.thread? = some u := by
  rw [Run.thread?,getElem?_set here tasks] at runs
  split at runs
  next => exact Or.inr runs
  next => exact Or.inl runs

/-- A thread comes to run a task only by taking it up. -/
theorem Change.threads (change : Change r cancelled move events next) {j u : Nat}
    (runs : next.thread? j = some u) :
    (∃ j, r.thread? j = some u) ∨ Turn.taker? ⟨r,move,events⟩ = some u := by
  cases change with
  | take i t stock waits =>
    have tasks : (Run.setTask { r with stock } i (.running t .check [])).tasks =
      r.tasks.setIfInBounds i (.running t .check []) := rfl
    obtain before | now := thread?_set waits tasks runs
    · exact Or.inl ⟨j,before⟩
    · exact Or.inr now
  | work i t here working =>
    obtain ⟨task,tasks,_,thread⟩ := working.tasks here
    obtain before | now := thread?_set here tasks runs
    · exact Or.inl ⟨j,before⟩
    · obtain rfl := thread u now
      exact Or.inl ⟨i,thread?_running here⟩
  | coordinate coordinating =>
    obtain ⟨_,tasks⟩ | tasks := coordinating.tasks
    · rw [Run.thread?,tasks,Array.getElem?_replicate] at runs
      split at runs <;> cases runs
    · exact Or.inl ⟨j,by rwa [Run.thread?,tasks] at runs⟩

theorem Turn.claimer_runs {turn : Turn} (claims : turn.claimer? = some t) :
    ∃ i, turn.run.thread? i = some t := by
  simp only [Turn.claimer?] at claims
  split at claims
  next i _ =>
    split at claims
    next => cases claims
    next => exact ⟨i,claims⟩
  next => cases claims

/-- Each task is taken up once at most, by the thread that runs it, and every step keeps that. -/
theorem Hired.step (hired : Hired past r) (crewed : Crewed past r)
    (change : Change r cancelled move events next) : Hired (past ++ [⟨r,move,events⟩]) next := by
  obtain ⟨once,runs,claims⟩ := hired
  refine ⟨?_,fun j u here => ?_,fun u member => ?_⟩ <;> rw [takers_append]
  · cases change with
    | take i t stock waits =>
      have waiting := countP_setTask (p := Task.waits) (.running t .check []) waits
      simp only [Task.waits,if_true,Bool.false_eq_true,if_false,setTask] at waiting
      simp only [setTask,Array.size_setIfInBounds,List.length_append]
      change _ + 1 + _ ≤ _
      omega
    | work i t here working =>
      obtain ⟨task,tasks,waits,_⟩ := working.tasks here
      have waiting := countP_setTask (p := Task.waits) task here
      rw [waits] at waiting
      change (r.tasks.setIfInBounds i task).countP Task.waits + 0 = _ + 0 at waiting
      rw [tasks,Array.size_setIfInBounds,List.length_append]
      change _ + 0 + _ ≤ _
      omega
    | coordinate coordinating =>
      change (takers past ++ []).length + _ ≤ _
      rw [List.append_nil]
      obtain ⟨starting,tasks⟩ | tasks := coordinating.tasks
      · have empty := (crewed.idle starting).1
        have none : (takers past).length = 0 := by omega
        rw [tasks,none,Array.size_replicate,Nat.zero_add]
        exact Array.countP_le_size.trans_eq Array.size_replicate
      · rwa [tasks]
  · obtain ⟨j,before⟩ | now := change.threads here
    · exact List.mem_append_left _ (runs j u before)
    · exact List.mem_append_right _ (by simp [now])
  · rw [claimers_append] at member
    obtain before | now := List.mem_append.mp member
    · exact List.mem_append_left _ (claims u before)
    · obtain ⟨i,here⟩ := Turn.claimer_runs (Option.mem_toList.mp now)
      exact List.mem_append_left _ (runs i u here)

variable {plan : Plan} {stock : Stock} {name : String} {prototype : Enricher} {p : Enricher}
  {outcome : Except TeardownErrors Summary}

theorem Course.hired (course : Course (fresh plan stock) cancelled past r) : Hired past r := by
  induction course with
  | start => exact ⟨Nat.le_refl 0,fun i t runs => (nomatch runs),by simp [Run.claimers]⟩
  | cancel before ih => exact ih
  | step move events before moved ih => exact ih.step before.crewed (step_change moved)

theorem Course.claimers_card (course : Course (fresh plan stock) cancelled past r) :
    (claimers past).toFinset.card ≤ plan.workers := by
  obtain ⟨once,_,claims⟩ := course.hired
  have within : (claimers past).toFinset ⊆ (takers past).toFinset := fun t member =>
    List.mem_toFinset.mpr (claims t (List.mem_toFinset.mp member))
  have size := course.crewed.size_le
  rw [course.plans] at size
  change _ ≤ plan.workers at size
  calc (claimers past).toFinset.card
      ≤ (takers past).toFinset.card := Finset.card_le_card within
    _ ≤ (takers past).length := List.toFinset_card_le _
    _ ≤ plan.workers := by omega

/-- Where a run has ended, each copy that was set up is torn down. -/
theorem Accounted.over (accounted : Accounted p past r) (phase : r.phase = .ended outcome) :
    ∃ standing tallied, outcome = .ok (r.summary r.counters) ∧ Joined p past r standing tallied ∧
      Emptied r ∧ r.counters.setups = r.counters.teardowns := by
  cases accounted with
  | gathering gathering =>
    cases gathering with
    | starting starting => cases phase.symm.trans starting
    | joining joining => cases phase.symm.trans joining
  | @closing standing tallied left joined stage =>
    cases stage with
    | ended over' rest out =>
      have same : outcome = .ok (r.summary r.counters) := by
        injection phase.symm.trans over'
      have torn : ∑ t ∈ r.pool, standing t = 0 :=
        Finset.sum_eq_zero fun t member => (rest t member).eq_zero (out _)
      have balanced := joined.standing
      exact ⟨standing,tallied,same,joined,out,by omega⟩
    | survey before | load before | logStats before | sweep before | release before | drained before
    | count before | closing before => cases phase.symm.trans before

/-- What a run leaves behind that ends with such a summary. -/
structure CleanedUp (past : List Turn) (r : Run) (summary : Summary) : Prop where
  unregistered : ∀ w, r.stock.system.slot? r.stock.manager w = none
  balanced : summary.setups = summary.teardowns
  perBundle : r.plan.releaseAfterBundle = true → summary.setups = summary.bundles.toNat
  perFailure : r.plan.releaseAfterBundle = false →
    summary.failedBundles.toNat ≤ summary.setups ∧
      summary.setups ≤ summary.failedBundles.toNat + (claimers past).toFinset.card
  claimers : (claimers past).toFinset.card ≤ r.plan.workers

theorem Joined.counted {standing : Nat → Nat} {tallied : List Bundle}
    (joined : Joined p past r standing tallied) (few : (claimed past).length < UInt64.size) :
    r.progress.bundles.toNat = (claimed past).length ∧
      r.progress.failedBundles.toNat = tallied.countP (·.fails p) := by
  have same := joined.bundles.length_eq
  have fails : tallied.countP (·.fails p) ≤ tallied.length := List.countP_le_length
  rw [joined.progress,Progress.foldl_tally,UInt64.zero_add,UInt64.zero_add]
  constructor
  · rw [UInt64.toNat_ofNat_of_lt' (by omega),same]
  · exact UInt64.toNat_ofNat_of_lt' (by omega)

/-- In whatever order its steps are taken and whenever it is cancelled, as long as the cursor stays
in range a run goes on until it has ended, after a bounded number of steps, with a summary and not
with an error. No setup and no teardown fails on the way. Afterwards no worker is registered, all
setups are torn down, and there was one for each bundle, or else one for each failed bundle and at
most one more for each thread that claimed one. -/
theorem Course.cleans_up (started : Stock.start name prototype = .ok stock)
    (course : Course (fresh plan stock) cancelled past r) (positive : 0 < plan.bundleSize)
    (inside : Inside plan past) :
    past.length ≤ plan.steps ∧ (∀ turn ∈ past, Calm turn.events) ∧
      ((∃ outcome, r.phase = .ended outcome) ∨
        ∃ move next events, r.step cancelled move = some (next,events)) ∧
      ∀ outcome, r.phase = .ended outcome →
        ∃ summary, outcome = .ok summary ∧ CleanedUp past r summary := by
  obtain rfl := Except.ok.inj (started.symm.trans (Stock.start_eq name prototype))
  have exhausting := course.exhausting_of_inside positive inside
  refine ⟨course.length_le exhausting,course.calm,course.goes_on,fun outcome phase => ?_⟩
  obtain ⟨standing,tallied,same,joined,out,balanced⟩ := course.accounted.over phase
  have few : (claimed past).length < UInt64.size := by
    rw [exhausting.claims course.inOrder (course.plans ▸ positive)
      (course.plans ▸ fun x member _ => inside x member),List.length_map,List.length_range,
      course.plans]
    exact ((Nat.min_le_right ..).trans (Plan.ranges_le positive)).trans_lt plan.elements.toNat_lt
  obtain ⟨bundles,failed⟩ := joined.counted few
  refine ⟨_,same,out,balanced,?_,?_,?_⟩
  · intro clears
    exact (joined.paid.clears clears).trans bundles.symm
  · intro keeps
    exact ⟨failed.trans_le (joined.paid.atLeast keeps),(joined.paid.atMost keeps).trans_eq
      (congrArg (· + _) failed.symm)⟩
  · rw [course.plans]
    exact course.claimers_card

def picky : Enricher := { tag := "ab", failEvery := 4 }

def brief : Plan := { workers := 3, elements := 10, bundleSize := 3, releaseAfterBundle := true }

theorem brief_completes : ∃ (past : List Turn) (r : Run) (outcome : Except TeardownErrors Summary),
    Course (fresh brief (.fresh "pipeline" picky)) false past r ∧ r.phase = .ended outcome :=
  Course.start.completes (by decide) (roomy_of_lt (by decide) (by decide +kernel))

theorem cleans_up_of_brief : ∃ (past : List Turn) (r : Run) (summary : Summary),
    Course (fresh brief (.fresh "pipeline" picky)) false past r ∧ r.phase = .ended (.ok summary) ∧
      CleanedUp past r summary ∧ summary.setups = summary.bundles.toNat := by
  obtain ⟨past,r,outcome,course,over'⟩ := brief_completes
  have inside := course.inside (by decide) (by decide +kernel)
  obtain ⟨_,_,_,ends⟩ := Course.cleans_up (Stock.start_eq ..) course (by decide) inside
  obtain ⟨summary,rfl,clean⟩ := ends outcome over'
  exact ⟨past,r,summary,course,over',clean,clean.perBundle (course.plans ▸ rfl)⟩

end Run
end PerWorker.Pipeline
