import PerWorker.Proofs.Pipeline.Finishing
import Mathlib.Algebra.Order.BigOperators.Group.Finset

/-!
A run from its first step to its end, in any order of the steps. Main statements: each step is calm
and keeps the accounts, there is a next one until the run has ended, and their number is bounded by
what was fetched; so a run whose fetches stay beyond the input once they are ends.
-/
namespace PerWorker.Pipeline

open PerWorker.System (firstFrames)

/-- A bound on the steps of a run whose fetches stay beyond the input once they are. -/
def Plan.steps (plan : Plan) : Nat := 4 * plan.workers + 41 + 51 * (plan.ranges + plan.workers)

namespace Run

inductive Gathering (r : Run) : Prop
  | starting (starting : r.phase = .starting) (empty : r.tasks = #[])
  | joining {joined : Nat} (joining : r.phase = .joining joined)
      (crew : r.tasks.size = r.plan.workers)
      (ended : ∀ i, i < joined → r.tasks[i]? = some (.ended []))

inductive Accounted (p : Enricher) (past : List Turn) (r : Run) : Prop
  | gathering {stake : Nat → Stake} {tallied : List Bundle} (gathering : Gathering r)
      (manned : Manned p r stake) (accounts : Accounts p past r stake tallied)
  | closing {standing : Nat → Nat} {tallied : List Bundle} {left : Nat}
      (joined : Joined p past r standing tallied) (stage : Stage p r standing left)
      (within : past.length + left ≤ 4 * r.plan.workers + 41 + 51 * (fetched past).length)

variable {p : Enricher} {past : List Turn} {r next : Run} {stake : Nat → Stake}
  {tallied : List Bundle} {cancelled : Bool} {move : Move} {events : List Event} {i t : Nat}
  {task task' : Task}

theorem Gathering.setTask (gathering : Gathering r) (here : r.tasks[i]? = some task)
    (open' : task.isEnded = false) (tasks : next.tasks = r.tasks.setIfInBounds i task')
    (plan : next.plan = r.plan) (phase : next.phase = r.phase) : Gathering next := by
  cases gathering with
  | starting starting empty =>
    rw [empty] at here
    cases here
  | joining joining crew ended =>
    refine .joining (phase.trans joining) ?_ fun j before => ?_
    · rw [tasks,plan,Array.size_setIfInBounds]
      exact crew
    · have apart : i ≠ j := by
        rintro rfl
        obtain rfl := Option.some.inj (here.symm.trans (ended i before))
        cases open'
      rw [getElem?_set here tasks,if_neg apart]
      exact ended j before

theorem Manned.step_take (manned : Manned p r stake) (accounts : Accounts p past r stake tallied)
    (waits : r.tasks[i]? = some .waiting) (pool : Stock.firstPoolThread ≤ t)
    (known : t ≤ r.stock.system.threads.size) (free : r.isBusy t = false) {stock : Stock}
    (grown : stock = if t < r.stock.system.threads.size then r.stock
      else { r.stock with system := r.stock.system.addThread }) :
    ∃ stake, Manned p (Run.setTask { r with stock } i (.running t .check [])) stake ∧
      Accounts p (past ++ [⟨r,.start i t,[]⟩])
        (Run.setTask { r with stock } i (.running t .check [])) stake tallied := by
  by_cases within : t < r.stock.system.threads.size
  · rw [if_pos within] at grown
    subst grown
    have member : t ∈ r.pool := mem_pool.mpr ⟨pool,within⟩
    exact ⟨_,manned.take waits member free,
      accounts.take waits member (manned.off t member free).done⟩
  · rw [if_neg within] at grown
    subst grown
    obtain rfl : t = r.stock.system.threads.size := by omega
    have member : r.stock.system.threads.size ∈ r.grown.pool := by
      rw [pool_grown manned.threads]
      exact Finset.mem_insert_self ..
    exact ⟨_,manned.grow.take waits member free,
      (accounts.grow manned.threads).take waits member (manned.grow.off _ member free).done⟩

theorem fetches_length {point : TaskPoint} {thrown : List LifecycleError}
    (runs : r.tasks[i]? = some (.running t point thrown)) :
    (Turn.fetched? ⟨r,.work i,events⟩).toList.length = point.fetches := by
  simp only [Turn.fetched?,runs]
  cases point <;> rfl

theorem Manned.step_work {point : TaskPoint} {thrown : List LifecycleError}
    (manned : Manned p r stake) (closed : p.session = none)
    (runs : r.tasks[i]? = some (.running t point thrown)) (cancelled : Bool) :
    ∃ next events task' after counted, r.step cancelled (.work i) = some (next,events) ∧
      next.tasks = r.tasks.setIfInBounds i task' ∧
      Taken p r.plan.releaseAfterBundle next.stock.system t r.stock.manager task' after ∧
      Work p t r (.running t point thrown) (stake t)
        (Turn.fetched? ⟨r,.work i,events⟩).toList.length events next task' after counted := by
  obtain ⟨member,rfl,stands⟩ := manned.running i t point thrown runs
  obtain ⟨next,events,task',after,counted,moved,tasks,taken,work⟩ :=
    stands.works runs closed manned.yields manned.managed (mem_pool.mp member).2 cancelled
  refine ⟨next,events,task',after,counted,?_,tasks,taken,?_⟩
  · simp only [step,runs,moved]
  · rwa [fetches_length runs]

theorem paid_le_card {claimers : List Nat} (one : ∀ t ∈ r.pool, (stake t).paid ≤ 1)
    (claims : ∀ t ∈ r.pool, (stake t).paid ≠ 0 → t ∈ claimers) :
    ∑ t ∈ r.pool, (stake t).paid ≤ claimers.toFinset.card := by
  have within : {t ∈ r.pool | (stake t).paid ≠ 0} ⊆ claimers.toFinset := by
    intro t member
    obtain ⟨member,paid⟩ := Finset.mem_filter.mp member
    exact List.mem_toFinset.mpr (claims t member paid)
  calc ∑ t ∈ r.pool, (stake t).paid
      = ∑ t ∈ r.pool with (stake t).paid ≠ 0, (stake t).paid := (Finset.sum_filter_ne_zero _).symm
    _ ≤ ∑ t ∈ r.pool with (stake t).paid ≠ 0, 1 :=
        Finset.sum_le_sum fun t member => one t (Finset.mem_filter.mp member).1
    _ = ({t ∈ r.pool | (stake t).paid ≠ 0} : Finset Nat).card := (Finset.card_eq_sum_ones _).symm
    _ ≤ claimers.toFinset.card := Finset.card_le_card within

/-- With all tasks ended the threads have nothing in hand but the copies that they left standing. -/
theorem Manned.joined (manned : Manned p r stake) (accounts : Accounts p past r stake tallied)
    (all : ∀ (i : Nat) task, r.tasks[i]? = some task → task = .ended []) :
    Joined p past r (fun t => (stake t).standing) tallied ∧
      AtRest p r (fun t => (stake t).standing) ∧ ∑ t ∈ r.pool, (stake t).left = 0 := by
  have idle (t : Nat) : r.isBusy t = false := by
    refine isBusy_eq_false.mpr fun i runs => ?_
    obtain ⟨task,here,runs⟩ := Option.bind_eq_some_iff.mp runs
    rw [all i task here] at runs
    cases runs
  have off {t : Nat} (member : t ∈ r.pool) := manned.off t member (idle t)
  have none : r.inHand = [] := by
    refine List.filterMap_eq_nil_iff.mpr fun task member => ?_
    obtain ⟨i,here⟩ := List.getElem?_of_mem member
    rw [all i task (by simpa using here)]
    rfl
  have bundles := accounts.bundles
  rw [none,List.nil_append] at bundles
  refine ⟨⟨manned.yields,manned.managed,manned.sharding,manned.threads,all,manned.enlisted,bundles,
    accounts.progress,⟨?_,?_,?_⟩,accounts.standing,manned.thrown⟩,?_,?_⟩
  · intro clears
    have ones : ∑ t ∈ r.pool, (stake t).paid = r.pool.card := by
      rw [Finset.card_eq_sum_ones]
      refine Finset.sum_congr rfl fun t member => ?_
      exact (off member).ready.paid_of_clears clears
    have paid := accounts.paid
    simp only [clears,if_true] at paid
    omega
  · intro keeps
    have paid := accounts.paid
    simp only [keeps,Bool.false_eq_true,if_false] at paid
    omega
  · intro keeps
    have paid := accounts.paid
    have claims := paid_le_card (fun t member => (off member).ready.paid_le)
      (accounts.claimers keeps)
    simp only [keeps,Bool.false_eq_true,if_false] at paid
    omega
  · exact fun t member => (off member).ready.stands
  · exact Finset.sum_eq_zero fun t member => (off member).done

theorem Manned.step_coordinate (manned : Manned p r stake)
    (accounts : Accounts p past r stake tallied) (gathering : Gathering r)
    (moved : r.coordinate = some (next,events)) :
    Calm events ∧ Accounted p (past ++ [⟨r,.coordinate,events⟩]) next := by
  cases gathering with
  | starting starting empty =>
    simp only [coordinate,starting,Option.some.injEq,Prod.mk.injEq] at moved
    obtain ⟨rfl,rfl⟩ := moved
    have crew : r.begun.tasks.size = r.begun.plan.workers := Array.size_replicate
    have joins : Gathering r.begun := .joining rfl crew fun i before => absurd before (by simp)
    exact ⟨calm_logged (by simp),
      .gathering joins (manned.begin empty) (accounts.begin empty starting (by simp))⟩
  | @joining joined joining crew ended =>
    simp only [coordinate,joining] at moved
    split at moved
    next thrown here =>
      cases moved
      obtain rfl := manned.ended joined thrown here
      have bound := (Array.getElem?_eq_some_iff.mp here).1
      have same : ({ r with
          phase := .joining (joined + 1), thrown := r.thrown ++ [].reverse } : Run) =
            r.joinedNext joined := by simp [joinedNext]
      rw [same]
      refine ⟨calm_logged (by simp),.gathering (.joining rfl crew fun i before => ?_)
        { manned with } (accounts.join joining (crew ▸ bound))⟩
      obtain earlier | rfl := Nat.lt_succ_iff_lt_or_eq.mp before
      · exact ended i earlier
      · exact here
    next => cases moved
    next beyond =>
      have all (i : Nat) (task : Task) (here : r.tasks[i]? = some task) : task = .ended [] := by
        have bound := (Array.getElem?_eq_some_iff.mp here).1
        have after := Array.getElem?_eq_none_iff.mp beyond
        exact Option.some.inj (here.symm.trans (ended i (by omega)))
      obtain ⟨done,rest,spent⟩ := manned.joined accounts all
      have called := call_eq manned.quiet done.room (.logStats r.stock.manager)
      simp only [enter,called,Option.some.injEq,Prod.mk.injEq] at moved
      obtain ⟨rfl,rfl⟩ := moved
      have within := accounts.left
      have ahead : r.ahead = r.plan.workers - joined + 40 := by rw [Run.ahead,joining]
      refine ⟨calm_called (by simp [Pipeline.Calm]) _,.closing
        (done.pass (claimed?_called ..) (firstFrames (.logStats r.stock.manager) []) .showingStats)
        (.survey rfl (passed_top done ..) (rest.pass _ _)) ?_⟩
      change _ + (11 * r.stock.system.registrations r.stock.manager + 22) ≤
        4 * r.plan.workers + 41 + _
      rw [fetched_silent rfl,List.length_append,List.length_singleton]
      omega

/-- A run that keeps its accounts goes on doing so with every step, and nothing goes wrong in it. -/
theorem Accounted.step (accounted : Accounted p past r) (closed : p.session = none)
    (moved : r.step cancelled move = some (next,events)) :
    Calm events ∧ Accounted p (past ++ [⟨r,move,events⟩]) next := by
  have change := step_change moved
  have plans := change.plans
  cases accounted with
  | gathering gathering manned accounts =>
    cases change with
    | take i t stock waits pool known free grown =>
      obtain ⟨stake,manned,accounts⟩ :=
        manned.step_take accounts waits pool known free grown
      exact ⟨calm_logged (by simp),
        .gathering (gathering.setTask waits rfl rfl rfl rfl) manned accounts⟩
    | work i t runs =>
      -- Steps are functions of the state, so this step is the one that is known to exist.
      obtain ⟨next,events,task',after,counted,moved',tasks,taken,work⟩ :=
        manned.step_work closed runs cancelled
      obtain ⟨rfl,rfl⟩ := Prod.mk.inj (Option.some.inj (moved.symm.trans moved'))
      have member := (manned.running i t _ _ runs).1
      exact ⟨work.calm,.gathering (gathering.setTask runs rfl tasks work.plan work.phase)
        (manned.work runs rfl tasks taken work) (accounts.work runs rfl member tasks taken work)⟩
    | coordinate => exact manned.step_coordinate accounts gathering moved
  | @closing standing tallied left joined stage within =>
    cases change with
    | take i t stock waits => cases joined.ended i _ waits
    | work i t runs => cases joined.ended i _ runs
    | coordinate =>
      have unfinished (outcome : Except TeardownErrors Summary) : r.phase ≠ .ended outcome := by
        intro over'
        simp only [Run.step,coordinate,over'] at moved
        cases moved
      obtain ⟨next,events,standing,left',moved',calm,joined,stage,less⟩ :=
        stage.step joined unfinished
      obtain ⟨rfl,rfl⟩ := Prod.mk.inj (Option.some.inj (moved.symm.trans moved'))
      refine ⟨calm,.closing joined stage ?_⟩
      rw [fetched_silent rfl,List.length_append,List.length_singleton,plans]
      omega

theorem Accounted.goes_on (accounted : Accounted p past r) (closed : p.session = none)
    (cancelled : Bool) : (∃ outcome, r.phase = .ended outcome) ∨
      ∃ move next events, r.step cancelled move = some (next,events) := by
  cases accounted with
  | gathering gathering manned accounts =>
    refine Or.inr ?_
    cases gathering with
    | starting starting empty =>
      exact ⟨.coordinate,_,_,by simp only [Run.step,coordinate,starting]; rfl⟩
    | @joining joined joining crew ended =>
      cases here : r.tasks[joined]? with
      | none =>
        have called := call_eq manned.quiet (Nat.lt_of_lt_of_le (by decide) manned.threads)
          (.logStats r.stock.manager)
        exact ⟨.coordinate,_,_,by simp only [Run.step,coordinate,joining,here,enter,called]; rfl⟩
      | some task =>
        cases task with
        | waiting =>
          have free : r.isBusy r.stock.system.threads.size = false :=
            isBusy_eq_false.mpr fun i runs => not_mem_pool (manned.pooled runs)
          have ready : (r.tasks[joined]? = some .waiting &&
              Stock.firstPoolThread ≤ r.stock.system.threads.size &&
                r.stock.system.threads.size ≤ r.stock.system.threads.size &&
                  !r.isBusy r.stock.system.threads.size) = true := by
            simp [here,manned.threads,free]
          exact ⟨.start joined r.stock.system.threads.size,_,_,by
            simp only [Run.step,startTask]; rw [if_pos ready]⟩
        | running t point thrown =>
          obtain ⟨next,events,_,_,_,moved,_⟩ := manned.step_work closed here cancelled
          exact ⟨_,next,events,moved⟩
        | ended thrown =>
          exact ⟨.coordinate,_,_,by simp only [Run.step,coordinate,joining,here]; rfl⟩
  | closing joined stage within =>
    by_cases over' : ∃ outcome, r.phase = .ended outcome
    · exact Or.inl over'
    · obtain ⟨next,events,_,_,moved,_⟩ :=
        stage.step joined fun outcome phase => over' ⟨outcome,phase⟩
      exact Or.inr ⟨.coordinate,next,events,moved⟩

variable {plan : Plan} {name : String} {prototype : Enricher}

theorem accounted_fresh (plan : Plan) (name : String) (prototype : Enricher) :
    Accounted prototype.closed [] (fresh plan (.fresh name prototype)) := by
  have nobody : (fresh plan (.fresh name prototype)).pool = ∅ := rfl
  have idle (i : Nat) : (fresh plan (.fresh name prototype)).tasks[i]? = none := rfl
  have away (t : Nat) : t ∉ (fresh plan (.fresh name prototype)).pool := by simp [nobody]
  refine @Accounted.gathering _ _ _ (fun _ => ⟨0,0,0⟩) [] (.starting rfl rfl) ?_ ?_
  · exact {
      yields := prototype.yields_closed 1
      managed := Nat.one_pos
      sharding := rfl
      threads := le_rfl
      running := by simp [idle]
      alone := by simp [Run.thread?,idle]
      off := fun t member => absurd member (away t)
      ended := by simp [idle]
      enlisted := fun w mapped => absurd rfl mapped
      quiet := rfl
      thrown := rfl }
  · exact {
      bundles := List.Perm.refl _
      progress := rfl
      paid := by
        rw [nobody,Finset.sum_empty,Finset.card_empty]
        rfl
      standing := rfl
      left := by
        rw [nobody,Finset.sum_empty]
        change 0 + (4 * plan.workers + 41) + 0 + 11 * 0 + 3 * 0 ≤ 4 * plan.workers + 41 + 51 * 0
        omega
      claimers := fun _ t member => absurd member (away t)
      working := by simp [Run.thread?,idle] }

theorem Course.accounted
    (course : Course (fresh plan (.fresh name prototype)) cancelled past r) :
    Accounted prototype.closed past r := by
  induction course with
  | start => exact accounted_fresh plan name prototype
  | cancel before ih => exact ih
  | step move events before moved ih => exact (ih.step rfl moved).2

/-- No setup or teardown hook fails in a run. -/
theorem Course.calm (course : Course (fresh plan (.fresh name prototype)) cancelled past r) :
    ∀ turn ∈ past, Calm turn.events := by
  induction course with
  | start => simp
  | cancel before ih => exact ih
  | step move events before moved ih =>
    intro turn member
    obtain earlier | last := List.mem_append.mp member
    · exact ih turn earlier
    · cases List.mem_singleton.mp last
      exact (before.accounted.step rfl moved).1

theorem Course.goes_on (course : Course (fresh plan (.fresh name prototype)) cancelled past r) :
    (∃ outcome, r.phase = .ended outcome) ∨
      ∃ move next events, r.step cancelled move = some (next,events) :=
  course.accounted.goes_on rfl cancelled

theorem Accounted.length_le (accounted : Accounted p past r) :
    past.length ≤ 4 * r.plan.workers + 41 + 51 * (fetched past).length := by
  cases accounted with
  | gathering gathering manned accounts =>
    have left := accounts.left
    omega
  | closing joined stage within => omega

theorem Course.length_le (course : Course (fresh plan (.fresh name prototype)) cancelled past r)
    (exhausting : Exhausting cancelled past r) : past.length ≤ plan.steps := by
  have steps := course.accounted.length_le
  have fetches := exhausting.length_le course.crewed
  rw [course.plans] at steps fetches
  change _ ≤ 4 * plan.workers + 41 + _ at steps
  change _ ≤ plan.ranges + plan.workers at fetches
  rw [Plan.steps]
  omega

theorem Course.completes (course : Course (fresh plan (.fresh name prototype)) cancelled past r)
    (positive : 0 < plan.bundleSize) (roomy : Roomy plan) :
    ∃ past' last outcome, Course (fresh plan (.fresh name prototype)) cancelled past' last ∧
      last.phase = .ended outcome := by
  have within := course.length_le (course.exhausting positive roomy)
  generalize fuel : plan.steps + 1 - past.length = left
  induction left generalizing past r with
  | zero => omega
  | succ left ih =>
    obtain ⟨outcome,over'⟩ | ⟨move,next,events,moved⟩ := course.goes_on
    · exact ⟨past,r,outcome,course,over'⟩
    · have later := course.step move events moved
      refine ih later (later.length_le (later.exhausting positive roomy)) ?_
      rw [List.length_append,List.length_singleton]
      omega

end Run
end PerWorker.Pipeline
