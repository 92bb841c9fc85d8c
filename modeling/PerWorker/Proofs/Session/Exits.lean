import PerWorker.Proofs.Pipeline.Summary
import PerWorker.Session

/-!
Sessions that nobody interrupts. The run ends by itself before the token is cancelled, and the latch
is empty before that, so that the main thread never waits in vain, however short its patience. Main
statement: in whatever order the run, its tasks and the main thread take their steps, the session
exits after a bounded number of them, the run is never given up, and the exit is a success exactly
if no element can be rejected.
-/
namespace PerWorker

open Pipeline

namespace Pipeline

variable {plan : Plan} {p : Enricher} {j : Nat}

namespace Plan

/-- How many bundles have a rejected element in them. -/
def failing (plan : Plan) (p : Enricher) : Nat :=
  {j ∈ Finset.range plan.ranges | plan.Fails p j}.card

theorem fails_iff (positive : 0 < plan.bundleSize) :
    (∃ j < plan.ranges, plan.Fails p j) ↔ ∃ n < plan.elements.toNat, p.Refuses n := by
  have size : 0 < plan.bundleSize.toNat := UInt64.lt_iff_toNat_lt.mp positive
  constructor
  · rintro ⟨j,_,n,member,refuses⟩
    exact ⟨n,((Finset.mem_Ico.mp member).2).trans_le (Nat.min_le_right ..),refuses⟩
  · rintro ⟨n,inside,refuses⟩
    have below : n / plan.bundleSize.toNat * plan.bundleSize.toNat ≤ n := Nat.div_mul_le_self ..
    have above : n < (n / plan.bundleSize.toNat + 1) * plan.bundleSize.toNat := by
      rw [Nat.mul_comm]
      exact Nat.lt_mul_div_succ n size
    exact ⟨_,(lt_ranges positive).mpr (below.trans_lt inside),n,
      Finset.mem_Ico.mpr ⟨below,lt_min above inside⟩,refuses⟩

/-- The first element that is rejected is the one whose number the rule gives. -/
theorem refuses_iff : (∃ n < plan.elements.toNat, p.Refuses n) ↔
    p.failEvery ≠ 0 ∧ p.failEvery < plan.elements := by
  rw [UInt64.lt_iff_toNat_lt]
  constructor
  · rintro ⟨n,inside,rule,above,divides⟩
    exact ⟨rule,(Nat.le_of_dvd above divides).trans_lt inside⟩
  · rintro ⟨rule,inside⟩
    have above : 0 < p.failEvery.toNat :=
      UInt64.lt_iff_toNat_lt.mp (UInt64.pos_iff_ne_zero.mpr rule)
    exact ⟨_,inside,rule,above,dvd_rfl⟩

theorem failing_eq_zero (positive : 0 < plan.bundleSize) :
    plan.failing p = 0 ↔ p.failEvery = 0 ∨ plan.elements ≤ p.failEvery := by
  have all : plan.failing p = 0 ↔ ¬∃ j < plan.ranges, plan.Fails p j := by
    simp [failing,Finset.filter_eq_empty_iff]
  rw [all,fails_iff positive,refuses_iff,not_and_or,ne_eq,not_not,UInt64.not_lt]

end Plan

namespace Run

variable {stock : Stock} {name : String} {prototype : Enricher}
  {outcome : Except TeardownErrors Summary} {past : List Turn} {r next : Run} {cancelled : Bool}
  {move : Move} {events : List Event}

theorem Course.failed_exact (course : Course (fresh plan (.fresh name prototype)) false past r)
    (over' : r.phase = .ended outcome) (positive : 0 < plan.bundleSize) (staffed : 0 < plan.workers)
    (small : (plan.ranges + plan.workers) * plan.bundleSize.toNat < UInt64.size) :
    ∃ summary, outcome = .ok summary ∧ summary.failedBundles.toNat = plan.failing prototype := by
  have plans : r.plan = plan := course.plans
  have inside := course.inside positive small
  have exhausting := course.exhausting_of_inside positive inside
  obtain ⟨standing,tallied,same,joined,_⟩ := course.accounted.over over'
  have claims := exhausting.claims course.inOrder (plans ▸ positive)
    (plans ▸ fun x member _ => inside x member)
  have complete := exhausting.complete_of_ended course.crewed (by simp [over'])
    (plans ▸ staffed) joined.ended
  rw [plans] at claims complete
  rw [Nat.min_eq_right complete] at claims
  have totals := joined.totals positive le_rfl claims
  have fails : plan.failing prototype ≤ plan.ranges :=
    (Finset.card_filter_le ..).trans_eq (Finset.card_range _)
  have few := (fails.trans (Plan.ranges_le positive)).trans_lt plan.elements.toNat_lt
  exact ⟨_,same,(congrArg (·.failedBundles.toNat) totals).trans (UInt64.toNat_ofNat_of_lt' few)⟩

theorem Course.stands {told : Bool}
    (course : Course (fresh plan (.fresh name prototype)) told past r)
    (over' : r.phase = .ended outcome) : r.step cancelled move = none := by
  obtain ⟨standing,tallied,_,joined,_⟩ := course.accounted.over over'
  refine Option.eq_none_iff_forall_ne_some.mpr fun ⟨next,events⟩ moved => ?_
  cases step_change moved with
  | take i thread stock waits => cases joined.ended i _ waits
  | work i thread runs => cases joined.ended i _ runs
  | coordinate coordinating => cases coordinating <;> simp_all

end Run
end Pipeline

def MainPoint.isGraceful : MainPoint → Bool
  | .awaiting (.failing _) | .awaiting (.ended (some _)) | .givingUp _ | .surveying _
  | .tearingDown _ _ | .regretting _ _ | .exited (.notGraceful _) => false
  | .awaiting _ | .joining | .exited _ => true

def MainPoint.rank : MainPoint → Nat
  | .awaiting .trigger => 0
  | .awaiting .cancelling => 1
  | .awaiting .timing => 2
  | .awaiting (.waiting _ _ .fresh) => 3
  | .awaiting (.waiting _ _ (.listening _)) => 4
  | .awaiting (.waiting _ _ .satisfied) => 5
  | .awaiting .succeeding => 6
  | .awaiting (.ended none) => 7
  | .joining => 8
  | .exited _ => 9
  | _ => 0

def RunnerPoint.rank : RunnerPoint → Nat
  | .running => 0
  | .finishing => 1
  | .notifying => 2
  | .cancelling => 3
  | .ended => 4

theorem MainPoint.rank_le (main : MainPoint) : main.rank ≤ 9 := by
  unfold rank
  split <;> decide

theorem RunnerPoint.rank_le (runner : RunnerPoint) : runner.rank ≤ 4 := by
  cases runner <;> decide

def Exit.ofSummary (summary : Summary) : Exit :=
  if 0 < summary.failedBundles then .bundlesFailed summary.failedBundles else .success

namespace Exit

variable {summary : Summary}

theorem ofSummary_success : ofSummary summary = .success ↔ summary.failedBundles = 0 := by
  unfold ofSummary
  split
  next fails => simpa using UInt64.pos_iff_ne_zero.mp fails
  next none => simpa [UInt64.pos_iff_ne_zero] using none

theorem ofSummary_failed (fails : ofSummary summary ≠ .success) :
    ofSummary summary = .bundlesFailed summary.failedBundles :=
  if_pos (UInt64.pos_iff_ne_zero.mpr (mt ofSummary_success.mpr fails))

end Exit

namespace Session

def Move.isStep : Move → Bool
  | .main | .runner | .pool _ => true
  | .interrupt | .pass _ => false

/-- The schedules of a session that nobody interrupts. -/
inductive Undisturbed (initial : Session) : List Move → Session → Prop
  | start : Undisturbed initial [] initial
  | step {past : List Move} {s next : Session} (move : Move) (logs : List LogEvent)
      (before : Undisturbed initial past s) (quiet : move ≠ .interrupt)
      (moved : s.step move = some (next,logs)) : Undisturbed initial (past ++ [move]) next

inductive Patient (run : Run) : RunnerPoint → MainPoint → Prop
  | trigger (runner : RunnerPoint) : Patient run runner (.awaiting .trigger)
  | cancelling : Patient run .ended (.awaiting .cancelling)
  | timing : Patient run .ended (.awaiting .timing)
  | waiting (timeout : Duration) (deadline : Nat) (waiter : Waiter)
      (awake : ∀ since, waiter ≠ .asleep since) :
      Patient run .ended (.awaiting (.waiting timeout deadline waiter))
  | succeeding : Patient run .ended (.awaiting .succeeding)
  | ended : Patient run .ended (.awaiting (.ended none))
  | joining : Patient run .ended .joining
  | exited (summary : Summary) (outcome : run.outcome? = some (.ok summary)) :
      Patient run .ended (.exited (.ofSummary summary))

theorem Patient.graceful {run : Run} {runner : RunnerPoint} {main : MainPoint}
    (patient : Patient run runner main) : main.isGraceful = true := by
  cases patient with
  | exited => unfold Exit.ofSummary; split <;> rfl
  | _ => rfl

structure Proceeding (plan : Plan) (name : String) (prototype : Enricher) (past : List Move)
    (s : Session) : Prop where
  course : ∃ turns, Run.Course (.fresh plan (.fresh name prototype)) false turns s.run ∧
    past.countP Move.isStep ≤ turns.length + s.runner.rank + s.main.rank
  kept : s.aborted = false
  quiet : s.interrupted = false
  over' : s.runner ≠ .running → ∃ outcome, s.run.phase = .ended outcome
  cancelled : s.shutdown.cancelled = true ↔ s.runner = .ended
  pending : s.shutdown.latch.pending = if s.runner.rank ≤ 1 then 1 else 0
  patient : Patient s.run s.runner s.main

variable {plan : Plan} {name : String} {prototype : Enricher} {past : List Move} {s next : Session}
  {logs : List LogEvent} {move : Move}

private theorem countP_append_step (step : move.isStep = true) :
    (past ++ [move]).countP Move.isStep = past.countP Move.isStep + 1 := by
  simp [step]

theorem Proceeding.go {main : MainPoint} (proceeding : Proceeding plan name prototype past s)
    (farther : s.main.rank < main.rank) (patient : Patient s.run s.runner main) :
    Proceeding plan name prototype (past ++ [.main]) { s with main } := by
  obtain ⟨⟨turns,course,steps⟩,kept,quiet,over',cancelled,pending,_⟩ := proceeding
  refine ⟨⟨turns,course,?_⟩,kept,quiet,over',cancelled,pending,patient⟩
  rw [countP_append_step rfl]
  change _ ≤ turns.length + s.runner.rank + main.rank
  omega

theorem mainStep_await {await : Await} (stands : s.main = .awaiting await)
    (waits : ∀ failure, await ≠ .ended failure) (moved : s.mainStep = some (next,logs)) :
    ∃ await' shutdown, await.step s.shutdown s.interrupted s.clock = some (await',shutdown,logs) ∧
      next = { s with main := .awaiting await', shutdown } := by
  unfold mainStep at moved
  split at moved
  next ended => exact absurd (MainPoint.awaiting.inj (stands.symm.trans ended)) (waits _)
  next ended => exact absurd (MainPoint.awaiting.inj (stands.symm.trans ended)) (waits _)
  next here =>
    obtain rfl := MainPoint.awaiting.inj (stands.symm.trans here)
    split at moved
    next await' shutdown told stepped =>
      cases moved
      exact ⟨await',shutdown,stepped,rfl⟩
    next => contradiction
  all_goals
    rename_i here
    cases stands.symm.trans here

/-- Nobody who awaits the shutdown of such a session ever fails to go on: the token is cancelled
only after the latch is empty. -/
theorem Proceeding.await {await await' : Await} {shutdown : Shutdown}
    (proceeding : Proceeding plan name prototype past s) (stands : s.main = .awaiting await)
    (stepped : await.step s.shutdown s.interrupted s.clock = some (await',shutdown,logs)) :
    shutdown = s.shutdown ∧ MainPoint.rank (.awaiting await) < MainPoint.rank (.awaiting await') ∧
      Patient s.run s.runner (.awaiting await') := by
  have cancelled := proceeding.cancelled
  have pending := proceeding.pending
  have patient := proceeding.patient
  rw [stands] at patient
  generalize s.runner = runner at cancelled pending patient ⊢
  cases patient with
  | trigger =>
    simp only [Await.step,proceeding.quiet,Bool.false_eq_true,if_false] at stepped
    split at stepped
    next told =>
      cases stepped
      obtain rfl := cancelled.mp told
      exact ⟨rfl,by decide,.cancelling⟩
    next => contradiction
  | cancelling =>
    cases stepped
    have told := cancelled.mpr rfl
    exact ⟨by rw [Shutdown.cancel,← told],by decide,.timing⟩
  | timing =>
    cases stepped
    exact ⟨rfl,by simp [MainPoint.rank],.waiting _ _ .fresh (by simp)⟩
  | waiting timeout deadline waiter awake =>
    have empty : s.shutdown.latch.pending = 0 := pending
    cases waiter with
    | fresh =>
      cases stepped
      exact ⟨rfl,by simp [MainPoint.rank],.waiting _ _ (.listening _) (by simp)⟩
    | listening since =>
      simp only [Await.step,Waiter.step,empty,if_true] at stepped
      cases stepped
      exact ⟨rfl,by simp [MainPoint.rank],.waiting _ _ .satisfied (by simp)⟩
    | asleep since => exact absurd rfl (awake since)
    | satisfied =>
      cases stepped
      exact ⟨rfl,by simp [MainPoint.rank],.succeeding⟩
  | succeeding =>
    cases stepped
    exact ⟨rfl,by decide,.ended⟩
  | ended => contradiction

theorem Proceeding.main (proceeding : Proceeding plan name prototype past s)
    (positive : 0 < plan.bundleSize) (staffed : 0 < plan.workers)
    (small : (plan.ranges + plan.workers) * plan.bundleSize.toNat < UInt64.size)
    (moved : s.mainStep = some (next,logs)) :
    Proceeding plan name prototype (past ++ [.main]) next := by
  have go {await : Await} (stands : s.main = .awaiting await)
      (waits : ∀ failure, await ≠ .ended failure) :
      Proceeding plan name prototype (past ++ [.main]) next := by
    obtain ⟨await',shutdown,stepped,rfl⟩ := mainStep_await stands waits moved
    obtain ⟨rfl,farther,patient⟩ := proceeding.await stands stepped
    exact proceeding.go (stands ▸ farther) patient
  have patient := proceeding.patient
  generalize stands : s.main = main at patient
  generalize here : s.runner = runner at patient
  cases patient with
  | trigger | cancelling | timing | waiting | succeeding => exact go stands (by simp)
  | ended =>
    simp only [mainStep,stands] at moved
    cases moved
    exact proceeding.go (by rw [stands]; decide) (here ▸ .joining)
  | joining =>
    obtain ⟨outcome,phase⟩ := proceeding.over' (by simp [here])
    obtain ⟨turns,course,_⟩ := proceeding.course
    obtain ⟨summary,rfl,_⟩ := course.failed_exact phase positive staffed small
    have ended : s.run.outcome? = some (.ok summary) := by simp [Run.outcome?,phase]
    have exits : Proceeding plan name prototype (past ++ [.main])
        { s with main := .exited (.ofSummary summary) } :=
      proceeding.go (by simp [stands,MainPoint.rank]) (here ▸ .exited summary ended)
    have moves : s.mainStep = some ({ s with main := .exited (.ofSummary summary) },
        [.runComplete summary.bundles.toNat summary.failedBundles.toNat summary.elements.toNat
          summary.cancelled]) := by
      simp [mainStep,stands,here,ended,Exit.ofSummary]
    cases moves.symm.trans moved
    exact exits
  | exited summary outcome => simp [mainStep,stands] at moved

theorem Proceeding.turn {run : Run} {events : List Run.Event} {step : Run.Move}
    (proceeding : Proceeding plan name prototype past s) (moves : move.isStep = true)
    (running : s.runner = .running) (stepped : s.run.step false step = some (run,events)) :
    Proceeding plan name prototype (past ++ [move]) { s with run } := by
  obtain ⟨⟨turns,course,steps⟩,kept,quiet,_,cancelled,pending,patient⟩ := proceeding
  refine ⟨⟨_,course.step step events stepped,?_⟩,kept,quiet,fun ended => absurd running ended,
    cancelled,pending,?_⟩
  · rw [countP_append_step moves,List.length_append]
    change _ ≤ turns.length + 1 + s.runner.rank + s.main.rank
    omega
  · change Patient run s.runner s.main
    rw [running] at patient ⊢
    generalize s.main = main at patient
    cases patient
    exact .trigger _

theorem Proceeding.advance {runner : RunnerPoint} {shutdown : Shutdown}
    (proceeding : Proceeding plan name prototype past s) (before : s.runner ≠ .ended)
    (farther : s.runner.rank < runner.rank) (over' : ∃ outcome, s.run.phase = .ended outcome)
    (cancelled : shutdown.cancelled = true ↔ runner = .ended)
    (pending : shutdown.latch.pending = if runner.rank ≤ 1 then 1 else 0) :
    Proceeding plan name prototype (past ++ [.runner]) { s with shutdown, runner } := by
  obtain ⟨⟨turns,course,steps⟩,kept,quiet,_,_,_,patient⟩ := proceeding
  refine ⟨⟨turns,course,?_⟩,kept,quiet,fun _ => over',cancelled,pending,?_⟩
  · rw [countP_append_step rfl]
    change _ ≤ turns.length + runner.rank + s.main.rank
    omega
  · change Patient s.run runner s.main
    generalize s.runner = sooner at before patient
    generalize s.main = main at patient
    cases patient with
    | trigger => exact .trigger runner
    | _ => contradiction

/-- The runner empties the latch before it cancels the token, and both only after the run. -/
theorem Proceeding.runner (proceeding : Proceeding plan name prototype past s)
    (moved : s.runnerStep = some (next,logs)) :
    Proceeding plan name prototype (past ++ [.runner]) next := by
  have cancelled := proceeding.cancelled
  have pending := proceeding.pending
  cases here : s.runner with
  | running =>
    simp only [runnerStep,here] at moved
    split at moved
    next outcome phase =>
      cases moved
      simp only [here] at cancelled pending
      exact proceeding.advance (by simp [here]) (by simp [here,RunnerPoint.rank]) ⟨outcome,phase⟩
        (by simp [cancelled]) (by simpa [RunnerPoint.rank] using pending)
    next going =>
      have free : s.isGivenUp = false := by simp [isGivenUp,proceeding.kept]
      rw [if_neg (by simp [free])] at moved
      split at moved
      next run events coordinated =>
        cases moved
        have stepped : s.run.step false .coordinate = some (run,events) := coordinated
        simpa only [here] using
          proceeding.turn (rfl : Move.isStep .runner = true) here stepped
      next => contradiction
  | finishing =>
    have over' := proceeding.over' (by simp [here])
    have one : s.shutdown.latch.pending = 1 := by rw [pending,here]; rfl
    simp only [runnerStep,here,Latch.finish,one] at moved
    cases moved
    exact proceeding.advance (by simp [here]) (by simp [here,RunnerPoint.rank]) over'
      (by simp [cancelled,here]) (by simp [RunnerPoint.rank])
  | notifying =>
    have over' := proceeding.over' (by simp [here])
    simp only [runnerStep,here] at moved
    cases moved
    exact proceeding.advance (by simp [here]) (by simp [here,RunnerPoint.rank]) over'
      (by simp [cancelled,here]) (by simpa [here,RunnerPoint.rank,Latch.notify] using pending)
  | cancelling =>
    have over' := proceeding.over' (by simp [here])
    simp only [runnerStep,here] at moved
    cases moved
    exact proceeding.advance (by simp [here]) (by simp [here,RunnerPoint.rank]) over'
      (by simp [Shutdown.cancel])
      (by simpa [here,RunnerPoint.rank,Shutdown.cancel] using pending)
  | ended => simp [runnerStep,here] at moved

/-- The tasks of the run go on while it has not ended. -/
theorem Proceeding.pool {step : Run.Move} (proceeding : Proceeding plan name prototype past s)
    (moved : s.step (.pool step) = some (next,logs)) :
    Proceeding plan name prototype (past ++ [.pool step]) next := by
  have stepped : ∃ run events, s.run.step s.shutdown.cancelled step = some (run,events) ∧
      next = { s with run } := by
    cases step with
    | coordinate => contradiction
    | _ =>
      simp only [Session.step] at moved
      split at moved
      next run events stepped => cases moved; exact ⟨run,events,stepped,rfl⟩
      next => contradiction
  obtain ⟨run,events,stepped,rfl⟩ := stepped
  by_cases here : s.runner = .running
  · have untold : s.shutdown.cancelled = false := by
      rw [Bool.eq_false_iff,ne_eq,proceeding.cancelled,here]
      simp
    rw [untold] at stepped
    exact proceeding.turn (rfl : Move.isStep (.pool step) = true) here stepped
  · -- The runner leaves the run only when it is over, and nothing moves after that.
    obtain ⟨outcome,phase⟩ := proceeding.over' here
    obtain ⟨turns,course,_⟩ := proceeding.course
    cases (course.stands phase).symm.trans stepped

theorem Proceeding.pass {nanoseconds : Nat} (proceeding : Proceeding plan name prototype past s) :
    Proceeding plan name prototype (past ++ [.pass nanoseconds])
      { s with clock := s.clock + nanoseconds } := by
  obtain ⟨⟨turns,course,steps⟩,kept,quiet,over',cancelled,pending,patient⟩ := proceeding
  have steps' : (past ++ [Move.pass nanoseconds]).countP Move.isStep ≤
      turns.length + s.runner.rank + s.main.rank := by simpa [Move.isStep] using steps
  exact ⟨⟨turns,course,steps'⟩,kept,quiet,over',cancelled,pending,patient⟩

/-- Until the session has exited someone can take a step, without any time passing. -/
theorem Proceeding.goes_on (proceeding : Proceeding plan name prototype past s)
    (positive : 0 < plan.bundleSize) (staffed : 0 < plan.workers)
    (small : (plan.ranges + plan.workers) * plan.bundleSize.toNat < UInt64.size) :
    s.exit?.isSome = true ∨ ∃ move, move.isStep = true ∧ (s.step move).isSome = true := by
  have cancelled := proceeding.cancelled
  have pending := proceeding.pending
  cases here : s.runner with
  | running =>
    have untold : s.shutdown.cancelled = false := by
      rw [Bool.eq_false_iff,ne_eq,cancelled,here]
      simp
    have free : s.isGivenUp = false := by simp [isGivenUp,proceeding.kept]
    obtain ⟨turns,course,_⟩ := proceeding.course
    obtain ⟨outcome,phase⟩ | ⟨move,run,events,stepped⟩ := course.goes_on
    · exact .inr ⟨.runner,rfl,by simp [Session.step,runnerStep,here,phase]⟩
    by_cases coordinates : move = .coordinate
    · have coordinated : s.run.coordinate = some (run,events) := by rw [← stepped,coordinates]; rfl
      refine .inr ⟨.runner,rfl,?_⟩
      simp only [Session.step,runnerStep,here]
      split
      next => rfl
      next => simp [free,coordinated]
    · exact .inr ⟨.pool move,rfl,by cases move <;> simp_all [Session.step]⟩
  | finishing | notifying | cancelling =>
    exact .inr ⟨.runner,rfl,by simp only [Session.step,runnerStep,here]; rfl⟩
  | ended =>
    have told : s.shutdown.cancelled = true := cancelled.mpr here
    have empty : s.shutdown.latch.pending = 0 := by rw [pending,here]; rfl
    have patient := proceeding.patient
    rw [here] at patient
    generalize stands : s.main = main at patient
    have go (stepped : s.mainStep.isSome = true) :
        s.exit?.isSome = true ∨ ∃ move, move.isStep = true ∧ (s.step move).isSome = true :=
      .inr ⟨.main,rfl,stepped⟩
    cases patient with
    | trigger => exact go (by simp [mainStep,stands,Await.step,told,proceeding.quiet])
    | cancelling | timing | succeeding | ended => exact go (by simp [mainStep,stands,Await.step])
    | waiting timeout deadline waiter awake =>
      cases waiter with
      | asleep since => exact absurd rfl (awake since)
      | _ => exact go (by simp [mainStep,stands,Await.step,Waiter.step])
    | joining =>
      obtain ⟨outcome,phase⟩ := proceeding.over' (by simp [here])
      obtain ⟨turns,course,_⟩ := proceeding.course
      obtain ⟨summary,rfl,_⟩ := course.failed_exact phase positive staffed small
      exact go (by simp [mainStep,stands,here,Run.outcome?,phase])
    | exited => exact .inl (by simp [exit?,stands])

theorem Proceeding.exit {exit : Exit} (proceeding : Proceeding plan name prototype past s)
    (positive : 0 < plan.bundleSize) (staffed : 0 < plan.workers)
    (small : (plan.ranges + plan.workers) * plan.bundleSize.toNat < UInt64.size)
    (exited : s.exit? = some exit) :
    ∃ summary, exit = .ofSummary summary ∧
      summary.failedBundles.toNat = plan.failing prototype := by
  have patient := proceeding.patient
  generalize here : s.runner = runner at patient
  generalize stands : s.main = main at patient
  cases patient with
  | exited summary ended =>
    obtain rfl : Exit.ofSummary summary = exit := by simpa [exit?,stands] using exited
    -- The runner has been joined, so the run that it reports on is over.
    obtain ⟨outcome,phase⟩ := proceeding.over' (by simp [here])
    obtain ⟨turns,course,_⟩ := proceeding.course
    obtain ⟨total,rfl,failed⟩ := course.failed_exact phase positive staffed small
    obtain rfl : total = summary := by simpa [Run.outcome?,phase] using ended
    exact ⟨total,rfl,failed⟩
  | _ => simp [exit?,stands] at exited

def fresh (c : Config) (cores : Nat) : Session where
  run := .fresh (.ofConfig c cores) (.fresh c.pipelineName (Pipeline.prototype c))
  shutdown := Shutdown.add { timeout := c.gracefulTimeout } 1

theorem start_eq (c : Config) (cores : Nat) : Session.start c cores = .ok (fresh c cores) := by
  simp only [Session.start,Stock.ofConfig,Stock.start_eq]
  rfl

theorem Undisturbed.proceeding {c : Config} {cores : Nat}
    (staffed : 0 < (Plan.ofConfig c cores).workers)
    (small : ((Plan.ofConfig c cores).ranges + (Plan.ofConfig c cores).workers) *
      c.bundleSize.toNat < UInt64.size)
    (undisturbed : Undisturbed (fresh c cores) past s) :
    Proceeding (.ofConfig c cores) c.pipelineName (Pipeline.prototype c) past s := by
  induction undisturbed with
  | start =>
    exact ⟨⟨[],.start,Nat.zero_le _⟩,rfl,rfl,fun ended => absurd rfl ended,
      by simp [fresh,Shutdown.add],rfl,.trigger _⟩
  | step move logs before quiet moved ih =>
    cases move with
    | main => exact ih.main c.bundleSize_pos staffed small moved
    | runner => exact ih.runner moved
    | pool step => exact ih.pool moved
    | interrupt => contradiction
    | pass nanoseconds =>
      cases moved
      exact ih.pass

theorem workers_pos {c : Config} {cores : Nat} (machine : 0 < cores) :
    0 < (Plan.ofConfig c cores).workers := by
  change 0 < c.workers cores
  unfold Config.workers Config.fixedWorkers?
  split
  next workers _ =>
    split
    next => exact machine
    next some => exact Nat.pos_of_ne_zero fun zero => some (UInt64.toNat_inj.mp zero)
  next => exact machine

/-- In a session that nobody interrupts the run ends by itself and is never given up, whatever the
time the shutdown grants and however much time passes; the exit tells exactly whether the rule
rejects an element, and how many bundles have one. -/
theorem Undisturbed.exits_exactly (c : Config) (cores : Nat) (machine : 0 < cores)
    (small : ((Plan.ofConfig c cores).ranges + (Plan.ofConfig c cores).workers) *
      c.bundleSize.toNat < UInt64.size) :
    ∃ initial, Session.start c cores = .ok initial ∧
      ∀ past s, Undisturbed initial past s →
        (s.main.isGraceful = true ∧ s.aborted = false) ∧
        (past.countP Move.isStep ≤ (Plan.ofConfig c cores).steps + 13 ∧
          (s.exit?.isSome = true ∨
            ∃ move, move.isStep = true ∧ (s.step move).isSome = true)) ∧
        ∀ exit, s.exit? = some exit →
          (exit = .success ↔ c.failEvery = 0 ∨ c.elements ≤ c.failEvery) ∧
          (exit ≠ .success → ∃ count, exit = .bundlesFailed count ∧
            count.toNat = (Plan.ofConfig c cores).failing (Pipeline.prototype c)) := by
  have staffed := workers_pos (c := c) machine
  refine ⟨_,start_eq c cores,fun past s undisturbed => ?_⟩
  have proceeding := undisturbed.proceeding staffed small
  have positive : 0 < (Plan.ofConfig c cores).bundleSize := c.bundleSize_pos
  obtain ⟨turns,course,steps⟩ := proceeding.course
  have exhausting := course.exhausting_of_inside positive (course.inside positive small)
  have turns_le := course.length_le exhausting
  refine ⟨⟨proceeding.patient.graceful,proceeding.kept⟩,
    ⟨?_,proceeding.goes_on positive staffed small⟩,fun exit exited => ?_⟩
  · have runner := s.runner.rank_le
    have main := s.main.rank_le
    omega
  · obtain ⟨summary,rfl,failed⟩ := proceeding.exit positive staffed small exited
    have clean := Plan.failing_eq_zero (p := Pipeline.prototype c) positive
    change _ ↔ c.failEvery = 0 ∨ c.elements ≤ c.failEvery at clean
    have success : Exit.ofSummary summary = .success ↔
        c.failEvery = 0 ∨ c.elements ≤ c.failEvery := by
      rw [Exit.ofSummary_success,← clean,← failed]
      exact UInt64.toNat_inj.symm
    exact ⟨success,fun fails => ⟨_,Exit.ofSummary_failed fails,failed⟩⟩

/-- A session that always goes on and takes boundedly many steps can be taken to its exit. -/
theorem Undisturbed.completes {initial : Session} {bound : Nat}
    (goes : ∀ past s, Undisturbed initial past s → past.countP Move.isStep ≤ bound ∧
      (s.exit?.isSome = true ∨ ∃ move, move.isStep = true ∧ (s.step move).isSome = true)) :
    ∃ past s exit, Undisturbed initial past s ∧ s.exit? = some exit := by
  suffices ∀ left past s, Undisturbed initial past s → bound + 1 - past.countP Move.isStep = left →
      ∃ past s exit, Undisturbed initial past s ∧ s.exit? = some exit from
    this _ _ _ .start rfl
  intro left
  induction left with
  | zero =>
    intro past s undisturbed fuel
    have within := (goes past s undisturbed).1
    omega
  | succ left ih =>
    intro past s undisturbed fuel
    obtain ⟨within,exited | ⟨move,steps,moves⟩⟩ := goes past s undisturbed
    · obtain ⟨exit,exited⟩ := Option.isSome_iff_exists.mp exited
      exact ⟨past,s,exit,undisturbed,exited⟩
    · obtain ⟨⟨next,logs⟩,moved⟩ := Option.isSome_iff_exists.mp moves
      refine ih _ _ (undisturbed.step move logs (by rintro rfl; contradiction) moved) ?_
      rw [countP_append_step steps]
      omega

/-- Two workers that share ten elements, of which two are rejected, under a shutdown that grants
no time. -/
def hasty : Config where
  env := "test"
  runtime := some { workers := 2 }
  pipeline := some { elements := some 10, bundleSize := some 3, failEvery := 4 }
  shutdown := some { gracefulTimeout := some (.ofSeconds 0) }

theorem exits_exactly_of_hasty : ∃ initial past s, Session.start hasty 1 = .ok initial ∧
    Undisturbed initial past s ∧ s.exit? = some (.bundlesFailed 2) := by
  obtain ⟨initial,started,exact'⟩ :=
    Undisturbed.exits_exactly hasty 1 (by decide) (by decide +kernel)
  obtain ⟨past,s,exit,undisturbed,exited⟩ :=
    Undisturbed.completes fun past s undisturbed => (exact' past s undisturbed).2.1
  obtain ⟨success,fails⟩ := (exact' past s undisturbed).2.2 exit exited
  obtain ⟨count,rfl,failed⟩ := fails (mt success.mp (by decide))
  have two : count = 2 := UInt64.toNat_inj.mp (failed.trans (by decide +kernel))
  exact ⟨initial,past,s,started,undisturbed,two ▸ exited⟩

end Session
end PerWorker
