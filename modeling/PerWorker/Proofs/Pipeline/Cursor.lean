import PerWorker.Proofs.Pipeline.Course
import Mathlib.Data.List.Pairwise
import Mathlib.Algebra.Order.Floor.Div

/-!
The shared cursor of a run. The fetches of a course return the multiples of the bundle size, in
order and modulo the range of the cursor. Main statement: as long as the fetches that come after the
input is exhausted stay beyond it, and one for each worker can, no element is claimed twice.
-/
namespace PerWorker.Pipeline

namespace Plan

/-- What the fetch with this number returns. -/
def start (plan : Plan) (j : Nat) : UInt64 := UInt64.ofNat (j * plan.bundleSize.toNat)

def ranges (plan : Plan) : Nat := plan.elements.toNat ⌈/⌉ plan.bundleSize.toNat

def range (plan : Plan) (j : Nat) : Bundle where
  first := plan.start j
  last := UInt64.ofNat (min ((j + 1) * plan.bundleSize.toNat) plan.elements.toNat)

def bundleAt? (plan : Plan) (first : UInt64) : Option Bundle :=
  if plan.elements ≤ first then none
  else some ⟨first,min (first + plan.bundleSize) plan.elements⟩

variable {plan : Plan} {j : Nat}

theorem start_succ : plan.start (j + 1) = plan.start j + plan.bundleSize := by
  apply UInt64.toNat_inj.mp
  simp [start,Nat.add_mul]

theorem lt_ranges (positive : 0 < plan.bundleSize) :
    j < plan.ranges ↔ j * plan.bundleSize.toNat < plan.elements.toNat := by
  have size : 0 < plan.bundleSize.toNat := UInt64.lt_iff_toNat_lt.mp positive
  rw [ranges,← not_le,ceilDiv_le_iff_le_mul size,not_le,Nat.mul_comm]

theorem ranges_le (positive : 0 < plan.bundleSize) : plan.ranges ≤ plan.elements.toNat := by
  refine Nat.not_lt.mp fun less => ?_
  have below := (lt_ranges positive).mp less
  have size : 0 < plan.bundleSize.toNat := UInt64.lt_iff_toNat_lt.mp positive
  exact absurd (Nat.le_mul_of_pos_right plan.elements.toNat size) (Nat.not_le.mpr below)

theorem start_toNat (positive : 0 < plan.bundleSize) (inside : j < plan.ranges) :
    (plan.start j).toNat = j * plan.bundleSize.toNat := by
  have below := (lt_ranges positive).mp inside
  have bound := plan.elements.toNat_lt
  rw [start,UInt64.toNat_ofNat',Nat.mod_eq_of_lt (by omega)]

theorem le_start (positive : 0 < plan.bundleSize) (beyond : plan.ranges ≤ j)
    (start : (plan.start j).toNat = j * plan.bundleSize.toNat) : plan.elements ≤ plan.start j := by
  rw [UInt64.le_iff_toNat_le,start]
  exact Nat.not_lt.mp fun less => absurd ((lt_ranges positive).mpr less) (Nat.not_lt.mpr beyond)

theorem start_lt (positive : 0 < plan.bundleSize) (inside : j < plan.ranges) :
    plan.start j < plan.elements := by
  rw [UInt64.lt_iff_toNat_lt,start_toNat positive inside]
  exact (lt_ranges positive).mp inside

end Plan

def Task.isEnded : Task → Bool
  | .ended _ => true
  | _ => false

namespace Run

def ended (r : Run) : Nat := r.tasks.countP Task.isEnded

def Turn.fetched? (turn : Turn) : Option UInt64 :=
  match turn.move with
  | .work i =>
    match turn.run.tasks[i]? with
    | some (.running _ .claim _) => some turn.run.cursor
    | _ => none
  | _ => none

def fetched (past : List Turn) : List UInt64 := past.filterMap Turn.fetched?

def Event.claimed? : Event → Option Bundle
  | .claimed _ bundle => some bundle
  | _ => none

def claimed (past : List Turn) : List Bundle :=
  past.flatMap fun turn => turn.events.filterMap Event.claimed?

variable {plan : Plan} {stock : Stock} {initial r next : Run} {cancelled : Bool} {move : Move}
  {events : List Event} {past : List Turn}

theorem claimed?_called (thread : Nat) (told : List (PerWorker.Event Nat)) :
    (told.map (Event.called thread)).filterMap Event.claimed? = [] := by
  simp [List.filterMap_map,Function.comp_def,Event.claimed?]

theorem claimed?_logged (logs : ∀ e ∈ events, ∃ told, e = .logged told) :
    events.filterMap Event.claimed? = [] := by
  refine List.filterMap_eq_nil_iff.mpr fun event member => ?_
  obtain ⟨told,rfl⟩ := logs event member
  rfl

inductive Fetches (r : Run) : Option UInt64 → List Bundle → Run → Prop
  | still {next : Run} (cursor : next.cursor = r.cursor) : Fetches r none [] next
  | fetch {bundles : List Bundle} {next : Run}
      (cursor : next.cursor = r.cursor + r.plan.bundleSize)
      (claims : bundles = (r.plan.bundleAt? r.cursor).toList) :
      Fetches r (some r.cursor) bundles next

theorem Change.fetches (change : Change r cancelled move events next) :
    Fetches r (Turn.fetched? ⟨r,move,events⟩) (events.filterMap Event.claimed?) next := by
  cases change with
  | take => exact .still rfl
  | work i thread runs working =>
    simp only [Turn.fetched?,runs]
    cases working with
    | exhausted spent => exact .fetch rfl (by simp [Plan.bundleAt?,spent])
    | claim bundle within same called =>
      have inside : ¬r.plan.elements ≤ r.cursor := UInt64.not_le.mpr within
      rw [List.filterMap_append,claimed?_called]
      exact .fetch rfl (by simp [Plan.bundleAt?,inside,same,Event.claimed?])
    | failed bundle reply events valueless logs =>
      rw [claimed?_logged logs]
      exact .still rfl
    | stop | look | done => exact .still rfl
    | _ =>
      rw [claimed?_called]
      exact .still rfl
  | coordinate coordinating =>
    simp only [Turn.fetched?]
    cases coordinating with
    | begin events starting logs | close drained counters events closing logs =>
      rw [claimed?_logged logs]
      exact .still rfl
    | join => exact .still rfl
    | drain | count =>
      rw [List.filterMap_append,claimed?_called,claimed?_called]
      exact .still rfl
    | _ =>
      rw [claimed?_called]
      exact .still rfl

theorem Change.plans (change : Change r cancelled move events next) : next.plan = r.plan := by
  cases change with
  | take => rfl
  | work i thread runs working => cases working <;> rfl
  | coordinate coordinating => cases coordinating <;> rfl

theorem Course.plans (course : Course initial cancelled past r) : r.plan = initial.plan := by
  induction course with
  | start => rfl
  | cancel before ih => exact ih
  | step move events before moved ih => exact (step_change moved).plans.trans ih

theorem fetched_append (turn : Turn) :
    fetched (past ++ [turn]) = fetched past ++ turn.fetched?.toList := by
  cases made : turn.fetched? <;> simp [fetched,made]

theorem claimed_append (turn : Turn) :
    claimed (past ++ [turn]) = claimed past ++ turn.events.filterMap Event.claimed? := by
  simp [claimed]

/-- The fetches of a course return the multiples of the bundle size in order, and each one below the
number of elements is a claim. -/
structure InOrder (past : List Turn) (r : Run) : Prop where
  order : fetched past = (List.range (fetched past).length).map r.plan.start
  cursor : r.cursor = r.plan.start (fetched past).length
  claims : claimed past = (fetched past).filterMap r.plan.bundleAt?

/-- Fetches return the multiples of the bundle size one after the other, whichever thread they are
for. -/
theorem InOrder.step (inOrder : InOrder past r) (change : Change r cancelled move events next) :
    InOrder (past ++ [⟨r,move,events⟩]) next := by
  obtain ⟨order,cursor,claims⟩ := inOrder
  have fetches := change.fetches
  generalize made : Turn.fetched? ⟨r,move,events⟩ = x at fetches
  generalize told : events.filterMap Event.claimed? = bundles at fetches
  cases fetches with
  | still same =>
    refine ⟨?_,?_,?_⟩ <;> simp only [fetched_append,claimed_append,change.plans,made,told,
      Option.toList_none,List.append_nil]
    · exact order
    · exact same.trans cursor
    · exact claims
  | fetch moved more =>
    refine ⟨?_,?_,?_⟩ <;> simp only [fetched_append,claimed_append,change.plans,made,told,
      Option.toList_some,List.length_append,List.length_singleton]
    · rw [List.range_succ,List.map_append,← order,cursor]
      rfl
    · rw [moved,cursor,Plan.start_succ]
    · rw [List.filterMap_append,← claims,more]
      cases found : r.plan.bundleAt? r.cursor <;> simp [found]

theorem Course.inOrder (course : Course (fresh plan stock) cancelled past r) : InOrder past r := by
  induction course with
  | start => exact ⟨rfl,by simp [fresh,Plan.start,fetched],rfl⟩
  | cancel before ih => exact ih
  | step move events before moved ih => exact ih.step (step_change moved)

theorem countP_setTask {p : Task → Bool} {i : Nat} {old : Task} (new : Task)
    (here : r.tasks[i]? = some old) : (r.setTask i new).tasks.countP p + (if p old then 1 else 0) =
      r.tasks.countP p + if p new then 1 else 0 := by
  obtain ⟨bound,rfl⟩ := Array.getElem?_eq_some_iff.mp here
  have some : (if p r.tasks[i] then 1 else 0) ≤ r.tasks.countP p := by
    split
    next holds => exact Array.countP_pos_iff.mpr ⟨_,Array.getElem_mem bound,holds⟩
    next => exact Nat.zero_le _
  simp only [setTask,Array.setIfInBounds,bound,dif_pos,Array.countP_set]
  omega

theorem ended_setTask {q : Run} {i : Nat} {old : Task} (new : Task) (here : r.tasks[i]? = some old)
    (tasks : q.tasks = r.tasks) : (q.setTask i new).ended + (if old.isEnded then 1 else 0) =
      r.ended + if new.isEnded then 1 else 0 := by
  have counted := countP_setTask (p := Task.isEnded) new (tasks ▸ here)
  rwa [tasks] at counted

theorem ended_lt {i thread : Nat} {point : TaskPoint} {thrown : List LifecycleError}
    (runs : r.tasks[i]? = some (.running thread point thrown)) : r.ended < r.tasks.size := by
  obtain ⟨bound,here⟩ := Array.getElem?_eq_some_iff.mp runs
  refine lt_of_le_of_ne Array.countP_le_size fun all => ?_
  have ended := Array.countP_eq_size.mp all _ (Array.getElem_mem bound)
  simp [here,Task.isEnded] at ended

structure Staffed (r next : Run) : Prop where
  tasks : next.tasks.size = r.tasks.size
  phase : next.phase = .starting ↔ r.phase = .starting

inductive Staffs (r : Run) (cancelled : Bool) : Option UInt64 → Run → Prop
  | begin {next : Run} (starting : r.phase = .starting) (begun : next.phase ≠ .starting)
      (tasks : next.tasks = Array.replicate r.plan.workers .waiting) : Staffs r cancelled none next
  | still {next : Run} (staffed : Staffed r next) (same : next.ended = r.ended) :
      Staffs r cancelled none next
  | stop {next : Run} (staffed : Staffed r next) (told : cancelled = true)
      (more : next.ended = r.ended + 1) : Staffs r cancelled none next
  | exhausted {next : Run} (staffed : Staffed r next) (spent : r.plan.elements ≤ r.cursor)
      (more : next.ended = r.ended + 1) (working : r.ended < r.tasks.size) :
      Staffs r cancelled (some r.cursor) next
  | claim {next : Run} (staffed : Staffed r next) (within : r.cursor < r.plan.elements)
      (same : next.ended = r.ended) (working : r.ended < r.tasks.size) :
      Staffs r cancelled (some r.cursor) next

theorem Working.staffs {i thread : Nat} {point : TaskPoint} {thrown : List LifecycleError}
    (runs : r.tasks[i]? = some (.running thread point thrown))
    (working : Working r cancelled i thread thrown point events next) :
    Staffs r cancelled (Turn.fetched? ⟨r,.work i,events⟩) next := by
  have set (q : Run) (task : Task) (tasks : q.tasks = r.tasks) :
      (q.setTask i task).ended = r.ended + if task.isEnded then 1 else 0 :=
    ended_setTask task runs tasks
  have staffed (q : Run) (task : Task) (tasks : q.tasks = r.tasks) (phase : q.phase = r.phase) :
      Staffed r (q.setTask i task) := ⟨by simp [setTask,tasks],by simp [setTask,phase]⟩
  simp only [Turn.fetched?,runs]
  cases working with
  | stop told => exact .stop (staffed _ _ rfl rfl) told (set _ _ rfl)
  | exhausted spent => exact .exhausted (staffed _ _ rfl rfl) spent (set _ _ rfl) (ended_lt runs)
  | claim bundle within same called =>
    exact .claim (staffed _ _ rfl rfl) within (set _ _ rfl) (ended_lt runs)
  | serve | release => exact .still ⟨rfl,Iff.rfl⟩ rfl
  | _ => exact .still (staffed _ _ rfl rfl) (set _ _ rfl)

theorem Change.staffs (change : Change r cancelled move events next) :
    Staffs r cancelled (Turn.fetched? ⟨r,move,events⟩) next := by
  cases change with
  | take i thread stock waits =>
    exact .still ⟨by simp [setTask],Iff.rfl⟩
      (ended_setTask (q := { r with stock }) (.running thread .check []) waits rfl)
  | work i thread runs working => exact working.staffs runs
  | coordinate coordinating =>
    simp only [Turn.fetched?]
    cases coordinating with
    | begin events starting => exact .begin starting (by simp) rfl
    | await => exact .still ⟨rfl,Iff.rfl⟩ rfl
    | _ => exact .still ⟨rfl,by simp [*]⟩ rfl

structure Crewed (past : List Turn) (r : Run) : Prop where
  idle : r.phase = .starting → r.tasks.size = 0 ∧ fetched past = []
  crew : r.phase ≠ .starting → r.tasks.size = r.plan.workers

theorem Crewed.size_le (crewed : Crewed past r) : r.tasks.size ≤ r.plan.workers := by
  by_cases starting : r.phase = .starting
  · have := (crewed.idle starting).1
    omega
  · exact (crewed.crew starting).le

theorem Crewed.begun (crewed : Crewed past r) (working : r.ended < r.tasks.size) :
    r.tasks.size = r.plan.workers := by
  refine crewed.crew fun starting => ?_
  have := (crewed.idle starting).1
  omega

theorem fetched_silent (none : Turn.fetched? ⟨r,move,events⟩ = none) :
    fetched (past ++ [⟨r,move,events⟩]) = fetched past := by
  rw [fetched_append,none,Option.toList_none,List.append_nil]

theorem fetched_more {x : UInt64} (some : Turn.fetched? ⟨r,move,events⟩ = some x) :
    (fetched (past ++ [⟨r,move,events⟩])).length = (fetched past).length + 1 := by
  rw [fetched_append,some,List.length_append]
  rfl

/-- A run has a task for each worker once it has begun, and none before. -/
theorem Crewed.step (crewed : Crewed past r) (change : Change r cancelled move events next) :
    Crewed (past ++ [⟨r,move,events⟩]) next := by
  have staffs := change.staffs
  have plans := change.plans
  generalize made : Turn.fetched? ⟨r,move,events⟩ = x at staffs
  have kept (staffed : Staffed r next) (busy : x ≠ none → r.ended < r.tasks.size) :
      Crewed (past ++ [⟨r,move,events⟩]) next := by
    refine ⟨fun starting => ?_,fun begun => ?_⟩
    · obtain ⟨empty,unfetched⟩ := crewed.idle (staffed.phase.mp starting)
      refine ⟨staffed.tasks.trans empty,?_⟩
      cases x with
      | none => rwa [fetched_silent made]
      | some x =>
        have := busy (by simp)
        omega
    · rw [staffed.tasks,plans]
      exact crewed.crew fun starting => begun (staffed.phase.mpr starting)
  cases staffs with
  | begin starting begun tasks =>
    refine ⟨fun again => absurd again begun,fun _ => ?_⟩
    rw [tasks,Array.size_replicate,plans]
  | still staffed | stop staffed => exact kept staffed (by simp)
  | exhausted staffed spent more working => exact kept staffed fun _ => working
  | claim staffed within same working => exact kept staffed fun _ => working

/-- From the number of ranges on, and one for each worker, the fetches stay beyond the input. -/
def Roomy (plan : Plan) : Prop :=
  ∀ j, plan.ranges ≤ j → j < plan.ranges + plan.workers → plan.elements ≤ plan.start j

theorem roomy_of_lt (positive : 0 < plan.bundleSize)
    (small : (plan.ranges + plan.workers - 1) * plan.bundleSize.toNat < UInt64.size) :
    Roomy plan := by
  intro j beyond within
  have bound : j * plan.bundleSize.toNat < UInt64.size :=
    (Nat.mul_le_mul_right _ (by omega)).trans_lt small
  refine Plan.le_start positive beyond ?_
  rw [Plan.start,UInt64.toNat_ofNat',Nat.mod_eq_of_lt bound]

/-- How many fetches there are. Those that come after the ranges end a task each. -/
structure Exhausting (cancelled : Bool) (past : List Turn) (r : Run) : Prop where
  bounded : (fetched past).length ≤ r.plan.ranges + r.ended
  beyond : ∀ j, r.plan.ranges ≤ j → j < (fetched past).length → r.plan.elements ≤ r.plan.start j
  complete : cancelled = false → r.ended = (fetched past).length - r.plan.ranges

/-- Once the input is used up every fetch ends a task, so that their number is bounded. -/
theorem Exhausting.step (positive : 0 < r.plan.bundleSize)
    (exhausting : Exhausting cancelled past r) (inOrder : InOrder past r) (crewed : Crewed past r)
    (change : Change r cancelled move events next)
    (late : r.ended < r.tasks.size → Turn.fetched? ⟨r,move,events⟩ = some r.cursor →
      r.plan.ranges ≤ (fetched past).length → r.plan.elements ≤ r.cursor) :
    Exhausting cancelled (past ++ [⟨r,move,events⟩]) next := by
  obtain ⟨bounded,beyond,complete⟩ := exhausting
  have staffs := change.staffs
  have cursor := inOrder.cursor
  generalize made : Turn.fetched? ⟨r,move,events⟩ = x at staffs late
  -- As long as a range is left the cursor is short of the end.
  have early (early : (fetched past).length < r.plan.ranges) : r.cursor < r.plan.elements := by
    rw [cursor]
    exact Plan.start_lt positive early
  cases staffs with
  | begin starting begun tasks =>
    have unfetched := (crewed.idle starting).2
    have ended : next.ended = 0 := by simp [Run.ended,tasks,Task.isEnded]
    refine ⟨?_,?_,fun _ => ?_⟩ <;> rw [fetched_silent made,change.plans] <;> simp [unfetched,ended]
  | still staffed same =>
    refine ⟨?_,?_,?_⟩ <;> rw [fetched_silent made,change.plans]
    · rwa [same]
    · exact beyond
    · rwa [same]
  | stop staffed told more =>
    refine ⟨?_,?_,?_⟩ <;> rw [fetched_silent made,change.plans]
    · omega
    · exact beyond
    · simp [told]
  | exhausted staffed spent more working =>
    have some : (fetched (past ++ [⟨r,move,events⟩])).length = (fetched past).length + 1 :=
      fetched_more made
    have past' : r.plan.ranges ≤ (fetched past).length :=
      Nat.not_lt.mp fun less => absurd (early less) (UInt64.not_lt.mpr spent)
    refine ⟨?_,fun j later within => ?_,fun open' => ?_⟩
    · rw [some,change.plans]
      omega
    · rw [change.plans] at later ⊢
      obtain old | rfl : j < (fetched past).length ∨ j = (fetched past).length := by omega
      · exact beyond j later old
      · rwa [← cursor]
    · rw [some,change.plans,more,complete open']
      omega
  | claim staffed within same working =>
    have some : (fetched (past ++ [⟨r,move,events⟩])).length = (fetched past).length + 1 :=
      fetched_more made
    have before : (fetched past).length < r.plan.ranges :=
      Nat.not_le.mp fun spent => absurd within (UInt64.not_lt.mpr (late working rfl spent))
    refine ⟨?_,fun j later within => ?_,fun open' => ?_⟩
    · rw [some,change.plans]
      omega
    · rw [change.plans] at later
      omega
    · rw [some,change.plans,same,complete open']
      omega

theorem Course.crewed (course : Course (fresh plan stock) cancelled past r) : Crewed past r := by
  induction course with
  | start => exact ⟨fun _ => ⟨rfl,rfl⟩,fun begun => absurd rfl begun⟩
  | cancel before ih => exact ih
  | step move events before moved ih => exact ih.step (step_change moved)

theorem Course.exhausting (course : Course (fresh plan stock) cancelled past r)
    (positive : 0 < plan.bundleSize) (roomy : Roomy plan) : Exhausting cancelled past r := by
  induction course with
  | start => exact ⟨Nat.zero_le _,by simp [fetched],fun _ => by simp [fetched,ended,fresh]⟩
  | cancel before ih => exact ⟨ih.bounded,ih.beyond,by simp⟩
  | @step _ past r next move events before moved ih =>
    have plans := before.plans
    have bounded := ih.bounded
    refine ih.step (plans ▸ positive) before.inOrder before.crewed (step_change moved) ?_
    intro working _ late
    -- A task that fetches runs, so one fetch for each worker at most has come after the ranges.
    have workers := before.crewed.begun working
    rw [before.inOrder.cursor]
    exact (plans ▸ roomy : Roomy r.plan) _ late (by omega)

/-- No fetch takes the cursor out of range. -/
def Inside (plan : Plan) (past : List Turn) : Prop :=
  ∀ x ∈ fetched past, x.toNat + plan.bundleSize.toNat < UInt64.size

theorem InOrder.start_mem (inOrder : InOrder past r) {j : Nat}
    (within : j < (fetched past).length) : r.plan.start j ∈ fetched past := by
  rw [inOrder.order]
  exact List.mem_map_of_mem (List.mem_range.mpr within)

theorem InOrder.start_toNat (inOrder : InOrder past r) (inside : Inside r.plan past) {j : Nat}
    (within : j < (fetched past).length) :
    (r.plan.start j).toNat = j * r.plan.bundleSize.toNat := by
  induction j with
  | zero => simp [Plan.start]
  | succ j ih =>
    have before := ih (by omega)
    have sum := inside _ (inOrder.start_mem (Nat.lt_of_succ_lt within))
    rw [Plan.start_succ,UInt64.toNat_add,Nat.mod_eq_of_lt sum,before,Nat.succ_mul]

/-- Where no fetch takes the cursor out of range, the fetches after the ranges stay beyond the
input, however many workers there are. -/
theorem Course.exhausting_of_inside (course : Course (fresh plan stock) cancelled past r)
    (positive : 0 < plan.bundleSize) (inside : Inside plan past) : Exhausting cancelled past r := by
  induction course with
  | start => exact ⟨Nat.zero_le _,by simp [fetched],fun _ => by simp [fetched,ended,fresh]⟩
  | cancel before ih =>
    obtain ⟨bounded,beyond,_⟩ := ih inside
    exact ⟨bounded,beyond,by simp⟩
  | @step cancelled past r next move events before moved ih =>
    have plans := before.plans
    have change := step_change moved
    have after := before.inOrder.step change
    have inside' : Inside plan past := fun x member =>
      inside x (by rw [fetched_append]; exact List.mem_append_left _ member)
    refine (ih inside').step (plans ▸ positive) before.inOrder before.crewed change ?_
    intro _ fetches late
    have more := @fetched_more _ _ _ past _ fetches
    have start := after.start_toNat (change.plans.trans plans ▸ inside) (more ▸ Nat.lt_add_one _)
    rw [before.inOrder.cursor,← change.plans]
    exact Plan.le_start (change.plans.trans plans ▸ positive) (change.plans ▸ late) start

/-- There are no more fetches than ranges and workers together. -/
theorem Exhausting.length_le (exhausting : Exhausting cancelled past r) (crewed : Crewed past r) :
    (fetched past).length ≤ r.plan.ranges + r.plan.workers := by
  have bounded := exhausting.bounded
  have ended : r.ended ≤ r.tasks.size := Array.countP_le_size
  have size := crewed.size_le
  omega

/-- Where the range has room for the ranges and one fetch for each worker, no fetch leaves it. -/
theorem Course.inside (course : Course (fresh plan stock) cancelled past r)
    (positive : 0 < plan.bundleSize)
    (small : (plan.ranges + plan.workers) * plan.bundleSize.toNat < UInt64.size) :
    Inside plan past := by
  have roomy : Roomy plan :=
    roomy_of_lt positive ((Nat.mul_le_mul_right _ (Nat.sub_le ..)).trans_lt small)
  have fetches := (course.exhausting positive roomy).length_le course.crewed
  have order := course.inOrder.order
  rw [course.plans] at fetches order
  change _ ≤ plan.ranges + plan.workers at fetches
  change _ = (List.range _).map plan.start at order
  intro x member
  rw [order] at member
  obtain ⟨j,within,rfl⟩ := List.mem_map.mp member
  have start : (plan.start j).toNat ≤ j * plan.bundleSize.toNat := by
    rw [Plan.start,UInt64.toNat_ofNat']
    exact Nat.mod_le ..
  have sum : (j + 1) * plan.bundleSize.toNat ≤
      (plan.ranges + plan.workers) * plan.bundleSize.toNat :=
    Nat.mul_le_mul_right _ (by have := List.mem_range.mp within; omega)
  rw [Nat.succ_mul] at sum
  omega

/-- No sum of a start and the bundle size that the run evaluates is out of range. -/
def Exact (plan : Plan) (past : List Turn) : Prop :=
  ∀ x ∈ fetched past, x < plan.elements → x.toNat + plan.bundleSize.toNat < UInt64.size

theorem filterMap_range {α : Type} {f : Nat → Option α} {g : Nat → α} (n k : Nat)
    (inside : ∀ j, j < n → j < k → f j = some (g j)) (beyond : ∀ j, j < n → k ≤ j → f j = none) :
    (List.range n).filterMap f = (List.range (min n k)).map g := by
  induction n with
  | zero => simp
  | succ n ih =>
    have before := ih (fun j less => inside j (by omega)) (fun j less => beyond j (by omega))
    rw [List.range_succ,List.filterMap_append,before]
    obtain within | past := Nat.lt_or_ge n k
    · have last := inside n (by omega) within
      rw [Nat.min_eq_left (by omega),Nat.min_eq_left (by omega),List.range_succ,List.map_append]
      simp [last]
    · have last := beyond n (by omega) past
      rw [Nat.min_eq_right past,Nat.min_eq_right (by omega)]
      simp [last]

theorem bundleAt_range {j : Nat} (positive : 0 < plan.bundleSize) (inside : j < plan.ranges)
    (exact : (plan.start j).toNat + plan.bundleSize.toNat < UInt64.size) :
    plan.bundleAt? (plan.start j) = some (plan.range j) := by
  have within := UInt64.not_le.mpr (Plan.start_lt positive inside)
  have start := Plan.start_toNat positive inside
  have bound := plan.elements.toNat_lt
  have sum : (plan.start j + plan.bundleSize).toNat = (j + 1) * plan.bundleSize.toNat := by
    rw [UInt64.toNat_add,Nat.mod_eq_of_lt exact,start,Nat.add_mul,Nat.one_mul]
  have last : min (plan.start j + plan.bundleSize) plan.elements = (plan.range j).last := by
    apply UInt64.toNat_inj.mp
    rw [Plan.range,UInt64.toNat_ofNat',Nat.mod_eq_of_lt (by omega),← sum]
    exact UInt64.toNat_min ..
  rw [Plan.bundleAt?,if_neg within,last]
  rfl

/-- The claims are the ranges from the first one on, none left out and none twice. -/
theorem Exhausting.claims (exhausting : Exhausting cancelled past r) (inOrder : InOrder past r)
    (positive : 0 < r.plan.bundleSize) (exact : Exact r.plan past) :
    claimed past = (List.range (min (fetched past).length r.plan.ranges)).map r.plan.range := by
  have mapped : claimed past = (List.range (fetched past).length).filterMap
      fun j => r.plan.bundleAt? (r.plan.start j) := by
    rw [inOrder.claims,inOrder.order,List.filterMap_map,← inOrder.order]
    rfl
  rw [mapped]
  refine filterMap_range _ _ (fun j within inside => ?_) fun j within past' => ?_
  · exact bundleAt_range positive inside
      (exact _ (inOrder.start_mem within) (Plan.start_lt positive inside))
  · exact if_pos (exhausting.beyond j past' within)

theorem ranges_pairwise (positive : 0 < plan.bundleSize) {k : Nat} (inside : k ≤ plan.ranges) :
    ((List.range k).map plan.range).Pairwise fun a b => a.last ≤ b.first := by
  refine List.pairwise_map.mpr (List.pairwise_lt_range.imp_of_mem fun {i j} first second less => ?_)
  have below : j < plan.ranges := (List.mem_range.mp second).trans_le inside
  have small := (Plan.lt_ranges positive).mp below
  have bound := plan.elements.toNat_lt
  have order : (i + 1) * plan.bundleSize.toNat ≤ j * plan.bundleSize.toNat :=
    Nat.mul_le_mul_right _ less
  rw [UInt64.le_iff_toNat_le]
  change (UInt64.ofNat _).toNat ≤ (plan.start j).toNat
  rw [Plan.start_toNat positive below,UInt64.toNat_ofNat',Nat.mod_eq_of_lt (by omega)]
  omega

/-- The fetches of every course return the multiples of the bundle size in order and modulo the
range of the cursor. Where those that can come after the ranges, one for each worker, stay beyond
the input, a fetch that comes after one beyond it stays beyond it too, and no two claimed bundles
overlap. -/
theorem Course.claims_disjoint (course : Course (fresh plan stock) cancelled past r)
    (positive : 0 < plan.bundleSize) (roomy : Roomy plan) (exact : Exact plan past) :
    fetched past = (List.range (fetched past).length).map plan.start ∧
      (∀ before x after, fetched past = before ++ x :: after → plan.elements ≤ x →
        ∀ y ∈ after, plan.elements ≤ y) ∧
      (claimed past).Pairwise fun a b => a.last ≤ b.first := by
  have order := course.inOrder.order
  have exhausting := course.exhausting positive roomy
  have beyond := exhausting.beyond
  have claims := exhausting.claims course.inOrder (course.plans ▸ positive) (course.plans ▸ exact)
  rw [course.plans] at order beyond claims
  have monotone : (fetched past).Pairwise fun x y => plan.elements ≤ x → plan.elements ≤ y := by
    rw [order]
    refine List.pairwise_map.mpr (List.pairwise_lt_range.imp_of_mem ?_)
    intro i j _ within less spent
    have past' : plan.ranges ≤ i :=
      Nat.not_lt.mp fun inside => absurd (Plan.start_lt positive inside) (UInt64.not_lt.mpr spent)
    exact beyond j (past'.trans less.le) (List.mem_range.mp within)
  refine ⟨order,?_,?_⟩
  · intro before x after split spent y member
    rw [split] at monotone
    exact (List.pairwise_cons.mp (List.pairwise_append.mp monotone).2.1).1 y member spent
  · rw [claims]
    exact ranges_pairwise positive (Nat.min_le_right ..)

def narrow : Plan := { workers := 4, elements := 5, bundleSize := 2 }

def claiming : List Move :=
  [.coordinate,.start 0 2,.start 1 3,.start 2 4,.start 3 5,.work 2,.work 0,.work 0,.work 1,.work 1,
    .work 3,.work 2,.work 3]

theorem claims_disjoint_of_claiming :
    ∃ (past : List Turn) (r : Run), Course (fresh narrow (.fresh "pipeline" default)) false past r ∧
      claimed past = [⟨0,2⟩,⟨2,4⟩,⟨4,5⟩] ∧ fetched past = [0,2,4] ++ 6 :: [] ∧
      (claimed past).Pairwise fun a b => a.last ≤ b.first := by
  have told : ((fresh narrow (.fresh "pipeline" default)).perform false claiming).map
      (fun reached => (fetched reached.1,claimed reached.1)) =
        some ([0,2,4,6],[⟨0,2⟩,⟨2,4⟩,⟨4,5⟩]) := by decide +kernel
  obtain ⟨⟨past,r⟩,performed,told⟩ := Option.map_eq_some_iff.mp told
  obtain ⟨starts,bundles⟩ := Prod.mk.inj told
  have course := Course.start.perform performed
  have exact : Exact narrow past := by
    intro x member _
    rw [starts] at member
    simp only [List.mem_cons,List.not_mem_nil,or_false] at member
    obtain rfl | rfl | rfl | rfl := member <;> decide +kernel
  have roomy : Roomy narrow := roomy_of_lt (by decide) (by decide +kernel)
  exact ⟨past,r,course,bundles,starts,(course.claims_disjoint (by decide) roomy exact).2.2⟩

def wrapping : Plan := { workers := 3, elements := 1, bundleSize := 9223372036854775808 }

/-- The second fetch is beyond the input, and the third one wraps around to its start. -/
def crossing : List Move :=
  [.coordinate,.start 0 2,.start 1 3,.start 2 4,.work 0,.work 0,.work 1,.work 1,.work 2,.work 2]

/-- A cursor that wraps reopens the input, though no sum that the run evaluates is out of range. -/
theorem element_claimed_twice :
    ∃ (stock : Stock) (past : List Turn) (r : Run), Stock.start "pipeline" default = .ok stock ∧
      Course (fresh wrapping stock) false past r ∧ Exact wrapping past ∧
      fetched past = [0,9223372036854775808,0] ∧ wrapping.elements ≤ 9223372036854775808 ∧
      ¬wrapping.elements ≤ 0 ∧ claimed past = [⟨0,1⟩,⟨0,1⟩] := by
  have told : ((fresh wrapping (.fresh "pipeline" default)).perform false crossing).map
      (fun reached => (fetched reached.1,claimed reached.1)) =
        some ([0,9223372036854775808,0],[⟨0,1⟩,⟨0,1⟩]) := by decide +kernel
  obtain ⟨⟨past,r⟩,performed,told⟩ := Option.map_eq_some_iff.mp told
  obtain ⟨starts,bundles⟩ := Prod.mk.inj told
  refine ⟨_,past,r,Stock.start_eq ..,Course.start.perform performed,?_,starts,by decide,by decide,
    bundles⟩
  intro x member less
  rw [starts] at member
  simp only [List.mem_cons,List.not_mem_nil,or_false] at member
  obtain rfl | rfl | rfl := member
  · decide +kernel
  · exact absurd less (by decide +kernel)
  · decide +kernel

end Run
end PerWorker.Pipeline
