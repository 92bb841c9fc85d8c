import PerWorker.Proofs.Pipeline.Tasks
import Mathlib.Data.List.Count

/-!
The tasks of a run together. No two of them run on one thread, so each has its worker to itself.
Main statement: until the run has joined its tasks, the bundles that were claimed are those that
were counted and those in hand, the setups are told by the bundles and by what the threads have in
hand, and each step is paid for out of a budget that only fetches can raise.
-/
namespace PerWorker.Pipeline

open PerWorker.System (Keeps Spares)

def Task.waits : Task → Bool
  | .waiting => true
  | _ => false

namespace Run

def pool (r : Run) : Finset Nat := Finset.Ico Stock.firstPoolThread r.stock.system.threads.size

def thread? (r : Run) (i : Nat) : Option Nat := (r.tasks[i]?).bind Task.thread?

def bundle? (r : Run) (i : Nat) : Option Bundle := (r.tasks[i]?).bind Task.bundle?

def inHand (r : Run) : List Bundle := r.tasks.toList.filterMap Task.bundle?

def counters (r : Run) : Counters := r.stock.system.counters r.stock.manager

def Turn.claimer? (turn : Turn) : Option Nat :=
  match turn.move with
  | .work i => if turn.events.filterMap Event.claimed? = [] then none else turn.run.thread? i
  | _ => none

def claimers (past : List Turn) : List Nat := past.filterMap Turn.claimer?

/-- The steps that the run itself has left while it joins its tasks, and all that come after. -/
def ahead (r : Run) : Nat :=
  match r.phase with
  | .starting => 4 * r.plan.workers + 41
  | .joining joined => r.plan.workers - joined + 40
  | _ => 0

/-- The state of a run until it has joined its tasks, with what each thread has in hand. -/
structure Manned (p : Enricher) (r : Run) (stake : Nat → Stake) : Prop where
  yields : r.stock.template.Yields p
  managed : r.stock.manager < r.stock.system.managers.size
  sharding : r.stock.system.sharding = .single
  threads : Stock.firstPoolThread ≤ r.stock.system.threads.size
  running : ∀ (i t : Nat) point thrown, r.tasks[i]? = some (.running t point thrown) →
    t ∈ r.pool ∧ thrown = [] ∧
      At p r.plan.releaseAfterBundle r.stock.system t r.stock.manager point (stake t)
  alone : ∀ i j t, r.thread? i = some t → r.thread? j = some t → i = j
  off : ∀ t ∈ r.pool, r.isBusy t = false →
    Off p r.plan.releaseAfterBundle r.stock.system t r.stock.manager (stake t)
  ended : ∀ (i : Nat) thrown, r.tasks[i]? = some (.ended thrown) → thrown = []
  enlisted : ∀ w, r.stock.system.slot? r.stock.manager w ≠ none → ∃ t ∈ r.pool, w = worker t
  quiet : r.stock.system.stack Stock.runThread = []
  thrown : r.thrown = []

structure Accounts (p : Enricher) (past : List Turn) (r : Run) (stake : Nat → Stake)
    (tallied : List Bundle) : Prop where
  bundles : (claimed past).Perm (r.inHand ++ tallied)
  progress : r.progress = tallied.foldl (Progress.tally p) {}
  paid : ∑ t ∈ r.pool, (stake t).paid + (if r.plan.releaseAfterBundle then (claimed past).length
    else tallied.countP (·.fails p)) =
      r.counters.setups + if r.plan.releaseAfterBundle then r.pool.card else 0
  standing : r.counters.setups = r.counters.teardowns + ∑ t ∈ r.pool, (stake t).standing
  left : past.length + r.ahead + ∑ t ∈ r.pool, (stake t).left +
    11 * r.stock.system.registrations r.stock.manager + 3 * r.tasks.countP Task.waits ≤
      4 * r.plan.workers + 41 + 51 * (fetched past).length
  claimers : r.plan.releaseAfterBundle = false → ∀ t ∈ r.pool, (stake t).paid ≠ 0 →
    t ∈ claimers past
  working : ∀ i t, r.thread? i = some t → (r.bundle? i).isSome → t ∈ Run.claimers past

variable {p : Enricher} {r next : Run} {stake : Nat → Stake} {after : Stake} {tallied : List Bundle}
  {i t : Nat} {task task' : Task} {point : TaskPoint} {events : List Event} {past : List Turn}

theorem isBusy_iff : r.isBusy t = true ↔ ∃ i, r.thread? i = some t := by
  simp only [isBusy,Array.any_eq_true,decide_eq_true_eq]
  constructor
  · rintro ⟨i,bound,runs⟩
    exact ⟨i,by simpa [thread?,bound] using runs⟩
  · rintro ⟨i,runs⟩
    obtain ⟨task,here,runs⟩ := Option.bind_eq_some_iff.mp runs
    obtain ⟨bound,rfl⟩ := Array.getElem?_eq_some_iff.mp here
    exact ⟨i,bound,runs⟩

theorem isBusy_eq_false : r.isBusy t = false ↔ ∀ i, r.thread? i ≠ some t := by
  rw [Bool.eq_false_iff,ne_eq,isBusy_iff,not_exists]

theorem mem_pool : t ∈ r.pool ↔ Stock.firstPoolThread ≤ t ∧ t < r.stock.system.threads.size :=
  Finset.mem_Ico

theorem sum_update {α : Type} {S : Finset Nat} (f : α → Nat) (stake : Nat → α) (after : α)
    (member : t ∈ S) : ∑ u ∈ S, f (Function.update stake t after u) + f (stake t) =
      ∑ u ∈ S, f (stake u) + f after := by
  have others : ∑ u ∈ S.erase t, f (Function.update stake t after u) =
      ∑ u ∈ S.erase t, f (stake u) :=
    Finset.sum_congr rfl fun u other => by
      rw [Function.update_of_ne (Finset.ne_of_mem_erase other)]
  rw [← Finset.add_sum_erase S _ member,← Finset.add_sum_erase S _ member,others,
    Function.update_self]
  omega

theorem count_set {α β : Type} [BEq β] {f : α → Option β} {xs : List α} {i : Nat} {x : α}
    (b : β) (y : α) (here : xs[i]? = some x) :
    ((xs.set i y).filterMap f).count b + (f x).toList.count b =
      (xs.filterMap f).count b + (f y).toList.count b := by
  induction xs generalizing i with
  | nil => simp at here
  | cons z xs ih =>
    have front (z : α) (zs : List α) :
        ((z :: zs).filterMap f).count b = (f z).toList.count b + (zs.filterMap f).count b := by
      cases found : f z <;> simp [found,List.count_cons,Nat.add_comm]
    cases i with
    | zero =>
      obtain rfl : z = x := by simpa using here
      rw [List.set_cons_zero,front,front]
      omega
    | succ i =>
      have rest := ih (i := i) (by simpa using here)
      rw [List.set_cons_succ,front,front]
      omega

theorem thread?_running {thrown : List LifecycleError}
    (here : r.tasks[i]? = some (.running t point thrown)) : r.thread? i = some t := by
  rw [thread?,here]
  rfl

theorem getElem?_set (here : r.tasks[i]? = some task)
    (tasks : next.tasks = r.tasks.setIfInBounds i task') (j : Nat) :
    next.tasks[j]? = if i = j then some task' else r.tasks[j]? := by
  have bound := (Array.getElem?_eq_some_iff.mp here).1
  rw [tasks,Array.getElem?_setIfInBounds]
  simp [bound]

theorem pool_eq (threads : next.stock.system.threads.size = r.stock.system.threads.size) :
    next.pool = r.pool := by
  rw [pool,pool,threads]

theorem Taken.thread? {releases : Bool} {s : System Enricher Nat} {m : Nat}
    (taken : Taken p releases s t m task after) {u : Nat} (runs : task.thread? = some u) :
    u = t := by
  cases taken with
  | running stands => exact (Option.some.inj runs).symm
  | ended off => cases runs

theorem Manned.pooled (manned : Manned p r stake) (runs : r.thread? i = some t) : t ∈ r.pool := by
  obtain ⟨task,here,runs⟩ := Option.bind_eq_some_iff.mp runs
  cases task with
  | running u point thrown =>
    cases runs
    exact (manned.running _ _ _ _ here).1
  | _ => cases runs

section

variable {fetches : Nat} (here : r.tasks[i]? = some task) (runs : task.thread? = some t)
  (tasks : next.tasks = r.tasks.setIfInBounds i task')
  (taken : Taken p r.plan.releaseAfterBundle next.stock.system t r.stock.manager task' after)

include here runs in
theorem thread?_of_task : r.thread? i = some t := by
  rw [thread?,here]
  exact runs

include here runs tasks taken

theorem thread?_back {j u : Nat} (later : next.thread? j = some u) : r.thread? j = some u := by
  rw [Run.thread?,getElem?_set here tasks] at later
  split at later
  next same =>
    subst same
    rw [Taken.thread? taken later,thread?_of_task here runs]
  next => exact later

/-- The thread of the task stands where its step takes it, the others where they stood. -/
theorem Manned.running_work (manned : Manned p r stake)
    (work : Work p t r task (stake t) fetches events next task' after tallied) {j u : Nat}
    {thrown : List LifecycleError} (here' : next.tasks[j]? = some (.running u point thrown)) :
    u ∈ r.pool ∧ thrown = [] ∧
      At p r.plan.releaseAfterBundle next.stock.system u r.stock.manager point
        (Function.update stake t after u) := by
  have runs := thread?_of_task here runs
  rw [getElem?_set here tasks] at here'
  split at here'
  next same =>
    cases Option.some.inj here'
    cases taken with
    | running stands =>
      rw [Function.update_self]
      exact ⟨manned.pooled runs,rfl,stands⟩
  next apart =>
    obtain ⟨inside,clean,stands⟩ := manned.running j u point thrown here'
    have away : u ≠ t := by
      rintro rfl
      exact apart (manned.alone _ _ _ runs (thread?_running here'))
    rw [Function.update_of_ne away]
    exact ⟨inside,clean,stands.keeps (keeps_of_ne work.spares away) (work.spares.others u away)⟩

/-- A thread without a task has what it had, unless the task has ended on it in this step. -/
theorem Manned.off_work (manned : Manned p r stake)
    (work : Work p t r task (stake t) fetches events next task' after tallied) {u : Nat}
    (inside : u ∈ r.pool) (idle : next.isBusy u = false) :
    Off p r.plan.releaseAfterBundle next.stock.system u r.stock.manager
      (Function.update stake t after u) := by
  have get := getElem?_set here tasks
  rw [isBusy_eq_false] at idle
  by_cases own : u = t
  · subst own
    rw [Function.update_self]
    cases taken with
    | running stands =>
      refine absurd ?_ (idle i)
      rw [Run.thread?,get,if_pos rfl]
      rfl
    | ended off => exact off
  · rw [Function.update_of_ne own]
    refine (manned.off u inside ?_).keeps (keeps_of_ne work.spares own) (work.spares.others u own)
    refine isBusy_eq_false.mpr fun j runs' => idle j ?_
    have apart : i ≠ j := by
      rintro rfl
      exact own (Option.some.inj (runs'.symm.trans (thread?_of_task here runs)))
    rw [Run.thread?,get,if_neg apart]
    exact runs'

/-- A step of a task changes what its own thread has in hand, and leaves that of all others
alone. -/
theorem Manned.work (manned : Manned p r stake)
    (work : Work p t r task (stake t) fetches events next task' after tallied) :
    Manned p next (Function.update stake t after) := by
  have member : t ∈ r.pool := manned.pooled (thread?_of_task here runs)
  have pools : next.pool = r.pool := pool_eq work.spares.threads
  have threads {j u : Nat} := thread?_back here runs tasks taken (j := j) (u := u)
  refine ⟨work.yields,?_,?_,?_,?_,?_,?_,?_,?_,?_,?_⟩
  · rw [work.manager,work.spares.managers]
    exact manned.managed
  · rw [work.spares.sharding]
    exact manned.sharding
  · rw [work.spares.threads]
    exact manned.threads
  · intro j u point thrown here'
    rw [pools,work.plan,work.manager]
    exact manned.running_work here runs tasks taken work here'
  · exact fun j k u first second => manned.alone j k u (threads first) (threads second)
  · intro u inside idle
    rw [work.plan,work.manager]
    exact manned.off_work here runs tasks taken work (pools ▸ inside) idle
  · intro j thrown here'
    rw [getElem?_set here tasks] at here'
    split at here'
    next =>
      cases Option.some.inj here'
      cases taken
      rfl
    next => exact manned.ended j thrown here'
  · intro w mapped
    rw [pools]
    by_cases own : w = worker t
    · exact ⟨t,member,own⟩
    · rw [work.manager,(work.spares.keeps w own).mapped] at mapped
      exact manned.enlisted w mapped
  · have away : Stock.runThread ≠ t := by
      have := (mem_pool.mp member).1
      simp only [Stock.runThread,Stock.firstPoolThread] at *
      omega
    rw [work.spares.others _ away]
    exact manned.quiet
  · exact work.thrown.trans manned.thrown

end

theorem claimers_append (turn : Turn) :
    claimers (past ++ [turn]) = claimers past ++ turn.claimer?.toList := by
  cases made : turn.claimer? <;> simp [claimers,made]

structure Silent (turn : Turn) : Prop where
  fetches : turn.fetched? = none
  claims : turn.events.filterMap Event.claimed? = []
  claimer : turn.claimer? = none

section

variable {turn : Turn} (silent : Silent turn)
include silent

theorem Silent.fetched : Run.fetched (past ++ [turn]) = Run.fetched past := by
  rw [fetched_append,silent.fetches,Option.toList_none,List.append_nil]

theorem Silent.claimed : Run.claimed (past ++ [turn]) = Run.claimed past := by
  rw [claimed_append,silent.claims,List.append_nil]

theorem Silent.claimers : Run.claimers (past ++ [turn]) = Run.claimers past := by
  rw [claimers_append,silent.claimer,Option.toList_none,List.append_nil]

end

/-- A step of the run or of the pool, which leaves the stock and what was counted alone. -/
theorem Accounts.still {turn : Turn} {stake' : Nat → Stake}
    (accounts : Accounts p past r stake tallied) (silent : Silent turn) (plan : next.plan = r.plan)
    (stock : next.stock = r.stock) (progress : next.progress = r.progress)
    (bundles : (claimed past).Perm (next.inHand ++ tallied))
    (paid : ∀ t, (stake' t).paid = (stake t).paid)
    (standing : ∀ t, (stake' t).standing = (stake t).standing)
    (working : ∀ i t, next.thread? i = some t → (next.bundle? i).isSome → t ∈ Run.claimers past)
    (left : next.ahead + ∑ t ∈ r.pool, (stake' t).left + 3 * next.tasks.countP Task.waits <
      r.ahead + ∑ t ∈ r.pool, (stake t).left + 3 * r.tasks.countP Task.waits) :
    Accounts p (past ++ [turn]) next stake' tallied := by
  have pools : next.pool = r.pool := pool_eq (by rw [stock])
  have counters : next.counters = r.counters := by rw [Run.counters,stock,Run.counters]
  refine ⟨?_,progress.trans accounts.progress,?_,?_,?_,?_,?_⟩
  · rwa [silent.claimed]
  · rw [silent.claimed,pools,plan,counters,Finset.sum_congr rfl fun t _ => paid t]
    exact accounts.paid
  · rw [pools,counters,Finset.sum_congr rfl fun t _ => standing t]
    exact accounts.standing
  · have before := accounts.left
    rw [silent.fetched,pools,plan,stock,List.length_append,List.length_singleton]
    omega
  · intro keeps t inside cost
    rw [silent.claimers]
    rw [pools] at inside
    rw [paid] at cost
    exact accounts.claimers (plan ▸ keeps) t inside cost
  · rw [silent.claimers]
    exact working

theorem bundles_set {claims counted : List Bundle} (here : r.tasks[i]? = some task)
    (tasks : next.tasks = r.tasks.setIfInBounds i task')
    (moved : task'.bundle?.toList ++ counted = task.bundle?.toList ++ claims)
    (bundles : (claimed past).Perm (r.inHand ++ tallied)) :
    (claimed past ++ claims).Perm (next.inHand ++ (tallied ++ counted)) := by
  refine List.perm_iff_count.mpr fun b => ?_
  have here : r.tasks.toList[i]? = some task := by simpa using here
  have set := count_set (f := Task.bundle?) b task' here
  have moved := congrArg (List.count b) moved
  have bundles := List.perm_iff_count.mp bundles b
  rw [inHand,tasks,Array.toList_setIfInBounds]
  simp only [List.count_append,inHand] at *
  omega

theorem waits_work (here : r.tasks[i]? = some task) (runs : task.thread? = some t)
    (tasks : next.tasks = r.tasks.setIfInBounds i task')
    (taken : Taken p r.plan.releaseAfterBundle next.stock.system t r.stock.manager task' after) :
    next.tasks.countP Task.waits = r.tasks.countP Task.waits := by
  have waits : task.waits = false := by cases task <;> first | rfl | cases runs
  have waits' : task'.waits = false := by cases taken <;> rfl
  have counted := countP_setTask (p := Task.waits) task' here
  rw [waits,waits'] at counted
  rw [tasks]
  simpa [setTask] using counted

theorem Accounts.working_work {counted : List Bundle} {fetches j u : Nat}
    (accounts : Accounts p past r stake tallied)
    (here : r.tasks[i]? = some task) (runs : task.thread? = some t)
    (tasks : next.tasks = r.tasks.setIfInBounds i task')
    (taken : Taken p r.plan.releaseAfterBundle next.stock.system t r.stock.manager task' after)
    (work : Work p t r task (stake t) fetches events next task' after counted)
    (runs' : next.thread? j = some u) (busy : (next.bundle? j).isSome) :
    u ∈ Run.claimers (past ++ [⟨r,.work i,events⟩]) := by
  have get := getElem?_set here tasks
  rw [claimers_append]
  have there : r.thread? j = some u := thread?_back here runs tasks taken runs'
  rw [Run.bundle?,get] at busy
  split at busy
  next same =>
    subst same
    -- Whoever works on a bundle now has claimed it in this step or had one before.
    by_cases claims : events.filterMap Event.claimed? = []
    · refine List.mem_append_left _ (accounts.working i u there ?_)
      have bundles := work.bundles
      rw [claims,List.append_nil] at bundles
      rw [Run.bundle?,here]
      cases had : task.bundle? <;> simp_all
    · refine List.mem_append_right _ ?_
      simp [Turn.claimer?,claims,there]
  next apart => exact List.mem_append_left _ (accounts.working j u there busy)

/-- What a task claims, processes and pays for in one step stays in balance with the accounts of the
run. -/
theorem Accounts.work {counted : List Bundle} (accounts : Accounts p past r stake tallied)
    (here : r.tasks[i]? = some task) (runs : task.thread? = some t) (member : t ∈ r.pool)
    (tasks : next.tasks = r.tasks.setIfInBounds i task')
    (taken : Taken p r.plan.releaseAfterBundle next.stock.system t r.stock.manager task' after)
    (work : Work p t r task (stake t) (Turn.fetched? ⟨r,.work i,events⟩).toList.length events next
      task' after counted) :
    Accounts p (past ++ [⟨r,.work i,events⟩]) next (Function.update stake t after)
      (tallied ++ counted) := by
  have pools : next.pool = r.pool := pool_eq work.spares.threads
  have waiting := waits_work here runs tasks taken
  have ahead : next.ahead = r.ahead := by rw [Run.ahead,Run.ahead,work.phase,work.plan]
  have counters : next.counters = next.stock.system.counters r.stock.manager :=
    congrArg _ work.manager
  refine ⟨?_,?_,?_,?_,?_,?_,?_⟩
  · rw [claimed_append]
    exact bundles_set here tasks work.bundles accounts.bundles
  · rw [List.foldl_append,← accounts.progress]
    exact work.progress
  · have sums := sum_update Stake.paid stake after member
    have before := accounts.paid
    have paid := work.paid
    rw [pools,work.plan,claimed_append,counters]
    rw [Run.counters] at before
    split at before
    next mode =>
      rw [if_pos mode] at paid ⊢
      rw [if_pos mode,List.length_append]
      dsimp only
      omega
    next mode =>
      rw [if_neg mode] at paid ⊢
      rw [if_neg mode,List.countP_append]
      omega
  · have sums := sum_update Stake.standing stake after member
    have before := accounts.standing
    have standing := work.standing
    rw [pools,counters]
    rw [Run.counters] at before
    omega
  · have sums := sum_update Stake.left stake after member
    have before := accounts.left
    have left := work.left
    rw [pools,ahead,waiting,work.plan,fetched_append,List.length_append,List.length_append,
      List.length_singleton,work.manager]
    omega
  · intro mode u inside paid
    rw [claimers_append]
    rw [pools] at inside
    rw [work.plan] at mode
    refine List.mem_append_left _ ?_
    by_cases own : u = t
    · subst own
      rw [Function.update_self] at paid
      obtain less | busy := work.earned
      · exact accounts.claimers mode u inside (by omega)
      · exact accounts.working i u (thread?_of_task here runs)
          (by rw [Run.bundle?,here]; exact busy)
    · rw [Function.update_of_ne own] at paid
      exact accounts.claimers mode u inside paid
  · exact fun j u runs' busy => accounts.working_work here runs tasks taken work runs' busy

def grown (r : Run) : Run :=
  { r with stock := { r.stock with system := r.stock.system.addThread } }

def unspent (r : Run) : Stake := ⟨if r.plan.releaseAfterBundle then 1 else 0,0,0⟩

theorem pool_grown (threads : Stock.firstPoolThread ≤ r.stock.system.threads.size) :
    r.grown.pool = insert r.stock.system.threads.size r.pool := by
  ext u
  simp only [mem_pool,grown,System.addThread,Array.size_push,Finset.mem_insert]
  omega

theorem not_mem_pool : r.stock.system.threads.size ∉ r.pool := by
  simp [mem_pool]

theorem Manned.grow (manned : Manned p r stake) :
    Manned p r.grown (Function.update stake r.stock.system.threads.size r.unspent) := by
  have pools := pool_grown manned.threads
  have keeps (w : WorkerId) :
      Keeps r.stock.manager w r.stock.system r.stock.system.addThread := .of_eq rfl rfl rfl
  have away {u : Nat} (inside : u ∈ r.pool) : u ≠ r.stock.system.threads.size := by
    rintro rfl
    exact not_mem_pool inside
  refine { manned with threads := ?_, running := ?_, off := ?_, enlisted := ?_, quiet := ?_ }
  · have := manned.threads
    simp only [grown,System.addThread,Array.size_push]
    omega
  · intro i t point thrown here
    obtain ⟨inside,clean,stands⟩ := manned.running i t point thrown here
    rw [pools,Function.update_of_ne (away inside)]
    exact ⟨Finset.mem_insert_of_mem inside,clean,stands.keeps (keeps _) (stack_addThread ..)⟩
  · intro t inside idle
    rw [pools] at inside
    obtain rfl | inside := Finset.mem_insert.mp inside
    · rw [Function.update_self]
      -- The worker of a new thread cannot be enlisted: only threads of the pool are.
      have out : r.stock.system.slot? r.stock.manager
          (worker r.stock.system.threads.size) = none := by
        by_contra mapped
        obtain ⟨u,inside,same⟩ := manned.enlisted _ mapped
        exact away inside (worker_injective same).symm
      refine ⟨?_,?_,rfl⟩
      · change r.stock.system.addThread.stack _ = []
        rw [stack_addThread]
        simp [System.stack]
      · change Ready p r.plan.releaseAfterBundle _ _ _ r.unspent.paid 0
        rw [unspent]
        cases mode : r.plan.releaseAfterBundle with
        | true => exact .cleared rfl out
        | false => exact .keeps rfl (.out out)
    · rw [Function.update_of_ne (away inside)]
      exact (manned.off t inside idle).keeps (keeps _) (stack_addThread ..)
  · intro w mapped
    obtain ⟨u,inside,same⟩ := manned.enlisted w mapped
    exact ⟨u,pools ▸ Finset.mem_insert_of_mem inside,same⟩
  · exact (stack_addThread ..).trans manned.quiet

theorem Accounts.grow (accounts : Accounts p past r stake tallied)
    (threads : Stock.firstPoolThread ≤ r.stock.system.threads.size) :
    Accounts p past r.grown (Function.update stake r.stock.system.threads.size r.unspent)
      tallied := by
  have pools := pool_grown threads
  have sums (f : Stake → Nat) : ∑ t ∈ r.grown.pool,
      f (Function.update stake r.stock.system.threads.size r.unspent t) =
        f r.unspent + ∑ t ∈ r.pool, f (stake t) := by
    rw [pools,Finset.sum_insert not_mem_pool,Function.update_self]
    congr 1
    refine Finset.sum_congr rfl fun u inside => ?_
    rw [Function.update_of_ne]
    rintro rfl
    exact not_mem_pool inside
  refine { accounts with paid := ?_, standing := ?_, left := ?_, claimers := ?_ }
  · have paid := accounts.paid
    have plan : r.grown.plan = r.plan := rfl
    have counters : r.grown.counters = r.counters := rfl
    rw [sums Stake.paid,pools,Finset.card_insert_of_notMem not_mem_pool,plan,counters,unspent]
    split at paid
    next mode =>
      simp only [if_pos mode] at paid ⊢
      omega
    next mode =>
      simp only [if_neg mode] at paid ⊢
      omega
  · rw [sums Stake.standing]
    exact accounts.standing.trans (by rw [unspent,Nat.zero_add]; rfl)
  · rw [sums Stake.left]
    exact (by rw [unspent,Nat.zero_add]; exact accounts.left)
  · intro mode t inside paid
    rw [pools] at inside
    obtain rfl | inside := Finset.mem_insert.mp inside
    · rw [Function.update_self,unspent] at paid
      change r.plan.releaseAfterBundle = false at mode
      simp [mode] at paid
    · rw [Function.update_of_ne] at paid
      · exact accounts.claimers mode t inside paid
      · rintro rfl
        exact not_mem_pool inside

/-- A free thread takes up a task with what it has in hand, and all others keep theirs. -/
theorem Manned.take (manned : Manned p r stake) (waits : r.tasks[i]? = some .waiting)
    (member : t ∈ r.pool) (free : r.isBusy t = false) :
    Manned p (r.setTask i (.running t .check []))
      (Function.update stake t ⟨(stake t).paid,(stake t).standing,2⟩) := by
  have tasks : (r.setTask i (.running t .check [])).tasks =
    r.tasks.setIfInBounds i (.running t .check []) := rfl
  have get := getElem?_set waits tasks
  have own (j u : Nat) (runs : (r.setTask i (.running t .check [])).thread? j = some u) :
      (i = j ∧ u = t) ∨ (i ≠ j ∧ r.thread? j = some u) := by
    rw [Run.thread?,get] at runs
    split at runs
    next same => exact Or.inl ⟨same,(Option.some.inj runs).symm⟩
    next apart => exact Or.inr ⟨apart,runs⟩
  have idle := isBusy_eq_false.mp free
  refine { manned with running := ?_, alone := ?_, off := ?_, ended := ?_ }
  · intro j u point thrown here
    rw [get] at here
    split at here
    next =>
      cases Option.some.inj here
      obtain ⟨quiet,ready,_⟩ := manned.off t member free
      rw [Function.update_self]
      exact ⟨member,rfl,.check quiet ready⟩
    next =>
      obtain ⟨inside,clean,stands⟩ := manned.running j u point thrown here
      rw [Function.update_of_ne]
      · exact ⟨inside,clean,stands⟩
      · rintro rfl
        exact idle j (thread?_running here)
  · intro j k u first second
    obtain ⟨rfl,rfl⟩ | ⟨_,first'⟩ := own j u first
    · obtain ⟨same,_⟩ | ⟨_,second'⟩ := own k u second
      · exact same
      · exact absurd second' (idle k)
    · obtain ⟨rfl,rfl⟩ | ⟨_,second'⟩ := own k u second
      · exact absurd first' (idle j)
      · exact manned.alone j k u first' second'
  · intro u inside free'
    have busy : (r.setTask i (.running t .check [])).isBusy t = true :=
      isBusy_iff.mpr ⟨i,by rw [Run.thread?,get,if_pos rfl]; rfl⟩
    have away : u ≠ t := by
      rintro rfl
      rw [busy] at free'
      cases free'
    rw [Function.update_of_ne away]
    refine manned.off u inside ?_
    refine isBusy_eq_false.mpr fun j runs => isBusy_eq_false.mp free' j ?_
    rw [Run.thread?,get]
    split
    next same =>
      subst same
      rw [Run.thread?,waits] at runs
      cases runs
    next => exact runs
  · intro j thrown here
    rw [get] at here
    split at here
    next => cases here
    next => exact manned.ended j thrown here

theorem Accounts.take {q : Run} (accounts : Accounts p past r stake tallied)
    (waits : r.tasks[i]? = some .waiting) (member : t ∈ r.pool) (spent : (stake t).left = 0) :
    Accounts p (past ++ [⟨q,.start i t,[]⟩]) (r.setTask i (.running t .check []))
      (Function.update stake t ⟨(stake t).paid,(stake t).standing,2⟩) tallied := by
  have tasks : (r.setTask i (.running t .check [])).tasks =
    r.tasks.setIfInBounds i (.running t .check []) := rfl
  have kept (f : Stake → Nat) (same : f ⟨(stake t).paid,(stake t).standing,2⟩ = f (stake t))
      (u : Nat) : f (Function.update stake t ⟨(stake t).paid,(stake t).standing,2⟩ u) =
        f (stake u) := by
    obtain rfl | own := eq_or_ne u t
    · rwa [Function.update_self]
    · rw [Function.update_of_ne own]
  refine accounts.still ⟨rfl,rfl,rfl⟩ rfl rfl rfl ?_ (kept Stake.paid rfl) (kept Stake.standing rfl)
    (fun j u runs busy => ?_) ?_
  · have moved : (claimed past ++ []).Perm (_ ++ (tallied ++ [])) :=
      bundles_set waits tasks rfl accounts.bundles
    simpa using moved
  · rw [Run.thread?,getElem?_set waits tasks] at runs
    rw [Run.bundle?,getElem?_set waits tasks] at busy
    split at runs
    next own =>
      rw [if_pos own] at busy
      cases busy
    next own =>
      rw [if_neg own] at busy
      exact accounts.working j u runs busy
  · have waiting := countP_setTask (p := Task.waits) (.running t .check []) waits
    have lefts := sum_update Stake.left stake ⟨(stake t).paid,(stake t).standing,2⟩ member
    change r.ahead + _ + _ < _
    simp only [Task.waits,if_true,Bool.false_eq_true,if_false] at waiting
    dsimp only at lefts
    omega

def begun (r : Run) : Run :=
  { r with tasks := Array.replicate r.plan.workers .waiting, phase := .joining 0 }

theorem begun_waits {i : Nat} (here : r.begun.tasks[i]? = some task) : task = .waiting := by
  simp only [begun,Array.getElem?_replicate] at here
  split at here
  next => exact (Option.some.inj here).symm
  next => cases here

theorem thread?_begun (i : Nat) : r.begun.thread? i = none := by
  cases here : r.begun.tasks[i]? with
  | none => rw [Run.thread?,here]; rfl
  | some task =>
    obtain rfl := begun_waits here
    rw [Run.thread?,here]
    rfl

theorem Manned.begin (manned : Manned p r stake) (empty : r.tasks = #[]) :
    Manned p r.begun stake := by
  refine { manned with running := ?_, alone := ?_, off := ?_, ended := ?_ }
  · intro i t point thrown here
    cases begun_waits here
  · intro i j t first
    rw [thread?_begun] at first
    cases first
  · intro t inside _
    refine manned.off t inside (isBusy_eq_false.mpr fun i runs => ?_)
    rw [Run.thread?,empty] at runs
    cases runs
  · intro i thrown here
    cases begun_waits here

theorem Accounts.begin (accounts : Accounts p past r stake tallied) (empty : r.tasks = #[])
    (starting : r.phase = .starting) (logs : ∀ e ∈ events, ∃ told, e = .logged told) :
    Accounts p (past ++ [⟨r,.coordinate,events⟩]) r.begun stake tallied := by
  have none : r.begun.inHand = r.inHand := by
    rw [inHand,inHand,empty,List.filterMap_eq_nil_iff.mpr]
    · rfl
    · intro task member
      simp only [begun,Array.toList_replicate] at member
      rw [List.eq_of_mem_replicate member]
      rfl
  refine accounts.still ⟨rfl,claimed?_logged logs,rfl⟩ rfl rfl rfl (none ▸ accounts.bundles)
    (fun _ => rfl) (fun _ => rfl) (fun i t runs => ?_) ?_
  · rw [thread?_begun] at runs
    cases runs
  · have waiting : r.begun.tasks.countP Task.waits = r.plan.workers := by
      simp [begun,Array.countP_replicate,Task.waits]
    have before : r.ahead = 4 * r.plan.workers + 41 := by rw [ahead,starting]
    have after : r.begun.ahead = r.plan.workers + 40 := rfl
    rw [after,before,waiting]
    omega

def joinedNext (r : Run) (joined : Nat) : Run := { r with phase := .joining (joined + 1) }

theorem Accounts.join {joined : Nat} (accounts : Accounts p past r stake tallied)
    (joining : r.phase = .joining joined) (more : joined < r.plan.workers) :
    Accounts p (past ++ [⟨r,.coordinate,[]⟩]) (r.joinedNext joined) stake tallied := by
  refine accounts.still ⟨rfl,rfl,rfl⟩ rfl rfl rfl accounts.bundles (fun _ => rfl) (fun _ => rfl)
    accounts.working ?_
  have before : r.ahead = r.plan.workers - joined + 40 := by rw [ahead,joining]
  have after : (r.joinedNext joined).ahead = r.plan.workers - (joined + 1) + 40 := rfl
  change _ + _ + 3 * r.tasks.countP Task.waits < _
  rw [after,before]
  omega

end Run
end PerWorker.Pipeline
