import PerWorker.Pipeline.Run
import PerWorker.Proofs.Enricher.Copies

/-!
Courses of a run: its steps in any order that the threads of the pool and the run itself may take,
with a token that may be cancelled at any moment. Main statement: what each kind of step does to a
run, as one relation that the later modules take apart.
-/
namespace PerWorker.Pipeline

def Stock.fresh (name : String) (prototype : Enricher) : Stock where
  system := (System.start [name]).addThread
  template := .serialized Enricher.codec prototype.encode 1

theorem Stock.start_eq (name : String) (prototype : Enricher) :
    Stock.start name prototype = .ok (Stock.fresh name prototype) := by
  rw [Stock.start,prototype.template_eq]
  rfl

namespace Run

theorem stack_addThread (s : System Enricher Nat) (u : Nat) : s.addThread.stack u = s.stack u := by
  simp only [System.stack,System.addThread,Array.getD_eq_getD_getElem?,Array.getElem?_push]
  split
  next last => simp [last]
  next => rfl

def fresh (plan : Plan) (stock : Stock) : Run := { plan, stock }

structure Turn where
  run : Run
  move : Move
  events : List Event

/-- The steps of a run from its first one on. The flag tells whether the token is cancelled. -/
inductive Course (initial : Run) : Bool → List Turn → Run → Prop
  | start : Course initial false [] initial
  | cancel {past : List Turn} {r : Run} (before : Course initial false past r) :
      Course initial true past r
  | step {cancelled : Bool} {past : List Turn} {r next : Run} (move : Move) (events : List Event)
      (before : Course initial cancelled past r)
      (moved : r.step cancelled move = some (next,events)) :
      Course initial cancelled (past ++ [⟨r,move,events⟩]) next

def perform (r : Run) (cancelled : Bool) : List Move → Option (List Turn × Run)
  | [] => some ([],r)
  | move :: moves => do
    let (next,events) ← r.step cancelled move
    let (turns,last) ← next.perform cancelled moves
    return (⟨r,move,events⟩ :: turns,last)

/-- Moves that can be performed one after the other continue a course. -/
theorem Course.perform {initial r last : Run} {cancelled : Bool} {past turns : List Turn}
    {moves : List Move} (course : Course initial cancelled past r)
    (performed : r.perform cancelled moves = some (turns,last)) :
    Course initial cancelled (past ++ turns) last := by
  induction moves generalizing past r turns with
  | nil =>
    cases performed
    simpa using course
  | cons move moves ih =>
    obtain ⟨⟨next,events⟩,moved,performed⟩ := Option.bind_eq_some_iff.mp performed
    obtain ⟨⟨later,end'⟩,performed,same⟩ := Option.bind_eq_some_iff.mp performed
    cases same
    simpa using ih (course.step move events moved) performed

inductive Working (r : Run) (cancelled : Bool) (i thread : Nat) (thrown : List LifecycleError) :
    TaskPoint → List Event → Run → Prop
  | stop (told : cancelled = true) :
      Working r cancelled i thread thrown .check [] (r.setTask i (.ended thrown))
  | look (open' : cancelled = false) :
      Working r cancelled i thread thrown .check [] (r.setTask i (.running thread .claim thrown))
  | exhausted (spent : r.plan.elements ≤ r.cursor) :
      Working r cancelled i thread thrown .claim []
        (Run.setTask { r with cursor := r.cursor + r.plan.bundleSize } i (.ended thrown))
  | claim {stock : Stock} {told : List (PerWorker.Event Nat)} (bundle : Bundle)
      (within : r.cursor < r.plan.elements)
      (same : bundle = ⟨r.cursor,min (r.cursor + r.plan.bundleSize) r.plan.elements⟩)
      (called : r.stock.call thread (.process r.stock.manager (worker thread)) =
        some (stock,told)) :
      Working r cancelled i thread thrown .claim
        ([.claimed i bundle] ++ told.map (.called thread))
        (Run.setTask { r with cursor := r.cursor + r.plan.bundleSize, stock } i
          (.running thread (.processing bundle) thrown))
  | serve {stock : Stock} {told : List (PerWorker.Event Nat)} (bundle : Bundle)
      (moved : r.stock.step thread bundle.body = some (stock,told))
      (silent : Stock.reply? told = none) :
      Working r cancelled i thread thrown (.processing bundle) (told.map (.called thread))
        { r with stock }
  | served {stock : Stock} {told : List (PerWorker.Event Nat)} (bundle : Bundle) (reply : Reply Nat)
      (moved : r.stock.step thread bundle.body = some (stock,told))
      (answered : Stock.reply? told = some reply) :
      Working r cancelled i thread thrown (.processing bundle) (told.map (.called thread))
        (Run.setTask { r with stock } i (.running thread (.tally bundle reply) thrown))
  | done (bundle : Bundle) (bytes : Nat) :
      Working r cancelled i thread thrown (.tally bundle (.value bytes)) []
        (Run.setTask { r with progress := r.progress.countDone bundle bytes } i
          (.running thread (if r.plan.releaseAfterBundle then .handBack else .check) thrown))
  | failed (bundle : Bundle) (reply : Reply Nat) (events : List Event)
      (valueless : ∀ bytes, reply ≠ .value bytes) (logs : ∀ e ∈ events, ∃ told, e = .logged told) :
      Working r cancelled i thread thrown (.tally bundle reply) events
        (Run.setTask { r with progress := r.progress.countFailed } i
          (.running thread (if r.plan.releaseAfterBundle then .handBack else .check) thrown))
  | handBack {stock : Stock} {told : List (PerWorker.Event Nat)}
      (called : r.stock.call thread (.release r.stock.manager (worker thread)) =
        some (stock,told)) :
      Working r cancelled i thread thrown .handBack (told.map (.called thread))
        (Run.setTask { r with stock } i (.running thread .releasing thrown))
  | release {stock : Stock} {told : List (PerWorker.Event Nat)}
      (moved : r.stock.step thread noBody = some (stock,told))
      (silent : Stock.reply? told = none) :
      Working r cancelled i thread thrown .releasing (told.map (.called thread)) { r with stock }
  | released {stock : Stock} {told : List (PerWorker.Event Nat)} (reply : Reply Nat)
      (more : List LifecycleError)
      (moved : r.stock.step thread noBody = some (stock,told))
      (answered : Stock.reply? told = some reply)
      (clean : (∀ e, reply ≠ .failed e) → more = []) :
      Working r cancelled i thread thrown .releasing (told.map (.called thread))
        (Run.setTask { r with stock } i (.running thread .check (more ++ thrown)))

inductive Coordinating (r : Run) : List Event → Run → Prop
  | begin (events : List Event) (starting : r.phase = .starting)
      (logs : ∀ e ∈ events, ∃ told, e = .logged told) :
      Coordinating r events
        { r with tasks := Array.replicate r.plan.workers .waiting, phase := .joining 0 }
  | join (joined : Nat) (thrown : List LifecycleError) (joining : r.phase = .joining joined)
      (ended : r.tasks[joined]? = some (.ended thrown)) :
      Coordinating r []
        { r with phase := .joining (joined + 1), thrown := r.thrown ++ thrown.reverse }
  | showStats {stock : Stock} {told : List (PerWorker.Event Nat)} (joined : Nat)
      (joining : r.phase = .joining joined) (all : r.tasks[joined]? = none)
      (called : r.stock.call Stock.runThread (.logStats r.stock.manager) = some (stock,told)) :
      Coordinating r (told.map (.called Stock.runThread)) { r with stock, phase := .showingStats }
  | await {stock : Stock} {told : List (PerWorker.Event Nat)}
      (waits : r.phase = .showingStats ∨ r.phase = .draining ∨
        ∃ drained, r.phase = .counting drained)
      (moved : r.stock.step Stock.runThread noBody = some (stock,told))
      (silent : Stock.reply? told = none) :
      Coordinating r (told.map (.called Stock.runThread)) { r with stock }
  | drain {stock stock' : Stock} {told more : List (PerWorker.Event Nat)} (reply : Reply Nat)
      (showing : r.phase = .showingStats)
      (moved : r.stock.step Stock.runThread noBody = some (stock,told))
      (answered : Stock.reply? told = some reply)
      (called : stock.call Stock.runThread (.drain [stock.manager]) = some (stock',more)) :
      Coordinating r (told.map (.called Stock.runThread) ++ more.map (.called Stock.runThread))
        { r with stock := stock', phase := .draining }
  | count {stock stock' : Stock} {told more : List (PerWorker.Event Nat)} (reply : Reply Nat)
      (drained : List LifecycleError) (draining : r.phase = .draining)
      (moved : r.stock.step Stock.runThread noBody = some (stock,told))
      (answered : Stock.reply? told = some reply)
      (listed : ∀ errors, reply = .errors errors → drained = errors)
      (called : stock.call Stock.runThread (.counters stock.manager) = some (stock',more)) :
      Coordinating r (told.map (.called Stock.runThread) ++ more.map (.called Stock.runThread))
        { r with stock := stock', phase := .counting drained }
  | counted {stock : Stock} {told : List (PerWorker.Event Nat)} (reply : Reply Nat)
      (drained : List LifecycleError) (counters : Counters) (counting : r.phase = .counting drained)
      (moved : r.stock.step Stock.runThread noBody = some (stock,told))
      (answered : Stock.reply? told = some reply)
      (read : ∀ values, reply = .counters values → counters = values) :
      Coordinating r (told.map (.called Stock.runThread))
        { r with stock, phase := .closing drained counters }
  | close (drained : List LifecycleError) (counters : Counters) (events : List Event)
      (closing : r.phase = .closing drained counters)
      (logs : ∀ e ∈ events, ∃ told, e = .logged told) :
      Coordinating r events
        { r with phase := .ended ((TeardownErrors.ofList (r.thrown ++ drained)).map
            fun _ => r.summary counters) }

inductive Change (r : Run) (cancelled : Bool) : Move → List Event → Run → Prop
  | take (i thread : Nat) (stock : Stock) (waits : r.tasks[i]? = some .waiting)
      (pool : Stock.firstPoolThread ≤ thread) (known : thread ≤ r.stock.system.threads.size)
      (free : r.isBusy thread = false)
      (grown : stock = if thread < r.stock.system.threads.size then r.stock
        else { r.stock with system := r.stock.system.addThread }) :
      Change r cancelled (.start i thread) []
        (Run.setTask { r with stock } i (.running thread .check []))
  | work {events : List Event} {next : Run} {point : TaskPoint} {thrown : List LifecycleError}
      (i thread : Nat) (runs : r.tasks[i]? = some (.running thread point thrown))
      (working : Working r cancelled i thread thrown point events next) :
      Change r cancelled (.work i) events next
  | coordinate {events : List Event} {next : Run} (coordinating : Coordinating r events next) :
      Change r cancelled .coordinate events next

variable {r next : Run} {cancelled : Bool} {move : Move} {events : List Event} {i thread : Nat}
  {point : TaskPoint} {thrown : List LifecycleError}

section

variable {call : Call} {body : Body} {told : List Event}

theorem makeCall_some (moved : r.makeCall i thread call point thrown told = some (next,events)) :
    ∃ stock more, r.stock.call thread call = some (stock,more) ∧
      next = Run.setTask { r with stock } i (.running thread point thrown) ∧
      events = told ++ more.map (.called thread) := by
  unfold makeCall at moved
  split at moved
  next stock more made =>
    cases moved
    exact ⟨stock,more,made,rfl,rfl⟩
  next => contradiction

theorem callStep_some {goes : Reply Nat → TaskPoint × List LifecycleError}
    (moved : r.callStep i thread body thrown goes = some (next,events)) :
    ∃ stock told, r.stock.step thread body = some (stock,told) ∧
      events = told.map (.called thread) ∧
      (Stock.reply? told = none ∧ next = { r with stock } ∨
        ∃ reply, Stock.reply? told = some reply ∧ next = Run.setTask { r with stock } i
          (.running thread (goes reply).1 ((goes reply).2 ++ thrown))) := by
  unfold callStep at moved
  split at moved
  next => contradiction
  next stock told stepped =>
    split at moved
    next silent =>
      cases moved
      exact ⟨stock,told,stepped,rfl,Or.inl ⟨silent,rfl⟩⟩
    next reply answered =>
      cases moved
      exact ⟨stock,told,stepped,rfl,Or.inr ⟨reply,answered,rfl⟩⟩

theorem enter_some {phase : Phase} (moved : r.enter call phase = some (next,events)) :
    ∃ stock more, r.stock.call Stock.runThread call = some (stock,more) ∧
      next = { r with stock, phase } ∧ events = more.map (.called Stock.runThread) := by
  unfold enter at moved
  split at moved
  next stock more made =>
    cases moved
    exact ⟨stock,more,made,rfl,rfl⟩
  next => contradiction

theorem await_some {goes : Run → Reply Nat → Option (Run × List Event)}
    (moved : r.await goes = some (next,events)) :
    ∃ stock told, r.stock.step Stock.runThread noBody = some (stock,told) ∧
      (Stock.reply? told = none ∧ next = { r with stock } ∧
          events = told.map (.called Stock.runThread) ∨
        ∃ reply more, Stock.reply? told = some reply ∧
          goes { r with stock } reply = some (next,more) ∧
          events = told.map (.called Stock.runThread) ++ more) := by
  unfold await at moved
  split at moved
  next => contradiction
  next stock told stepped =>
    refine ⟨stock,told,stepped,?_⟩
    split at moved
    next silent =>
      cases moved
      exact Or.inl ⟨silent,rfl,rfl⟩
    next reply answered =>
      dsimp only at moved
      split at moved
      next went =>
        cases moved
        exact Or.inr ⟨reply,_,answered,went,rfl⟩
      next => contradiction

end

theorem workTask_working (moved : r.workTask cancelled i thread point thrown = some (next,events)) :
    Working r cancelled i thread thrown point events next := by
  cases point with
  | check =>
    cases cancelled <;> cases moved
    · exact .look rfl
    · exact .stop rfl
  | claim =>
    simp only [workTask] at moved
    split at moved
    next spent =>
      cases moved
      exact .exhausted spent
    next within =>
      obtain ⟨stock,more,made,rfl,rfl⟩ := makeCall_some moved
      exact .claim _ (UInt64.not_le.mp within) rfl made
  | processing bundle =>
    simp only [workTask] at moved
    obtain ⟨stock,told,stepped,rfl,⟨silent,rfl⟩ | ⟨reply,answered,rfl⟩⟩ := callStep_some moved
    · exact .serve bundle stepped silent
    · exact .served bundle reply stepped answered
  | tally bundle reply =>
    simp only [workTask] at moved
    split at moved
    next bytes =>
      cases moved
      exact .done bundle bytes
    next other valueless =>
      cases moved
      exact .failed bundle reply _ valueless (by simp)
  | handBack =>
    obtain ⟨stock,more,made,rfl,rfl⟩ := makeCall_some moved
    exact .handBack made
  | releasing =>
    obtain ⟨stock,told,stepped,rfl,⟨silent,rfl⟩ | ⟨reply,answered,rfl⟩⟩ := callStep_some moved
    · exact .release stepped silent
    · cases reply with
      | failed e => exact .released _ [e] stepped answered fun clean => absurd rfl (clean e)
      | _ => exact .released _ [] stepped answered fun _ => rfl

theorem coordinate_coordinating (moved : r.coordinate = some (next,events)) :
    Coordinating r events next := by
  unfold coordinate at moved
  split at moved
  next starting =>
    cases moved
    exact .begin _ starting (by simp)
  next joined joining =>
    split at moved
    next thrown ended =>
      cases moved
      exact .join joined thrown joining ended
    next => contradiction
    next all =>
      obtain ⟨stock,more,made,rfl,rfl⟩ := enter_some moved
      exact .showStats joined joining all made
  next showing =>
    obtain ⟨stock,told,stepped,⟨silent,rfl,rfl⟩ | ⟨reply,more,answered,went,rfl⟩⟩ := await_some moved
    · exact .await (Or.inl showing) stepped silent
    · obtain ⟨stock',more,made,rfl,rfl⟩ := enter_some went
      exact .drain reply showing stepped answered made
  next draining =>
    obtain ⟨stock,told,stepped,⟨silent,rfl,rfl⟩ | ⟨reply,more,answered,went,rfl⟩⟩ := await_some moved
    · exact .await (Or.inr (Or.inl draining)) stepped silent
    · obtain ⟨stock',more,made,rfl,rfl⟩ := enter_some went
      refine .count reply _ draining stepped answered ?_ made
      rintro errors rfl
      rfl
  next drained counting =>
    obtain ⟨stock,told,stepped,⟨silent,rfl,rfl⟩ | ⟨reply,more,answered,went,rfl⟩⟩ := await_some moved
    · exact .await (Or.inr (Or.inr ⟨drained,counting⟩)) stepped silent
    · split at went
      next values =>
        cases went
        rw [List.append_nil]
        exact .counted _ drained values counting stepped answered (by simp)
      next valueless =>
        cases went
        rw [List.append_nil]
        exact .counted reply drained {} counting stepped answered
          fun values same => absurd same (valueless values)
  next drained counters closing =>
    cases moved
    exact .close drained counters _ closing (by simp)
  next => contradiction

/-- All that a step of a run can do, said once. -/
theorem step_change (moved : r.step cancelled move = some (next,events)) :
    Change r cancelled move events next := by
  cases move with
  | start i thread =>
    simp only [step,startTask] at moved
    split at moved
    next ready =>
      simp only [Bool.and_eq_true,decide_eq_true_eq,Bool.not_eq_true'] at ready
      cases moved
      exact .take i thread _ ready.1.1.1 ready.1.1.2 ready.1.2 ready.2 rfl
    next => contradiction
  | work i =>
    simp only [step] at moved
    split at moved
    next thread point thrown runs => exact .work i thread runs (workTask_working moved)
    next => contradiction
  | coordinate => exact .coordinate (coordinate_coordinating moved)

end Run
end PerWorker.Pipeline
