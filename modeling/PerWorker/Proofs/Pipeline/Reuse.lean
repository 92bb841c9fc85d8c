import PerWorker.Pipeline.Schedule
import PerWorker.Proofs.Lifecycle.Spans
import PerWorker.Proofs.Pipeline.Twins

/-!
Runs over a manager that has been at work before. Main statement: if nothing is registered in it, a
run over it takes every schedule as a run over a newly made manager does and ends with the same
errors or the same summary, but for the setups and teardowns, which go on from those of the runs
before.
-/
namespace PerWorker.Pipeline

variable {old new t : Nat} {k : Counters} {p : Enricher} {one other s : Stock} {body : Body}

/-- What users of a manager can do to it: take steps in calls of any kind, with any outcome of
hooks and bodies; copies come from the template. -/
inductive Stock.History (made : Stock) : Stock → Prop
  | made : History made made
  | grow {s : Stock} (before : History made s) :
      History made { s with system := s.system.addThread }
  | act {s next : Stock} {events : List (Event Nat)} (t : Nat) (action : Action Enricher Nat)
      (own : ∀ drawn, action ≠ .drawn drawn) (before : History made s)
      (moved : s.act t action = some (next,events)) : History made next
  | draw {s next : Stock} {events : List (Event Nat)} (t : Nat) (before : History made s)
      (moved : s.draw t = some (next,events)) : History made next

/-- A newly made manager in place of the one at work. -/
def Stock.rebuild (s made : Stock) : Stock := { s.renew with template := made.template }

structure Paired (old new : Nat) (k : Counters) (p : Enricher) (one other : Stock) : Prop where
  twins : Twins old new k one.system other.system
  manager : one.manager = old
  manager' : other.manager = new
  yields : one.template.Yields p
  yields' : other.template.Yields p

structure Moved (old new : Nat) (k : Counters) (p : Enricher) (t : Nat)
    (one other : Stock × List (Event Nat)) : Prop where
  paired : Paired old new k p one.1 other.1
  told : Option.Rel (Answers k t) (Stock.reply? one.2) (Stock.reply? other.2)
  idle : t = Stock.runThread → ∀ reply, Stock.reply? one.2 = some reply → one.1.system.stack t = []

namespace Paired

theorem act (paired : Paired old new k p one other) (action action' : Action Enricher Nat)
    (agree : Option.Rel (Agree old new k t) (one.system.step t action)
      (other.system.step t action')) :
    Option.Rel (Moved old new k p t) (one.act t action) (other.act t action') := by
  unfold Stock.act
  generalize one.system.step t action = here at agree ⊢
  generalize other.system.step t action' = there at agree ⊢
  cases agree with
  | none => exact .none
  | some both => exact .some ⟨{ paired with twins := both.twins },both.told,both.idle⟩

theorem draw (paired : Paired old new k p one other) (positive : 0 < t) :
    Option.Rel (Moved old new k p t) (one.draw t) (other.draw t) := by
  obtain ⟨next,drawn,yields⟩ := paired.yields.replicate
  obtain ⟨next',drawn',yields'⟩ := paired.yields'.replicate
  unfold Stock.draw
  rw [drawn,drawn']
  have drawn : Paired old new k p { one with template := next } { other with template := next' } :=
    { paired with yields, yields' }
  exact drawn.act _ _ (paired.twins.draw positive (.copy p))

theorem conclude (paired : Paired old new k p one other) (positive : 0 < t) (value : Enricher)
    (result : Except Enricher.Refusal Nat) :
    Option.Rel (Moved old new k p t) (one.conclude t value result)
      (other.conclude t value result) := by
  have assigned := paired.twins.assign positive value
  unfold Stock.conclude
  generalize one.system.step t (.assign value) = here at assigned ⊢
  generalize other.system.step t (.assign value) = there at assigned ⊢
  cases assigned with
  | none => exact .none
  | @some here there both =>
    have assigned : Paired old new k p { one with system := here.1 }
        { other with system := there.1 } := { paired with twins := both }
    exact assigned.act (.finish _) (.finish _) (both.finish positive _)

theorem perform (paired : Paired old new k p one other) (positive : 0 < t) (hook : Hook)
    (e : Enricher) (body : Body) :
    Option.Rel (Moved old new k p t) (one.perform t hook e body)
      (other.perform t hook e body) := by
  cases hook with
  | setup =>
    simp only [Stock.perform]
    cases e.setup <;> exact paired.conclude positive _ _
  | teardown =>
    simp only [Stock.perform]
    cases e.teardown with
    | error refusal => exact paired.conclude positive _ _
    | ok closing =>
      have concluded := paired.conclude positive closing.2 (.ok 0)
      dsimp only
      generalize one.conclude t closing.2 (.ok 0) = here at concluded ⊢
      generalize other.conclude t closing.2 (.ok 0) = there at concluded ⊢
      cases concluded with
      | none => exact .none
      | some both => exact .some ⟨both.paired,both.told,both.idle⟩
  | body => exact paired.conclude positive _ _

/-- A step that one of two paired stocks can take the other one can take too, with an answer that
differs in counts only. -/
theorem step (paired : Paired old new k p one other) (positive : 0 < t) (body : Body) :
    Option.Rel (Moved old new k p t) (one.step t body) (other.step t body) := by
  obtain ⟨hook,drawing⟩ := paired.twins.hook positive
  have advanced := paired.act .advance .advance (paired.twins.advance positive)
  unfold Stock.step
  generalize one.system.stack t = fs at hook drawing ⊢
  generalize other.system.stack t = gs at hook drawing ⊢
  cases fs with
  | nil => cases gs with
    | nil => exact .none
    | cons => cases drawing
  | cons frame below => cases gs with
    | nil => cases drawing
    | cons frame' below' =>
      simp only [List.head?_cons,Option.bind_some,Option.map_some,Option.some.injEq] at hook drawing
      simp only [hook,drawing,paired.twins.value]
      cases frame'.hook? with
      | some running =>
        dsimp only
        cases (other.system.copies[running.2]?).map (·.value) with
        | none => exact .none
        | some e => exact paired.perform positive _ e body
      | none =>
        dsimp only
        split
        · exact paired.draw positive
        · exact advanced

end Paired

namespace Stock

variable {next : Stock} {events : List (Event Nat)}

/-- What holds of a stock after one step of a thread if each action keeps it. -/
theorem step_induct {P : Stock → Prop}
    (act : ∀ (s next : Stock) (action : Action Enricher Nat) (events : List (Event Nat)),
      (∀ drawn, action ≠ .drawn drawn) → s.act t action = some (next,events) → P s → P next)
    (draw : ∀ (s next : Stock) (events : List (Event Nat)),
      s.draw t = some (next,events) → P s → P next)
    (before : P s) (moved : s.step t body = some (next,events)) : P next := by
  have conclude {s next : Stock} {value : Enricher} {result : Except Enricher.Refusal Nat}
      {events : List (Event Nat)} (before : P s)
      (moved : s.conclude t value result = some (next,events)) : P next := by
    unfold Stock.conclude at moved
    cases assigned : s.system.step t (.assign value) with
    | none => simp [assigned] at moved
    | some reached =>
      simp only [assigned] at moved
      apply act _ _ (.finish _) _ (by simp) moved
      exact act s _ (.assign value) reached.2 (by simp) (by simp [Stock.act,assigned]) before
  unfold Stock.step at moved
  split at moved
  · cases moved
  · split at moved
    · split at moved
      · rename_i hook _ _ _ e _
        cases hook with
        | setup =>
          simp only [perform] at moved
          split at moved <;> exact conclude before moved
        | teardown =>
          simp only [perform] at moved
          split at moved
          · split at moved
            · rename_i concluded
              obtain ⟨rfl,-⟩ := Prod.mk.inj (Option.some_inj.mp moved)
              exact conclude before concluded
            · cases moved
          · exact conclude before moved
        | body => exact conclude before moved
      · cases moved
    · split at moved
      · exact draw _ _ _ moved before
      · exact act _ _ _ _ (by simp) moved before

theorem act_system {action : Action Enricher Nat} (moved : s.act t action = some (next,events)) :
    s.system.step t action = some (next.system,events) ∧ next.manager = s.manager ∧
      next.template = s.template := by
  unfold Stock.act at moved
  split at moved
  · rename_i stepped
    obtain ⟨rfl,rfl⟩ := Prod.mk.inj (Option.some_inj.mp moved)
    exact ⟨stepped,rfl,rfl⟩
  · cases moved

theorem step_others (moved : s.step t body = some (next,events)) {u : Nat} (away : u ≠ t) :
    next.system.stack u = s.system.stack u := by
  apply step_induct (P := fun next => next.system.stack u = s.system.stack u) _ _ rfl moved
  · intro before next action events _ moved same
    exact ((System.step_effect (act_system moved).1).others away).trans same
  · intro before next events moved same
    exact ((System.step_effect (act_system moved).1).others away).trans same

end Stock

theorem Stock.History.step {made next : Stock} {events : List (Event Nat)}
    (history : made.History s) (moved : s.step t body = some (next,events)) : made.History next :=
  Stock.step_induct (fun _ _ action _ own moved before => .act t action own before moved)
    (fun _ _ _ moved before => .draw t before moved) history moved

/-- The summary of a run over a manager that had counted that much before. -/
def Summary.after (k : Counters) (summary : Summary) : Summary :=
  { summary with setups := k.setups + summary.setups, teardowns := k.teardowns + summary.teardowns }

def Pooled (tasks : Array Task) : Prop :=
  ∀ task ∈ tasks, ∀ t, task.thread? = some t → Stock.firstPoolThread ≤ t

section

variable (old new : Nat) (k : Counters) (p : Enricher)

inductive Phases (s : System Enricher Nat) : Phase → Phase → Prop
  | starting (idle : s.stack Stock.runThread = []) : Phases s .starting .starting
  | joining (joined : Nat) (idle : s.stack Stock.runThread = []) :
      Phases s (.joining joined) (.joining joined)
  | showingStats : Phases s .showingStats .showingStats
  | draining : Phases s .draining .draining
  | counting (drained : List LifecycleError) (left : List Counter) (a : Counters)
      (reading : s.stack Stock.runThread = [.load old left a none]) :
      Phases s (.counting drained) (.counting drained)
  | closing (drained : List LifecycleError) (a b : Counters) (ahead : Ahead k a b) :
      Phases s (.closing drained a) (.closing drained b)
  | ended (outcome : Except TeardownErrors Summary) :
      Phases s (.ended (outcome.map (Summary.after k))) (.ended outcome)

structure Mirrored (r : Run) (stock : Stock) (phase : Phase) : Prop where
  paired : Paired old new k p r.stock stock
  phases : Phases old k r.stock.system r.phase phase
  pooled : Pooled r.tasks

/-- Two runs that differ in their stocks and phases at most. -/
def Twin (r twin : Run) : Prop :=
  ∃ stock phase, twin = { r with stock, phase } ∧ Mirrored old new k p r stock phase

end

theorem Phases.stay {next system : System Enricher Nat} {phase phase' : Phase}
    (phases : Phases old k system phase phase')
    (same : next.stack Stock.runThread = system.stack Stock.runThread) :
    Phases old k next phase phase' := by
  cases phases with
  | starting idle => exact .starting (same.trans idle)
  | joining joined idle => exact .joining joined (same.trans idle)
  | showingStats => exact .showingStats
  | draining => exact .draining
  | counting drained left a reading => exact .counting drained left a (same.trans reading)
  | closing drained a b ahead => exact .closing drained a b ahead
  | ended outcome => exact .ended outcome

section

variable {r : Run} {stock : Stock} {phase : Phase} {i : Nat} {task : Task}

theorem Pooled.set {tasks : Array Task} (pooled : Pooled tasks) (i : Nat)
    (own : ∀ t, task.thread? = some t → Stock.firstPoolThread ≤ t) :
    Pooled (tasks.setIfInBounds i task) := by
  intro found member t runs
  rcases Array.mem_or_eq_of_mem_setIfInBounds member with old | rfl
  · exact pooled found old t runs
  · exact own t runs

theorem pool_of_running {point : TaskPoint} {thrown : List LifecycleError}
    (pool : Stock.firstPoolThread ≤ t) :
    ∀ u, (Task.running t point thrown).thread? = some u → Stock.firstPoolThread ≤ u :=
  fun _ same => Option.some_inj.mp same ▸ pool

theorem Mirrored.setTask (mirrored : Mirrored old new k p r stock phase) (i : Nat)
    (own : ∀ t, task.thread? = some t → Stock.firstPoolThread ≤ t) :
    Mirrored old new k p (r.setTask i task) stock phase :=
  { mirrored with pooled := mirrored.pooled.set i own }

theorem Mirrored.twin (mirrored : Mirrored old new k p r stock phase) :
    Twin old new k p r { r with stock, phase } :=
  ⟨stock,phase,rfl,mirrored⟩

namespace Run

theorem startTask_twin (mirrored : Mirrored old new k p r stock phase) (i t : Nat) :
    Option.Rel (fun one other => Twin old new k p one.1 other.1) (r.startTask i t)
      (Run.startTask { r with stock, phase } i t) := by
  have paired := mirrored.paired
  simp only [startTask,isBusy,paired.twins.threads]
  split
  · rename_i ready
    simp only [Bool.and_eq_true,decide_eq_true_eq] at ready
    have pool : Stock.firstPoolThread ≤ t := ready.1.1.2
    split
    · exact .some (mirrored.setTask i (pool_of_running pool)).twin
    · have grown : Mirrored old new k p
          { r with stock := { r.stock with system := r.stock.system.addThread } }
          { stock with system := stock.system.addThread } phase :=
        { paired := { paired with twins := paired.twins.addThread }
          phases := mirrored.phases.stay (Run.stack_addThread ..)
          pooled := mirrored.pooled }
      exact .some (grown.setTask i (pool_of_running pool)).twin
  · exact .none

theorem callStep_twin (mirrored : Mirrored old new k p r stock phase) (i : Nat)
    (pool : Stock.firstPoolThread ≤ t) (body : Body) (thrown : List LifecycleError)
    (next : Reply Nat → TaskPoint × List LifecycleError) :
    Option.Rel (fun one other => Twin old new k p one.1 other.1) (r.callStep i t body thrown next)
      (Run.callStep { r with stock, phase } i t body thrown next) := by
  have away : t ≠ Stock.runThread := Nat.ne_of_gt pool
  have moved := mirrored.paired.step (Nat.zero_lt_of_lt pool) body
  unfold callStep
  dsimp only
  cases here : r.stock.step t body <;> cases there : stock.step t body <;> rw [here,there] at moved
  · exact .none
  · cases moved
  · cases moved
  · rename_i one other
    cases moved with
    | some both =>
    have stepped : Mirrored old new k p { r with stock := one.1 } other.1 phase :=
      { paired := both.paired
        phases := mirrored.phases.stay (Stock.step_others here away.symm)
        pooled := mirrored.pooled }
    have told := both.told
    dsimp only
    generalize Stock.reply? one.2 = reply at told ⊢
    generalize Stock.reply? other.2 = reply' at told ⊢
    cases told with
    | none => exact .some stepped.twin
    | some answers =>
      rcases answers with rfl | ⟨own,-⟩
      · exact .some (stepped.setTask i (pool_of_running pool)).twin
      · exact absurd own away

theorem makeCall_twin (mirrored : Mirrored old new k p r stock phase) (i : Nat)
    (pool : Stock.firstPoolThread ≤ t) {call call' : Call}
    (first : ∀ below twin : List (Frame Enricher Nat),
      List.Forall₂ (Frame.Alike old new) below twin → List.Forall₂ (Frame.Alike old new)
        (System.firstFrames call below) (System.firstFrames call' twin))
    (point : TaskPoint) (thrown : List LifecycleError) (events events' : List Event) :
    Option.Rel (fun one other => Twin old new k p one.1 other.1)
      (r.makeCall i t call point thrown events)
      (Run.makeCall { r with stock, phase } i t call' point thrown events') := by
  have away : t ≠ Stock.runThread := Nat.ne_of_gt pool
  have called := mirrored.paired.act (.call call) (.call call')
    (mirrored.paired.twins.call (Nat.zero_lt_of_lt pool) away first)
  unfold makeCall Stock.call
  dsimp only
  cases here : r.stock.act t (.call call) <;> cases there : stock.act t (.call call') <;>
    rw [here,there] at called
  · exact .none
  · cases called
  · cases called
  · rename_i one other
    cases called with
    | some both =>
    have stepped : Mirrored old new k p { r with stock := one.1 } other.1 phase :=
      { paired := both.paired
        phases := mirrored.phases.stay
          ((System.step_effect (Stock.act_system here).1).others away.symm)
        pooled := mirrored.pooled }
    exact .some (stepped.setTask i (pool_of_running pool)).twin

theorem workTask_twin (mirrored : Mirrored old new k p r stock phase) (cancelled : Bool) (i : Nat)
    (pool : Stock.firstPoolThread ≤ t) (point : TaskPoint) (thrown : List LifecycleError) :
    Option.Rel (fun one other => Twin old new k p one.1 other.1)
      (r.workTask cancelled i t point thrown)
      (Run.workTask { r with stock, phase } cancelled i t point thrown) := by
  have none (thrown : List LifecycleError) :
      ∀ u, (Task.ended thrown).thread? = some u → Stock.firstPoolThread ≤ u :=
    fun u same => by cases same
  cases point with
  | check =>
    cases cancelled
    · exact .some (mirrored.setTask i (pool_of_running pool)).twin
    · exact .some (mirrored.setTask i (none _)).twin
  | claim =>
    have fetched : Mirrored old new k p { r with cursor := r.cursor + r.plan.bundleSize } stock
        phase := { mirrored with }
    simp only [workTask,mirrored.paired.manager,mirrored.paired.manager']
    split
    · exact .some (fetched.setTask i (none _)).twin
    · refine makeCall_twin fetched i pool ?_ _ _ _ _
      exact fun below twin alike => .cons (.get _ _) (.cons (.processGet _) alike)
  | processing bundle =>
    exact callStep_twin mirrored i pool bundle.body thrown fun reply => (.tally bundle reply,[])
  | tally bundle reply =>
    cases reply with
    | value bytes =>
      have counted : Mirrored old new k p
          { r with progress := r.progress.countDone bundle bytes } stock phase := { mirrored with }
      exact .some (counted.setTask i (pool_of_running pool)).twin
    | _ =>
      have counted : Mirrored old new k p { r with progress := r.progress.countFailed } stock
          phase := { mirrored with }
      exact .some (counted.setTask i (pool_of_running pool)).twin
  | handBack =>
    simp only [workTask,mirrored.paired.manager,mirrored.paired.manager']
    refine makeCall_twin mirrored i pool ?_ _ _ _ _
    exact fun below twin alike => .cons (.release _ _) alike
  | releasing => exact callStep_twin mirrored i pool noBody thrown _

theorem enter_twin (mirrored : Mirrored old new k p r stock phase)
    (idle : r.stock.system.stack Stock.runThread = []) {call call' : Call}
    (first : Stacked old new k Stock.runThread (System.firstFrames call [])
      (System.firstFrames call' []))
    (entered entered' : Phase) (phases : ∀ next : System Enricher Nat,
      next.stack Stock.runThread = System.firstFrames call [] →
        Phases old k next entered entered') :
    Option.Rel (fun one other => Twin old new k p one.1 other.1) (r.enter call entered)
      (Run.enter { r with stock, phase } call' entered') := by
  have called := mirrored.paired.act (.call call) (.call call')
    (mirrored.paired.twins.enter idle first)
  unfold enter Stock.call
  dsimp only
  cases here : r.stock.act Stock.runThread (.call call) <;>
    cases there : stock.act Stock.runThread (.call call') <;> rw [here,there] at called
  · exact .none
  · cases called
  · cases called
  · rename_i one other
    cases called with
    | some both =>
    have stands : one.1.system.stack Stock.runThread = System.firstFrames call [] := by
      have stepped := (Stock.act_system here).1
      simp only [System.step] at stepped
      split at stepped
      · rename_i opened
        have bound : Stock.runThread < r.stock.system.threads.size := by
          simp only [System.isOpen,Bool.and_eq_true,decide_eq_true_eq] at opened
          exact opened.1
        rw [idle] at stepped
        rw [← (Prod.mk.inj (Option.some_inj.mp stepped)).1]
        exact System.stack_setStack _ _ bound
      · cases stepped
    exact .some ⟨other.1,entered',rfl,both.paired,phases _ stands,mirrored.pooled⟩

/-- A call of the run itself steps on either side alike, and so does what comes of its answer. -/
theorem await_twin (mirrored : Mirrored old new k p r stock phase)
    (stay : ∀ next : System Enricher Nat, Phases old k next r.phase phase)
    (next : Run → Reply Nat → Option (Run × List Event))
    (goes : ∀ (one other : Stock) (reply reply' : Reply Nat),
      Mirrored old new k p { r with stock := one } other phase →
      one.system.stack Stock.runThread = [] → Answers k Stock.runThread reply reply' →
      Option.Rel (fun one other => Twin old new k p one.1 other.1)
        (next { r with stock := one } reply) (next { r with stock := other, phase } reply')) :
    Option.Rel (fun one other => Twin old new k p one.1 other.1) (r.await next)
      (Run.await { r with stock, phase } next) := by
  have moved := mirrored.paired.step (t := Stock.runThread) (by decide) noBody
  unfold await
  dsimp only
  generalize r.stock.step Stock.runThread noBody = here at moved ⊢
  generalize stock.step Stock.runThread noBody = there at moved ⊢
  cases moved with
  | none => exact .none
  | @some one other both =>
    have stepped : Mirrored old new k p { r with stock := one.1 } other.1 phase :=
      { paired := both.paired, phases := stay _, pooled := mirrored.pooled }
    have told := both.told
    have idle := both.idle rfl
    dsimp only
    generalize Stock.reply? one.2 = reply at told idle ⊢
    generalize Stock.reply? other.2 = reply' at told ⊢
    cases told with
    | none => exact .some stepped.twin
    | @some reply reply' answers =>
      have went := goes one.1 other.1 reply reply' stepped (idle reply rfl) answers
      dsimp only
      generalize next { r with stock := one.1 } reply = here at went ⊢
      generalize next { r with stock := other.1, phase } reply' = there at went ⊢
      cases went with
      | none => exact .none
      | some both => exact .some both

theorem step_load {m : Nat} {counter : Counter} {rest : List Counter} {a : Counters}
    (reading : s.system.stack t = [.load m (counter :: rest) a none]) :
    s.step t body = some ({ s with system := (s.system.setStack t [.load m rest (a.set counter
      (((s.system.managers[m]?).map (·.counters.get counter)).getD 0)) none]) },[]) := by
  simp [Stock.step,reading,Frame.hook?,Frame.isDrawing,Stock.act,System.step,System.advance,
    System.goto]

theorem step_loaded {m : Nat} {a : Counters}
    (reading : s.system.stack t = [.load m [] a none]) :
    s.step t body = some ({ s with system := s.system.setStack t [] },
      [.returned (.counters a)]) := by
  simp [Stock.step,reading,Frame.hook?,Frame.isDrawing,Stock.act,System.step,System.advance,
    System.answer,System.resume]

/-- The run reads the counters, and once it has read them all it closes. -/
theorem counting_twin (mirrored : Mirrored old new k p r stock phase)
    {drained : List LifecycleError} {left : List Counter} {a : Counters}
    (here : r.phase = .counting drained) (there : phase = .counting drained)
    (reading : r.stock.system.stack Stock.runThread = [.load old left a none]) :
    Option.Rel (fun one other => Twin old new k p one.1 other.1) r.coordinate
      (Run.coordinate { r with stock, phase }) := by
  have paired := mirrored.paired
  obtain ⟨b,reading',read⟩ := paired.twins.reading reading
  unfold coordinate await
  rw [here,there]
  dsimp only
  cases left with
  | nil =>
    rw [step_loaded reading,step_loaded reading']
    have ahead : Ahead k a b := fun counter => (read counter).resolve_left List.not_mem_nil
    have idle := paired.twins.setStack (t := Stock.runThread) (.calls .nil (by simp))
    exact .some ⟨_,.closing drained b,rfl,{ paired with twins := idle },
      .closing drained a b ahead,mirrored.pooled⟩
  | cons counter rest =>
    rw [step_load reading,step_load reading']
    have loaded := paired.twins.setStack (.load rfl rest _ _ none (paired.twins.load_set read))
    have bound := System.bound_of_stack _ _ _ _ reading
    exact .some ⟨_,.counting drained,rfl,{ paired with twins := loaded },
      .counting drained rest _ (System.stack_setStack _ _ bound),mirrored.pooled⟩

theorem summary_after {a b : Counters} (ahead : Ahead k a b) (r : Run) (stock : Stock)
    (phase : Phase) : r.summary a = (Run.summary { r with stock, phase } b).after k := by
  have setups : a.setups = k.setups + b.setups := ahead .setups
  have teardowns : a.teardowns = k.teardowns + b.teardowns := ahead .teardowns
  simp [summary,Summary.after,setups,teardowns]

theorem coordinate_twin (mirrored : Mirrored old new k p r stock phase) :
    Option.Rel (fun one other => Twin old new k p one.1 other.1) r.coordinate
      (Run.coordinate { r with stock, phase }) := by
  have phases := mirrored.phases
  generalize here : r.phase = current at phases
  cases phases with
  | starting idle =>
    unfold coordinate
    rw [here]
    refine .some ⟨stock,.joining 0,rfl,mirrored.paired,.joining 0 idle,?_⟩
    intro task member t runs
    obtain rfl := Array.eq_of_mem_replicate member
    cases runs
  | joining joined idle =>
    unfold coordinate
    rw [here]
    dsimp only
    split
    · exact .some ⟨stock,.joining (joined + 1),rfl,mirrored.paired,.joining _ idle,mirrored.pooled⟩
    · exact .none
    · rw [mirrored.paired.manager,mirrored.paired.manager']
      exact enter_twin mirrored idle (.counting rfl 0 []) _ _ fun _ _ => .showingStats
  | showingStats =>
    unfold coordinate
    rw [here]
    apply await_twin mirrored
    · intro next
      rw [here]
      exact .showingStats
    · intro one other reply reply' stepped idle _
      rw [stepped.paired.manager,stepped.paired.manager']
      refine enter_twin stepped idle (.calls (.cons (.survey _ _) (.cons (.drain _ _) .nil)) ?_)
        _ _ fun _ _ => .draining
      simp [System.firstFrames,System.nextDrain,Frame.waits]
  | draining =>
    unfold coordinate
    rw [here]
    apply await_twin mirrored
    · intro next
      rw [here]
      exact .draining
    · intro one other reply reply' stepped idle answers
      have first : Stacked old new k Stock.runThread (System.firstFrames (.counters old) [])
          (System.firstFrames (.counters new) []) :=
        .load rfl Counter.all {} {} none fun counter => .inl (by cases counter <;> decide)
      rw [stepped.paired.manager,stepped.paired.manager']
      rcases answers with rfl | ⟨-,a,b,rfl,rfl,-⟩
      · exact enter_twin stepped idle first _ _ fun next stands => .counting _ _ _ stands
      · exact enter_twin stepped idle first _ _ fun next stands => .counting _ _ _ stands
  | counting drained left a reading => exact counting_twin mirrored here rfl reading
  | closing drained a b ahead =>
    unfold coordinate
    rw [here]
    refine .some ⟨stock,.ended _,rfl,mirrored.paired,?_,mirrored.pooled⟩
    rw [summary_after ahead r stock (.closing drained b)]
    dsimp only
    generalize TeardownErrors.ofList (r.thrown ++ drained) = failures
    cases failures with
    | error errors => exact .ended (.error errors)
    | ok => exact .ended (.ok _)
  | ended outcome =>
    unfold coordinate
    rw [here]
    exact .none

theorem step_twin (mirrored : Mirrored old new k p r stock phase) (cancelled : Bool)
    (move : Move) :
    Option.Rel (fun one other => Twin old new k p one.1 other.1) (r.step cancelled move)
      (Run.step { r with stock, phase } cancelled move) := by
  cases move with
  | start i t => exact startTask_twin mirrored i t
  | work i =>
    simp only [step]
    split
    · rename_i t point thrown runs
      have pool := mirrored.pooled _ (Array.mem_of_getElem? runs) t rfl
      exact workTask_twin mirrored cancelled i pool point thrown
    · exact .none
  | coordinate => exact coordinate_twin mirrored

def drive (r : Run) : List (Bool × Move) → Option Run
  | [] => some r
  | (cancelled,move) :: rest => (r.step cancelled move).bind fun (next,_) => next.drive rest

theorem drive_twin {twin : Run} (alike : Twin old new k p r twin) (schedule : List (Bool × Move)) :
    Option.Rel (Twin old new k p) (r.drive schedule) (twin.drive schedule) := by
  induction schedule generalizing r twin with
  | nil => exact .some alike
  | cons turn rest ih =>
    obtain ⟨cancelled,move⟩ := turn
    obtain ⟨stock,phase,rfl,mirrored⟩ := alike
    have stepped := step_twin mirrored cancelled move
    unfold drive
    generalize r.step cancelled move = here at stepped ⊢
    generalize Run.step { r with stock, phase } cancelled move = there at stepped ⊢
    cases stepped with
    | none => exact .none
    | some both => exact ih both

theorem outcome_twin {twin : Run} (alike : Twin old new k p r twin) :
    r.outcome? = twin.outcome?.map (·.map (Summary.after k)) := by
  obtain ⟨stock,phase,rfl,mirrored⟩ := alike
  have phases := mirrored.phases
  unfold outcome?
  generalize r.phase = current at phases ⊢
  cases phases <;> rfl

end Run
end

namespace Stock.History

variable {made next : Stock} {events : List (Event Nat)} {name : String}

theorem call (history : made.History s) {t : Nat} {c : Call}
    (moved : s.call t c = some (next,events)) : made.History next :=
  .act _ (.call c) (by simp) history moved

/-- Whatever has been done to a manager, it is there under its name and its template gives the same
copy. -/
theorem kept (history : (Stock.fresh name p).History s) :
    s.manager < s.system.managers.size ∧ s.name = name ∧ s.template.Yields p.closed := by
  have step {t : Nat} {s next : Stock} {action : Action Enricher Nat}
      {events : List (Event Nat)} (before : s.manager < s.system.managers.size ∧ s.name = name)
      (moved : s.act t action = some (next,events)) :
      next.manager < next.system.managers.size ∧ next.name = name := by
    obtain ⟨stepped,manager,-⟩ := act_system moved
    have managers : next.system.managers.size = s.system.managers.size :=
      (System.step_move stepped).managers
    have same : next.name = s.name := by
      rw [Stock.name,manager]
      exact (System.step_effect stepped).name _
    rw [manager,managers,same]
    exact before
  induction history with
  | made => exact ⟨Nat.zero_lt_one,rfl,p.yields_closed 1⟩
  | grow before ih => exact ih
  | act t action own before moved ih =>
    obtain ⟨inside,named⟩ := step ⟨ih.1,ih.2.1⟩ moved
    exact ⟨inside,named,(act_system moved).2.2 ▸ ih.2.2⟩
  | @draw s next events t before moved ih =>
    obtain ⟨after,drawn,yields⟩ := ih.2.2.replicate
    have drew : Stock.act { s with template := after } t (.drawn (.copy p.closed)) =
        some (next,events) := by simpa [Stock.draw,drawn] using moved
    obtain ⟨inside,named⟩ := step (s := { s with template := after }) ⟨ih.1,ih.2.1⟩ drew
    exact ⟨inside,named,(act_system drew).2.2 ▸ yields⟩

end Stock.History

namespace Run

variable {made : Stock} {r next : Run} {cancelled : Bool} {move : Move} {events : List Event}

theorem step_history (history : made.History r.stock)
    (moved : r.step cancelled move = some (next,events)) : made.History next.stock := by
  cases step_change moved with
  | take i thread stock waits pool known free grown =>
    subst grown
    change made.History (if _ then _ else _)
    split
    · exact history
    · exact .grow history
  | work i thread runs working =>
    cases working with
    | claim bundle within same called => exact history.call called
    | handBack called => exact history.call called
    | serve bundle stepped silent => exact history.step stepped
    | served bundle reply stepped answered => exact history.step stepped
    | release stepped silent => exact history.step stepped
    | released reply more stepped answered clean => exact history.step stepped
    | _ => exact history
  | coordinate coordinating =>
    cases coordinating with
    | showStats joined joining all called => exact history.call called
    | await waits stepped silent => exact history.step stepped
    | drain reply showing stepped answered called => exact (history.step stepped).call called
    | count reply drained draining stepped answered listed called =>
      exact (history.step stepped).call called
    | counted reply drained counters counting stepped answered read => exact history.step stepped
    | _ => exact history

theorem drive_history {schedule : List (Bool × Move)} (history : made.History r.stock)
    (driven : r.drive schedule = some next) : made.History next.stock := by
  induction schedule generalizing r with
  | nil => exact Option.some_inj.mp driven ▸ history
  | cons turn rest ih =>
    obtain ⟨⟨reached,events⟩,moved,driven⟩ := Option.bind_eq_some_iff.mp driven
    exact ih (step_history history moved) driven

/-- Nothing is registered in the manager, and no thread that works for a run is in a call. -/
structure Drained (s : Stock) : Prop where
  none : ∀ w, s.system.slot? s.manager w = none
  idle : ∀ t, 0 < t → s.system.stack t = []

theorem fresh_twin {name : String} (history : (Stock.fresh name p).History s)
    (drained : Drained s) (plan : Plan) :
    Twin s.manager s.system.managers.size (s.system.counters s.manager) p.closed (fresh plan s)
      (fresh plan (s.rebuild (.fresh name p))) := by
  obtain ⟨inside,-,yields⟩ := history.kept
  obtain ⟨m,here⟩ : ∃ m, s.system.managers[s.manager]? = some m :=
    ⟨_,Array.getElem?_eq_getElem inside⟩
  have empty : m.slots = [] := by
    cases listed : m.slots with
    | nil => rfl
    | cons slot rest =>
      have missing := drained.none slot.1
      simp [System.slot?,here,Manager.slot?,listed] at missing
  have named : s.name = m.name := by simp [Stock.name,System.name,here]
  have counts : s.system.counters s.manager = m.counters := by simp [System.counters,here]
  have idle (t : Nat) (positive : 0 < t) := drained.idle t positive
  refine ⟨s.rebuild (.fresh name p),.starting,rfl,⟨?_,rfl,rfl,yields,p.yields_closed 1⟩,
    .starting (idle _ (by decide)),?_⟩
  · refine ⟨rfl,⟨m,{ name := s.name },here,by simp [Stock.rebuild,Stock.renew],named.symm,empty,?_⟩,
      rfl,rfl,rfl,fun t positive => ?_⟩
    · intro counter
      rw [counts]
      cases counter <;> rfl
    · change Stacked _ _ _ t (s.system.stack t) (s.system.stack t)
      rw [idle t positive]
      exact .calls .nil (by simp)
  · simp [fresh,Pooled]

/-- A run over a manager that was left drained is, on every schedule, a run over a newly made one,
but for the setups and teardowns in its summary: these go on from those of the runs before. -/
theorem reused_like_new {c : Config} (built : Stock.ofConfig c = .ok made)
    (history : made.History s) (drained : Drained s) (plan : Plan)
    (schedule : List (Bool × Move)) :
    ((fresh plan s).drive schedule).map outcome? =
      ((fresh plan (s.rebuild made)).drive schedule).map fun r =>
        r.outcome?.map (·.map (Summary.after (s.system.counters s.manager))) := by
  obtain rfl := Except.ok.inj (built.symm.trans (Stock.start_eq ..))
  have driven := drive_twin (fresh_twin history drained plan) schedule
  generalize (fresh plan s).drive schedule = here at driven ⊢
  generalize (fresh plan (s.rebuild _)).drive schedule = there at driven ⊢
  cases driven with
  | none => rfl
  | some alike => exact congrArg some (outcome_twin alike)

def single : Plan := { workers := 1, elements := 1, bundleSize := 1 }

def singly : List (Bool × Move) :=
  (false,.coordinate) :: (false,.start 0 2) :: (List.replicate 19 (false,.work 0) ++
    List.replicate 31 (false,.coordinate))

def summary? (r : Run) : Option Summary := r.outcome?.bind Except.toOption

theorem Drained.of_empty (threads : s.system.threads.all List.isEmpty = true)
    (managers : s.system.managers.all (·.slots.isEmpty) = true) : Drained s where
  none w := by
    unfold System.slot?
    cases here : s.system.managers[s.manager]? with
    | none => rfl
    | some m =>
      have empty := Array.all_eq_true'.mp managers m (Array.mem_of_getElem? here)
      simp [Manager.slot?,List.isEmpty_iff.mp empty]
  idle t _ := by
    unfold System.stack
    rw [Array.getD_eq_getD_getElem?]
    cases here : s.system.threads[t]? with
    | none => rfl
    | some frames =>
      exact List.isEmpty_iff.mp (Array.all_eq_true'.mp threads frames (Array.mem_of_getElem? here))

/-- The manager of a run of one bundle, once the run is over. -/
theorem singly_drains : ∃ made s, Stock.ofConfig default = .ok made ∧ made.History s ∧ Drained s ∧
    (s.system.counters s.manager).setups = 1 ∧
    (((fresh single s).drive singly).bind summary?).map (·.setups) = some 2 ∧
    (((fresh single (s.rebuild made)).drive singly).bind summary?).map (·.setups) = some 1 := by
  have told : ((fresh single (.fresh (default : Config).pipelineName (prototype default))).drive
      singly).map (fun r => (r.stock.system.threads.all List.isEmpty,
        r.stock.system.managers.all (·.slots.isEmpty),
        (r.stock.system.counters r.stock.manager).setups,
        (((fresh single r.stock).drive singly).bind summary?).map (·.setups),
        (((fresh single (r.stock.rebuild (.fresh (default : Config).pipelineName
          (prototype default)))).drive singly).bind summary?).map (·.setups))) =
      some (true,true,1,some 2,some 1) := by
    decide +kernel
  obtain ⟨first,driven,told⟩ := Option.map_eq_some_iff.mp told
  simp only [Prod.mk.injEq] at told
  obtain ⟨threads,managers,counted,again,anew⟩ := told
  exact ⟨_,first.stock,Stock.start_eq ..,drive_history .made driven,.of_empty threads managers,
    counted,again,anew⟩

theorem reused_like_new_of_singly : ∃ made s, Stock.ofConfig default = .ok made ∧
    made.History s ∧ Drained s ∧ (s.system.counters s.manager).setups = 1 ∧
    ((fresh single s).drive singly).map outcome? =
      ((fresh single (s.rebuild made)).drive singly).map fun r =>
        r.outcome?.map (·.map (Summary.after (s.system.counters s.manager))) := by
  obtain ⟨made,s,built,history,drained,counted,-⟩ := singly_drains
  exact ⟨made,s,built,history,drained,counted,
    reused_like_new built history drained single singly⟩

/-- The summary of a second run counts the setup of the first one again. -/
theorem reused_counts_on : ¬∀ (c : Config) (made s : Stock) (plan : Plan)
    (schedule : List (Bool × Move)),Stock.ofConfig c = .ok made → made.History s → Drained s →
      ((fresh plan s).drive schedule).map outcome? =
        ((fresh plan (s.rebuild made)).drive schedule).map outcome? := by
  intro same
  obtain ⟨made,s,built,history,drained,-,again,anew⟩ := singly_drains
  have equal := same default made s single singly built history drained
  have setups : (((fresh single s).drive singly).bind summary?).map (·.setups) =
      (((fresh single (s.rebuild made)).drive singly).bind summary?).map (·.setups) := by
    have through (r : Option Run) :
        r.bind summary? = (r.map outcome?).bind (·.bind Except.toOption) := by
      cases r <;> rfl
    rw [through,through,equal]
  rw [again,anew] at setups
  exact absurd setups (by decide)

end Run
end PerWorker.Pipeline
