import PerWorker.Proofs.Pipeline.Cursor
import PerWorker.Proofs.Pipeline.Processing

/-!
One task of a run at work on its thread. Main statement: a task that runs always has a next step,
whatever the other threads do meanwhile; the bundles that it claims are those that it counts or
still has in hand, and what it pays for them in setups is told by the bundles alone.
-/
namespace PerWorker.Pipeline

open PerWorker.System (Keeps Touches Spares firstFrames)

def Task.bundle? : Task → Option Bundle
  | .running _ (.processing b) _ | .running _ (.tally b _) _ => some b
  | _ => none

def TaskPoint.fetches : TaskPoint → Nat
  | .claim => 1
  | _ => 0

namespace Run

theorem worker_injective : Function.Injective worker := by
  intro t u same
  injection same with same
  injection same

theorem keeps_of_ne {s next : System Enricher Nat} {m t u v : Nat}
    (spares : Spares m t (worker u) s next) (away : v ≠ u) : Keeps m (worker v) s next :=
  spares.keeps _ fun same => away (worker_injective same)

def Calm (events : List Event) : Prop :=
  ∀ t hook c ending, .called t (.hookEnded hook c ending) ∈ events →
    hook = .body ∨ ending = .returned

section

variable (p : Enricher) (releases : Bool) (s : System Enricher Nat) (t m : Nat)

/-- Between two bundles. A worker that keeps its copy has paid for the next bundle with it; one that
gives its copy back has paid for all that it claimed. -/
inductive Ready : Nat → Nat → Prop
  | keeps {standing : Nat} (keeps : releases = false) (stands : Stands p s m (worker t) standing) :
      Ready standing standing
  | cleared (clears : releases = true) (out : s.slot? m (worker t) = none) : Ready 1 0

inductive At : TaskPoint → Stake → Prop
  | check {paid standing : Nat} (quiet : s.stack t = [])
      (ready : Ready p releases s t m paid standing) : At .check ⟨paid,standing,2⟩
  | claim {paid standing : Nat} (quiet : s.stack t = [])
      (ready : Ready p releases s t m paid standing) : At .claim ⟨paid,standing,1⟩
  | processing {b : Bundle} {paid standing left : Nat}
      (processing : Processing p b s t m (worker t) (s.stack t) ⟨paid,standing,left⟩) :
      At (.processing b) ⟨paid,standing,left + 14⟩
  | tally {b : Bundle} {reply : Reply Nat} {paid standing left : Nat} (quiet : s.stack t = [])
      (served : Served p b s m (worker t) reply ⟨paid,standing,left⟩) :
      At (.tally b reply) ⟨paid,standing,14⟩
  | handBack {standing : Nat} (clears : releases = true) (quiet : s.stack t = [])
      (stands : Stands p s m (worker t) standing) : At .handBack ⟨1,standing,13⟩
  | releasing {point : ReleasePoint} {standing left : Nat} (clears : releases = true)
      (top : s.stack t = [.release m (worker t) point])
      (releasing : Releasing p s t m (worker t) point standing left) :
      At .releasing ⟨1,standing,left + 2⟩

structure Off (stake : Stake) : Prop where
  quiet : s.stack t = []
  ready : Ready p releases s t m stake.paid stake.standing
  done : stake.left = 0

inductive Taken : Task → Stake → Prop
  | running {point : TaskPoint} {stake : Stake} (stands : At p releases s t m point stake) :
      Taken (.running t point []) stake
  | ended {stake : Stake} (off : Off p releases s t m stake) : Taken (.ended []) stake

end

structure Work (p : Enricher) (t : Nat) (r : Run) (task : Task) (before : Stake) (fetches : Nat)
    (events : List Event) (next : Run) (task' : Task) (after : Stake) (tallied : List Bundle) :
    Prop where
  plan : next.plan = r.plan
  phase : next.phase = r.phase
  thrown : next.thrown = r.thrown
  spares : Spares r.stock.manager t (worker t) r.stock.system next.stock.system
  yields : next.stock.template.Yields p
  manager : next.stock.manager = r.stock.manager
  calm : Calm events
  bundles : task'.bundle?.toList ++ tallied =
    task.bundle?.toList ++ events.filterMap Event.claimed?
  progress : next.progress = tallied.foldl (Progress.tally p) r.progress
  earned : after.paid ≤ before.paid ∨ task.bundle?.isSome
  paid : (next.stock.system.counters r.stock.manager).setups + before.paid =
    (r.stock.system.counters r.stock.manager).setups + after.paid +
      if r.plan.releaseAfterBundle then (events.filterMap Event.claimed?).length
      else tallied.countP (·.fails p)
  standing : (next.stock.system.counters r.stock.manager).setups +
    (r.stock.system.counters r.stock.manager).teardowns + before.standing =
      (r.stock.system.counters r.stock.manager).setups +
        (next.stock.system.counters r.stock.manager).teardowns + after.standing
  left : after.left + 11 * next.stock.system.registrations r.stock.manager <
    before.left + 11 * r.stock.system.registrations r.stock.manager + 51 * fetches

variable {p : Enricher} {releases : Bool} {s next : System Enricher Nat} {t m i : Nat}
  {stake before : Stake} {r : Run} {point : TaskPoint}

theorem Ready.stands {paid standing : Nat} (ready : Ready p releases s t m paid standing) :
    Stands p s m (worker t) standing := by
  cases ready with
  | keeps kept stands => exact stands
  | cleared clears out => exact .out out

theorem Ready.paid_le {paid standing : Nat} (ready : Ready p releases s t m paid standing) :
    paid ≤ 1 := by
  cases ready with
  | keeps kept stands => cases stands <;> decide
  | cleared clears out => exact le_rfl

theorem Ready.paid_of_clears {paid standing : Nat} (ready : Ready p releases s t m paid standing)
    (clears : releases = true) : paid = 1 := by
  cases ready with
  | keeps kept stands => cases clears.symm.trans kept
  | cleared clears out => rfl

theorem Ready.keeps' {paid standing : Nat} (ready : Ready p releases s t m paid standing)
    (keeps : Keeps m (worker t) s next) : Ready p releases next t m paid standing := by
  cases ready with
  | keeps kept stands => exact .keeps kept (stands.keeps keeps)
  | cleared clears out => exact .cleared clears (keeps.mapped.trans out)

/-- Where a task stands is none of the other workers' business. -/
theorem At.keeps (stands : At p releases s t m point stake) (keeps : Keeps m (worker t) s next)
    (same : next.stack t = s.stack t) : At p releases next t m point stake := by
  cases stands with
  | check quiet ready => exact .check (same.trans quiet) (ready.keeps' keeps)
  | claim quiet ready => exact .claim (same.trans quiet) (ready.keeps' keeps)
  | processing processing =>
    refine .processing ?_
    rw [same]
    exact processing.keeps keeps
  | tally quiet served => exact .tally (same.trans quiet) (served.keeps keeps)
  | handBack clears quiet stands => exact .handBack clears (same.trans quiet) (stands.keeps keeps)
  | releasing clears top releasing =>
    exact .releasing clears (same.trans top) (releasing.keeps keeps)

theorem Off.keeps (off : Off p releases s t m stake) (keeps : Keeps m (worker t) s next)
    (same : next.stack t = s.stack t) : Off p releases next t m stake :=
  ⟨same.trans off.quiet,off.ready.keeps' keeps,off.done⟩

theorem call_eq {stock : Stock} (quiet : stock.system.stack t = [])
    (room : t < stock.system.threads.size) (call : Call) : stock.call t call = some
      ({ stock with system := stock.system.setStack t (firstFrames call []) },[.called call]) := by
  simp [Stock.call,Stock.act,System.step,System.isOpen,quiet,room,System.goto]

theorem calm_called {told : List (PerWorker.Event Nat)} (calm : Pipeline.Calm told) (t : Nat) :
    Calm (told.map (.called t)) := by
  intro u hook c ending member
  obtain ⟨event,member,same⟩ := List.mem_map.mp member
  cases same
  exact calm hook c ending member

theorem calm_logged {events : List Event} (logs : ∀ e ∈ events, ∃ told, e = .logged told) :
    Calm events := by
  intro u hook c ending member
  obtain ⟨_,same⟩ := logs _ member
  cases same

variable {q : Run} {task task' : Task} {after : Stake} {fetches : Nat} {tallied : List Bundle}
  {events : List Event} {told : List (PerWorker.Event Nat)} {stock : Stock} {b : Bundle}

theorem work_of_still (plan : q.plan = r.plan) (phase : q.phase = r.phase)
    (thrown : q.thrown = r.thrown) (stock : q.stock = r.stock)
    (yields : r.stock.template.Yields p) (calm : Calm events)
    (bundles : task'.bundle?.toList ++ tallied =
      task.bundle?.toList ++ events.filterMap Event.claimed?)
    (progress : q.progress = tallied.foldl (Progress.tally p) r.progress)
    (paid : before.paid = after.paid + if r.plan.releaseAfterBundle then
      (events.filterMap Event.claimed?).length else tallied.countP (·.fails p))
    (standing : before.standing = after.standing) (left : after.left < before.left + 51 * fetches) :
    Work p t r task before fetches events q task' after tallied where
  plan := plan
  phase := phase
  thrown := thrown
  spares := stock ▸ .refl ..
  yields := stock ▸ yields
  manager := congrArg Stock.manager stock
  calm := calm
  bundles := bundles
  progress := progress
  earned := by omega
  paid := by
    rw [stock,paid]
    omega
  standing := by
    rw [stock,standing]
  left := by
    rw [stock]
    omega

theorem work_of_took {rest rest' : Nat}
    (took : Took p t r.stock.manager (worker t) r.stock ⟨before.paid,before.standing,rest⟩ told
      stock ⟨after.paid,after.standing,rest'⟩) (plan : q.plan = r.plan) (phase : q.phase = r.phase)
    (thrown : q.thrown = r.thrown) (stocks : q.stock = stock) (progress : q.progress = r.progress)
    (bundles : task'.bundle? = task.bundle?)
    (earned : after.paid ≤ before.paid ∨ task.bundle?.isSome)
    (left : after.left + rest ≤ before.left + rest') :
    Work p t r task before 0 (told.map (.called t)) q task' after [] where
  plan := plan
  phase := phase
  thrown := thrown
  spares := stocks ▸ took.spares
  yields := stocks ▸ took.yields
  manager := stocks ▸ took.manager
  calm := calm_called took.calm t
  bundles := by rw [bundles,claimed?_called]
  progress := progress
  earned := earned
  paid := by
    rw [stocks,claimed?_called]
    simpa using took.paid
  standing := stocks ▸ took.standing
  left := by
    have less := took.left
    rw [stocks]
    dsimp only at less
    omega

/-- A claim is paid for by the copy that is kept, or else remains to be paid for. -/
theorem work_of_claim {paid standing : Nat} {frames : List (Frame Enricher Nat)}
    (ready : Ready p r.plan.releaseAfterBundle r.stock.system t r.stock.manager paid standing)
    (plan : q.plan = r.plan) (phase : q.phase = r.phase) (thrown : q.thrown = r.thrown)
    (stock : q.stock = { r.stock with system := r.stock.system.setStack t frames })
    (yields : r.stock.template.Yields p) (calm : Calm events) (progress : q.progress = r.progress)
    (claims : events.filterMap Event.claimed? = [b]) :
    Work p t r (.running t .claim []) ⟨paid,standing,1⟩ 1 events q
      (.running t (.processing b) []) ⟨standing,standing,51⟩ [] where
  plan := plan
  phase := phase
  thrown := thrown
  spares := stock ▸ (Touches.refl ..).spares t frames
  yields := stock ▸ yields
  manager := stock ▸ rfl
  calm := calm
  bundles := by
    rw [claims]
    rfl
  progress := progress
  earned := by
    cases ready with
    | keeps kept stands => exact Or.inl le_rfl
    | cleared clears out => exact Or.inl (Nat.zero_le _)
  paid := by
    rw [stock,claims]
    change (r.stock.system.counters _).setups + _ = (r.stock.system.counters _).setups + _ + _
    cases ready with
    | keeps kept stands => simp [kept]
    | cleared clears out => simp [clears]
  standing := by
    rw [stock]
    rfl
  left := by
    rw [stock]
    change 51 + 11 * r.stock.system.registrations _ < _
    dsimp only
    omega

/-- Once a bundle is counted its worker has paid for it, if it gives its copy back, or for the next
one if it keeps it. -/
theorem at_tallied {standing : Nat} (releases : Bool) (quiet : s.stack t = [])
    (stands : Stands p s m (worker t) standing) :
    ∃ after, At p releases s t m (if releases then .handBack else .check) after ∧
      after.standing = standing ∧ after.left < 14 ∧
      1 = after.paid + if releases then 0 else 1 - standing := by
  cases releases with
  | true => exact ⟨⟨1,standing,13⟩,.handBack rfl quiet stands,rfl,Nat.lt_add_one 13,rfl⟩
  | false =>
    refine ⟨⟨standing,standing,2⟩,.check quiet (.keeps rfl stands),rfl,Nat.le_add_left 3 11,?_⟩
    cases stands <;> rfl

theorem bundle?_tallied (b : Bundle) (releases : Bool) (reply : Reply Nat) :
    (Task.running t (if releases then .handBack else .check) []).bundle?.toList ++ [b] =
      (Task.running t (.tally b reply) []).bundle?.toList := by
  cases releases <;> rfl

theorem setIfInBounds_same {task : Task} (here : r.tasks[i]? = some task) :
    r.tasks.setIfInBounds i task = r.tasks := by
  obtain ⟨bound,rfl⟩ := Array.getElem?_eq_some_iff.mp here
  simp [Array.setIfInBounds,bound]

/-- A task that stands at that point has a next step, whatever the token says. -/
def Works (p : Enricher) (cancelled : Bool) (r : Run) (i t : Nat) (point : TaskPoint)
    (before : Stake) : Prop :=
  ∃ next events task' after tallied, r.workTask cancelled i t point [] = some (next,events) ∧
    next.tasks = r.tasks.setIfInBounds i task' ∧
    Taken p r.plan.releaseAfterBundle next.stock.system t r.stock.manager task' after ∧
    Work p t r (.running t point []) before point.fetches events next task' after tallied

section

variable {cancelled : Bool} {paid standing left : Nat} {reply : Reply Nat} {body : Body}

theorem callStep_silent (stepped : r.stock.step t body = some (stock,told))
    (silent : Stock.reply? told = none) (goes : Reply Nat → TaskPoint × List LifecycleError) :
    r.callStep i t body [] goes = some ({ r with stock },told.map (.called t)) := by
  simp only [callStep,stepped,silent]
  rfl

theorem callStep_answered (stepped : r.stock.step t body = some (stock,told))
    (answered : Stock.reply? told = some reply)
    (goes : Reply Nat → TaskPoint × List LifecycleError) :
    r.callStep i t body [] goes = some (Run.setTask { r with stock } i
      (.running t (goes reply).1 ((goes reply).2 ++ [])),told.map (.called t)) := by
  simp only [callStep,stepped,answered]
  rfl

theorem Ready.works_check
    (ready : Ready p r.plan.releaseAfterBundle r.stock.system t r.stock.manager paid standing)
    (quiet : r.stock.system.stack t = []) (yields : r.stock.template.Yields p) :
    Works p cancelled r i t .check ⟨paid,standing,2⟩ := by
  have calm : Calm [] := calm_logged (by simp)
  cases cancelled with
  | true =>
    exact ⟨_,_,.ended [],⟨paid,standing,0⟩,[],rfl,rfl,.ended ⟨quiet,ready,rfl⟩,
      work_of_still rfl rfl rfl rfl yields calm rfl rfl (by simp) rfl (by simp)⟩
  | false =>
    exact ⟨_,_,_,⟨paid,standing,1⟩,[],rfl,rfl,.running (.claim quiet ready),
      work_of_still rfl rfl rfl rfl yields calm rfl rfl (by simp) rfl (Nat.lt_add_one 1)⟩

theorem Ready.works_claim
    (ready : Ready p r.plan.releaseAfterBundle r.stock.system t r.stock.manager paid standing)
    (quiet : r.stock.system.stack t = []) (yields : r.stock.template.Yields p)
    (room : t < r.stock.system.threads.size) :
    Works p cancelled r i t .claim ⟨paid,standing,1⟩ := by
  by_cases spent : r.plan.elements ≤ r.cursor
  · have worked : r.workTask cancelled i t .claim [] = some (Run.setTask { r with
        cursor := r.cursor + r.plan.bundleSize } i (.ended []),[]) := by
      simp only [workTask]
      rw [if_pos spent]
    exact ⟨_,_,_,⟨paid,standing,0⟩,[],worked,rfl,.ended ⟨quiet,ready,rfl⟩,
      work_of_still rfl rfl rfl rfl yields (calm_logged (by simp)) rfl rfl (by simp) rfl (by simp)⟩
  · obtain ⟨stock,made,called⟩ : ∃ stock : Stock, stock = { r.stock with
        system := r.stock.system.setStack t
          [.get r.stock.manager (worker t) .look,.processGet r.stock.manager (worker t)] } ∧
        r.stock.call t (.process r.stock.manager (worker t)) =
          some (stock,[.called (.process r.stock.manager (worker t))]) :=
      ⟨_,rfl,call_eq quiet room _⟩
    have worked : r.workTask cancelled i t .claim [] = some (Run.setTask { r with
        cursor := r.cursor + r.plan.bundleSize, stock } i (.running t (.processing ⟨r.cursor,
          min (r.cursor + r.plan.bundleSize) r.plan.elements⟩) []),
        [.claimed i ⟨r.cursor,min (r.cursor + r.plan.bundleSize) r.plan.elements⟩,
          .called t (.called (.process r.stock.manager (worker t)))]) := by
      simp only [workTask,spent,if_false,makeCall,called]
      rfl
    refine ⟨_,_,_,⟨standing,standing,51⟩,[],worked,rfl,.running (.processing ?_),
      work_of_claim ready rfl rfl rfl made yields ?_ rfl rfl⟩
    · have top := System.stack_setStack r.stock.system
        [.get r.stock.manager (worker t) .look,.processGet r.stock.manager (worker t)] room
      dsimp only [setTask]
      rw [made,top]
      exact (Processing.get (.look ready.stands)).keeps (.setStack ..)
    · intro u hook c ending member
      simp at member

theorem Processing.works (processing : Processing p b r.stock.system t r.stock.manager (worker t)
      (r.stock.system.stack t) ⟨paid,standing,left⟩)
    (here : r.tasks[i]? = some (.running t (.processing b) [])) (closed : p.session = none)
    (yields : r.stock.template.Yields p)
    (bound : r.stock.manager < r.stock.system.managers.size) :
    Works p cancelled r i t (.processing b) ⟨paid,standing,left + 14⟩ := by
  obtain ⟨stock,told,after,stepped,took,serves⟩ := processing.step closed yields bound
  cases serves with
  | on processing silent =>
    have worked : r.workTask cancelled i t (.processing b) [] =
        some ({ r with stock },told.map (.called t)) := by
      rw [workTask]
      exact callStep_silent stepped silent _
    exact ⟨_,_,_,⟨after.paid,after.standing,after.left + 14⟩,[],worked,
      (setIfInBounds_same here).symm,.running (.processing processing),
      work_of_took took rfl rfl rfl rfl rfl rfl (Or.inr rfl) (by dsimp only; omega)⟩
  | @done reply quiet answered served =>
    have worked : r.workTask cancelled i t (.processing b) [] = some (Run.setTask { r with stock }
        i (.running t (.tally b reply) []),told.map (.called t)) := by
      rw [workTask]
      exact callStep_answered stepped answered _
    exact ⟨_,_,_,⟨after.paid,after.standing,14⟩,[],worked,rfl,
      .running (.tally quiet served),
      work_of_took took rfl rfl rfl rfl rfl rfl (Or.inr rfl) (by dsimp only; omega)⟩

/-- The answer to a bundle is what its task tallies next. -/
theorem Served.works
    (served : Served p b r.stock.system r.stock.manager (worker t) reply ⟨paid,standing,left⟩)
    (quiet : r.stock.system.stack t = []) (yields : r.stock.template.Yields p) :
    Works p cancelled r i t (.tally b reply) ⟨paid,standing,14⟩ := by
  cases served with
  | @kept j c bytes said rests =>
    obtain ⟨after,stands,stays,less,pays⟩ :=
      at_tallied r.plan.releaseAfterBundle quiet (.rests rests)
    have worked : r.workTask cancelled i t (.tally b (.value bytes)) [] = some (Run.setTask
        { r with progress := r.progress.countDone b bytes } i (.running t
          (if r.plan.releaseAfterBundle then .handBack else .check) []),[]) := rfl
    refine ⟨_,_,_,after,[b],worked,rfl,.running stands,work_of_still rfl rfl rfl rfl yields
      (calm_logged (by simp)) (bundle?_tallied b _ (.value bytes)) ?_ ?_ stays.symm
      (Nat.lt_add_right _ less)⟩
    · simp [Progress.tally,said,setTask]
    · simpa [Bundle.fails_of_ok said] using pays
  | @discarded fault said out =>
    obtain ⟨after,stands,stays,less,pays⟩ :=
      at_tallied r.plan.releaseAfterBundle quiet (.out out)
    have worked : r.workTask cancelled i t (.tally b (.fault fault)) [] = some (Run.setTask
        { r with progress := r.progress.countFailed } i (.running t
          (if r.plan.releaseAfterBundle then .handBack else .check) []),
        [.logged (.bundleFailed (worker t) b.first b.last fault.message)]) := rfl
    refine ⟨_,_,_,after,[b],worked,rfl,.running stands,work_of_still rfl rfl rfl rfl yields
      (calm_logged (by simp)) (bundle?_tallied b _ (.fault fault)) ?_ ?_ stays.symm
      (Nat.lt_add_right _ less)⟩
    · simp [Progress.tally,said,setTask]
    · rw [claimed?_logged (by simp)]
      simpa [Bundle.fails_of_error said] using pays

theorem Stands.works (stands : Stands p r.stock.system r.stock.manager (worker t) standing)
    (clears : r.plan.releaseAfterBundle = true) (quiet : r.stock.system.stack t = [])
    (yields : r.stock.template.Yields p) (room : t < r.stock.system.threads.size) :
    Works p cancelled r i t .handBack ⟨1,standing,13⟩ := by
  obtain ⟨stock,made,called⟩ : ∃ stock : Stock, stock = { r.stock with
      system := r.stock.system.setStack t [.release r.stock.manager (worker t) .unregister] } ∧
      r.stock.call t (.release r.stock.manager (worker t)) =
        some (stock,[.called (.release r.stock.manager (worker t))]) :=
    ⟨_,rfl,call_eq quiet room _⟩
  have worked : r.workTask cancelled i t .handBack [] = some (Run.setTask { r with stock } i
      (.running t .releasing []),
        [.called (.release r.stock.manager (worker t))].map (.called t)) := by
    simp only [workTask,makeCall,called]
    rfl
  have top : stock.system.stack t = [.release r.stock.manager (worker t) .unregister] :=
    made ▸ System.stack_setStack r.stock.system _ room
  have kept : Keeps r.stock.manager (worker t) r.stock.system stock.system :=
    made ▸ .setStack ..
  have took : Took p t r.stock.manager (worker t) r.stock ⟨1,standing,13⟩
      [.called (.release r.stock.manager (worker t))] stock ⟨1,standing,12⟩ := by
    rw [made]
    exact took_of_touches (.refl ..) yields (by simp [Pipeline.Calm]) rfl rfl (Nat.lt_add_one 12)
  exact ⟨_,_,_,⟨1,standing,12⟩,[],worked,rfl,
    .running (.releasing clears top (.unregister (stands.keeps kept))),
    work_of_took took rfl rfl rfl rfl rfl rfl (Or.inl le_rfl) le_rfl⟩

theorem Releasing.works {point : ReleasePoint}
    (releasing : Releasing p r.stock.system t r.stock.manager (worker t) point standing left)
    (here : r.tasks[i]? = some (.running t .releasing []))
    (clears : r.plan.releaseAfterBundle = true)
    (top : r.stock.system.stack t = [.release r.stock.manager (worker t) point])
    (yields : r.stock.template.Yields p)
    (bound : r.stock.manager < r.stock.system.managers.size) :
    Works p cancelled r i t .releasing ⟨1,standing,left + 2⟩ := by
  obtain ⟨stock,told,stepped,releases⟩ := releasing.step yields bound noBody top
  cases releases with
  | @on point standing' left' top releasing less silent took =>
    have worked : r.workTask cancelled i t .releasing [] =
        some ({ r with stock },told.map (.called t)) := by
      rw [workTask]
      exact callStep_silent stepped silent _
    exact ⟨_,_,_,⟨1,standing',left' + 2⟩,[],worked,
      (setIfInBounds_same here).symm,.running (.releasing clears top releasing),
      work_of_took (took 1) rfl rfl rfl rfl rfl rfl (Or.inl le_rfl) (by dsimp only; omega)⟩
  | done told' top said silent out took =>
    have answered : Stock.reply? told = some .done := said ▸ reply?_append silent
    have worked : r.workTask cancelled i t .releasing [] = some (Run.setTask { r with stock } i
        (.running t .check []),told.map (.called t)) := by
      rw [workTask]
      exact callStep_answered stepped answered _
    exact ⟨_,_,_,⟨1,0,2⟩,[],worked,rfl,
      .running (.check top (.cleared clears out)),
      work_of_took (took 1) rfl rfl rfl rfl rfl rfl (Or.inl le_rfl) (by dsimp only; omega)⟩

end

theorem At.works
    (stands : At p r.plan.releaseAfterBundle r.stock.system t r.stock.manager point before)
    (here : r.tasks[i]? = some (.running t point [])) (closed : p.session = none)
    (yields : r.stock.template.Yields p)
    (bound : r.stock.manager < r.stock.system.managers.size)
    (room : t < r.stock.system.threads.size) (cancelled : Bool) :
    Works p cancelled r i t point before := by
  cases stands with
  | check quiet ready => exact ready.works_check quiet yields
  | claim quiet ready => exact ready.works_claim quiet yields room
  | processing processing => exact Processing.works processing here closed yields bound
  | tally quiet served => exact Served.works served quiet yields
  | handBack clears quiet stands => exact Stands.works stands clears quiet yields room
  | releasing clears top releasing => exact Releasing.works releasing here clears top yields bound

end Run
end PerWorker.Pipeline
