import PerWorker.Proofs.Lifecycle.Drains

/-!
What a drain has done when it answers, and what can stop it until then. Main statement: it goes on
unless foreign code or a lock that is held stops it, and when it answers, no slot that was mapped
when it began is mapped any more, every copy that it removed has been torn down, also one whose
setup was still running, and its errors are those of the teardowns that failed, one for each.
-/
namespace PerWorker
namespace System

open Ledger

variable {F V : Type} {sharding : Sharding} {names : List String} {threads : Nat}
  {past : List (Entry F V)} {s now last : System F V} {t m depth : Nat} {w : WorkerId}
  {a : Action F V} {events : List (Event V)} {span : List (Moment F V)}
  {below : List (Frame F V)} {reply : Reply V} {errors : List LifecycleError}

theorem Answered.calm (run : Interleaving (idle sharding names threads) past s)
    (answered : Answered s t (.releaseAll m) span reply last)
    (calm : ∀ q ∈ span, q.panics t = false) : ∃ errors, reply = .errors errors := by
  obtain ⟨before,now,frame,below,a,events,rfl,answering,sweeping⟩ := (sweep_kept run).ends answered
  exact sweeping.answers (drain_ended sweeping.shape answering)
    fun q member => calm q (List.mem_append_left _ member)

theorem Answered.swept (run : Interleaving (idle sharding names threads) past s)
    (answered : Answered s t (.releaseAll m) span (.errors errors) last) :
    (attempts t (s.stack t).length span).map Prod.fst = listed t (s.stack t).length span ∧
      (listed t (s.stack t).length span).Nodup ∧
      ((teardowns t (s.stack t).length span).map Prod.fst).Nodup := by
  obtain ⟨before,now,frame,below,a,events,rfl,answering,sweeping⟩ := (sweep_kept run).ends answered
  obtain ⟨tried,once,workers,_⟩ :=
    sweeping.over (drain_ended sweeping.shape answering) answering.acting
  exact ⟨tried,once,workers⟩

theorem Answered.reported (run : Interleaving (idle sharding names threads) past s)
    (answered : Answered s t (.releaseAll m) span (.errors errors) last) :
    errors = reports (s.name m) (teardowns t (s.stack t).length span) ∧
      ∀ w c fault, (w,c,fault) ∈ teardowns t (s.stack t).length span → last.ledger.Bound c m w := by
  obtain ⟨before,now,frame,below,a,events,rfl,answering,reporting⟩ :=
    (report_kept run).ends answered
  exact reporting.over answering.moved (drain_ended reporting.shape answering) answering.acting

theorem Answered.accounted (run : Interleaving (idle sharding names threads) past s)
    (answered : Answered s t (.releaseAll m) span (.errors errors) last) :
    Accounted past t (s.stack t).length span none last := by
  obtain ⟨before,now,frame,below,a,events,rfl,answering,shape,accounted⟩ :=
    (account_kept run).ends answered
  exact accounted.over (drain_ended shape answering) answering.acting

/-- A drain can take its next step, or is in a teardown hook, or waits for a lock that is held. -/
inductive Proceeds (now : System F V) (t m : Nat) (floor : List (Frame F V)) : Prop
  | moves (moved : (now.step t .advance).isSome = true)
  | tearingDown (w c above pending errors)
      (nested : now.stack t = above ++
        .release m w (.tearingDown c) :: .releaseAll m pending errors :: floor)
  | slot (w i u below) (top : now.stack t = .release m w (.enter i) :: below)
      (held : now.ledger.holder? i = some u)
  | copy (w c u below) (top : now.stack t = .release m w (.claim c) :: below)
      (held : now.copyHolder? c = some u)

theorem enter_proceeds {i : Nat} {floor : List (Frame F V)}
    (run : Interleaving (idle sharding names threads) past now)
    (top : now.stack t = .release m w (.enter i) :: below) : Proceeds now t m floor := by
  obtain busy | ⟨state,free,entered⟩ := enterSlot?_free now i t
  · have member : .release m w (.enter i) ∈ now.stack t := by
      rw [top]
      exact List.mem_cons_self
    have homed := run.sound.homes.roles _ (mem_roles member rfl) m w i rfl
    obtain ⟨slot,cell,_⟩ := homed
    replace cell : now.slots[i]? = some slot := cell
    cases holder : slot.holder with
    | none => simp [enterSlot?,cell,holder] at busy
    | some u => exact .slot w i u below top (by simp [Ledger.holder?,ledger,cell,holder])
  · exact .moves (by simp [step,advance,top,advanceRelease,entered])

theorem claim_proceeds {c : Nat} {floor : List (Frame F V)} (bound : now.ledger.Bound c m w)
    (top : now.stack t = .release m w (.claim c) :: below) : Proceeds now t m floor := by
  obtain ⟨bond,entry,_⟩ := bound
  obtain ⟨copy,found,_⟩ : ∃ copy, now.copies[c]? = some copy ∧ copy.bond = bond := by
    simpa [ledger] using entry
  cases holder : copy.holder with
  | none => exact .moves (by simp [step,advance,top,advanceRelease,claimCopy?,found,holder])
  | some u => exact .copy w c u below top (by simp [copyHolder?,found,holder])

theorem Underway.proceeds (run : Interleaving (idle sharding names threads) past s)
    (under : Underway s t (.releaseAll m) span now) : Proceeds now t m (s.stack t) := by
  obtain ⟨frame,below,stood,reporting⟩ := (report_kept run).holds under
  obtain top | ⟨foreign,first,above,nested⟩ := stood.stack
  · cases reporting.shape with
    | survey shard seen => exact .moves (by simp [step,advance,top])
    | log errors => exact .moves (by simp [step,advance,top])
    | release w point pending errors =>
      cases point with
      | enter i => exact enter_proceeds (under.run run) top
      | claim c => exact claim_proceeds (reporting.bound w _ c rfl (Or.inl rfl)) top
      | tearingDown c => exact .tearingDown w c [] pending errors top
      | unregister =>
        refine .moves ?_
        cases mapped : now.slot? m w <;> simp [step,advance,top,advanceRelease,mapped]
      | leave i found => exact .moves (by cases found <;> simp [step,advance,top,advanceRelease])
      | countTeardown c fault =>
        exact .moves (by cases fault <;> simp [step,advance,top,advanceRelease])
      | _ => exact .moves (by simp [step,advance,top,advanceRelease])
  · cases reporting.shape with
    | release w point pending errors =>
      cases point with
      | tearingDown c => exact .tearingDown w c (first :: above) pending errors nested
      | _ => cases foreign
    | _ => cases foreign

structure Bounded (s : System F V) (t m : Nat) (span : List (Moment F V)) (now : System F V) :
    Prop where
  once : (listed t (s.stack t).length span).Nodup
  tried : (attempts t (s.stack t).length span).map Prod.fst <+: listed t (s.stack t).length span
  steps : ownSteps t (s.stack t).length span ≤
    s.sharding.count + 11 * (listed t (s.stack t).length span).length
  proceeds : Proceeds now t m (s.stack t)

theorem Underway.bounded (run : Interleaving (idle sharding names threads) past s)
    (under : Underway s t (.releaseAll m) span now) : Bounded s t m span now := by
  obtain ⟨frame,below,_,sweeping⟩ := (sweep_kept run).holds under
  have same := under.sharding
  obtain ⟨shape,order,steps,nodup,_⟩ := sweeping
  refine ⟨nodup,⟨_,order⟩,?_,under.proceeds run⟩
  have left : 1 ≤ frame.left now.sharding.count below := by
    cases shape <;> simp [Frame.left]
  rw [same] at steps left
  omega

/-- What a drain has done when it answers with these errors. -/
structure Drained (past : List (Entry F V)) (s : System F V) (t m : Nat)
    (span : List (Moment F V)) (errors : List LifecycleError) (last : System F V) : Prop where
  once : (listed t (s.stack t).length span).Nodup
  tried : (attempts t (s.stack t).length span).map Prod.fst = listed t (s.stack t).length span
  unmapped : ∀ w i, s.slot? m w = some i → ∀ v, last.slot? m v ≠ some i
  renewed : ∀ w i, last.slot? m w = some i →
    s.slots.size ≤ i ∧ ∀ c, last.state? i = some (.live c) → s.copies.size ≤ c
  /-- A copy in a slot that the drain took out of the map, or set up for it meanwhile, has been torn
  down by the drain, unless its setup failed. -/
  tornDown : ∀ q ∈ span, ∀ w i c, q.detached? t (s.stack t).length = some (w,i) →
    q.state.ledger.Keeps i c → (∃ fault, (w,c,fault) ∈ teardowns t (s.stack t).length span) ∨
      ∃ ending, ending ≠ .returned ∧ hookHistory c (observed (past ++ entries span)) =
        [.began .setup,.ended .setup ending]
  removed : ∀ w c fault, (w,c,fault) ∈ teardowns t (s.stack t).length span →
    last.copyWorker c = w ∧ Removed t (s.stack t).length span w c ∧
      hookHistory c (observed (past ++ entries span)) =
        [.began .setup,.ended .setup .returned,.began .teardown,.ended .teardown (.ofFault fault)]
  single : ((teardowns t (s.stack t).length span).map (·.2.1)).Nodup
  reported : errors = reports (s.name m) (teardowns t (s.stack t).length span)

/-- A drain tears no copy down twice. -/
theorem Answered.single (run : Interleaving (idle sharding names threads) past s)
    (answered : Answered s t (.releaseAll m) span (.errors errors) last) :
    ((teardowns t (s.stack t).length span).map (·.2.1)).Nodup := by
  obtain ⟨_,_,workers⟩ := answered.swept run
  obtain ⟨_,owned⟩ := answered.reported run
  refine List.Nodup.map_on ?_ workers.of_map
  rintro ⟨w,c,fault⟩ member ⟨v,d,other⟩ member' same
  obtain rfl : c = d := same
  have worker : w = v :=
    (copyWorker_of_bound (owned w c fault member)).symm.trans
      (copyWorker_of_bound (owned v c other member'))
  exact List.inj_on_of_nodup_map workers member member' worker

/-- A drain that answers has attempted each worker that it listed, and its errors are those of the
teardowns that failed. -/
theorem Answered.drain (run : Interleaving (idle sharding names threads) past s)
    (answered : Answered s t (.releaseAll m) span (.errors errors) last) :
    Drained past s t m span errors last := by
  obtain ⟨tried,nodup,_⟩ := answered.swept run
  obtain ⟨reported,owned⟩ := answered.reported run
  have accounted := answered.accounted run
  have whole := answered.run run
  have newer (w : WorkerId) (i : Nat) (mapped : last.slot? m w = some i) :
      s.slots.size ≤ i ∧ ∀ c, last.state? i = some (.live c) → s.copies.size ≤ c := by
    obtain ⟨a,b,older,elder,renewed⟩ := answered.drained run w
    have here := renewed.mapped i mapped
    exact ⟨older.trans here,fun c live => elder.trans (renewed.live i c here live)⟩
  refine ⟨nodup,tried,?_,newer,?_,?_,answered.single run,reported⟩
  · intro w i mapped v again
    -- A slot that is mapped at the end is new, and this one is not.
    have old : i < s.slots.size := (run.sound.homes.mapped m w i mapped).lt
    exact absurd (newer v i again).1 (Nat.not_le.mpr old)
  · intro q member w i c detached keeps
    obtain done | discarded | ⟨_,none,_⟩ := accounted.settled q member w i c detached keeps
    · exact Or.inl done
    · exact Or.inr (whole.setup_failed discarded)
    · cases none
  · intro w c fault torn
    refine ⟨copyWorker_of_bound (owned w c fault torn),accounted.traced w c fault torn,?_⟩
    refine whole.torn_down ?_
    have noted := torn_noted answered.taken torn
    simp only [notes,List.flatMap_append] at noted ⊢
    exact List.mem_append_right _ noted

/-- A drain is complete and finite, whatever other threads and the hooks do meanwhile. While it is
under way it tries each worker that it listed at most once, its own steps are bounded by the number
of these, and nothing but foreign code and locks that are held can stop it. When it returns and no
hook in it panicked, then no slot that was mapped when it began is mapped any more, the copies that
it removed are torn down, and its errors are those of the teardowns that failed. -/
theorem Interleaving.drain_complete (run : Interleaving (idle sharding names threads) past s)
    (t m : Nat) :
    (∀ span now, Underway s t (.releaseAll m) span now → Bounded s t m span now) ∧
      ∀ span reply last, Answered s t (.releaseAll m) span reply last →
        (∀ q ∈ span, q.panics t = false) →
        ∃ errors, reply = .errors errors ∧ Drained past s t m span errors last := by
  refine ⟨fun span now under => under.bounded run,?_⟩
  intro span reply last answered calm
  obtain ⟨errors,rfl⟩ := answered.calm run calm
  exact ⟨errors,rfl,answered.drain run⟩

def populate : List (Nat × Action Nat Nat) :=
  [(1,.call (.get 0 (.named "a"))),(1,.advance),(1,.advance),(1,.advance),(1,.drawn (.copy 7)),
    (1,.advance),(1,.advance)]

def populating : System Nat Nat where
  managers := #[{ name := "pool", slots := [(.named "a",0)], counters := { copies := 1 } }]
  slots := #[{ manager := 0, worker := .named "a", holder := some 1 }]
  copies := #[{ manager := 0, worker := .named "a", value := 7 }]
  threads := #[[],[.get 0 (.named "a") (.settingUp 0 0)]]

/-- The drain reaches the slot while the copy for it is being set up, and its teardown fails. -/
def stuckDrain : List (Nat × Action Nat Nat) :=
  [(0,.advance),(0,.advance),(1,.finish (.ok 0)),(1,.advance),(1,.advance),(1,.advance),
    (1,.advance),(0,.advance),(0,.advance),(0,.advance),(0,.advance),(0,.advance),
    (0,.finish (.error { message := "stuck" })),(0,.advance),(0,.advance),(0,.advance),(0,.advance)]

def stuck : LifecycleError := .teardown "pool" (.named "a") 1 { message := "stuck" }

theorem drain_complete_of_populating :
    ∃ (past : List (Entry Nat Nat)) (span : List (Moment Nat Nat)) (last : System Nat Nat),
      Interleaving (idle .single ["pool"] 2) past populating ∧
      Answered populating 0 (.releaseAll 0) span (.errors [stuck]) last ∧
      Drained past populating 0 0 span [stuck] last := by
  obtain ⟨past,followed⟩ :
      ∃ past, (idle .single ["pool"] 2).follow populate = some (populating,past) := ⟨_,rfl⟩
  have run := Interleaving.start.follow followed
  obtain ⟨span,last,performed,quiet⟩ : ∃ span last,
      populating.perform 0 (.releaseAll 0) stuckDrain = some (span,.errors [stuck],last) ∧
        span.all (fun q => !q.panics 0) = true := ⟨_,_,rfl,rfl⟩
  have answered := Answered.perform performed
  have calm : ∀ q ∈ span, q.panics 0 = false := by simpa using quiet
  obtain ⟨errors,same,drained⟩ := (run.drain_complete 0 0).2 span _ last answered calm
  cases same
  exact ⟨_,span,last,run,answered,drained⟩

end System
end PerWorker
