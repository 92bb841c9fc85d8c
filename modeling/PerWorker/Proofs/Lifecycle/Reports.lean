import PerWorker.Proofs.Lifecycle.Failures

/-!
The errors of teardown hooks over a whole interleaving. Every failure so far is owed by one call or
has been told once, and those that are not about to be counted have been counted. Main statement:
when no call is under way and no teardown hook of a manager has panicked, what its releases and
drains have returned and its discards have logged are the errors of the hooks that failed, one for
each copy, and as many as the manager has counted.
-/
namespace PerWorker

open Books in
theorem Books.Posting.failures {b next : Books} {mishap : Option Mishap}
    (posting : Posting b mishap next) : next.counters.teardownFailures =
      b.counters.teardownFailures + (b.due .failed - next.due .failed) := by
  cases posting <;> simp [owe,rest,count,Counters.bump,Counters.get,Counters.set]

namespace System

open Ledger

variable {F V : Type} {sharding : Sharding} {names : List String} {threads : Nat}
  {past : List (Entry F V)} {initial s next : System F V} {t m c : Nat} {w : WorkerId}
  {a : Action F V} {events : List (Event V)} {point : ReleasePoint} {d : Dialogue V}

/-- A step changes one stack, and in a sum over all stacks only what that one contributes. -/
theorem step_sum {M : Type} [AddCommMonoid M] (g : List (Frame F V) → M)
    (moved : s.step t a = some (next,events)) : ∃ rest,
      ∑ u ∈ Finset.range s.threads.size, g (s.stack u) = g (s.stack t) + rest ∧
      ∑ u ∈ Finset.range next.threads.size, g (next.stack u) = g (next.stack t) + rest := by
  have effect := step_effect moved
  have inside : t ∈ Finset.range s.threads.size := Finset.mem_range.mpr effect.bound
  have size : next.threads.size = s.threads.size := by
    obtain ⟨_,shared,before,after,frames,rfl,change,_⟩ := effect
    simp [setStack,change.threads]
  refine ⟨∑ u ∈ (Finset.range s.threads.size).erase t, g (s.stack u),?_,?_⟩
  · exact (Finset.add_sum_erase _ _ inside).symm
  · rw [size,← Finset.add_sum_erase _ _ inside]
    congr 1
    refine Finset.sum_congr rfl fun u member => ?_
    rw [effect.others (Finset.ne_of_mem_erase member)]

theorem due_failed (s : System F V) (m : Nat) :
    (s.books m).due .failed = ∑ u ∈ Finset.range s.threads.size, failing m (s.stack u) := by
  change (s.accounts m).count .failed = _
  rw [← Multiset.coe_count,accounts,collect,coe_flatMap_range,Multiset.count_sum']
  simp [failing]

structure Reckoned (s : System F V) (m : Nat) (failed : List LifecycleError)
    (told : Multiset LifecycleError) : Prop where
  handed : (failed : Multiset LifecycleError) =
    told + ∑ t ∈ Finset.range s.threads.size, ↑(owing (s.name m) m (s.stack t))
  counted : (s.counters m).teardownFailures +
    ∑ t ∈ Finset.range s.threads.size, (s.stack t).countP (Frame.isUncounted m) = failed.length

theorem Reckoned.step {failed : List LifecycleError} {told : Multiset LifecycleError}
    (reckoned : Reckoned s m failed told) (sound : s.ledger.Sound) (bound : m < s.managers.size)
    (moved : s.step t a = some (next,events)) (chain : (s.stack t).IsChain Serves)
    (attuned : Attuned (s.stack t) (d.waiting t))
    (calm : ∀ w c message, .release m w (.unwind c message) ∉ s.stack t)
    (worker : ∀ w point c, .release m w point ∈ s.stack t →
      (point.takes? = some c ∨ ∃ fault, point.torn? = some (c,fault)) → s.copyWorker c = w) :
    ∃ fresh, (d.listen t events).settled = d.settled ++ fresh ∧
      Reckoned next m (failed ++ (Moment.failed? m ⟨s,⟨t,a,events⟩⟩).toList)
        (told + (fresh.flatMap (·.errors m) ++ Moment.collected m ⟨s,⟨t,a,events⟩⟩ : List _)) := by
  obtain ⟨handed,counted⟩ := reckoned
  obtain ⟨fresh,settled,passed⟩ := step_owing (m := m) moved chain attuned calm worker
  refine ⟨fresh,settled,?_,?_⟩
  · have passed := Multiset.coe_eq_coe.mpr passed
    rw [(step_effect moved).name m]
    obtain ⟨rest,old,new⟩ := step_sum
      (fun frames => (owing (s.name m) m frames : Multiset LifecycleError)) moved
    simp only [← Multiset.coe_add] at passed ⊢
    rw [new,handed,old]
    calc
      _ = told + (↑(Moment.failed? m ⟨s,⟨t,a,events⟩⟩).toList +
            ↑(owing (s.name m) m (s.stack t))) + rest := by ac_rfl
      _ = _ := by rw [passed]; ac_rfl
  · have posted := (step_posting sound bound moved).failures
    change (next.counters m).teardownFailures = (s.counters m).teardownFailures + _ at posted
    rw [due_failed,due_failed] at posted
    obtain ⟨_,before,after⟩ := step_sum (failing m) moved
    obtain ⟨_,old,new⟩ := step_sum (List.countP (Frame.isUncounted m)) moved
    have settled := step_uncounted (m := m) moved
    rw [List.length_append,← counted,old,new,posted,before,after]
    omega

theorem Interleaving.releasing (run : Interleaving (idle sharding names threads) past s)
    (member : .release m w point ∈ s.stack t)
    (copy : point.takes? = some c ∨ ∃ fault, point.torn? = some (c,fault)) :
    s.ledger.Bound c m w := by
  induction run generalizing t point with
  | start => simp [stack_idle] at member
  | step u a events before moved ih =>
    have move := step_move moved
    obtain old | starts | ⟨rfl,top,below,more,here,onward⟩ := step_frames moved member
    · exact (ih old copy).move move
    · cases point with
      | unregister => simp [ReleasePoint.takes?,ReleasePoint.torn?] at copy
      | _ => cases starts
    · have among : top ∈ _ := here ▸ List.mem_cons_self
      cases onward with
      | @release _ _ former _ turn =>
        have kept (earlier : former.takes? = some c ∨ ∃ fault, former.torn? = some (c,fault)) :=
          (ih among earlier).move move
        cases turn with
        | retire i found live =>
          obtain taken | ⟨fault,torn⟩ := copy
          · exact (before.bound_of_retiring among ((live c).mp taken)).move move
          · cases torn
        | unregister | enter => simp [ReleasePoint.takes?,ReleasePoint.torn?] at copy
        | finish d result =>
          obtain rfl : d = c := by simpa [ReleasePoint.takes?,ReleasePoint.torn?] using copy
          exact kept (Or.inl rfl)
        | _ => exact kept (by simpa [ReleasePoint.takes?,ReleasePoint.torn?] using copy)
      | discard | sweep => simp [ReleasePoint.takes?,ReleasePoint.torn?] at copy

theorem Interleaving.failures_step (run : Interleaving initial past s)
    (moved : s.step t a = some (next,events)) :
    failures initial (past ++ [⟨t,a,events⟩]) m = failures initial past m ++
      (Moment.failed? m ⟨s,⟨t,a,events⟩⟩).toList := by
  cases failed : Moment.failed? m ⟨s,⟨t,a,events⟩⟩ <;>
    simp [failures,run.moments_step moved,failed]

def told (initial : System F V) (past : List (Entry F V)) (m : Nat) : List LifecycleError :=
  (exchanges past).flatMap (·.errors m) ++ collected initial past m

theorem Interleaving.reckoned (run : Interleaving (idle sharding names threads) past s)
    (manager : m < names.length)
    (calm : mishaps (idle sharding names threads) past m .teardownPanic = 0) :
    Reckoned s m (failures (idle sharding names threads) past m)
      (told (idle sharding names threads) past m) := by
  induction run with
  | start =>
    have counters : (idle sharding names threads : System F V).counters m = {} := by
      simp [System.counters,idle,System.start,manager]
    constructor <;> simp [failures,told,exchanges,dialogue,collected,moments,stack_idle,counters,
      owing]
  | @step past s next t a events before moved ih =>
    rw [before.mishaps_step moved] at calm
    have calm : mishaps (idle sharding names threads) past m .teardownPanic = 0 := by omega
    have bound := manager.trans_eq before.managers.symm
    obtain ⟨fresh,settled,reckoned⟩ := (ih calm).step before.sound bound moved (before.chained t)
      (before.attuned t) (by
        intro w c message unwinding
        have due := unwinding_due unwinding
        have shown := (before.balanced manager).unwinding
        omega)
      fun w point c member copy => copyWorker_of_bound (before.releasing member copy)
    have exchanged : exchanges (past ++ [⟨t,a,events⟩]) = exchanges past ++ fresh := by
      rw [exchanges,dialogue_step,settled]
      rfl
    have telling : (↑(told (idle sharding names threads) (past ++ [⟨t,a,events⟩]) m) :
        Multiset LifecycleError) = ↑(told (idle sharding names threads) past m) +
          ↑(fresh.flatMap (·.errors m) ++ Moment.collected m ⟨s,⟨t,a,events⟩⟩) := by
      simp only [told,exchanged,collected,before.moments_step moved,List.flatMap_append,
        List.flatMap_singleton,← Multiset.coe_add]
      ac_rfl
    rw [before.failures_step moved,telling]
    exact reckoned

theorem failed_hook {error : LifecycleError} (moved : s.step t a = some (next,events))
    (failed : Moment.failed? m ⟨s,⟨t,a,events⟩⟩ = some error) :
    ∃ w c fault below, s.stack t = .release m w (.tearingDown c) :: below ∧
      error = .teardown (s.name m) (s.copyWorker c) (c + 1) fault ∧
      events = [.hookEnded .teardown c .failed] := by
  unfold Moment.failed? at failed
  split at failed
  next n w c below fault top action =>
    split at failed
    next same =>
      subst same
      cases action
      cases failed
      dsimp only at top
      simp only [step,finish,top] at moved
      exact ⟨w,c,fault,below,top,rfl,(Prod.mk.inj (Option.some.inj moved)).2.symm⟩
    next => contradiction
  next => contradiction

theorem Interleaving.torn_once {ending other : Ending}
    (run : Interleaving (idle sharding names threads) past s)
    (moved : s.step t a = some (next,[.hookEnded .teardown c ending])) :
    .beat c (.ended .teardown other) ∉ notes past := by
  intro noted
  have after := run.step t a _ moved
  have told : .beat c (.ended .teardown ending) ∈
      Entry.notes (⟨t,a,[.hookEnded .teardown c ending]⟩ : Entry F V) := by
    simp [Entry.notes,Event.note?]
  have split := notes_concat past ⟨t,a,[.hookEnded .teardown c ending]⟩
  have old := run.torn_down noted
  have new := after.torn_down (split ▸ List.mem_append_right _ told)
  rw [hookHistory_observed] at old new
  have later : Beat.ended .teardown ending ∈
      beats c (Entry.notes (⟨t,a,[.hookEnded .teardown c ending]⟩ : Entry F V)) := beats_of_mem told
  rw [split,beats_append,old] at new
  have size := congrArg List.length new
  have some := List.length_pos_of_mem later
  simp only [List.length_append,List.length_cons,List.length_nil] at size
  omega

structure Distinguished (s : System F V) (past : List (Entry F V)) (m : Nat)
    (failed : List LifecycleError) : Prop where
  single : (failed.map (·.id?)).Nodup
  named : ∀ error ∈ failed, ∃ c w fault, error = .teardown (s.name m) w (c + 1) fault ∧
    s.ledger.Bound c m w ∧ .beat c (.ended .teardown .failed) ∈ notes past

theorem Interleaving.distinguished (run : Interleaving (idle sharding names threads) past s)
    (m : Nat) : Distinguished s past m (failures (idle sharding names threads) past m) := by
  induction run with
  | start => constructor <;> simp [failures,moments]
  | @step past s next t a events before moved ih =>
    have name := (step_effect moved).name m
    have split := notes_concat past ⟨t,a,events⟩
    obtain ⟨single,named⟩ := ih
    have kept : ∀ error ∈ failures (idle sharding names threads) past m, ∃ c w fault,
        error = .teardown (next.name m) w (c + 1) fault ∧ next.ledger.Bound c m w ∧
          .beat c (.ended .teardown .failed) ∈ notes (past ++ [⟨t,a,events⟩]) := by
      intro error member
      obtain ⟨c,w,fault,same,bound,noted⟩ := named error member
      exact ⟨c,w,fault,name.symm ▸ same,bound.move (step_move moved),
        split ▸ List.mem_append_left _ noted⟩
    rw [before.failures_step moved]
    cases failed : Moment.failed? m ⟨s,⟨t,a,events⟩⟩ with
    | none => exact ⟨by simpa using single,by simpa using kept⟩
    | some error =>
      obtain ⟨w,c,fault,below,top,rfl,rfl⟩ := failed_hook moved failed
      have member : .release m w (.tearingDown c) ∈ s.stack t := by simp [top]
      have bound := before.releasing member (Or.inl rfl)
      constructor
      · rw [Option.toList_some,List.map_append,List.nodup_append]
        refine ⟨single,List.nodup_singleton _,?_⟩
        rintro id former _ latter rfl
        obtain ⟨error,old,rfl⟩ := List.mem_map.mp former
        obtain ⟨d,v,other,rfl,_,noted⟩ := named error old
        -- The teardown hook of a copy ends but once.
        obtain rfl : d = c := by simpa [LifecycleError.id?] using latter
        exact before.torn_once moved noted
      · intro error among
        obtain old | new := List.mem_append.mp among
        · exact kept error old
        · obtain rfl := List.mem_singleton.mp new
          refine ⟨c,w,fault,by rw [copyWorker_of_bound bound,name],bound.move (step_move moved),?_⟩
          rw [split]
          exact List.mem_append_right _ (by simp [Entry.notes,Event.note?])

/-- The errors that releases answered with, those not counted that other calls made. -/
def released (past : List (Entry F V)) (m : Nat) : List LifecycleError :=
  (exchanges past).filterMap (·.released? m)

def drained (past : List (Entry F V)) (m : Nat) : List LifecycleError :=
  (exchanges past).flatMap (·.drained m)

def discarded (past : List (Entry F V)) (m : Nat) : List LifecycleError :=
  (exchanges past).filterMap (·.discarded? m)

def reported (initial : System F V) (past : List (Entry F V)) (m : Nat) : List LifecycleError :=
  released past m ++ drained past m ++ discarded past m ++ collected initial past m

theorem told_perm (initial : System F V) (past : List (Entry F V)) (m : Nat) :
    (told initial past m).Perm (reported initial past m) := by
  simp only [told,reported,released,drained,discarded,List.filterMap_eq_flatMap_toList]
  have returned := List.flatMap_append_perm (exchanges past)
    (fun exchange => (exchange.released? m).toList) (·.drained m)
  exact (((returned.append_right _).trans (List.flatMap_append_perm ..)).append_right _).symm

theorem lasting_ungathered : Lasting fun frame : Frame F V => frame.gathers = false where
  onward onward none := by cases onward <;> simp_all [Frame.gathers]
  woken woken none := by cases woken <;> simp_all [Frame.gathers]

/-- Nothing is collected where no drain of several managers is called for. -/
theorem Interleaving.uncollected (run : Interleaving (idle sharding names threads) past s)
    (other : ∀ entry ∈ past, ∀ ms, entry.action ≠ .call (.drain ms)) (m : Nat) :
    collected (idle sharding names threads) past m = [] := by
  induction run with
  | start => simp [collected,moments]
  | @step past s next t a events before moved ih =>
    obtain ⟨earlier,_⟩ := List.forall_mem_append.mp other
    have none := before.lasting lasting_ungathered (stack_idle _ _ _) fun entry member call made => by
      cases call with
      | drain ms => exact absurd made (earlier entry member ms)
      | _ => simp [firstFrames,Frame.gathers]
    have still : Moment.collected m ⟨s,⟨t,a,events⟩⟩ = [] :=
      collected_eq_nil fun frame member => none t frame (List.mem_of_mem_head? member)
    simpa [collected,before.moments_step moved,still] using ih earlier

theorem Interleaving.named (run : Interleaving (idle sharding names threads) past s)
    (manager : m < names.length) : s.name m = names[m] := by
  induction run with
  | start => simp [name,idle,System.start,manager]
  | step t a events before moved ih => exact ((step_effect moved).name m).trans ih

/-- Every teardown failure is reported once. Whenever no call is under way, whatever calls threads
and hooks made in whatever interleaving, and no teardown hook of the manager has panicked: what the
manager counts as teardown failures is the number of releases that answered with an error, the
number of errors in the lists that drains answered with and the number of calls that logged one
after their body had failed, together; drains of several managers add what they have collected.
These errors are those of the teardown hooks that failed, one for one; each names a copy that no
other one names, its worker and its manager. -/
theorem Interleaving.failures_reported (run : Interleaving (idle sharding names threads) past s)
    (manager : m < names.length) (quiet : ∀ t, s.stack t = [])
    (calm : mishaps (idle sharding names threads) past m .teardownPanic = 0) :
    (s.counters m).teardownFailures = (released past m).length + (drained past m).length +
        (discarded past m).length + (collected (idle sharding names threads) past m).length ∧
      ((∀ entry ∈ past, ∀ ms, entry.action ≠ .call (.drain ms)) →
        collected (idle sharding names threads) past m = []) ∧
      (reported (idle sharding names threads) past m).Perm
        (failures (idle sharding names threads) past m) ∧
      ((reported (idle sharding names threads) past m).map (·.id?)).Nodup ∧
      ∀ error ∈ reported (idle sharding names threads) past m, ∃ c copy fault,
        s.copies[c]? = some copy ∧ copy.manager = m ∧
          error = .teardown names[m] copy.worker (c + 1) fault ∧
          hookHistory c (observed past) =
            [.began .setup,.ended .setup .returned,.began .teardown,.ended .teardown .failed] := by
  obtain ⟨handed,counted⟩ := run.reckoned manager calm
  obtain ⟨single,named⟩ := run.distinguished m
  have told : (reported (idle sharding names threads) past m).Perm
      (failures (idle sharding names threads) past m) := by
    refine (told_perm ..).symm.trans (Multiset.coe_eq_coe.mp ?_)
    simpa [quiet,owing] using handed.symm
  refine ⟨?_,fun other => run.uncollected other m,told,(told.map _).nodup_iff.mpr single,
    fun error member => ?_⟩
  · have size := told.length_eq
    simp only [reported,List.length_append] at size
    simpa [quiet,← size] using counted
  · obtain ⟨c,w,fault,rfl,⟨bond,entry,own,worker⟩,noted⟩ := named error (told.mem_iff.mp member)
    obtain ⟨copy,there,rfl⟩ : ∃ copy, s.copies[c]? = some copy ∧ copy.bond = bond := by
      simpa [ledger] using entry
    exact ⟨c,copy,fault,there,own,by rw [run.named manager,← worker]; rfl,run.torn_down noted⟩

def advances (n : Nat) : List (Nat × Action Nat Nat) := List.replicate n (0,.advance)

def settingUp : List (Nat × Action Nat Nat) :=
  advances 3 ++ (0,.drawn (.copy 7)) :: advances 2 ++ (0,.finish (.ok 0)) :: advances 4

def releasingStuck : List (Nat × Action Nat Nat) :=
  advances 6 ++ (0,.finish (.error { message := "stuck" })) :: advances 4

/-- A release, a drain and a body that fails, each with a teardown hook that fails. -/
def threeFailures : List (Nat × Action Nat Nat) :=
  (0,.call (.get 0 (.named "a"))) :: settingUp ++
  (0,.call (.release 0 (.named "a"))) :: releasingStuck ++
  (0,.call (.get 0 (.named "b"))) :: settingUp ++
  (0,.call (.releaseAll 0)) :: advances 1 ++ releasingStuck ++ advances 1 ++
  (0,.call (.process 0 (.named "c"))) :: settingUp ++ advances 1 ++
  (0,.finish (.error { message := "broken" })) :: advances 2 ++ releasingStuck ++ advances 1

set_option maxRecDepth 4000 in
theorem failures_reported_of_three :
    ∃ (past : List (Entry Nat Nat)) (s : System Nat Nat),
      Interleaving (idle .single ["pool"] 1) past s ∧ (∀ t, s.stack t = []) ∧
      (s.counters 0).teardownFailures = 3 ∧
      (released past 0).length = 1 ∧ (drained past 0).length = 1 ∧
      (discarded past 0).length = 1 ∧ collected (idle .single ["pool"] 1) past 0 = [] ∧
      (reported (idle .single ["pool"] 1) past 0).Perm
        (failures (idle .single ["pool"] 1) past 0) ∧
      ((reported (idle .single ["pool"] 1) past 0).map (·.id?)).Nodup := by
  obtain ⟨past,s,followed,idle',calm,released',drained',discarded',collected'⟩ :
      ∃ past s, (idle .single ["pool"] 1).follow threeFailures = some (s,past) ∧
        s.threads = #[[]] ∧ mishaps (idle .single ["pool"] 1) past 0 .teardownPanic = 0 ∧
        (released past 0).length = 1 ∧ (drained past 0).length = 1 ∧
        (discarded past 0).length = 1 ∧ collected (idle .single ["pool"] 1) past 0 = [] :=
    ⟨_,_,rfl,rfl,rfl,rfl,rfl,rfl,rfl⟩
  have run : Interleaving (idle .single ["pool"] 1) past s := Interleaving.start.follow followed
  have quiet (t : Nat) : s.stack t = [] := by
    rw [stack,idle']
    obtain _ | t := t <;> rfl
  obtain ⟨counted,_,told,single,_⟩ := run.failures_reported (m := 0) (by decide) quiet calm
  rw [released',drained',discarded',collected'] at counted
  exact ⟨past,s,run,quiet,counted,released',drained',discarded',collected',told,single⟩

end System
end PerWorker
