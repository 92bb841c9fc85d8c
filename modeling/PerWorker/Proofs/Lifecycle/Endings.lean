import Mathlib.Data.Nat.Find
import PerWorker.Proofs.Lifecycle.Histories

/-!
How a lookup comes to its end. Main statement: a lookup never meets the same retired slot twice and
begins at most two rounds more than slots of its worker become retired meanwhile; when those become
no more it ends, and in its first round where no other thread has a call under way.
-/
namespace PerWorker
namespace System

open Ledger

variable {F V : Type} {sharding : Sharding} {names : List String} {threads : Nat}
  {past : List (Entry F V)} {s now next last : System F V} {t u m i b j k n : Nat} {w : WorkerId}
  {call : Call} {a : Action F V} {events : List (Event V)} {span : List (Moment F V)}
  {reply : Reply V} {on : List (Moment F V) → GetPoint F → System F V → Prop}
  {beyond : Reply V → List (Moment F V) → System F V → Prop}

namespace History

/-- By some time the lookup of a call is over, and so is the call when it was no more than that. -/
def Over (history : History s) (t m : Nat) (w : WorkerId) (call : Call) (k : Nat) : Prop :=
  ∃ outcome, outcomes t (s.stack t).length (history.upTo k) = [outcome] ∧
    (call = .get m w → Answered s t call (history.upTo k) outcome (history.state k))

/-- Until the lookup of a thread is over no other thread has a call under way. -/
def Alone (history : History s) (t : Nat) : Prop :=
  ∀ k u, u ≠ t → outcomes t (s.stack t).length (history.upTo k) = [] →
    (history.state k).stack u = []

end History

/-- A call under way is still so after any one step, or has been answered by it. -/
theorem Underway.onward (under : Underway s t call span now)
    (moved : now.step u a = some (next,events)) :
    Underway s t call (span ++ [⟨now,⟨u,a,events⟩⟩]) next ∨
      ∃ reply, Answered s t call (span ++ [⟨now,⟨u,a,events⟩⟩]) reply next := by
  by_cases within : (s.stack t).length < (next.stack t).length
  · exact Or.inl (under.on u a moved within)
  · have back := Nat.not_lt.mp within
    have stands : Kept s t call fun _ _ _ (_ : System F V) => True :=
      ⟨fun _ _ _ _ _ _ => trivial,fun _ _ _ _ _ _ _ _ _ _ _ _ _ => trivial,
        fun _ _ _ _ _ _ _ _ _ _ _ _ _ _ _ _ _ => trivial⟩
    obtain ⟨frame,below,stood,_⟩ := stands.holds under
    have stays {first : Frame F V} {rest : List (Frame F V)}
        (stood' : Stood t (s.stack t) first rest next) : False := by
      obtain ⟨above,stack⟩ := stood'.suffix
      rw [← stack] at back
      simp only [List.cons_append,List.length_append,List.length_cons] at back
      omega
    by_cases own : u = t ∧ a.isOwn = true ∧ now.stack t = frame :: below ++ s.stack t
    · obtain ⟨rfl,own,top⟩ := own
      obtain ⟨_,_,reach⟩ := (step_effect moved).stack
      rw [top] at reach
      obtain ⟨rest,here,reach⟩ := reach.split under.stands
      obtain ⟨_,reply,told⟩ | ⟨frame',below',rfl,_,waiting⟩ := reach.own own stood.waiting
      · exact Or.inr ⟨reply,.mk under moved back told⟩
      · exact (stays ⟨waiting,Or.inl here⟩).elim
    · exact (stays (stood.apart moved fun same owned top => own ⟨same,owned,top⟩).1).elim

namespace History

variable {history : History s}

theorem upTo_append (history : History s) (later : j ≤ k) :
    ∃ more, history.upTo k = history.upTo j ++ more := by
  induction k, later using Nat.le_induction with
  | base => exact ⟨[],(List.append_nil _).symm⟩
  | succ k later ih =>
    obtain ⟨more,same⟩ := ih
    exact ⟨_,by rw [upTo_succ,same,List.append_assoc]⟩

theorem outcomes_early {depth : Nat} (later : j ≤ k)
    (none : outcomes t depth (history.upTo k) = []) : outcomes t depth (history.upTo j) = [] := by
  obtain ⟨more,same⟩ := history.upTo_append later
  rw [same,outcomes,List.filterMap_append] at none
  exact (List.append_eq_nil_iff.mp none).1

theorem ownSteps_le (history : History s) (t depth : Nat) (later : j ≤ k) :
    ownSteps t depth (history.upTo j) ≤ ownSteps t depth (history.upTo k) := by
  obtain ⟨more,same⟩ := history.upTo_append later
  simp [same,ownSteps]

theorem begun (start : history.entry 0 = some ⟨t,.call call,events⟩) (k : Nat) :
    Underway s t call (history.upTo (k + 1)) (history.state (k + 1)) ∨
      ∃ j ≤ k, ∃ reply, Answered s t call (history.upTo (j + 1)) reply (history.state (j + 1)) := by
  induction k with
  | zero =>
    have made := history.moves 0 _ start
    rw [upTo_step start]
    simp only [history.start] at made ⊢
    exact Or.inl (.made made)
  | succ k ih =>
    obtain under | ⟨j,early,reply,answered⟩ := ih
    · cases step : history.entry (k + 1) with
      | none =>
        rw [upTo_rest step,history.rests _ step]
        exact Or.inl under
      | some e =>
        rw [upTo_step step]
        obtain under' | ⟨reply,answered⟩ := under.onward (history.moves _ e step)
        · exact Or.inl under'
        · refine Or.inr ⟨k + 1,le_rfl,reply,?_⟩
          rw [upTo_step step]
          exact answered
    · exact Or.inr ⟨j,Nat.le_succ_of_le early,reply,answered⟩

theorem looking (lookup : Lookup s t m w on beyond)
    (looks : call = .get m w ∨ call = .process m w)
    (start : history.entry 0 = some ⟨t,.call call,events⟩)
    (none : outcomes t (s.stack t).length (history.upTo (k + 1)) = []) :
    Underway s t call (history.upTo (k + 1)) (history.state (k + 1)) ∧
      ∃ point below, Stood t (s.stack t) (.get m w point) below (history.state (k + 1)) ∧
        on (history.upTo (k + 1)) point (history.state (k + 1)) := by
  obtain under | ⟨j,early,reply,answered⟩ := begun start k
  · refine ⟨under,?_⟩
    obtain ⟨point,below,stood,held,_⟩ | ⟨_,outcome,_,searched⟩ :=
      (lookup.and lookup_searches).underway looks under
    · exact ⟨point,below,stood,held⟩
    · cases none.symm.trans searched.1
  · obtain ⟨outcome,searched,_⟩ := answered.looked_up looks
    cases (outcomes_early (Nat.succ_le_succ early) none).symm.trans searched.1

/-- There is a first time at which the lookup of a call is over, and its outcome is known then. -/
theorem first (lookup : Lookup s t m w on beyond) (looks : call = .get m w ∨ call = .process m w)
    (start : history.entry 0 = some ⟨t,.call call,events⟩)
    (some : ∃ k, outcomes t (s.stack t).length (history.upTo k) ≠ []) :
    ∃ k, (∀ j < k, outcomes t (s.stack t).length (history.upTo j) = []) ∧
      history.Over t m w call k ∧
      ∃ outcome, beyond outcome (history.upTo k) (history.state k) := by
  classical
  refine ⟨Nat.find some,fun j early => by simpa using Nat.find_min some early,?_⟩
  have told := Nat.find_spec some
  have least (j : Nat) (here : outcomes t (s.stack t).length (history.upTo j) ≠ []) :
      Nat.find some ≤ j := Nat.find_min' some here
  generalize Nat.find some = k at told least
  cases k with
  | zero => exact absurd rfl told
  | succ k =>
    obtain under | ⟨j,early,reply,answered⟩ := begun start k
    · obtain ⟨_,_,_,_,none,_⟩ | ⟨processes,outcome,past,searched⟩ :=
        (lookup.and lookup_searches).underway looks under
      · exact absurd none told
      · exact ⟨⟨outcome,searched.1,by simp [processes]⟩,outcome,past⟩
    · obtain ⟨outcome,⟨past,searched⟩,same⟩ :=
        (lookup.and lookup_searches).answered looks answered
      obtain rfl : j = k := by
        have later := least (j + 1) (by simp [searched.1])
        omega
      refine ⟨⟨outcome,searched.1,fun gets => ?_⟩,outcome,past⟩
      rw [same gets]
      exact answered

/-- Under fairness a lookup whose rounds are bounded ends: each of its rounds does. -/
theorem ends (run : Interleaving (idle sharding names threads) past s) (fair : history.Fair)
    (returning : history.Returning m w) (looks : call = .get m w ∨ call = .process m w)
    (start : history.entry 0 = some ⟨t,.call call,events⟩)
    (bounded : ∀ k ≥ n, outcomes t (s.stack t).length (history.upTo (k + 1)) = [] →
      rounds t (s.stack t).length (history.upTo (k + 1)) ≤ b) :
    ∃ k, outcomes t (s.stack t).length (history.upTo k) ≠ [] := by
  by_contra never
  push Not at never
  -- Its steps outnumber what so many rounds can take.
  have climb (c : Nat) :
      ∃ k ≥ n, c ≤ ownSteps t (s.stack t).length (history.upTo (k + 1)) := by
    induction c with
    | zero => exact ⟨n,le_rfl,Nat.zero_le _⟩
    | succ c ih =>
      obtain ⟨k,late,steps⟩ := ih
      obtain ⟨_,point,below,stood,_⟩ := looking lookup_searches looks start (never (k + 1))
      obtain ⟨j,later,top,a,events,step,own⟩ := climbs run fair returning stood
      have acting := Moment.acting?_top ⟨history.state j,⟨t,a,events⟩⟩ rfl own top stood.waiting
      have before := history.ownSteps_le t (s.stack t).length later
      refine ⟨j,by omega,?_⟩
      rw [upTo_step step,ownSteps_append,acting,Option.toList_some,List.length_singleton]
      omega
  obtain ⟨k,late,steps⟩ := climb (12 * b)
  obtain ⟨_,point,_,_,retrying⟩ := looking (lookup_retries run) looks start (never (k + 1))
  have spent := retrying.steps
  have rounds := bounded k late (never (k + 1))
  have stage := point.stage_le
  omega

end History

theorem Interleaving.retired_by (run : Interleaving (idle sharding names threads) past s)
    (moved : s.step t a = some (next,events))
    (stores : (Moment.record ⟨s,⟨t,a,events⟩⟩).stores = some (i,.retired)) :
    ∃ m w, s.ledger.Homed m w i ∧ Moment.retires m w ⟨s,⟨t,a,events⟩⟩ = true := by
  obtain ⟨rfl,frame,below,top,storing⟩ := storing_of_stores stores
  have member : frame ∈ s.stack t := top ▸ List.mem_cons_self
  have homes {r : Role} (role : frame.role? = some r) :=
    run.sound.homes.roles _ (mem_roles member role)
  cases storing with
  | fail m w | release m w => exact ⟨m,w,homes rfl m w i rfl,by simp [Moment.retires,top]⟩

theorem retirees_step (run : Interleaving (idle sharding names threads) past now)
    (moved : now.step u a = some (next,events))
    (calm : Moment.retires m w ⟨now,⟨u,a,events⟩⟩ = false) :
    retirees s next m w ⊆ retirees s now m w := by
  intro i member
  obtain ⟨bound,known⟩ := List.mem_filter.mp member
  simp only [decide_eq_true_eq] at known
  obtain ⟨owner,retired,new⟩ := known
  have homed := owner?_eq.mp owner
  have before : now.state? i = some .retired := by
    obtain before | stores := retires_of_new moved retired
    · exact before
    · obtain ⟨n,v,homed',retires⟩ := run.retired_by moved stores
      obtain ⟨rfl,rfl⟩ := (homed'.move (step_move moved)).unique homed
      cases calm.symm.trans retires
  have lt : i < now.slots.size := lt_of_state (l := now.ledger) before
  refine List.mem_filter.mpr ⟨List.mem_range.mpr lt,?_⟩
  have here : now.owner? i = some (m,w) := by
    obtain ⟨n,v,homed'⟩ : ∃ n v, now.ledger.Homed n v i :=
      ⟨_,_,now.slots[i],Array.getElem?_eq_getElem lt,rfl,rfl⟩
    obtain ⟨rfl,rfl⟩ := (homed'.move (step_move moved)).unique homed
    exact owner?_eq.mpr homed'
  simp [here,before,new]

namespace History

variable {history : History s}

theorem retirees_settled (run : Interleaving (idle sharding names threads) past s)
    (calm : ∀ k ≥ n, ∀ moment ∈ history.moment? k, moment.retires m w = false) (later : k ≥ n) :
    (retirees s (history.state k) m w).length ≤ (retirees s (history.state n) m w).length := by
  have inside : retirees s (history.state k) m w ⊆ retirees s (history.state n) m w := by
    refine history.keeps (fun now => retirees s now m w ⊆ retirees s (history.state n) m w)
      (List.Subset.refl _) (fun j late e step here => ?_) k later
    have quiet := calm j late ⟨history.state j,e⟩ (by simp [moment?,step])
    exact List.Subset.trans (retirees_step (history.run run j) (history.moves j e step) quiet) here
  have once : (retirees s (history.state k) m w).Nodup := List.nodup_range.filter _
  exact (once.subperm inside).length_le

theorem lone (alone : history.Alone t)
    (none : ∀ j < k, outcomes t (s.stack t).length (history.upTo j) = []) :
    Lone t (history.upTo k) := by
  intro moment member u away
  obtain ⟨j,early,here⟩ := List.mem_filterMap.mp member
  obtain ⟨e,_,rfl⟩ := Option.map_eq_some_iff.mp here
  exact alone j u away (none j (List.mem_range.mp early))

end History

theorem Trail.alone (trail : Trail s span last) (lone : Lone t span)
    (quiet : ∀ u, u ≠ t → last.stack u = []) : trail.history.Alone t := by
  intro k u away _
  change ((span[k]?.map (·.state)).getD last).stack u = []
  cases here : span[k]? with
  | none => exact quiet u away
  | some moment => exact lone moment (List.mem_of_getElem? here) u away

/-- Whatever other threads do while a thread looks up a copy, the lookup meets no retired slot
twice, and it begins at most two rounds more than slots of its worker become retired meanwhile.

That it ends is said of histories that are fair to threads and locks, as a scheduler and a lock have
to be for any call to end, and in which the template and the setup hook return. There the lookup is
over at some time when from some time on no release and no lookup that failed retires a slot of the
worker; and it is over in its first round when no other thread has a call under way. -/
theorem Interleaving.retries_end (run : Interleaving (idle sharding names threads) past s)
    (t m : Nat) (w : WorkerId) (looks : call = .get m w ∨ call = .process m w) :
    (∀ span now, Underway s t call span now ∨ (∃ reply, Answered s t call span reply now) →
        Persists s now t m w span) ∧
      ∀ (history : History s) events, history.entry 0 = some ⟨t,.call call,events⟩ →
        history.Fair → history.Returning m w →
        (history.Settles m w → ∃ k, history.Over t m w call k) ∧
          (history.Alone t → ∃ k, history.Over t m w call k ∧
            rounds t (s.stack t).length (history.upTo k) = 1) := by
  refine ⟨?_,fun history events start fair returning => ⟨fun settles => ?_,fun alone => ?_⟩⟩
  · rintro span now (under | ⟨reply,answered⟩)
    · exact under.persists run looks
    · exact answered.persists run looks
  · obtain ⟨n,calm⟩ := settles
    have some := History.ends (n := n) run fair returning looks start fun k late none => by
      have under := (History.looking lookup_searches looks start none).1
      have few := History.retirees_settled run calm (Nat.le_succ_of_le late)
      exact (under.persists run looks).rounds.trans (Nat.add_le_add_left few 2)
    obtain ⟨k,_,past,_⟩ := History.first lookup_searches looks start some
    exact ⟨k,past⟩
  · have some := History.ends (n := 0) run fair returning looks start fun k late none => by
      obtain ⟨_,_,_,_,held⟩ := History.looking (lookup_direct run) looks start none
      exact (held (History.lone alone fun j early => History.outcomes_early early.le none)).2.le
    obtain ⟨k,none,past,_,direct⟩ := History.first (lookup_direct run) looks start some
    exact ⟨k,past,direct (History.lone alone none)⟩

/-- A lookup comes to the slot of the worker, which another thread releases before the lookup enters
it; the lookup starts over and makes a copy. -/
def vanishing : List (Nat × Action Nat Nat) :=
  [(1,.advance),(0,.call (.release 0 (.named "a"))),(0,.advance),(0,.advance),(0,.advance),
    (0,.advance),(0,.advance),(0,.advance),(0,.finish (.ok 0)),(0,.advance),(0,.advance),
    (0,.advance),(1,.advance),(1,.advance),(1,.advance),(1,.advance),(1,.advance),(1,.advance),
    (1,.drawn (.copy 8)),(1,.advance),(1,.advance),(1,.finish (.ok 0)),(1,.advance),(1,.advance),
    (1,.advance)]

theorem retries_end_of_vanishing :
    ∃ (first : List (Moment Nat Nat)) (s : System Nat Nat) (made : Reply Nat)
      (alone : Trail (idle .single ["pool"] 2) first s)
      (span : List (Moment Nat Nat)) (last : System Nat Nat) (reply : Reply Nat)
      (trail : Trail s span last),
      Answered (idle .single ["pool"] 2) 0 (.get 0 (.named "a")) first made s ∧
      Answered s 1 (.get 0 (.named "a")) span reply last ∧
      met 1 (s.stack 1).length span = [0] ∧ rounds 1 (s.stack 1).length span = 2 ∧
      retirees s last 0 (.named "a") = [0] ∧ Persists s last 1 0 (.named "a") span ∧
      trail.history.Fair ∧ trail.history.Returning 0 (.named "a") ∧
      trail.history.Settles 0 (.named "a") ∧
      (∃ k, trail.history.Over 1 0 (.named "a") (.get 0 (.named "a")) k) ∧
      alone.history.Alone 0 ∧
      ∃ k, alone.history.Over 0 0 (.named "a") (.get 0 (.named "a")) k ∧
        rounds 0 0 (alone.history.upTo k) = 1 := by
  obtain ⟨first,made,s,performed⟩ : ∃ first made s,
      (idle .single ["pool"] 2).perform 0 (.get 0 (.named "a")) creating = some (first,made,s) :=
    ⟨_,_,_,rfl⟩
  obtain ⟨span,reply,last,continued⟩ : ∃ span reply last,
      s.perform 1 (.get 0 (.named "a")) vanishing = some (span,reply,last) := by
    cases performed
    exact ⟨_,_,_,rfl⟩
  obtain ⟨twice,begun,gone,before,after,lone⟩ : met 1 (s.stack 1).length span = [0] ∧
      rounds 1 (s.stack 1).length span = 2 ∧ retirees s last 0 (.named "a") = [0] ∧
      s.threads = #[[],[]] ∧ last.threads = #[[],[]] ∧
      (first.all fun moment => moment.state.threads.size == 2 && (moment.state.stack 1).isEmpty) =
        true := by
    cases performed
    cases continued
    exact ⟨rfl,rfl,rfl,rfl,rfl,rfl⟩
  have quiet {now : System Nat Nat} (threads : now.threads = #[[],[]]) (t : Nat) :
      now.stack t = [] := by
    rw [stack,threads]
    obtain _ | _ | t := t <;> rfl
  have single : Lone 0 first := by
    intro moment member u away
    have told := List.all_eq_true.mp lone moment member
    simp only [Bool.and_eq_true,beq_iff_eq,List.isEmpty_iff] at told
    obtain _ | _ | u := u
    · exact absurd rfl away
    · exact told.2
    · simp [stack,told.1]
  have run : Interleaving (idle .single ["pool"] 2) [] (idle .single ["pool"] 2 : System Nat Nat) :=
    .start
  have answered := Answered.perform performed
  have answered' := Answered.perform continued
  have first_called : answered.trail.history.entry 0 =
      some ⟨0,.call (.get 0 (.named "a")),[.called (.get 0 (.named "a"))]⟩ := by
    cases performed
    rfl
  have called : answered'.trail.history.entry 0 =
      some ⟨1,.call (.get 0 (.named "a")),[.called (.get 0 (.named "a"))]⟩ := by
    cases performed
    cases continued
    rfl
  obtain ⟨-,direct⟩ := run.retries_end 0 0 (.named "a") (.inl rfl)
  obtain ⟨persists,ends⟩ := (answered.run run).retries_end 1 0 (.named "a") (.inl rfl)
  obtain ⟨fair,returning,-⟩ := answered.trail.rested (quiet before) 0 (.named "a")
  obtain ⟨fair',returning',settles⟩ := answered'.trail.rested (quiet after) 0 (.named "a")
  have alone := answered.trail.alone single fun u _ => quiet before u
  exact ⟨first,s,made,answered.trail,span,last,reply,answered'.trail,answered,answered',twice,begun,
    gone,persists span last (.inr ⟨reply,answered'⟩),fair',returning',settles,
    (ends answered'.trail.history _ called fair' returning').1 settles,alone,
    (direct answered.trail.history _ first_called fair returning).2 alone⟩

end System
end PerWorker
