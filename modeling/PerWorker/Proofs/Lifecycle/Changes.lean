import Mathlib.Logic.Relation
import PerWorker.Proofs.Lifecycle.Conversations

/-!
The single changes that calls make to a roster, and what all of them keep. Main statements: every
call comes down to such changes, so that no copy is torn down twice, a copy belongs to the worker it
was made for, and a copy that was handed out is registered or torn down.
-/
namespace PerWorker

open Relation (ReflTransGen)

namespace Roster

variable {F V : Type}

/-- One change. What a hook or body does to a value is open. -/
inductive Change : Roster F → Roster F → Prop
  | count (r : Roster F) (counter : Counter) : Change r (r.count counter)
  | enroll (r : Roster F) (w : WorkerId) : Change r (r.enroll w)
  /-- A copy is made that does not get through its setup. -/
  | spoil {r : Roster F} {w : WorkerId} (bare : r.find? w = some none) : Change r (r.drawn w)
  /-- A copy is made and set up. -/
  | house {r : Roster F} {w : WorkerId} (f : F) (bare : r.find? w = some none) :
      Change r ((r.drawn w).put w (r.numbered,f))
  | drop {r : Roster F} {w : WorkerId} (bare : (r.find? w).join = none) : Change r (r.remove w)
  | serve {r : Roster F} {w : WorkerId} {c : Nat} {f : F} (f' : F)
      (found : r.find? w = some (some (c,f))) : Change r ((r.ran .body c).put w (c,f'))
  | tear {r : Roster F} {w : WorkerId} {c : Nat} {f : F} (found : r.find? w = some (some (c,f))) :
      Change r ((r.remove w).ran .teardown c)

variable {r after : Roster F} {w v : WorkerId} {c : Nat} {f : F} {template next : Template F}
  {conduct : Conduct F V} {reply : Reply V} {sharding : Sharding} {copy : Nat × F}

theorem create_changes (bare : r.find? w = some none) :
    ReflTransGen Change r (r.create w template conduct).2.1 := by
  have created := created r w template conduct
  generalize r.create w template conduct = result at created
  cases created with
  | refused =>
    have counted : Change r (r.count .cloneFailures) := .count r _
    exact .tail (.single counted) (.drop (by simp [bare]))
  | panicked => exact .refl
  | @setUp f value =>
    have housed : Change r ((r.drawn w).put w (r.numbered,value)) := .house value bare
    exact .tail (.single housed) (.count _ .setups)
  | failed =>
    have spoiled : Change r (r.drawn w) := .spoil bare
    exact .tail (.tail (.single spoiled) (.count _ .setupFailures)) (.drop (by simp [bare]))
  | broke => exact .single (.spoil bare)

theorem obtain_changes : ReflTransGen Change r (r.obtain w template conduct).2.1 := by
  cases bare : (r.find? w).join with
  | some copy =>
    have found : r.find? w = some (some copy) := Option.join_eq_some_iff.mp bare
    simp only [obtain,found]
    exact .refl
  | none =>
    rw [obtain_of_bare bare]
    exact .head (.enroll r w) (create_changes (find?_enrolled bare))

theorem release_changes : ReflTransGen Change r (r.release w conduct).2 := by
  have released := released r w conduct
  generalize r.release w conduct = result at released
  cases released with
  | empty none => exact .single (.drop none)
  | @returned c f v found =>
    have torn : Change r ((r.remove w).ran .teardown c) := .tear found
    exact .tail (.single torn) (.count _ .teardowns)
  | @failed c f fault found =>
    have torn : Change r ((r.remove w).ran .teardown c) := .tear found
    exact .tail (.tail (.single torn) (.count _ .teardowns)) (.count _ .teardownFailures)
  | panicked found => exact .single (.tear found)

theorem work_changes (found : r.find? w = some (some copy)) :
    ReflTransGen Change r (r.work w copy conduct).2 := by
  have served (f : F) : Change r ((r.ran .body copy.1).put w (copy.1,f)) := .serve f found
  have worked := worked r w conduct copy
  generalize r.work w copy conduct = result at worked
  cases worked with
  | returned | panicked => exact .single (served _)
  | @failed f _ _ _ _ released | @broke f _ _ _ _ released =>
    have gone : ReflTransGen Change _
        (((r.ran .body copy.1).put w (copy.1,f)).release w conduct).2 := release_changes
    rw [released] at gone
    exact gone.head (served f)

theorem sweep_changes (ws : List WorkerId) (errors : List LifecycleError) :
    ReflTransGen Change r (sweep conduct ws errors r).2 := by
  induction ws generalizing r errors with
  | nil => exact .refl
  | cons w rest ih =>
    have released : ReflTransGen Change r (r.release w conduct).2 := release_changes
    unfold sweep
    generalize r.release w conduct = result at released ⊢
    obtain ⟨reply,gone⟩ := result
    cases reply with
    | panicked => exact released
    | failed e => exact released.trans (ih _)
    | _ => exact released.trans (ih _)

theorem answer_changes (ask : Ask) :
    ReflTransGen Change r (r.answer sharding template conduct ask).2.1 := by
  cases ask with
  | get w =>
    rw [answer_get]
    exact obtain_changes
  | process w =>
    have obtained : ReflTransGen Change r (r.obtain w template conduct).2.1 := obtain_changes
    simp only [answer]
    generalize known : r.obtain w template conduct = result at obtained ⊢
    obtain ⟨result,after,next⟩ := result
    cases result with
    | error reply => exact obtained
    | ok copy => exact obtained.trans (work_changes (find?_obtain known))
  | release w => exact release_changes
  | releaseAll => exact sweep_changes _ _
  | _ => exact .refl

theorem converse_changes (errands : List (Errand F V)) :
    ReflTransGen Change r (converse sharding errands r template).2.1 := by
  induction errands generalizing r template with
  | nil => exact .refl
  | cons errand rest ih =>
    have first : ReflTransGen Change r
        (r.answer sharding template errand.conduct errand.ask).2.1 := answer_changes errand.ask
    exact first.trans ih

/-- A copy that is registered was made for the worker and not torn down; a copy that was torn down
was torn down once. -/
structure Orderly (r : Roster F) : Prop where
  housed : ∀ w c f, r.find? w = some (some (c,f)) →
    r.made[c]? = some w ∧ (.teardown,c) ∉ r.hooks
  torn : ∀ c, (.teardown,c) ∈ r.hooks → c < r.numbered
  once : ∀ c, r.hooks.count (.teardown,c) ≤ 1

theorem Orderly.drawn (orderly : Orderly r) (w : WorkerId) : Orderly (r.drawn w) where
  housed := by
    intro v c f found
    obtain ⟨made,spared⟩ := orderly.housed v c f found
    have within := (List.getElem?_eq_some_iff.mp made).1
    exact ⟨(List.getElem?_append_left within).trans made,by simpa using spared⟩
  torn := by
    intro c torn
    have torn : (.teardown,c) ∈ r.hooks := by simpa using torn
    simpa using (orderly.torn c torn).trans (Nat.lt_succ_self _)
  once := by
    intro c
    simpa [List.count_append] using orderly.once c

theorem Orderly.put (orderly : Orderly r) (made : r.made[c]? = some w)
    (spared : (.teardown,c) ∉ r.hooks) (f : F) : Orderly (r.put w (c,f)) where
  housed := by
    intro v d g found
    rw [find?_put] at found
    split at found
    next own =>
      obtain ⟨_,_,same⟩ := Option.map_eq_some_iff.mp found
      cases same
      exact ⟨own ▸ made,spared⟩
    next => exact orderly.housed v d g found
  torn := orderly.torn
  once := orderly.once

theorem Orderly.remove (orderly : Orderly r) (w : WorkerId) : Orderly (r.remove w) where
  housed := by
    intro v d g found
    rw [find?_remove] at found
    split at found
    next => cases found
    next => exact orderly.housed v d g found
  torn := orderly.torn
  once := orderly.once

/-- A registered copy was made for its worker and has not been torn down, nor any copy twice: every
change keeps that. -/
theorem Orderly.change (orderly : Orderly r) (change : Change r after) : Orderly after := by
  cases change with
  | count counter => exact ⟨orderly.housed,orderly.torn,orderly.once⟩
  | enroll w =>
    refine ⟨fun v c f found => ?_,by simpa using orderly.torn,by simpa using orderly.once⟩
    rw [find?_enroll] at found
    rw [made_enroll,hooks_enroll]
    refine orderly.housed v c f ?_
    split at found
    next own => exact own ▸ Option.join_eq_some_iff.mp (Option.some.inj found)
    next => exact found
  | @spoil w bare => exact orderly.drawn w
  | @house w f bare =>
    refine (orderly.drawn w).put ?_ ?_ f
    · simp [numbered]
    · intro torn
      have torn : (.teardown,r.numbered) ∈ r.hooks := by simpa using torn
      exact absurd (orderly.torn _ torn) (lt_irrefl _)
  | @drop w bare => exact orderly.remove w
  | @serve w c f f' found =>
    have served : Orderly (r.ran .body c) := by
      refine ⟨?_,?_,?_⟩
      · simpa using orderly.housed
      · simpa using orderly.torn
      · simpa [List.count_append] using orderly.once
    obtain ⟨made,spared⟩ := orderly.housed w c f found
    exact served.put made (by simpa using spared) f'
  | @tear w c f found =>
    obtain ⟨made,spared⟩ := orderly.housed w c f found
    refine ⟨fun v d g held => ?_,fun d torn => ?_,fun d => ?_⟩
    · rw [find?_ran,find?_remove] at held
      split at held
      next => cases held
      next other =>
        obtain ⟨made',spared'⟩ := orderly.housed v d g held
        -- A copy has been made for one worker only, and that one has left.
        have apart : d ≠ c := by
          rintro rfl
          exact other (Option.some.inj (made'.symm.trans made))
        refine ⟨made',?_⟩
        simpa [apart] using spared'
    · obtain before | now := List.mem_append.mp torn
      · exact orderly.torn d before
      · obtain rfl : d = c := by simpa using now
        exact (List.getElem?_eq_some_iff.mp made).1
    · rw [hooks_ran,List.count_append]
      by_cases same : d = c
      · subst same
        have none : r.hooks.count (.teardown,d) = 0 := List.count_eq_zero.mpr spared
        simp [none]
      · have other : [(Hook.teardown,c)].count (.teardown,d) = 0 := by
          simp [Ne.symm same]
        simpa [other] using orderly.once d

theorem hooks_change (change : Change r after) : r.hooks <+: after.hooks := by
  cases change with
  | enroll w =>
    unfold enroll
    split <;> exact List.prefix_rfl
  | spoil | house | serve | tear => exact List.prefix_append _ _
  | _ => exact List.prefix_rfl

theorem made_change (change : Change r after) : r.made <+: after.made := by
  cases change with
  | enroll w => rw [made_enroll]
  | spoil | house => exact List.prefix_append _ _
  | _ => exact List.prefix_rfl

theorem name_change (change : Change r after) : after.name = r.name := by
  cases change with
  | enroll w => exact name_enroll r w
  | _ => rfl

theorem nodup_change (nodup : r.workers.Nodup) (change : Change r after) :
    after.workers.Nodup := by
  cases change with
  | enroll w =>
    rw [workers_enroll]
    split
    next => exact nodup
    next unknown =>
      have apart : w ∉ r.workers := fun member => unknown ((find?_isSome r w).mpr member)
      exact List.Nodup.append nodup (List.nodup_singleton w) (by simpa using apart)
  | house | serve => simpa using nodup
  | drop | tear => simpa [workers_remove] using nodup.filter _
  | _ => exact nodup

def Traced (w : WorkerId) (c : Nat) (r : Roster F) : Prop :=
  (∃ f, r.find? w = some (some (c,f))) ∨ (.teardown,c) ∈ r.hooks

/-- A copy that has been registered stays so until it is torn down. -/
theorem Traced.change (traced : Traced w c r) (change : Change r after) : Traced w c after := by
  have older := (hooks_change change).subset
  obtain ⟨f,found⟩ | torn := traced
  · cases change with
    | count counter => exact .inl ⟨f,found⟩
    | enroll v =>
      refine .inl ⟨f,?_⟩
      rw [find?_enroll]
      split <;> simp_all
    | spoil bare => exact .inl ⟨f,found⟩
    | @house v g bare =>
      refine .inl ⟨f,?_⟩
      rw [find?_put]
      split <;> simp_all
    | drop bare =>
      refine .inl ⟨f,?_⟩
      rw [find?_remove]
      split <;> simp_all
    | @serve v d g g' held =>
      rw [Traced,find?_put]
      split <;> simp_all
    | @tear v d g held =>
      by_cases own : w = v
      · subst own
        cases found.symm.trans held
        exact .inr (by simp [ran])
      · exact .inl ⟨f,by simp [find?_remove,own,found]⟩
  · exact .inr (older torn)

theorem Orderly.changes (orderly : Orderly r) (changes : ReflTransGen Change r after) :
    Orderly after := by
  induction changes with
  | refl => exact orderly
  | tail _ change ih => exact ih.change change

theorem Traced.changes (traced : Traced w c r) (changes : ReflTransGen Change r after) :
    Traced w c after := by
  induction changes with
  | refl => exact traced
  | tail _ change ih => exact ih.change change

theorem hooks_changes (changes : ReflTransGen Change r after) : r.hooks <+: after.hooks := by
  induction changes with
  | refl => exact List.prefix_rfl
  | tail _ change ih => exact ih.trans (hooks_change change)

theorem made_changes (changes : ReflTransGen Change r after) : r.made <+: after.made := by
  induction changes with
  | refl => exact List.prefix_rfl
  | tail _ change ih => exact ih.trans (made_change change)

theorem name_changes (changes : ReflTransGen Change r after) : after.name = r.name := by
  induction changes with
  | refl => rfl
  | tail _ change ih => exact (name_change change).trans ih

theorem nodup_changes (nodup : r.workers.Nodup) (changes : ReflTransGen Change r after) :
    after.workers.Nodup := by
  induction changes with
  | refl => exact nodup
  | tail _ change ih => exact nodup_change ih change

theorem Orderly.torn_once (orderly : Orderly r) (torn : (.teardown,c) ∈ r.hooks)
    (changes : ReflTransGen Change r after) : after.hooks.count (.teardown,c) = 1 := by
  have some := List.count_pos_iff.mpr ((hooks_changes changes).subset torn)
  have few := (orderly.changes changes).once c
  omega

end Roster

namespace Supply

open Roster (Orderly Traced)

variable {F V : Type} {sharding : Sharding} {names : List String} {threads t m c : Nat}
  {w : WorkerId} {f : F} {template : Template F} {conduct : Conduct F V} {p next last : Supply F V}
  {errands : List (Errand F V)} {reply : Reply V} {replies : List (Reply V)} {ask : Ask}

def Calls (t m : Nat) (ask : Ask) (conduct : Conduct F V) (p : Supply F V) (reply : Reply V)
    (next : Supply F V) : Prop :=
  p.Converses t m [⟨ask,conduct⟩] [reply] next

/-- A thread that has a manager to itself and no call under way. -/
structure Alone (sharding : Sharding) (t m : Nat) (p : Supply F V) : Prop where
  poised : Poised sharding t m none p [] (p.roster m) p.template
  orderly : Orderly (p.roster m)

/-- The calls of a thread that has a manager to itself are answered as on the roster that it
shows. -/
theorem Alone.settles (alone : Alone sharding t m p)
    (conversed : p.Converses t m errands replies last) :
    (p.roster m).converse sharding errands p.template = (replies,last.roster m,last.template) ∧
      Alone sharding t m last := by
  obtain ⟨same,poised⟩ := alone.poised.settles conversed
  have orderly : Orderly ((p.roster m).converse sharding errands p.template).2.1 :=
    alone.orderly.changes (Roster.converse_changes errands)
  have shown := poised.roster_eq
  have left := poised.template
  rw [← shown] at orderly
  rw [← shown,← left] at poised
  exact ⟨Prod.ext same.symm (Prod.ext shown.symm left.symm),poised,orderly⟩

theorem Alone.changes (alone : Alone sharding t m p)
    (conversed : p.Converses t m errands replies last) :
    ReflTransGen Roster.Change (p.roster m) (last.roster m) := by
  obtain ⟨same,_⟩ := alone.settles conversed
  have changes : ReflTransGen Roster.Change (p.roster m)
      ((p.roster m).converse sharding errands p.template).2.1 := Roster.converse_changes errands
  rwa [same] at changes

theorem roster_fresh (sharding : Sharding) (template : Template F) (room : t < threads)
    (present : m < names.length) :
    (fresh sharding names threads template : Supply F V).roster m = { name := names[m] } :=
  (poised_fresh sharding template room present).roster_eq

theorem alone_fresh (sharding : Sharding) (template : Template F) (room : t < threads)
    (present : m < names.length) :
    Alone sharding t m (fresh sharding names threads template : Supply F V) := by
  have poised := poised_fresh (V := V) sharding template room present
  have empty : Orderly ({ name := names[m] } : Roster F) := ⟨nofun,nofun,fun _ => Nat.zero_le 1⟩
  rw [← roster_fresh (V := V) sharding template room present] at empty poised
  exact ⟨poised,empty⟩

theorem Converses.alone (room : t < threads) (present : m < names.length)
    (conversed : (fresh sharding names threads template).Converses t m errands replies p) :
    Alone sharding t m p :=
  ((alone_fresh sharding template room present).settles conversed).2

theorem Alone.converses (alone : Alone sharding t m p) (errands : List (Errand F V)) :
    ∃ replies last, p.Converses t m errands replies last := by
  obtain ⟨enough,last,served,_⟩ := alone.poised.converses errands
  exact ⟨_,last,enough,served enough le_rfl⟩

theorem Alone.called (alone : Alone sharding t m p) (ask : Ask) (conduct : Conduct F V) :
    ∃ reply next, p.Calls t m ask conduct reply next := by
  obtain ⟨enough,last,served,_⟩ := alone.poised.converses [⟨ask,conduct⟩]
  exact ⟨_,last,enough,served enough le_rfl⟩

theorem Alone.answered (alone : Alone sharding t m p) (calls : p.Calls t m ask conduct reply next) :
    (p.roster m).answer sharding p.template conduct ask = (reply,next.roster m,next.template) ∧
      Alone sharding t m next := by
  obtain ⟨same,alone⟩ := alone.settles calls
  refine ⟨?_,alone⟩
  simp only [Roster.converse] at same
  generalize next.roster m = after at same
  generalize next.template = left at same
  cases same
  rfl

theorem Alone.live (alone : Alone sharding t m p)
    (found : (p.roster m).find? w = some (some (c,f))) : p.system.isLive c = true := by
  have seated := alone.poised.shows.seat w
  rw [found] at seated
  cases seated with
  | housed berth copy => simp [System.isLive,copy]

theorem Alone.dead (alone : Alone sharding t m p) (torn : (.teardown,c) ∈ (p.roster m).hooks) :
    p.system.isLive c = false := by
  obtain ⟨copy,there,dead⟩ := alone.poised.shows.spent c torn
  simp [System.isLive,there,dead]

theorem Alone.live_iff (alone : Alone sharding t m p) (traced : Traced w c (p.roster m)) :
    p.system.isLive c = true ↔ ∃ f, (p.roster m).find? w = some (some (c,f)) := by
  constructor
  · intro live
    refine traced.resolve_right fun torn => ?_
    rw [alone.dead torn] at live
    cases live
  · rintro ⟨f,found⟩
    exact alone.live found

end Supply
end PerWorker
