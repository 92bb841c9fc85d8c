import PerWorker.Proofs.Lifecycle.Drains
import PerWorker.Proofs.Lifecycle.Lookups
import PerWorker.Proofs.Lifecycle.Races
import PerWorker.Proofs.Lifecycle.Records

/-!
How often a lookup starts over. It does when the slot that it comes to is retired, and by then a
slot that it has met retired before is out of the map, for good. Main statements: a lookup never
meets the same retired slot twice, begins at most two rounds more than slots of its worker become
retired meanwhile, and takes a bounded number of steps in each; and while no other thread has a call
under way it does not start over.
-/
namespace PerWorker

namespace GetPoint

variable {F : Type}

def enters? : GetPoint F → Option Nat
  | .enter i => some i
  | _ => none

def again? : GetPoint F → Option Nat
  | .leave i .again | .prune i none => some i
  | _ => none

def stage : GetPoint F → Nat
  | .look => 0
  | .register => 1
  | .enter _ => 2
  | .replicating _ => 3
  | .countCloneFailure _ _ | .countCopy _ _ => 4
  | .logCloneFailure _ _ | .number _ _ => 5
  | .settingUp _ _ => 6
  | .countSetupFailure _ _ _ | .countSetup _ _ => 7
  | .logSetupFailure _ _ _ | .logSetup _ _ => 8
  | .retire _ _ | .publish _ _ => 9
  | .leave _ _ => 10
  | .prune _ _ => 11

theorem stage_le (point : GetPoint F) : point.stage ≤ 11 := by
  cases point <;> simp [stage]

/-- A lookup in its first round does not come to a retired slot. -/
def Direct {V : Type} (now : System F V) (m : Nat) (w : WorkerId) : GetPoint F → Prop
  | .look | .register => ∀ i, now.slot? m w = some i → now.state? i ≠ some .retired
  | .enter i => now.state? i ≠ some .retired
  | .leave _ .again | .prune _ none => False
  | _ => True

end GetPoint

namespace Frame

variable {F V : Type}

def meets? (s : System F V) : Frame F V → Option Nat
  | .get _ _ (.enter i) => if s.state? i = some .retired then some i else none
  | _ => none

def restarts : Frame F V → Bool
  | .get _ _ (.prune _ none) => true
  | _ => false

end Frame

/-- A retired slot stays retired. -/
theorem Ledger.Move.retired {l next : Ledger} {i : Nat} {notes : List Note}
    (move : l.Move notes next) (sound : l.Sound) (retired : l.state? i = some .retired) :
    next.state? i = some .retired := by
  obtain ⟨t,before,after,notes,shared,rest,split,shift⟩ := move
  have still : shared.state? i = some .retired := sound.guarded.retired split shift retired
  exact still

namespace System

open Ledger

variable {F V : Type} {sharding : Sharding} {names : List String} {threads : Nat}
  {past : List (Entry F V)} {s now next last : System F V} {t u m i depth : Nat} {w : WorkerId}
  {call : Call} {a : Action F V} {events : List (Event V)} {span : List (Moment F V)}
  {moment : Moment F V} {frame : Frame F V} {below floor : List (Frame F V)} {reply : Reply V}
  {point point' : GetPoint F} {found : List Nat}

def met (t depth : Nat) (span : List (Moment F V)) : List Nat :=
  span.filterMap fun moment => (moment.acting? t depth).bind (Frame.meets? moment.state)

/-- How many rounds of its loop the lookup of a call has begun. -/
def rounds (t depth : Nat) (span : List (Moment F V)) : Nat :=
  1 + span.countP fun moment => (moment.acting? t depth).any Frame.restarts

def owner? (s : System F V) (i : Nat) : Option (Nat × WorkerId) :=
  (s.slots[i]?).map fun slot => (slot.manager,slot.worker)

/-- The slots of a worker that have become retired between two states. -/
def retirees (s now : System F V) (m : Nat) (w : WorkerId) : List Nat :=
  (List.range now.slots.size).filter fun i =>
    now.owner? i = some (m,w) ∧ now.state? i = some .retired ∧ s.state? i ≠ some .retired

def Recent (s : System F V) (m : Nat) (w : WorkerId) (i : Nat) : Prop :=
  s.slot? m w = some i ∨ s.slots.size ≤ i

structure Tracked (s now : System F V) (m : Nat) (w : WorkerId) (found : List Nat) : Prop where
  once : found.Nodup
  known : ∀ i ∈ found, now.ledger.Homed m w i ∧ now.state? i = some .retired ∧ Recent s m w i

/-- What is known of them while the lookup goes on: they are out of the map, but for the one that it
is taking out, and it is not about to enter one of them. -/
structure Hunting (s now : System F V) (m : Nat) (w : WorkerId) (found : List Nat)
    (point : GetPoint F) : Prop extends Tracked s now m w found where
  target : ∀ i, point.enters? = some i → i ∉ found ∧ Recent s m w i
  unmapped : ∀ i ∈ found, now.slot? m w = some i → point.again? = some i
  recent : ∀ i, now.slot? m w = some i → Recent s m w i
  older : s.slots.size ≤ now.slots.size

theorem owner?_eq : s.owner? i = some (m,w) ↔ s.ledger.Homed m w i := by
  simp [owner?,Homed,ledger]

theorem retired_on (sound : s.ledger.Sound) (moved : s.step t a = some (next,events))
    (retired : s.state? i = some .retired) : next.state? i = some .retired :=
  (step_move moved).retired sound retired

theorem mapped_back (moved : s.step t a = some (next,events)) (mapped : next.slot? m w = some i) :
    s.slot? m w = some i ∨ s.slots.size ≤ i :=
  ((step_move moved).mapped_anew mapped).imp_right And.left

/-- A slot that a lookup has met retired stays so, whatever other threads do. -/
theorem Tracked.step (tracked : Tracked s now m w found) (sound : now.ledger.Sound)
    (moved : now.step u a = some (next,events)) : Tracked s next m w found := by
  refine ⟨tracked.once,fun i member => ?_⟩
  obtain ⟨homed,retired,recent⟩ := tracked.known i member
  exact ⟨homed.move (step_move moved),retired_on sound moved retired,recent⟩

/-- At most one slot that has been met was retired from the start, the one that was mapped then. -/
theorem Tracked.length_le (tracked : Tracked s now m w found) :
    found.length ≤ 1 + (retirees s now m w).length := by
  obtain ⟨once,known⟩ := tracked
  have split := List.length_eq_length_filter_add (l := found)
    fun i => decide (s.state? i = some .retired)
  -- Of the slots that were retired from the start only the one that was mapped then can be met.
  have early : (found.filter fun i => decide (s.state? i = some .retired)).length ≤ 1 := by
    have nodup := once.filter fun i => decide (s.state? i = some .retired)
    have mapped : ∀ i ∈ found.filter fun i => decide (s.state? i = some .retired),
        s.slot? m w = some i := by
      intro i member
      obtain ⟨inside,old⟩ := List.mem_filter.mp member
      have bound : i < s.slots.size := lt_of_state (l := s.ledger) (of_decide_eq_true old)
      exact (known i inside).2.2.resolve_right (Nat.not_le.mpr bound)
    generalize found.filter _ = early at nodup mapped
    match early with
    | [] => exact Nat.zero_le 1
    | [_] => exact le_rfl
    | i :: j :: rest =>
      have first := mapped i (by simp)
      have second := mapped j (by simp)
      obtain rfl := Option.some.inj (first.symm.trans second)
      simp at nodup
  have late :
      (found.filter fun i => !decide (s.state? i = some .retired)) ⊆ retirees s now m w := by
    intro i member
    obtain ⟨inside,new⟩ := List.mem_filter.mp member
    obtain ⟨homed,retired,_⟩ := known i inside
    have bound : i < now.slots.size := homed.lt
    refine List.mem_filter.mpr ⟨List.mem_range.mpr bound,?_⟩
    simpa [owner?_eq.mpr homed,retired] using new
  have fewer := ((once.filter _).subperm late).length_le
  omega

theorem retrying_append (span : List (Moment F V)) {actor : Option (Frame F V)}
    (acting : moment.acting? t depth = actor) :
    met t depth (span ++ [moment]) =
        met t depth span ++ (actor.bind (Frame.meets? moment.state)).toList ∧
      rounds t depth (span ++ [moment]) =
        rounds t depth span + (if actor.any Frame.restarts then 1 else 0) ∧
      ownSteps t depth (span ++ [moment]) = ownSteps t depth span + actor.toList.length := by
  refine ⟨?_,?_,acting ▸ ownSteps_append span moment⟩
  · cases told : actor.bind (Frame.meets? moment.state) <;> simp [met,acting,told]
  · simp [rounds,acting,List.countP_append,List.countP_singleton,Nat.add_assoc]

theorem retrying_same (span : List (Moment F V))
    (apart : ∀ frame, moment.acting? t depth = some frame →
      ∀ n v point, frame ≠ .get n v point) :
    met t depth (span ++ [moment]) = met t depth span ∧
      rounds t depth (span ++ [moment]) = rounds t depth span := by
  cases acting : moment.acting? t depth with
  | none =>
    obtain ⟨same,count,_⟩ := retrying_append span acting
    exact ⟨by simpa using same,by simpa using count⟩
  | some frame =>
    obtain ⟨meets,restarts⟩ : frame.meets? moment.state = none ∧ frame.restarts = false := by
      cases frame with
      | get n v point => exact absurd rfl (apart _ acting n v point)
      | _ => exact ⟨rfl,rfl⟩
    obtain ⟨same,count,_⟩ := retrying_append span acting
    exact ⟨by simpa [meets] using same,by simpa [restarts] using count⟩

/-- Other threads cannot send a lookup back to a slot that it has met retired. -/
theorem Hunting.aside (hunting : Hunting s now m w found point) (sound : now.ledger.Sound)
    (moved : now.step u a = some (next,events)) : Hunting s next m w found point where
  toTracked := hunting.toTracked.step sound moved
  target := hunting.target
  unmapped := by
    intro i member mapped
    obtain old | new := mapped_back moved mapped
    · exact hunting.unmapped i member old
    · exact absurd (hunting.known i member).1.lt (Nat.not_lt.mpr new)
  recent := by
    intro i mapped
    obtain old | new := mapped_back moved mapped
    · exact hunting.recent i old
    · exact Or.inr (hunting.older.trans new)
  older := hunting.older.trans (step_grows moved).1

theorem prune_unmaps {e : Option LifecycleError}
    (top : now.stack t = .get m w (.prune i e) :: below)
    (moved : now.step t .advance = some (next,events)) : next.slot? m w ≠ some i := by
  have erased : next.slot? m w = (now.mapManager m (·.eraseSlot w i)).slot? m w := by
    cases e <;> simp only [step,advance,top,advanceGet] at moved <;>
      obtain ⟨rfl,_⟩ := Prod.mk.inj (Option.some.inj moved) <;> rfl
  rw [erased,slot?_eraseSlot]
  split
  next => simp [slot?_erase]
  next other => exact other

/-- A step of the lookup itself: it enters a slot that it has not met, and starts over only when the
one that it has met is out of the map. -/
theorem Hunting.turn (hunting : Hunting s now m w found point) (sound : now.ledger.Sound)
    (top : now.stack t = .get m w point :: below) (moved : now.step t a = some (next,events))
    (turn : GetTurn now m w a point point') :
    Hunting s next m w (found ++ ((Frame.get m w point : Frame F V).meets? now).toList) point' := by
  have later := hunting.aside sound moved
  -- Unless the lookup is about to start over, all that it has met is out of the map.
  have out (going : point.again? = none) : ∀ i ∈ found, next.slot? m w ≠ some i := by
    intro i member mapped
    cases going.symm.trans (later.unmapped i member mapped)
  have aimed (going : point.again? = none)
      (aim : ∀ i, point'.enters? = some i → i ∉ found ∧ Recent s m w i)
      (unmet : (Frame.get m w point : Frame F V).meets? now = none) :
      Hunting s next m w (found ++ ((Frame.get m w point : Frame F V).meets? now).toList)
        point' := by
    rw [unmet,Option.toList_none,List.append_nil]
    exact ⟨later.toTracked,aim,fun i member mapped => absurd mapped (out going i member),
      later.recent,later.older⟩
  have enters {j : Nat} (fresh : j ∉ found) (recent : Recent s m w j) :
      ∀ i, (GetPoint.enter j : GetPoint F).enters? = some i → i ∉ found ∧ Recent s m w i := by
    intro i same
    cases same
    exact ⟨fresh,recent⟩
  cases turn with
  | seen j mapped | beaten j mapped =>
    have fresh : j ∉ found := fun member => by cases hunting.unmapped j member mapped
    exact aimed rfl (enters fresh (hunting.recent j mapped)) rfl
  | register missing =>
    have fresh : now.slots.size ∉ found := fun member =>
      Nat.lt_irrefl _ (hunting.known _ member).1.lt
    exact aimed rfl (enters fresh (Or.inr hunting.older)) rfl
  | miss j retired =>
    obtain ⟨fresh,recent⟩ := hunting.target j rfl
    have homed : now.ledger.Homed m w j :=
      sound.homes.roles _ (mem_roles (top ▸ List.mem_cons_self) rfl) m w j rfl
    rw [Frame.meets?,if_pos retired,Option.toList_some]
    refine ⟨⟨?_,?_⟩,nofun,?_,later.recent,later.older⟩
    · exact List.Nodup.append hunting.once (List.nodup_singleton j) (by simpa using fresh)
    · intro i member
      obtain old | new := List.mem_append.mp member
      · exact later.known i old
      · obtain rfl := List.mem_singleton.mp new
        exact ⟨homed.move (step_move moved),retired_on sound moved retired,recent⟩
    · intro i member mapped
      obtain old | new := List.mem_append.mp member
      · exact absurd mapped (out rfl i old)
      · obtain rfl := List.mem_singleton.mp new
        rfl
  | meet j c live => exact aimed rfl nofun (if_neg (by simp [live]))
  | occupy j vacant => exact aimed rfl nofun (if_neg (by simp [vacant]))
  | again j =>
    change Hunting s next m w (found ++ []) _
    rw [List.append_nil]
    exact ⟨later.toTracked,nofun,later.unmapped,later.recent,later.older⟩
  | restart j =>
    change Hunting s next m w (found ++ []) _
    rw [List.append_nil]
    refine ⟨later.toTracked,nofun,fun i member mapped => ?_,later.recent,later.older⟩
    obtain rfl := Option.some.inj (later.unmapped i member mapped)
    exact absurd mapped (prune_unmaps top moved)
  | _ => exact aimed rfl nofun rfl

theorem GetTurn.stage (turn : GetTurn s m w a point point') :
    (∃ i, point = .prune i none ∧ point' = .look) ∨
      (Frame.get m w point : Frame F V).restarts = false ∧ point.stage < point'.stage := by
  cases turn with
  | restart i => exact Or.inl ⟨i,rfl,rfl⟩
  | _ => exact Or.inr ⟨rfl,by simp [GetPoint.stage]⟩

/-- Each round of a lookup but the first is due to a slot that it met retired. -/
theorem GetTurn.pending (turn : GetTurn s m w a point point') :
    point'.again?.toList.length + (if (Frame.get m w point : Frame F V).restarts then 1 else 0) =
      point.again?.toList.length +
        ((Frame.get m w point : Frame F V).meets? s).toList.length := by
  cases turn with
  | miss i retired => simp [Frame.meets?,Frame.restarts,GetPoint.again?,retired]
  | meet i c live => simp [Frame.meets?,Frame.restarts,GetPoint.again?,live]
  | occupy i vacant => simp [Frame.meets?,Frame.restarts,GetPoint.again?,vacant]
  | _ => rfl

structure Retrying (s : System F V) (t m : Nat) (w : WorkerId) (span : List (Moment F V))
    (point : GetPoint F) (now : System F V) : Prop where
  hunting : Hunting s now m w (met t (s.stack t).length span) point
  rounds : rounds t (s.stack t).length span + point.again?.toList.length =
    1 + (met t (s.stack t).length span).length
  steps : ownSteps t (s.stack t).length span + 12 ≤
    12 * System.rounds t (s.stack t).length span + point.stage

structure Retried (s : System F V) (t m : Nat) (w : WorkerId) (span : List (Moment F V))
    (now : System F V) : Prop where
  tracked : Tracked s now m w (met t (s.stack t).length span)
  rounds : rounds t (s.stack t).length span ≤ 1 + (met t (s.stack t).length span).length

theorem Retrying.retried (retrying : Retrying s t m w span point now) :
    Retried s t m w span now :=
  ⟨retrying.hunting.toTracked,(Nat.le_add_right ..).trans_eq retrying.rounds⟩

/-- The rounds and steps of a lookup stay within what the slots that it met retired allow. -/
theorem Retrying.turn (retrying : Retrying s t m w span point now) (sound : now.ledger.Sound)
    (top : now.stack t = .get m w point :: below) (moved : now.step t a = some (next,events))
    (acting : Moment.acting? t (s.stack t).length ⟨now,⟨t,a,events⟩⟩ = some (.get m w point))
    (turn : GetTurn now m w a point point') :
    Retrying s t m w (span ++ [⟨now,⟨t,a,events⟩⟩]) point' next := by
  obtain ⟨hunting,counted,spent⟩ := retrying
  obtain ⟨same,count,steps⟩ := retrying_append span acting
  refine ⟨?_,?_,?_⟩
  · rw [same]
    exact hunting.turn sound top moved turn
  · have pending := turn.pending (V := V)
    rw [same,count,List.length_append]
    simp only [Option.bind_some,Option.any_some]
    omega
  · rw [count,steps]
    obtain ⟨i,rfl,rfl⟩ | ⟨going,further⟩ := turn.stage (V := V)
    · simp only [Option.any_some,Frame.restarts,if_true,Option.toList_some,List.length_singleton,
        GetPoint.stage] at spent ⊢
      omega
    · simp only [Option.any_some,going,Option.toList_some,List.length_singleton]
      omega

theorem GetEnd.plain (ends : GetEnd point reply) :
    (Frame.get m w point : Frame F V).meets? s = none ∧
      (Frame.get m w point : Frame F V).restarts = false := by
  cases ends <;> exact ⟨rfl,rfl⟩

theorem lookup_retries (run : Interleaving (idle sharding names threads) past s) :
    Lookup s t m w (Retrying s t m w) (fun _ => Retried s t m w) where
  made := by
    intro call next moved
    have silent : Moment.acting? t (s.stack t).length
        (⟨s,⟨t,.call call,[.called call]⟩⟩ : Moment F V) = none := by
      simp [Moment.acting?,Action.isOwn]
    have none : met t (s.stack t).length [⟨s,⟨t,.call call,[.called call]⟩⟩] = [] := by
      simp [met,silent]
    refine ⟨?_,?_,?_⟩
    · rw [none]
      exact ⟨⟨List.nodup_nil,by simp⟩,by simp [GetPoint.enters?],by simp,
        fun i mapped => mapped_back moved mapped,
        (step_grows moved).1⟩
    · simp [none,rounds,silent,GetPoint.again?]
    · simp [rounds,ownSteps,silent,GetPoint.stage]
  aside := by
    intro call span now point below u a next events under retrying stood moved silent
    obtain ⟨hunting,counted,spent⟩ := retrying
    obtain ⟨same,count,steps⟩ := retrying_append span silent
    rw [Option.bind_none,Option.toList_none,List.append_nil] at same
    refine ⟨same ▸ hunting.aside (under.run run).sound moved,?_,?_⟩
    · rw [same,count]
      exact counted
    · rw [count,steps]
      exact spent
  turn := by
    intro call span now point below a next events point' under retrying top moved acting turn
    exact retrying.turn (under.run run).sound top moved acting turn
  ends := by
    intro call span now point a next events reply under retrying moved acting ends
    obtain ⟨tracked,count⟩ := retrying.retried
    obtain ⟨same,counted,_⟩ := retrying_append span acting
    obtain ⟨unmet,going⟩ := ends.plain (s := now) (m := m) (w := w)
    rw [Option.bind_some,unmet,Option.toList_none,List.append_nil] at same
    refine ⟨same ▸ tracked.step (under.run run).sound moved,?_⟩
    rw [same,counted,Option.any_some,going]
    exact count
  after := by
    intro call span now u a next events reply under retried moved apart
    obtain ⟨same,count⟩ := retrying_same span apart
    refine ⟨same ▸ retried.tracked.step (under.run run).sound moved,?_⟩
    rw [same,count]
    exact retried.rounds

/-- How a lookup has gone about retired slots up to a state: it has met none twice, all of them are
slots of its worker, and its rounds are at most two more than those that became retired
meanwhile. -/
structure Persists (s now : System F V) (t m : Nat) (w : WorkerId) (span : List (Moment F V)) :
    Prop where
  once : (met t (s.stack t).length span).Nodup
  known : ∀ i ∈ met t (s.stack t).length span,
    now.owner? i = some (m,w) ∧ now.state? i = some .retired
  rounds : rounds t (s.stack t).length span ≤ 2 + (retirees s now m w).length

theorem Retried.persists (retried : Retried s t m w span now) : Persists s now t m w span where
  once := retried.tracked.once
  known := fun i member =>
    have known := retried.tracked.known i member
    ⟨owner?_eq.mpr known.1,known.2.1⟩
  rounds := by
    have few := retried.tracked.length_le
    have count := retried.rounds
    omega

theorem Underway.persists (run : Interleaving (idle sharding names threads) past s)
    (looks : call = .get m w ∨ call = .process m w) (under : Underway s t call span now) :
    Persists s now t m w span := by
  obtain ⟨point,below,_,retrying⟩ | ⟨_,_,retried⟩ := (lookup_retries run).underway looks under
  · exact retrying.retried.persists
  · exact retried.persists

theorem Answered.persists (run : Interleaving (idle sharding names threads) past s)
    (looks : call = .get m w ∨ call = .process m w) (answered : Answered s t call span reply last) :
    Persists s last t m w span := by
  obtain ⟨_,retried,_⟩ := (lookup_retries run).answered looks answered
  exact retried.persists

theorem retires_of_new (moved : s.step t a = some (next,events))
    (retired : next.state? i = some .retired) : s.state? i = some .retired ∨
      (Moment.record ⟨s,⟨t,a,events⟩⟩).stores = some (i,.retired) := by
  have recorded := step_recorded moved
  by_cases bound : i < s.slots.size
  · rw [recorded.states i bound,Record.store] at retired
    split at retired
    next j state stores =>
      split at retired
      next same =>
        subst same
        exact Or.inr (by rw [stores,Option.some.inj retired])
      next => exact Or.inl retired
    next => exact Or.inl retired
  · cases recorded.fresh i (Nat.le_of_not_lt bound) .retired retired

theorem step_still (moved : s.step t a = some (next,events)) (idle : a.isOwn = false) :
    next.slot? = s.slot? ∧ next.state? = s.state? := by
  cases step_acts moved with
  | call | assign => exact ⟨rfl,rfl⟩
  | own _ acts =>
    cases acts with
    | goes goes => cases goes.own.symm.trans idle
    | replies advances =>
      rw [advances] at idle
      cases idle

theorem idle_of_empty (moved : s.step t a = some (next,events)) (empty : s.stack t = []) :
    a.isOwn = false := by
  obtain ⟨_,_,reach⟩ := (step_effect moved).stack
  rw [empty] at reach
  generalize next.stack t = frames at reach
  cases reach with
  | call | assign => rfl

theorem direct_aside (direct : point.Direct now m w)
    (stood : Stood t (s.stack t) (.get m w point) below now)
    (alone : u ≠ t → now.stack u = []) (moved : now.step u a = some (next,events))
    (silent : Moment.acting? t (s.stack t).length ⟨now,⟨u,a,events⟩⟩ = none) :
    point.Direct next m w := by
  obtain top | ⟨foreign,_⟩ := stood.stack
  · have idle : a.isOwn = false := by
      by_cases same : u = t
      · subst same
        by_contra own
        rw [Bool.not_eq_false] at own
        have acting := Moment.acting?_top ⟨now,⟨u,a,events⟩⟩ rfl own top stood.waiting
        cases silent.symm.trans acting
      · exact idle_of_empty moved (alone same)
    obtain ⟨maps,states⟩ := step_still moved idle
    unfold GetPoint.Direct at direct ⊢
    rw [maps,states]
    exact direct
  -- While the template or the setup runs it does not matter what its code does.
  · cases point with
    | replicating | settingUp => trivial
    | _ => cases foreign

theorem GetTurn.direct (turn : GetTurn now m w a point point') (direct : point.Direct now m w)
    (top : now.stack t = .get m w point :: below) (moved : now.step t a = some (next,events)) :
    point'.Direct next m w := by
  have usable {i : Nat} (unstored : (point.record now m w).stores = none) (advancing : a = .advance)
      (before : now.state? i ≠ some .retired) : next.state? i ≠ some .retired := by
    subst advancing
    intro retired
    obtain old | stores := retires_of_new moved retired
    · exact before old
    · simp [Moment.record,top,Frame.record,unstored] at stores
  have outside (i : Nat) (new : now.slots.size ≤ i) : now.state? i ≠ some .retired := by
    simp [Enters.outside new]
  cases turn with
  | seen i mapped | beaten i mapped => exact usable rfl rfl (direct i mapped)
  | unseen missing =>
    intro i mapped
    obtain old | new := mapped_back moved mapped
    · cases missing.symm.trans old
    · exact usable rfl rfl (outside i new)
  | register missing => exact usable rfl rfl (outside _ le_rfl)
  | miss i retired => exact absurd retired direct
  | again | restart => exact direct.elim
  | _ => trivial

theorem bearless_of_clears {r : Role} (role : frame.role? = some r) (clears : r.clears? = some i) :
    frame.bears = false := by
  cases frame with
  | get n v point =>
    cases point with
    | leave | prune => rfl
    | _ => cases role <;> cases clears
  | peek n v point | release n v point | processBody n v point =>
    cases point <;> first | rfl | (cases role; cases clears)
  | _ => cases role

theorem Interleaving.usable (run : Interleaving (idle sharding names threads) past s)
    (alone : ∀ u, u ≠ t → s.stack u = []) (floor : Floor (s.stack t))
    (mapped : s.slot? m w = some i) : s.state? i ≠ some .retired := by
  intro retired
  obtain ⟨⟨u,r⟩,member,clears⟩ := run.attended.retired m w i mapped retired
  obtain ⟨frame,inside,role⟩ := frame_of_role member
  have bearless := bearless_of_clears role clears
  by_cases same : u = t
  · subst same
    cases stack : s.stack u with
    | nil => simp [stack] at inside
    | cons first rest =>
      rw [stack] at inside floor
      obtain rfl | later := List.mem_cons.mp inside
      · simp [Frame.bears,floor frame rfl] at bearless
      · have bears := run.bears u frame (by rw [stack]; exact later)
        cases bearless.symm.trans bears
  · rw [alone u same] at inside
    cases inside

def Lone (t : Nat) (span : List (Moment F V)) : Prop :=
  ∀ moment ∈ span, ∀ u, u ≠ t → moment.state.stack u = []

theorem Lone.concat (lone : Lone t (span ++ [moment])) :
    Lone t span ∧ ∀ u, u ≠ t → moment.state.stack u = [] :=
  ⟨fun other member => lone other (List.mem_append_left _ member),
    lone moment (List.mem_append_right _ List.mem_cons_self)⟩

theorem lookup_direct (run : Interleaving (idle sharding names threads) past s) :
    Lookup s t m w
      (fun span point now => Lone t span →
        point.Direct now m w ∧ rounds t (s.stack t).length span = 1)
      (fun _ span _ => Lone t span → rounds t (s.stack t).length span = 1) where
  made := by
    intro call next moved lone
    have alone := lone _ List.mem_cons_self
    obtain ⟨floor,_,_⟩ := step_call moved
    obtain ⟨maps,states⟩ := step_still moved rfl
    refine ⟨fun i mapped => ?_,by simp [rounds,Moment.acting?,Action.isOwn]⟩
    rw [states]
    exact run.usable alone floor (maps ▸ mapped)
  aside := by
    intro call span now point below u a next events under held stood moved silent lone
    obtain ⟨earlier,alone⟩ := lone.concat
    obtain ⟨direct,first⟩ := held earlier
    obtain ⟨_,count,_⟩ := retrying_append span silent
    exact ⟨direct_aside direct stood (alone u) moved silent,count.trans first⟩
  turn := by
    intro call span now point below a next events point' under held top moved acting turn lone
    obtain ⟨direct,first⟩ := held lone.concat.1
    obtain ⟨_,count,_⟩ := retrying_append span acting
    have going : (Frame.get m w point : Frame F V).restarts = false := by
      cases turn with
      | restart => exact direct.elim
      | _ => rfl
    refine ⟨turn.direct direct top moved,?_⟩
    rw [count,Option.any_some,going]
    exact first
  ends := by
    intro call span now point a next events reply under held moved acting ends lone
    obtain ⟨_,first⟩ := held lone.concat.1
    obtain ⟨_,count,_⟩ := retrying_append span acting
    rw [count,Option.any_some,(ends.plain (s := now)).2]
    exact first
  after := by
    intro call span now u a next events reply under held moved apart lone
    exact (retrying_same span apart).2.trans (held lone.concat.1)

end System
end PerWorker
