import PerWorker.Proofs.Lifecycle.Conservation
import PerWorker.Proofs.Lifecycle.Points

/-!
Generations of slots. A slot gets a copy at most once, a worker is mapped to one slot at a time, and
a slot that got its copy leaves the map with a release and in no other way. Main statement: setups
of a worker's copies that succeed outnumber the removals of its entry by at most one.
-/
namespace PerWorker

namespace Moment

variable {F V : Type}

def setUp? (m : Nat) (w : WorkerId) (moment : Moment F V) : Option Nat :=
  match (moment.state.stack moment.entry.thread).head?, moment.entry.action with
  | some (.get n v (.settingUp i _)), .finish (.ok _) => if n = m ∧ v = w then some i else none
  | _, _ => none

def removed? (m : Nat) (w : WorkerId) (moment : Moment F V) : Option Nat :=
  match (moment.state.stack moment.entry.thread).head?, moment.entry.action with
  | some (.release n v .unregister), .advance =>
    if n = m ∧ v = w then moment.state.slot? m w else none
  | _, _ => none

end Moment

def Role.readies? : Role → Option Nat
  | .ready _ _ i _ => some i
  | _ => none

namespace Ledger

variable {l next : Ledger} {t m i : Nat} {w : WorkerId} {before after : Option Role}
  {notes : List Note} {made gone : List Nat}

def Spent (l : Ledger) (i : Nat) : Prop :=
  (∃ state, l.state? i = some state ∧ state ≠ .vacant) ∨ ∃ x ∈ l.roles, x.2.readies? = some i

theorem fills_of_readies {r : Role} (readies : r.readies? = some i) : r.fills? = some i := by
  cases r <;> cases readies
  rfl

/-- A copy that has been set up stays with the call that made it until it is in its slot. -/
theorem ready_on {c : Nat} (sound : Sound l) (member : (t,Role.ready m w i c) ∈ l.roles)
    (move : Move l notes next) :
    next.state? i = some (.live c) ∨ (t,Role.ready m w i c) ∈ next.roles := by
  obtain ⟨u,before,after,notes,shared,rest,split,shift⟩ := move
  have vacant := sound.guarded.fills _ member i rfl
  obtain own | other := Multiset.mem_add.mp (split ▸ member)
  · obtain ⟨r,played,same⟩ := mem_tagged.mp own
    cases same
    cases played
    cases shift with
    | stay => exact Or.inr (Multiset.mem_add.mpr (Or.inl own))
    | publish => exact Or.inl ((state_set ..).trans (by simp [vacant]))
  · exact Or.inr (Multiset.mem_add.mpr (Or.inr other))

/-- A slot that cannot get another copy stays like that. -/
theorem Spent.move (spent : l.Spent i) (sound : Sound l) (move : Move l notes next) :
    next.Spent i := by
  obtain ⟨state,found,full⟩ | ⟨⟨u,r⟩,member,readies⟩ := spent
  · obtain ⟨t,before,after,notes,shared,rest,split,shift⟩ := move
    obtain same | fills | ⟨_,retired⟩ := shift.state found
    · exact Or.inl ⟨state,same.trans found,full⟩
    · obtain ⟨q,played,fills⟩ := Option.bind_eq_some_iff.mp fills
      have vacant := sound.guarded.fills _ (mem_of_split split played) i fills
      exact absurd (Option.some.inj (found.symm.trans vacant)) full
    · exact Or.inl ⟨.retired,retired,by simp⟩
  · cases r with
    | ready m w j c =>
      cases readies
      obtain live | still := ready_on sound member move
      · exact Or.inl ⟨.live c,live,by simp⟩
      · exact Or.inr ⟨_,still,rfl⟩
    | _ => cases readies

theorem Spent.unfilled (spent : l.Spent i) (sound : Sound l) {r : Role} (member : (t,r) ∈ l.roles)
    (fills : r.fills? = some i) : r.readies? = some i := by
  have vacant := sound.guarded.fills _ member i fills
  obtain ⟨state,found,full⟩ | ⟨x,other,readies⟩ := spent
  · exact absurd (Option.some.inj (found.symm.trans vacant)) full
  · obtain ⟨rest,split⟩ := Multiset.exists_cons_of_mem member
    have parts : l.roles = tagged t (some r) + rest := by simp [split]
    obtain rfl | elsewhere := Multiset.mem_cons.mp (split ▸ other)
    · exact readies
    · exact absurd (Role.locks_of_fills (fills_of_readies readies))
        (sound.locked.alone parts (Role.locks_of_fills fills) elsewhere)

theorem Shift.unmaps (shift : Shift l t before after notes next) (mapped : l.mapped m w = some i) :
    next.mapped m w = some i ∨ before = some (.pruning m w i) ∨ after = some (.detached m w i) := by
  have other {n : Nat} {v : WorkerId} {j : Nat} (here : l.mapped n v = some j) :
      (l.remap n v none).mapped m w = some i ∨ n = m ∧ v = w ∧ j = i := by
    by_cases same : m = n ∧ w = v
    · obtain ⟨rfl,rfl⟩ := same
      exact Or.inr ⟨rfl,rfl,Option.some.inj (here.symm.trans mapped)⟩
    · exact Or.inl (by simp [remap,same,mapped])
  cases shift with
  | @register n v missing =>
    refine Or.inl ?_
    split
    next =>
      have apart : ¬(m = n ∧ w = v) := by
        rintro ⟨rfl,rfl⟩
        simp [missing] at mapped
      simp [remap,apart,mapped]
    next => exact mapped
  | prune =>
    split
    next here =>
      obtain kept | ⟨rfl,rfl,rfl⟩ := other here
      · exact Or.inl kept
      · exact Or.inr (Or.inl rfl)
    next => exact Or.inl mapped
  | detach here =>
    obtain kept | ⟨rfl,rfl,rfl⟩ := other here
    · exact Or.inl kept
    · exact Or.inr (Or.inr rfl)
  | _ => exact Or.inl mapped

theorem Move.unmaps (move : Move l notes next) (sound : Sound l) (mapped : l.mapped m w = some i) :
    next.mapped m w = some i ∨ l.state? i = some .retired ∨
      ∃ t, (t,Role.detached m w i) ∈ next.roles := by
  obtain ⟨t,before,after,notes,shared,rest,split,shift⟩ := move
  obtain kept | pruning | detached := shift.unmaps mapped
  · exact Or.inl kept
  · exact Or.inr (Or.inl (sound.guarded.empties _ (mem_of_split split pruning) i rfl))
  · exact Or.inr (Or.inr ⟨t,Multiset.mem_add.mpr (Or.inl (mem_tagged.mpr ⟨_,detached,rfl⟩))⟩)

/-- A slot that a worker is mapped to after a move and that is not retired was there before, or the
move has made it and mapped the worker to it. -/
theorem Move.registered (move : Move l notes next) (sound : Sound l) (present : m < l.managers)
    (homed : next.Homed m w i) (usable : next.state? i ≠ some .retired) :
    l.Homed m w i ∧ l.state? i ≠ some .retired ∨ next.mapped m w = some i := by
  obtain ⟨t,before,after,notes,shared,rest,split,shift⟩ := move
  change shared.Homed m w i at homed
  change shared.state? i ≠ _ at usable
  have old (size : shared.slots.size = l.slots.size) :
      l.Homed m w i ∧ l.state? i ≠ some .retired :=
    ⟨homed.back shift (size ▸ homed.lt),
      fun retired => usable (sound.guarded.retired split shift retired)⟩
  cases shift.turn with
  | still same maps size => exact Or.inl (old size)
  | retired n v j was now maps size => exact Or.inl (old size)
  | pruned n v j was now mapped shared | detached n v j was now mapped shared =>
    exact Or.inl (old (congrArg (·.slots.size) shared))
  | added n v was now missing size made maps =>
    by_cases new : i = l.slots.size
    · subst new
      obtain ⟨rfl,rfl⟩ := homed.unique made
      exact Or.inr ((maps m w).trans (by simp [present]))
    · have less : i < l.slots.size := by
        have bound := homed.lt
        omega
      exact Or.inl ⟨homed.back shift less,
        fun retired => usable (sound.guarded.retired split shift retired)⟩

/-- A slot that is still mapped is retired only by the call that failed to populate it. -/
theorem Move.retires (move : Move l notes next) (sound : Sound l) (mapped : l.mapped m w = some i)
    (usable : l.state? i ≠ some .retired) (retired : next.state? i = some .retired) :
    ∃ t n v, (t,Role.populating n v i) ∈ l.roles ∧ (t,Role.departing n v i) ∈ next.roles := by
  obtain ⟨t,before,after,notes,shared,rest,split,shift⟩ := move
  change shared.state? i = _ at retired
  have store := shift.store i
  generalize told : shared.state? i = now at store
  cases store with
  | kept => exact absurd (told.symm.trans retired) usable
  | abandoned n v was new =>
    exact ⟨t,n,v,mem_of_split split was,
      Multiset.mem_add.mpr (Or.inl (mem_tagged.mpr ⟨_,new,rfl⟩))⟩
  | withdrawn n v was =>
    have none := sound.removal.apart m w i mapped
    rw [removers_eq split,was] at none
    simp [Role.detaches?] at none
  | made | published => cases told.symm.trans retired

theorem Move.usable (move : Move l notes next) (sound : Sound l) (mapped : l.mapped m w = some i)
    (spent : l.Spent i) (usable : l.state? i ≠ some .retired) : next.state? i ≠ some .retired := by
  intro retired
  obtain ⟨t,n,v,populating,_⟩ := move.retires sound mapped usable retired
  cases spent.unfilled sound populating rfl

/-- What the setups that succeeded and the removals so far say about the slots of a worker. -/
structure Generations (made gone : List Nat) (l : Ledger) (m : Nat) (w : WorkerId) : Prop where
  registered : ∀ i, l.Homed m w i → l.state? i ≠ some .retired →
    l.mapped m w = some i ∨ i ∈ gone
  once : made.Nodup
  spent : ∀ i ∈ made, l.Spent i
  kept : ∀ i ∈ made, l.mapped m w = some i ∧ l.state? i ≠ some .retired ∨ i ∈ gone

theorem Generations.length_le (generations : Generations made gone l m w) :
    made.length ≤ gone.length + 1 := by
  have covered : made ⊆ gone ++ (l.mapped m w).toList := by
    intro i member
    obtain ⟨mapped,_⟩ | removed := generations.kept i member
    · simp [mapped]
    · exact List.mem_append_left _ removed
  have few : (l.mapped m w).toList.length ≤ 1 := by cases l.mapped m w <;> simp
  calc made.length ≤ (gone ++ (l.mapped m w).toList).length :=
        (generations.once.subperm covered).length_le
    _ ≤ gone.length + 1 := by
        rw [List.length_append]
        exact Nat.add_le_add_left few _

end Ledger

namespace System

open Ledger

variable {F V : Type} {sharding : Sharding} {names : List String} {threads : Nat}
  {past : List (Entry F V)} {initial s next : System F V} {t m i : Nat} {w : WorkerId}
  {a : Action F V} {events : List (Event V)} {made gone : List Nat}

/-- The slots for which copies of a worker were set up. -/
def setUps (initial : System F V) (past : List (Entry F V)) (m : Nat) (w : WorkerId) : List Nat :=
  (initial.moments past).filterMap (·.setUp? m w)

/-- The slots that releases took out of the map for a worker. -/
def removals (initial : System F V) (past : List (Entry F V)) (m : Nat) (w : WorkerId) : List Nat :=
  (initial.moments past).filterMap (·.removed? m w)

theorem Interleaving.setUps_step (run : Interleaving initial past s)
    (moved : s.step t a = some (next,events)) :
    setUps initial (past ++ [⟨t,a,events⟩]) m w = setUps initial past m w ++
      (Moment.setUp? m w ⟨s,⟨t,a,events⟩⟩).toList := by
  cases told : Moment.setUp? m w ⟨s,⟨t,a,events⟩⟩ <;> simp [setUps,run.moments_step moved,told]

theorem Interleaving.removals_step (run : Interleaving initial past s)
    (moved : s.step t a = some (next,events)) :
    removals initial (past ++ [⟨t,a,events⟩]) m w = removals initial past m w ++
      (Moment.removed? m w ⟨s,⟨t,a,events⟩⟩).toList := by
  cases told : Moment.removed? m w ⟨s,⟨t,a,events⟩⟩ <;> simp [removals,run.moments_step moved,told]

private theorem enter_of_detached {frame : Frame F V}
    (role : frame.role? = some (.detached m w i)) : frame = .release m w (.enter i) := by
  cases frame with
  | release n v point =>
    cases point <;> cases role
    rfl
  | get n v point =>
    cases point with
    | leave j departure => cases departure <;> cases role
    | _ => cases role
  | peek n v point => cases point <;> cases role
  | processBody n v point => cases point <;> cases role
  | _ => cases role

theorem step_unmaps (sound : s.ledger.Sound) (moved : s.step t a = some (next,events))
    (mapped : s.slot? m w = some i) :
    next.slot? m w = some i ∨ s.ledger.state? i = some .retired ∨
      Moment.removed? m w ⟨s,⟨t,a,events⟩⟩ = some i := by
  obtain kept | retired | ⟨u,detached⟩ := (step_move moved).unmaps sound mapped
  · exact Or.inl kept
  · exact Or.inr (Or.inl retired)
  obtain ⟨frame,member,role⟩ := frame_of_role detached
  obtain rfl := enter_of_detached role
  obtain old | starts | ⟨rfl,top,below,more,here,onward⟩ := step_frames moved member
  · have remover : u ∈ s.ledger.removers i := mem_threadsOf (mem_roles old role) rfl
    simp [sound.removal.apart m w i mapped] at remover
  · cases starts
  · cases onward with
    | release turn =>
      cases turn with
      | unregister j found => simp [Moment.removed?,here,mapped]

theorem step_setUp (moved : s.step t a = some (next,events))
    (made : Moment.setUp? m w ⟨s,⟨t,a,events⟩⟩ = some i) :
    ∃ c, (t,Role.settingUp m w i c) ∈ s.ledger.roles ∧
      (t,Role.ready m w i c) ∈ next.ledger.roles ∧ next.ledger.slots = s.ledger.slots := by
  unfold Moment.setUp? at made
  split at made
  next n v j c value top action =>
    split at made
    next same =>
      obtain ⟨rfl,rfl⟩ := same
      obtain rfl := Option.some.inj made
      obtain ⟨below,top⟩ := List.head?_eq_some_iff.mp top
      obtain rfl : a = .finish (.ok value) := action
      replace top : s.stack t = _ := top
      have old : .get n v (.settingUp j c) ∈ s.stack t := by simp [top]
      obtain ⟨_,_,_,goes,same,here⟩ | ⟨_,_,_,_,advances,_⟩ := own_step top rfl moved
      · cases goes with
        | get goes =>
          cases goes with
          | setUp =>
            have new : .get n v (.countSetup j c) ∈ next.stack t := by simp [here]
            exact ⟨c,mem_roles old rfl,mem_roles new rfl,by rw [same]; rfl⟩
      · cases advances
    next => contradiction
  next => contradiction

theorem generations_step (generations : Generations made gone s.ledger m w)
    (sound : s.ledger.Sound) (present : m < s.ledger.managers)
    (moved : s.step t a = some (next,events)) :
    Generations (made ++ (Moment.setUp? m w ⟨s,⟨t,a,events⟩⟩).toList)
      (gone ++ (Moment.removed? m w ⟨s,⟨t,a,events⟩⟩).toList) next.ledger m w := by
  have move := step_move moved
  have unmaps {i : Nat} (mapped : s.ledger.mapped m w = some i)
      (usable : s.ledger.state? i ≠ some .retired) : next.ledger.mapped m w = some i ∨
        i ∈ gone ++ (Moment.removed? m w ⟨s,⟨t,a,events⟩⟩).toList := by
    obtain kept | retired | removed := step_unmaps sound moved mapped
    · exact Or.inl kept
    · exact absurd retired usable
    · exact Or.inr (List.mem_append_right _ (by simp [removed]))
  have registered (i : Nat) (homed : next.ledger.Homed m w i)
      (usable : next.ledger.state? i ≠ some .retired) : next.ledger.mapped m w = some i ∨
        i ∈ gone ++ (Moment.removed? m w ⟨s,⟨t,a,events⟩⟩).toList := by
    obtain ⟨old,intact⟩ | new := move.registered sound present homed usable
    · obtain mapped | removed := generations.registered i old intact
      · exact unmaps mapped intact
      · exact Or.inr (List.mem_append_left _ removed)
    · exact Or.inl new
  have spent (i : Nat) (member : i ∈ made) : next.ledger.Spent i :=
    (generations.spent i member).move sound move
  have kept (i : Nat) (member : i ∈ made) :
      next.ledger.mapped m w = some i ∧ next.ledger.state? i ≠ some .retired ∨
        i ∈ gone ++ (Moment.removed? m w ⟨s,⟨t,a,events⟩⟩).toList := by
    obtain ⟨mapped,usable⟩ | removed := generations.kept i member
    · exact (unmaps mapped usable).imp_left
        (⟨·,move.usable sound mapped (generations.spent i member) usable⟩)
    · exact Or.inr (List.mem_append_left _ removed)
  -- A slot that the step sets up has been vacant so far, so it is not among those made before.
  cases making : Moment.setUp? m w ⟨s,⟨t,a,events⟩⟩ with
  | none =>
    rw [Option.toList_none,List.append_nil]
    exact ⟨registered,generations.once,spent,kept⟩
  | some i =>
    obtain ⟨c,setting,ready,slots⟩ := step_setUp moved making
    have vacant : next.ledger.state? i = some .vacant := by
      have same : next.ledger.state? i = s.ledger.state? i := by simp only [Ledger.state?,slots]
      exact same.trans (sound.guarded.fills _ setting i rfl)
    have usable : next.ledger.state? i ≠ some .retired := by simp [vacant]
    have homed : next.ledger.Homed m w i := (sound.move move).homes.roles _ ready m w i rfl
    have new : i ∉ made := by
      intro member
      cases (generations.spent i member).unfilled sound setting rfl
    have about : next.ledger.Spent i := Or.inr ⟨_,ready,rfl⟩
    refine ⟨registered,?_,?_,?_⟩
    · exact generations.once.append (List.nodup_singleton i) (by simpa using new)
    · rw [Option.toList_some,List.forall_mem_append]
      exact ⟨spent,by simpa using about⟩
    · rw [Option.toList_some,List.forall_mem_append]
      exact ⟨kept,by simpa using (registered i homed usable).imp_left (⟨·,usable⟩)⟩

theorem Interleaving.generations (run : Interleaving (idle sharding names threads) past s)
    (present : m < names.length) : Generations (setUps (idle sharding names threads) past m w)
      (removals (idle sharding names threads) past m w) s.ledger m w := by
  induction run with
  | start =>
    rw [ledger_idle]
    exact ⟨by simp [Homed,Ledger.empty],by simp [setUps,moments],by simp [setUps,moments],
      by simp [setUps,moments]⟩
  | step t a events before moved ih =>
    rw [before.setUps_step moved,before.removals_step moved]
    exact generations_step ih before.sound (present.trans_eq before.managers.symm) moved

end System
end PerWorker
