import PerWorker.Proofs.Lifecycle.Races
import PerWorker.Proofs.Lifecycle.Records

/-!
What slots hold as time goes by. A slot is populated at most once and retired at most once, and what
it holds belongs to its worker and to no other slot; a copy is claimed for teardown only after it was
taken out of its slot, and its teardown begins only after that. Main statement: all this is so of
every slot in every reachable state, also of one that only calls under way still refer to; none comes
back into the map, and none leaves it before it is retired but by a release.
-/
namespace PerWorker

inductive SlotState.Becomes : SlotState → SlotState → Prop
  | same (state) : Becomes state state
  | populated (copy) : Becomes .vacant (.live copy)
  | retired (state) : Becomes state .retired

/-- Slots only ever go forward, from vacant to live to retired. -/
theorem SlotState.Becomes.trans {x y z : SlotState} (first : x.Becomes y) (second : y.Becomes z) :
    x.Becomes z := by
  cases second with
  | same => exact first
  | populated c =>
    cases first
    exact .populated c
  | retired => exact .retired x

def Frame.claims? {F V : Type} : Frame F V → Option Nat
  | .release _ _ (.claim c) | .release _ _ (.tearingDown c) => some c
  | _ => none

theorem Frame.release_of_claims {F V : Type} {frame : Frame F V} {c : Nat}
    (claims : frame.claims? = some c) : ∃ m w, frame = .release m w (.claim c) ∨
      frame = .release m w (.tearingDown c) := by
  unfold Frame.claims? at claims
  split at claims <;> cases claims
  next m w => exact ⟨m,w,Or.inl rfl⟩
  next m w => exact ⟨m,w,Or.inr rfl⟩

namespace Ledger

variable {l next : Ledger} {t i j c : Nat} {before after : Option Role} {notes : List Note}
  {slot : Slot}

theorem Move.becomes {old : SlotState} (move : Move l notes next) (sound : Sound l)
    (held : l.state? i = some old) : ∃ new, next.state? i = some new ∧ old.Becomes new := by
  obtain ⟨t,before,after,notes,shared,rest,split,shift⟩ := move
  have vacant {r : Role} (played : before = some r) (fills : r.fills? = some i) : old = .vacant :=
    Option.some.inj (held.symm.trans (sound.guarded.fills _ (mem_of_split split played) i fills))
  change ∃ new, shared.state? i = some new ∧ _
  have store := shift.store i
  generalize shared.state? i = now at store ⊢
  cases store with
  | kept => exact ⟨old,held,.same old⟩
  | made fresh => exact absurd (lt_of_state held) fresh.not_lt
  | published m w c played =>
    obtain rfl := vacant played rfl
    exact ⟨_,rfl,.populated c⟩
  | abandoned | withdrawn => exact ⟨_,rfl,.retired old⟩

theorem Move.slot_on (move : Move l notes next) (sound : Sound l) (cell : l.slots[i]? = some slot) :
    ∃ later, next.slots[i]? = some later ∧ later.manager = slot.manager ∧
      later.worker = slot.worker ∧ slot.state.Becomes later.state := by
  obtain ⟨later,there,manager,worker⟩ := Homed.move ⟨slot,cell,rfl,rfl⟩ move
  have held : l.state? i = some slot.state := by simp [state?,cell]
  obtain ⟨new,found,becomes⟩ := move.becomes sound held
  obtain rfl : later.state = new := by simpa [state?,there] using found
  exact ⟨later,there,manager,worker,becomes⟩

def Dead (l : Ledger) (c : Nat) : Prop := ∃ bond, l.bonds[c]? = some bond ∧ bond.live = false

theorem Dead.shift (dead : l.Dead c) (shift : Shift l t before after notes next) : next.Dead c := by
  obtain ⟨bond,entry,claimed⟩ := dead
  cases shift with
  | register | prune => split <;> exact ⟨bond,entry,claimed⟩
  | number =>
    have old : c < l.bonds.size := (Array.getElem?_eq_some_iff.mp entry).1
    exact ⟨bond,by simp [Array.getElem?_push,entry,old.ne],claimed⟩
  | @kill d =>
    by_cases here : d = c
    · exact ⟨{ bond with live := false },by simp [Array.getElem?_modify,here,entry],rfl⟩
    · exact ⟨bond,by simp [Array.getElem?_modify,here,entry],claimed⟩
  | _ => exact ⟨bond,entry,claimed⟩

/-- A copy that has been claimed for teardown stays so. -/
theorem Dead.move (dead : l.Dead c) (move : Move l notes next) : next.Dead c := by
  obtain ⟨t,before,after,notes,shared,rest,split,shift⟩ := move
  have still : shared.Dead c := dead.shift shift
  exact still

theorem Shift.dead_back (shift : Shift l t before after notes next) (dead : next.Dead c) :
    l.Dead c ∨ after = some (.taken c) := by
  obtain ⟨bond,entry,claimed⟩ := dead
  cases shift with
  | register | prune => split at entry <;> exact Or.inl ⟨bond,entry,claimed⟩
  | number =>
    by_cases new : c = l.bonds.size
    · subst new
      obtain rfl : _ = bond := by simpa using entry
      cases claimed
    · exact Or.inl ⟨bond,by simpa [Array.getElem?_push,new] using entry,claimed⟩
  | @kill d =>
    by_cases here : d = c
    · exact Or.inr (by rw [here])
    · exact Or.inl ⟨bond,by simpa [Array.getElem?_modify,here] using entry,claimed⟩
  | _ => exact Or.inl ⟨bond,entry,claimed⟩

theorem Shift.taken_on (shift : Shift l t before after notes next) (taken : before = some (.taken c)) :
    after = some (.taken c) ∨ .beat c (.began .teardown) ∈ notes := by
  cases shift with
  | stay => exact Or.inl taken
  | kill => exact Or.inl taken
  | tearDown =>
    cases taken
    exact Or.inr List.mem_cons_self
  | _ => cases taken

/-- A copy that has been claimed is with the call that is going to tear it down, or its teardown has
begun. -/
def Spared (notes : List Note) (l : Ledger) : Prop :=
  ∀ c, l.Dead c → (∃ t, (t,Role.taken c) ∈ l.roles) ∨ .beat c (.began .teardown) ∈ notes

theorem Spared.move {more : List Note} (spared : Spared notes l) (move : Move l more next) :
    Spared (notes ++ more) next := by
  obtain ⟨t,before,after,more,shared,rest,split,shift⟩ := move
  intro c dead
  replace dead : shared.Dead c := dead
  have plays (own : after = some (.taken c)) : (t,Role.taken c) ∈ tagged t after + rest :=
    mem_of_split rfl own
  obtain old | own := shift.dead_back dead
  · obtain ⟨u,member⟩ | begun := spared c old
    · obtain mine | other := Multiset.mem_add.mp (split ▸ member)
      · obtain ⟨r,played,same⟩ := mem_tagged.mp mine
        cases same
        obtain still | begins := shift.taken_on played
        · exact Or.inl ⟨t,plays still⟩
        · exact Or.inr (List.mem_append_right _ begins)
      · exact Or.inl ⟨u,Multiset.mem_add.mpr (Or.inr other)⟩
    · exact Or.inr (List.mem_append_left _ begun)
  · exact Or.inl ⟨t,plays own⟩

theorem Spared.empty (managers : Nat) : Spared [] (.empty managers) := by
  rintro c ⟨bond,entry,_⟩
  simp [Ledger.empty] at entry

theorem Move.tears (move : Move l notes next) (begun : .beat c (.began .teardown) ∈ notes) :
    ∃ t, (t,Role.tearingDown c) ∈ next.roles := by
  obtain ⟨t,before,after,notes,shared,rest,split,shift⟩ := move
  cases shift with
  | tearDown =>
    obtain rfl : c = _ := by simpa using begun
    exact ⟨t,Multiset.mem_add.mpr (Or.inl (mem_tagged.mpr ⟨_,rfl,rfl⟩))⟩
  | leave served told =>
    obtain ⟨d,_,same⟩ := told _ begun
    cases same
  | _ => simp at begun

theorem Custody.live_unique (custody : Custody notes l) (live : l.state? i = some (.live c))
    (other : l.state? j = some (.live c)) : j = i := by
  have same := (custody.resting other).symm.trans (custody.resting live)
  cases Multiset.singleton_inj.mp same
  rfl

theorem Custody.not_live (custody : Custody notes l) (begun : .beat c (.began .teardown) ∈ notes) :
    l.state? i ≠ some (.live c) := by
  intro live
  have history := (custody.lines c).of_held (held_of_live live)
  have beat : Beat.began .teardown ∈ beats c notes := beats_of_mem begun
  simp [history] at beat

theorem Custody.not_dead (custody : Custody notes l) (spared : Spared notes l)
    (live : l.state? i = some (.live c)) : ¬l.Dead c := by
  intro dead
  obtain ⟨t,taken⟩ | begun := spared c dead
  · have there : .taken t ∈ l.places c := taken_of_role taken
    rw [custody.resting live] at there
    cases Multiset.mem_singleton.mp there
  · exact custody.not_live begun live

end Ledger

namespace System

open Ledger

variable {F V : Type} {sharding : Sharding} {names : List String} {threads : Nat}
  {past more : List (Entry F V)} {s next last : System F V} {t m i c : Nat} {w : WorkerId}
  {a : Action F V} {events : List (Event V)} {below : List (Frame F V)} {slot : Slot}

theorem dead_iff :
    s.ledger.Dead c ↔ ∃ copy, s.copies[c]? = some copy ∧ copy.live = false := by
  simp [Dead,ledger,Copy.bond]

theorem Interleaving.spared (run : Interleaving (idle sharding names threads) past s) :
    s.ledger.Spared (notes past) := by
  refine run.induct_sound (fun notes l => l.Spared notes) (.empty names.length) ?_
  intro before l more next _ spared move
  exact spared.move move

theorem dead_of_kill (custody : s.ledger.Custody (notes past))
    (top : s.stack t = .release m w (.kill c) :: below)
    (moved : s.step t .advance = some (next,events)) : next.ledger.Dead c := by
  have taken : (t,Role.taken c) ∈ s.ledger.roles := mem_roles (top ▸ List.mem_cons_self) rfl
  have bound : c < s.copies.size := by simpa [ledger] using custody.born (held_of_taken taken)
  obtain ⟨copy,entry⟩ : ∃ copy, s.copies[c]? = some copy := ⟨_,Array.getElem?_eq_getElem bound⟩
  simp only [step,advance,top,advanceRelease] at moved
  cases moved
  refine dead_iff.mpr ⟨{ copy with live := false },?_,rfl⟩
  simp [mapCopy,setStack,Array.getElem?_modify,entry]

structure Claimed (past : List (Entry F V)) (s : System F V) : Prop where
  claiming : ∀ t, ∀ frame ∈ s.stack t, ∀ c, frame.claims? = some c → s.ledger.Dead c
  begun : ∀ c, .beat c (.began .teardown) ∈ notes past → s.ledger.Dead c

/-- Any copy that is being torn down, or has been, was claimed before. -/
theorem Interleaving.claimed (run : Interleaving (idle sharding names threads) past s) :
    Claimed past s := by
  induction run with
  | start => exact ⟨by simp [stack_idle],by simp [notes]⟩
  | @step past s next t a events before moved ih =>
    have move := step_move moved
    have claiming : ∀ u, ∀ frame ∈ next.stack u, ∀ c, frame.claims? = some c →
        next.ledger.Dead c := by
      intro u frame member c claims
      obtain old | starts | ⟨rfl,top,below,more,here,onward⟩ := step_frames moved member
      · exact (ih.claiming u frame old c claims).move move
      · obtain ⟨m,w,rfl | rfl⟩ := Frame.release_of_claims claims <;> cases starts
      · obtain ⟨m,w,rfl | rfl⟩ := Frame.release_of_claims claims
        · cases onward with
          | release turn =>
            cases turn with
            | kill => exact dead_of_kill before.custody here moved
        · cases onward with
          | release turn =>
            cases turn with
            | claim => exact (ih.claiming u _ (here ▸ List.mem_cons_self) c rfl).move move
    refine ⟨claiming,?_⟩
    intro c begun
    obtain old | now := List.mem_append.mp (notes_concat past ⟨t,a,events⟩ ▸ begun)
    · exact (ih.begun c old).move move
    · obtain ⟨u,tearing⟩ := move.tears now
      obtain ⟨frame,member,role⟩ := frame_of_role tearing
      obtain ⟨m,w,rfl⟩ := release_of_tearing role
      exact claiming u _ member c rfl

theorem Interleaving.slot_on (run : Interleaving (idle sharding names threads) past s)
    (onward : Interleaving s more last) (cell : s.slots[i]? = some slot) :
    ∃ later, last.slots[i]? = some later ∧ later.manager = slot.manager ∧
      later.worker = slot.worker ∧ slot.state.Becomes later.state := by
  induction onward with
  | start => exact ⟨slot,cell,rfl,rfl,.same _⟩
  | step t a events before moved ih =>
    obtain ⟨now,there,manager,worker,becomes⟩ := ih
    obtain ⟨later,found,manager',worker',becomes'⟩ :=
      (step_move moved).slot_on (run.trans before).sound there
    exact ⟨later,found,manager'.trans manager,worker'.trans worker,becomes.trans becomes'⟩

theorem Interleaving.unmapped_on (onward : Interleaving s more last) (bound : i < s.slots.size)
    (unmapped : ∀ m w, s.slot? m w ≠ some i) :
    i < last.slots.size ∧ ∀ m w, last.slot? m w ≠ some i := by
  induction onward with
  | start => exact ⟨bound,unmapped⟩
  | step t a events before moved ih =>
    obtain ⟨bound,unmapped⟩ := ih
    refine ⟨bound.trans_le (step_grows moved).1,fun m w mapped => ?_⟩
    obtain old | ⟨new,_⟩ := (step_move moved).mapped_anew mapped
    · exact unmapped m w old
    · exact absurd bound (Nat.not_lt.mpr new)

theorem unmaps_retired (sound : s.ledger.Sound) (moved : s.step t a = some (next,events))
    (mapped : s.slot? m w = some i) (gone : next.slot? m w ≠ some i) :
    s.state? i = some .retired ∨
      a = .advance ∧ ∃ below, s.stack t = .release m w .unregister :: below := by
  obtain kept | retired | removed := step_unmaps sound moved mapped
  · exact absurd kept gone
  · exact Or.inl retired
  · refine Or.inr ?_
    unfold Moment.removed? at removed
    split at removed
    next n v top action =>
      split at removed
      next same =>
        obtain ⟨rfl,rfl⟩ := same
        obtain ⟨below,top⟩ := List.head?_eq_some_iff.mp top
        exact ⟨action,below,top⟩
      next => contradiction
    next => contradiction

/-- Slots stay coherent. Whatever calls threads make in whatever interleaving, however templates,
hooks and bodies end: a slot that holds a copy, mapped or not, was made for the copy's worker, the
copy is not claimed for teardown, and no other slot holds it. A copy whose teardown has begun is
claimed, and no slot holds it. A new slot is vacant; from then on it stays with its worker, can be
populated once and can be retired once. A slot that is out of the map never comes back, and only a
release takes one out that is not retired; so a `get` never does. -/
theorem Interleaving.slots_coherent (run : Interleaving (idle sharding names threads) past s) :
    (∀ m w i, s.slot? m w = some i →
      ∃ slot, s.slots[i]? = some slot ∧ slot.manager = m ∧ slot.worker = w) ∧
    (∀ i slot c, s.slots[i]? = some slot → slot.state = .live c →
      (∃ copy, s.copies[c]? = some copy ∧ copy.manager = slot.manager ∧
        copy.worker = slot.worker ∧ copy.live = true) ∧
      ∀ j, s.state? j = some (.live c) → j = i) ∧
    (∀ c, .hookStarted .teardown c ∈ observed past →
      (∃ copy, s.copies[c]? = some copy ∧ copy.live = false) ∧
      ∀ i, s.state? i ≠ some (.live c)) ∧
    (∀ t a next events, s.step t a = some (next,events) →
      (∀ i, s.slots.size ≤ i → ∀ state ∈ next.state? i, state = .vacant) ∧
      ∀ m w i, s.slot? m w = some i → next.slot? m w ≠ some i → s.state? i = some .retired ∨
        a = .advance ∧ ∃ below, s.stack t = .release m w .unregister :: below) ∧
    ∀ more last, Interleaving s more last → ∀ i slot, s.slots[i]? = some slot →
      (∃ later, last.slots[i]? = some later ∧ later.manager = slot.manager ∧
        later.worker = slot.worker ∧ slot.state.Becomes later.state) ∧
      ((∀ m w, s.slot? m w ≠ some i) → ∀ m w, last.slot? m w ≠ some i) := by
  have custody := run.custody
  refine ⟨run.sound.homes.mapped,?_,?_,?_,?_⟩
  · intro i slot c cell state
    have live : s.ledger.state? i = some (.live c) := by simp [Ledger.state?,ledger,cell,state]
    obtain ⟨m,w,⟨bond,bound,rfl,rfl⟩,homed⟩ := run.bonded.live i c live
    obtain ⟨manager,worker⟩ := homed.unique ⟨slot,cell,rfl,rfl⟩
    obtain ⟨copy,entry,rfl⟩ : ∃ copy, s.copies[c]? = some copy ∧ copy.bond = bond := by
      simpa [ledger] using bound
    -- A copy whose teardown has been claimed is dead, and no dead copy is in a slot.
    have flagged : copy.live ≠ false := fun claimed =>
      custody.not_dead run.spared live (dead_iff.mpr ⟨copy,entry,claimed⟩)
    exact ⟨⟨copy,entry,manager,worker,Bool.eq_true_of_not_eq_false flagged⟩,
      fun j other => custody.live_unique live other⟩
  · intro c started
    obtain ⟨left,right,told⟩ := List.append_of_mem started
    obtain ⟨earlier,later,all,_⟩ := notes_of_observed told (n := .beat c (.began .teardown)) rfl
    have begun : .beat c (.began .teardown) ∈ notes past := by simp [all]
    exact ⟨dead_iff.mp (run.claimed.begun c begun),fun i => custody.not_live begun⟩
  · intro t a next events moved
    exact ⟨(step_recorded moved).fresh,fun m w i => unmaps_retired run.sound moved⟩
  · intro more last onward i slot cell
    have bound : i < s.slots.size := (Array.getElem?_eq_some_iff.mp cell).1
    exact ⟨run.slot_on onward cell,fun unmapped => (onward.unmapped_on bound unmapped).2⟩

/-- A copy is made and torn down. While the next one is set up a release takes the worker out of the
map and waits, so that another copy is made; in the end both are in slots, one of which is unmapped. -/
def superseding : List (Nat × Action Nat Nat) :=
  roundTrip ++ overtaking ++
    [(0,.finish (.ok 0)),(0,.advance),(0,.advance),(0,.advance),(2,.finish (.ok 0)),(2,.advance),
      (2,.advance),(2,.advance)]

set_option maxRecDepth 2000 in
theorem slots_coherent_of_superseding :
    ∃ (past : List (Entry Nat Nat)) (s : System Nat Nat),
      Interleaving (idle .single ["pool"] 3) past s ∧
      s.slots.toList.map (·.state) = [.retired,.live 1,.live 2] ∧
      s.slot? 0 (.named "a") = some 2 ∧ .hookStarted .teardown 0 ∈ observed past ∧
      (∃ copy, s.copies[0]? = some copy ∧ copy.live = false) ∧
      (∃ copy, s.copies[1]? = some copy ∧ copy.worker = .named "a" ∧ copy.live = true) ∧
      ∀ more last, Interleaving s more last → ∀ m w, last.slot? m w ≠ some 1 := by
  obtain ⟨⟨s,past⟩,followed⟩ :
      ∃ reached, (idle .single ["pool"] 3).follow superseding = some reached := ⟨_,rfl⟩
  have run := Interleaving.start.follow followed
  obtain ⟨slots,mapped,torn⟩ : s.slots = #[⟨0,.named "a",.retired,none⟩,
      ⟨0,.named "a",.live 1,some 0⟩,⟨0,.named "a",.live 2,some 2⟩] ∧
      s.slot? 0 (.named "a") = some 2 ∧ .hookStarted .teardown 0 ∈ observed past := by
    cases followed
    exact ⟨rfl,rfl,by decide⟩
  obtain ⟨homes,live,dead,_,onward⟩ := run.slots_coherent
  obtain ⟨⟨copy,entry,_,worker,flag⟩,_⟩ := live 1 ⟨0,.named "a",.live 1,some 0⟩ 1 (by simp [slots]) rfl
  refine ⟨past,s,run,by simp [slots],mapped,torn,(dead 0 torn).1,⟨copy,entry,worker,flag⟩,?_⟩
  intro more last later
  refine (onward more last later 1 ⟨0,.named "a",.live 1,some 0⟩ (by simp [slots])).2
    fun m w here => ?_
  -- It was made for the worker that is mapped to the newer slot.
  obtain ⟨slot,cell,rfl,rfl⟩ := homes m w 1 here
  obtain rfl : _ = slot := by simpa [slots] using cell
  cases mapped.symm.trans here

end System
end PerWorker
