import PerWorker.Proofs.Lifecycle.Moves

/-!
What the slot protocol keeps about slots. A slot belongs to one worker for good; its lock has one
holder; it stays vacant while it is populated and retired once it is retired; and until then it is
either mapped under its worker or in the hands of the one call that unmapped it.
-/
namespace PerWorker

namespace Role

def home? : Role → Option (Nat × WorkerId × Nat)
  | .seeking m w i | .peeking m w i | .populating m w i | .settingUp m w i _ | .ready m w i _
  | .leaving m w i _ | .departing m w i | .pruning m w i | .detached m w i | .retiring m w i
  | .withdrawn m w i _ => some (m,w,i)
  | .taken _ | .tearingDown _ | .serving _ => none

def locks? : Role → Option Nat
  | .populating _ _ i | .settingUp _ _ i _ | .ready _ _ i _ | .leaving _ _ i _ | .departing _ _ i
  | .retiring _ _ i | .withdrawn _ _ i _ => some i
  | _ => none

def fills? : Role → Option Nat
  | .populating _ _ i | .settingUp _ _ i _ | .ready _ _ i _ => some i
  | _ => none

def empties? : Role → Option Nat
  | .departing _ _ i | .pruning _ _ i | .withdrawn _ _ i _ => some i
  | _ => none

def detaches? : Role → Option Nat
  | .detached _ _ i | .retiring _ _ i => some i
  | _ => none

theorem locks_of_fills {r : Role} {i : Nat} (fills : r.fills? = some i) : r.locks? = some i := by
  cases r <;> simp_all [fills?,locks?]

theorem home_of_empties {r : Role} {i : Nat} (empties : r.empties? = some i) :
    ∃ m w, r.home? = some (m,w,i) := by
  cases r <;> simp_all [empties?,home?]

theorem home_of_detaches {r : Role} {i : Nat} (detaches : r.detaches? = some i) :
    ∃ m w, r.home? = some (m,w,i) := by
  cases r <;> simp_all [detaches?,home?]

end Role

def threadsOf {α : Type} [DecidableEq α] (f : Role → Option α) (a : α)
    (roles : Multiset (Nat × Role)) : Multiset Nat :=
  (roles.filter fun x => f x.2 = some a).map Prod.fst

theorem threadsOf_add {α : Type} [DecidableEq α] (f : Role → Option α) (a : α)
    (left right : Multiset (Nat × Role)) :
    threadsOf f a (left + right) = threadsOf f a left + threadsOf f a right := by
  simp [threadsOf]

theorem threadsOf_tagged {α : Type} [DecidableEq α] (f : Role → Option α) (a : α) (t : Nat)
    (role : Option Role) :
    threadsOf f a (tagged t role) = if role.bind f = some a then {t} else 0 := by
  cases role with
  | none => simp [threadsOf]
  | some r => by_cases done : f r = some a <;> simp [threadsOf,Multiset.filter_singleton,done]

theorem mem_threadsOf {α : Type} [DecidableEq α] {f : Role → Option α} {a : α}
    {roles : Multiset (Nat × Role)} {t : Nat} {r : Role} (member : (t,r) ∈ roles)
    (done : f r = some a) : t ∈ threadsOf f a roles :=
  Multiset.mem_map.mpr ⟨(t,r),Multiset.mem_filter.mpr ⟨member,done⟩,rfl⟩

theorem mem_tagged {t : Nat} {role : Option Role} {x : Nat × Role} :
    x ∈ tagged t role ↔ ∃ r ∈ role, (t,r) = x := by
  cases role <;> simp [eq_comm]

theorem mem_of_split {roles rest : Multiset (Nat × Role)} {t : Nat} {role : Option Role} {r : Role}
    (split : roles = tagged t role + rest) (own : r ∈ role) : (t,r) ∈ roles := by
  rw [split]
  exact Multiset.mem_add.mpr (Or.inl (mem_tagged.mpr ⟨r,own,rfl⟩))

namespace Ledger

variable {l next : Ledger} {t m i j : Nat} {w : WorkerId} {before after : Option Role}
  {notes : List Note}

def Homed (l : Ledger) (m : Nat) (w : WorkerId) (i : Nat) : Prop :=
  ∃ slot, l.slots[i]? = some slot ∧ slot.manager = m ∧ slot.worker = w

def state? (l : Ledger) (i : Nat) : Option SlotState := (l.slots[i]?).map (·.state)

def holder? (l : Ledger) (i : Nat) : Option Nat := (l.slots[i]?).bind (·.holder)

theorem slots_mapSlot (l : Ledger) (i j : Nat) (f : Slot → Slot) :
    (l.mapSlot i f).slots[j]? = if i = j then (l.slots[j]?).map f else l.slots[j]? := by
  simp [mapSlot,Array.getElem?_modify]

theorem slots_push (l : Ledger) (slot : Slot) (i : Nat) :
    (l.slots.push slot)[i]? = if i = l.slots.size then some slot else l.slots[i]? := by
  rw [Array.getElem?_push]

theorem Homed.mapSlot {f : Slot → Slot} (homed : l.Homed m w j)
    (kept : ∀ slot, (f slot).manager = slot.manager ∧ (f slot).worker = slot.worker) :
    (l.mapSlot i f).Homed m w j := by
  obtain ⟨slot,cell,rfl,rfl⟩ := homed
  by_cases same : i = j
  · exact ⟨f slot,by simp [slots_mapSlot,same,cell],kept slot⟩
  · exact ⟨slot,by simp [slots_mapSlot,same,cell],rfl,rfl⟩

theorem Homed.lt (homed : l.Homed m w i) : i < l.slots.size := by
  obtain ⟨slot,cell,_⟩ := homed
  exact (Array.getElem?_eq_some_iff.mp cell).1

theorem Homed.shift (homed : l.Homed m w i) (shift : Shift l t before after notes next) :
    next.Homed m w i := by
  cases shift with
  | register missing =>
    obtain ⟨slot,cell,own⟩ := homed
    have old : i ≠ l.slots.size := Nat.ne_of_lt (Homed.lt ⟨slot,cell,own⟩)
    split <;> exact ⟨slot,by simp [slots_push,old,cell],own⟩
  | occupy | meet | miss | inspect | publish | abandon | leave | depart | grasp | withdraw | carry =>
    exact homed.mapSlot fun _ => ⟨rfl,rfl⟩
  | prune => split <;> exact homed
  | stay | look | glance | spoil | number | setUp | discard | unwind | detach | kill | tearDown
  | tornDown | serve => exact homed

/-- A worker is mapped to a slot that it was mapped to before, or to a new one that is its own. -/
theorem Shift.mapped (shift : Shift l t before after notes next)
    (mapped : next.mapped m w = some i) :
    l.mapped m w = some i ∨ i = l.slots.size ∧ next.Homed m w i := by
  cases shift with
  | register missing =>
    split at mapped
    next present =>
      simp only [remap] at mapped
      split at mapped
      next own =>
        obtain ⟨rfl,rfl⟩ := own
        obtain rfl := Option.some.inj mapped
        exact Or.inr ⟨rfl,by simp [Homed,present]⟩
      next => exact Or.inl mapped
    next => exact Or.inl mapped
  | prune =>
    split at mapped
    next => simp_all [remap]
    next => exact Or.inl mapped
  | detach => simp_all [remap]
  | _ => exact Or.inl mapped

theorem Shift.home {r : Role} (shift : Shift l t before after notes next) (member : r ∈ after)
    (home : r.home? = some (m,w,i)) :
    (∃ q ∈ before, q.home? = some (m,w,i)) ∨ l.mapped m w = some i ∨ next.Homed m w i := by
  cases shift with
  | stay => exact Or.inl ⟨r,member,home⟩
  | look found | glance found | detach found =>
    cases member
    cases home
    exact Or.inr (Or.inl found)
  | register missing =>
    cases member
    cases home
    right; right
    split <;> simp [Homed]
  | leave served told =>
    obtain ⟨c,_,rfl⟩ := served r member
    cases home
  | carry =>
    obtain ⟨c,_,rfl⟩ := Option.map_eq_some_iff.mp member
    cases home
  | _ => cases member <;> exact Or.inl ⟨_,rfl,home⟩

structure Homes (l : Ledger) : Prop where
  mapped : ∀ m w i, l.mapped m w = some i → l.Homed m w i
  roles : ∀ x ∈ l.roles, ∀ m w i, x.2.home? = some (m,w,i) → l.Homed m w i

/-- Maps and calls refer to a worker by slots of that worker only, and every move keeps that. -/
theorem Homes.move (homes : Homes l) (move : Move l notes next) : Homes next := by
  obtain ⟨t,before,after,notes,shared,rest,split,shift⟩ := move
  have kept {m w i} (homed : l.Homed m w i) : shared.Homed m w i := homed.shift shift
  refine ⟨?_,?_⟩
  · intro m w i mapped
    obtain old | ⟨_,new⟩ := shift.mapped mapped
    · exact kept (homes.mapped m w i old)
    · exact new
  · intro x member m w i home
    obtain own | other := Multiset.mem_add.mp member
    · obtain ⟨r,chosen,rfl⟩ := mem_tagged.mp own
      obtain ⟨q,played,same⟩ | mapped | new := shift.home chosen home
      · exact kept (homes.roles _ (mem_of_split split played) m w i same)
      · exact kept (homes.mapped m w i mapped)
      · exact new
    · exact kept (homes.roles x (by simp [split,other]) m w i home)

theorem holder_mapSlot (l : Ledger) (i j : Nat) (f : Slot → Slot) :
    (l.mapSlot i f).holder? j =
      if i = j then (l.slots[j]?).bind fun slot => (f slot).holder else l.holder? j := by
  unfold holder?
  rw [slots_mapSlot]
  split <;> cases l.slots[j]? <;> rfl

theorem Shift.locks (shift : Shift l t before after notes next) :
    (after.bind Role.locks? = before.bind Role.locks? ∧ ∀ j, next.holder? j = l.holder? j) ∨
      (∃ i, before.bind Role.locks? = none ∧ after.bind Role.locks? = some i ∧
        l.holder? i = none ∧ ∀ j, next.holder? j = if i = j then some t else l.holder? j) ∨
      ∃ i, before.bind Role.locks? = some i ∧ after.bind Role.locks? = none ∧
        ∀ j, next.holder? j = if i = j then none else l.holder? j := by
  have taken {i slot} (cell : l.slots[i]? = some slot) (j : Nat) :
      (l.mapSlot i ({ · with holder := some t })).holder? j =
        if i = j then some t else l.holder? j := by
    rw [holder_mapSlot]
    split
    next same => subst same; simp [cell]
    next => rfl
  have given (i j : Nat) : (l.mapSlot i ({ · with holder := none })).holder? j =
      if i = j then none else l.holder? j := by
    rw [holder_mapSlot]
    split
    next => cases l.slots[j]? <;> rfl
    next => rfl
  have kept (i j : Nat) (state : SlotState) :
      (l.mapSlot i ({ · with state })).holder? j = l.holder? j := by
    rw [holder_mapSlot]
    split <;> rfl
  cases shift with
  | @register m w missing =>
    have kept (j : Nat) : ((l.slots.push { manager := m, worker := w })[j]?).bind (·.holder) =
        l.holder? j := by
      rw [slots_push,holder?]
      split
      next new => simp [new]
      next => rfl
    exact Or.inl ⟨rfl,fun j => by split <;> exact kept j⟩
  | occupy cell free | meet cell free | miss cell free | inspect cell free | grasp cell free =>
    exact Or.inr (Or.inl ⟨_,rfl,rfl,by simp [holder?,cell,free],taken cell⟩)
  | publish | abandon | withdraw => exact Or.inl ⟨rfl,fun j => kept _ j _⟩
  | leave served told =>
    refine Or.inr (Or.inr ⟨_,rfl,?_,given _⟩)
    cases after with
    | none => rfl
    | some r => obtain ⟨c,_,rfl⟩ := served r rfl; rfl
  | depart => exact Or.inr (Or.inr ⟨_,rfl,rfl,given _⟩)
  | @carry m w i found => exact Or.inr (Or.inr ⟨i,rfl,by cases found <;> rfl,given i⟩)
  | prune => exact Or.inl ⟨rfl,fun j => by split <;> rfl⟩
  | stay | look | glance | spoil | number | setUp | discard | unwind | detach | kill | tearDown
  | tornDown | serve => exact Or.inl ⟨rfl,fun _ => rfl⟩

def Locked (l : Ledger) : Prop :=
  ∀ i, threadsOf Role.locks? i l.roles = (l.holder? i).elim 0 ({·})

/-- The lock of a slot is held by the one thread whose call says so, and every move keeps that. -/
theorem Locked.move (locked : Locked l) (move : Move l notes next) : Locked next := by
  obtain ⟨t,before,after,notes,shared,rest,split,shift⟩ := move
  intro j
  have old := locked j
  rw [split,threadsOf_add,threadsOf_tagged] at old
  change threadsOf _ j (tagged t after + rest) = (shared.holder? j).elim 0 _
  rw [threadsOf_add,threadsOf_tagged]
  obtain ⟨same,holder⟩ | ⟨i,out,inside,free,holder⟩ | ⟨i,inside,out,holder⟩ := shift.locks
  · rw [same,holder]
    exact old
  · rw [inside,holder]
    by_cases here : i = j
    · subst here
      have none_else : threadsOf Role.locks? i rest = 0 := by simpa [out,free] using old
      simp [none_else]
    · simpa [out,here] using old
  · rw [out,holder]
    by_cases here : i = j
    · subst here
      have total := congrArg Multiset.card old
      cases held : l.holder? i with
      | none => simp [inside,held] at total
      | some u => simpa [inside,held] using total
    · simpa [inside,here] using old

theorem Locked.alone {rest : Multiset (Nat × Role)} (locked : Locked l)
    (split : l.roles = tagged t before + rest) (holds : before.bind Role.locks? = some i)
    {x : Nat × Role} (member : x ∈ rest) : x.2.locks? ≠ some i := by
  intro also
  have held := locked i
  rw [split,threadsOf_add,threadsOf_tagged,if_pos holds] at held
  have total := congrArg Multiset.card held
  have other : 0 < (threadsOf Role.locks? i rest).card :=
    Multiset.card_pos_iff_exists_mem.mpr ⟨x.1,mem_threadsOf member also⟩
  have few : ((l.holder? i).elim 0 ({·}) : Multiset Nat).card ≤ 1 := by
    cases l.holder? i <;> simp
  rw [Multiset.card_add,Multiset.card_singleton] at total
  omega

end Ledger
end PerWorker
