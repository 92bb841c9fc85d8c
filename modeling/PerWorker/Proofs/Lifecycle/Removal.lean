import PerWorker.Proofs.Lifecycle.Slots

/-!
Who answers for a slot. It stays vacant while it is populated and retired once it is retired, and
until then it is mapped under its worker or in the hands of the one call that unmapped it. With the
homes and the locks of slots this is what the protocol keeps about them in every reachable state.
-/
namespace PerWorker
namespace Ledger

variable {l next : Ledger} {t m i : Nat} {w : WorkerId} {before after : Option Role}
  {notes : List Note}

theorem state_mapSlot (l : Ledger) (i j : Nat) (f : Slot → Slot) :
    (l.mapSlot i f).state? j =
      if i = j then (l.slots[j]?).map fun slot => (f slot).state else l.state? j := by
  unfold state?
  rw [slots_mapSlot]
  split <;> cases l.slots[j]? <;> rfl

@[simp] theorem state_lock (l : Ledger) (i j : Nat) (holder : Option Nat) :
    (l.mapSlot i ({ · with holder })).state? j = l.state? j := by
  rw [state_mapSlot]
  split <;> rfl

theorem state_set (l : Ledger) (i j : Nat) (state : SlotState) :
    (l.mapSlot i ({ · with state })).state? j =
      if i = j then (l.state? j).map fun _ => state else l.state? j := by
  rw [state_mapSlot]
  unfold state?
  cases l.slots[j]? <;> rfl

theorem Homed.state (homed : l.Homed m w i) : ∃ state, l.state? i = some state := by
  obtain ⟨slot,cell,_⟩ := homed
  exact ⟨slot.state,by simp [state?,cell]⟩

theorem lt_of_state {state : SlotState} (found : l.state? i = some state) :
    i < l.slots.size := by
  obtain ⟨slot,cell,_⟩ := Option.map_eq_some_iff.mp found
  exact (Array.getElem?_eq_some_iff.mp cell).1

/-- What a slot holds after a shift: what it held, or what was stored by one who holds its lock. -/
inductive Store (l : Ledger) (before after : Option Role) (i : Nat) : Option SlotState → Prop
  | kept : Store l before after i (l.state? i)
  | made (fresh : i = l.slots.size) : Store l before after i (some .vacant)
  | published (m : Nat) (w : WorkerId) (c : Nat) (old : before = some (.ready m w i c)) :
      Store l before after i (some (.live c))
  | abandoned (m : Nat) (w : WorkerId) (old : before = some (.populating m w i))
      (new : after = some (.departing m w i)) : Store l before after i (some .retired)
  | withdrawn (m : Nat) (w : WorkerId) (old : before = some (.retiring m w i)) :
      Store l before after i (some .retired)

theorem Store.set {state : SlotState} {j : Nat} (stored : Store l before after i (some state)) :
    Store l before after j ((l.mapSlot i ({ · with state })).state? j) := by
  rw [state_set]
  split
  next here =>
    subst here
    obtain none | ⟨old,held⟩ := Option.eq_none_or_eq_some (l.state? i)
    · rw [none,Option.map_none,← none]
      exact .kept
    · rw [held,Option.map_some]
      exact stored
  next => exact .kept

/-- A slot changes its state only where one who holds its lock stores something in it. -/
theorem Shift.store (shift : Shift l t before after notes next) (i : Nat) :
    Store l before after i (next.state? i) := by
  cases shift with
  | @register m w missing =>
    have pushed : Store l none (some (.seeking m w l.slots.size)) i
        (((l.slots.push { manager := m, worker := w })[i]?).map (·.state)) := by
      rw [slots_push]
      split
      next fresh => exact .made fresh
      next => exact .kept
    split <;> exact pushed
  | occupy | meet | miss | inspect | grasp | leave | depart | carry =>
    rw [state_lock]
    exact .kept
  | publish => exact .set (.published _ _ _ rfl)
  | abandon => exact .set (.abandoned _ _ rfl rfl)
  | withdraw => exact .set (.withdrawn _ _ rfl)
  | prune => split <;> exact .kept
  | stay | look | glance | spoil | number | setUp | discard | unwind | detach | kill | tearDown
  | tornDown | serve => exact .kept

theorem Shift.state (shift : Shift l t before after notes next) {state : SlotState}
    (found : l.state? i = some state) :
    next.state? i = l.state? i ∨ before.bind Role.fills? = some i ∨
      before.bind Role.locks? = some i ∧ next.state? i = some .retired := by
  have store := shift.store i
  generalize next.state? i = now at store ⊢
  cases store with
  | kept => exact Or.inl rfl
  | made fresh => exact absurd (lt_of_state found) fresh.not_lt
  | published m w c old => exact Or.inr (Or.inl (by rw [old]; rfl))
  | abandoned m w old new => exact Or.inr (Or.inl (by rw [old]; rfl))
  | withdrawn m w old => exact Or.inr (Or.inr ⟨by rw [old]; rfl,rfl⟩)

theorem Shift.fills {r : Role} (shift : Shift l t before after notes next) (member : r ∈ after)
    (fills : r.fills? = some i) :
    next.state? i = some .vacant ∨
      next.state? i = l.state? i ∧ ∃ q ∈ before, q.fills? = some i := by
  cases shift with
  | stay => exact Or.inr ⟨rfl,r,member,fills⟩
  | occupy cell free vacant =>
    cases member
    cases fills
    rw [state_lock,state?,cell]
    exact Or.inl (congrArg some vacant)
  | number | setUp | discard =>
    cases member
    exact Or.inr ⟨rfl,_,rfl,fills⟩
  | leave served told =>
    obtain ⟨c,_,rfl⟩ := served r member
    cases fills
  | carry =>
    obtain ⟨c,_,rfl⟩ := Option.map_eq_some_iff.mp member
    cases fills
  | _ => cases member <;> cases fills

theorem Shift.empties {r : Role} (shift : Shift l t before after notes next) (member : r ∈ after)
    (empties : r.empties? = some i) {state : SlotState} (found : next.state? i = some state) :
    next.state? i = some .retired ∨
      next.state? i = l.state? i ∧ ∃ q ∈ before, q.empties? = some i := by
  cases shift with
  | stay => exact Or.inr ⟨rfl,r,member,empties⟩
  | miss cell free retired =>
    cases member
    cases empties
    rw [state_lock,state?,cell]
    exact Or.inl (congrArg some retired)
  | abandon | withdraw =>
    cases member
    cases empties
    rw [state_set,if_pos rfl] at found ⊢
    cases old : l.state? i <;> simp_all
  | depart =>
    cases member
    exact Or.inr ⟨state_lock ..,_,rfl,empties⟩
  | leave served told =>
    obtain ⟨c,_,rfl⟩ := served r member
    cases empties
  | carry =>
    obtain ⟨c,_,rfl⟩ := Option.map_eq_some_iff.mp member
    cases empties
  | _ => cases member <;> cases empties

structure Guarded (l : Ledger) : Prop where
  fills : ∀ x ∈ l.roles, ∀ i, x.2.fills? = some i → l.state? i = some .vacant
  empties : ∀ x ∈ l.roles, ∀ i, x.2.empties? = some i → l.state? i = some .retired

/-- A slot stays vacant while a call populates it, and retired for a call that leaves it as such. -/
theorem Guarded.move (guarded : Guarded l) (homes : Homes l) (locked : Locked l)
    (move : Move l notes next) : Guarded next := by
  have homes' := homes.move move
  obtain ⟨t,before,after,notes,shared,rest,split,shift⟩ := move
  have held {q} (played : q ∈ before) : (t,q) ∈ l.roles := mem_of_split split played
  have kept {x} (member : x ∈ rest) : x ∈ l.roles := by simp [split,member]
  refine ⟨?_,?_⟩
  · intro x member i fills
    change shared.state? i = _
    obtain own | other := Multiset.mem_add.mp member
    · obtain ⟨r,chosen,rfl⟩ := mem_tagged.mp own
      obtain vacant | ⟨same,q,played,had⟩ := shift.fills chosen fills
      · exact vacant
      · rw [same]
        exact guarded.fills _ (held played) i had
    · have vacant := guarded.fills x (kept other) i fills
      have locks := Role.locks_of_fills fills
      obtain same | taken | ⟨taken,_⟩ := shift.state vacant
      · rw [same,vacant]
      · obtain ⟨q,rfl,fills'⟩ := Option.bind_eq_some_iff.mp taken
        exact absurd locks (locked.alone split (Role.locks_of_fills fills') other)
      · exact absurd locks (locked.alone split taken other)
  · intro x member i empties
    change shared.state? i = _
    obtain own | other := Multiset.mem_add.mp member
    · obtain ⟨r,chosen,rfl⟩ := mem_tagged.mp own
      obtain ⟨m,w,home⟩ := Role.home_of_empties empties
      have homed : shared.Homed m w i := homes'.roles (t,r) member m w i home
      obtain ⟨state,found⟩ := homed.state
      obtain retired | ⟨same,q,played,had⟩ := shift.empties chosen empties found
      · exact retired
      · rw [same]
        exact guarded.empties _ (held played) i had
    · have retired := guarded.empties x (kept other) i empties
      obtain same | taken | ⟨_,done⟩ := shift.state retired
      · rw [same,retired]
      · obtain ⟨q,played,fills⟩ := Option.bind_eq_some_iff.mp taken
        have vacant := guarded.fills (t,q) (held played) i fills
        simp [vacant] at retired
      · exact done

def removers (l : Ledger) (i : Nat) : Multiset Nat := threadsOf Role.detaches? i l.roles

/-- How a shift bears on who answers for a slot: it maps a new one, unmaps a retired one, hands one
from the map to a call, or retires one that a call answered for. -/
inductive Turn (l : Ledger) (before after : Option Role) (next : Ledger) : Prop
  | still (same : after.bind Role.detaches? = before.bind Role.detaches?)
      (maps : next.mapped = l.mapped) (slots : next.slots.size = l.slots.size)
  | added (m : Nat) (w : WorkerId) (old : before = none) (new : after.bind Role.detaches? = none)
      (missing : l.mapped m w = none) (size : next.slots.size = l.slots.size + 1)
      (homed : next.Homed m w l.slots.size)
      (maps : ∀ n v, next.mapped n v =
        if m < l.managers ∧ n = m ∧ v = w then some l.slots.size else l.mapped n v)
  | pruned (m : Nat) (w : WorkerId) (i : Nat) (old : before = some (.pruning m w i))
      (new : after = none) (mapped : l.mapped m w = some i) (shared : next = l.remap m w none)
  | detached (m : Nat) (w : WorkerId) (i : Nat) (old : before = none)
      (new : after = some (.detached m w i)) (mapped : l.mapped m w = some i)
      (shared : next = l.remap m w none)
  | retired (m : Nat) (w : WorkerId) (i : Nat) (old : before = some (.retiring m w i))
      (new : after.bind Role.detaches? = none) (maps : next.mapped = l.mapped)
      (slots : next.slots.size = l.slots.size)
      (state : ∀ state ∈ next.state? i, state = .retired)

/-- Each shift answers for a slot in one of these ways. -/
theorem Shift.turn (shift : Shift l t before after notes next) :
    Turn l before after next := by
  have size (i : Nat) (f : Slot → Slot) : (l.mapSlot i f).slots.size = l.slots.size := by
    simp [mapSlot]
  cases shift with
  | @register m w missing =>
    refine .added m w rfl rfl missing ?_ ?_ ?_
    · split <;> simp
    · split <;> simp [Homed]
    · intro n v
      split
      next bound => simp [remap,bound]
      next bound => simp [bound]
  | @prune m w i =>
    split
    next mapped => exact .pruned m w i rfl rfl mapped rfl
    next => exact .still rfl rfl rfl
  | detach mapped => exact .detached _ _ _ rfl rfl mapped rfl
  | @withdraw m w i found live =>
    refine .retired m w i rfl rfl rfl (size ..) ?_
    intro state told
    rw [state_set,if_pos rfl] at told
    cases old : l.state? i <;> simp_all
  | leave served told =>
    refine .still ?_ rfl (size ..)
    cases after with
    | none => rfl
    | some r => obtain ⟨c,_,rfl⟩ := served r rfl; rfl
  | @carry m w i found => exact .still (by cases found <;> rfl) rfl (size ..)
  | occupy | meet | miss | inspect | publish | abandon | depart | grasp =>
    exact .still rfl rfl (size ..)
  | stay | look | glance | spoil | number | setUp | discard | unwind | kill | tearDown | tornDown
  | serve => exact .still rfl rfl rfl

theorem Shift.managers (shift : Shift l t before after notes next) :
    next.managers = l.managers := by
  cases shift with
  | register | prune => split <;> rfl
  | _ => rfl

theorem Move.managers (move : Move l notes next) : next.managers = l.managers := by
  obtain ⟨t,before,after,notes,shared,rest,split,shift⟩ := move
  exact shift.managers

theorem Homed.unique {n : Nat} {v : WorkerId} (homed : l.Homed m w i) (other : l.Homed n v i) :
    m = n ∧ w = v := by
  obtain ⟨slot,cell,rfl,rfl⟩ := homed
  obtain ⟨slot',cell',rfl,rfl⟩ := other
  obtain rfl := Option.some.inj (cell.symm.trans cell')
  exact ⟨rfl,rfl⟩

/-- A slot of a manager is mapped, or one call has unmapped it and will retire it, or it is
retired. -/
structure Removal (l : Ledger) : Prop where
  bound : ∀ m w i, l.mapped m w = some i → m < l.managers
  alone : ∀ i, (l.removers i).card ≤ 1
  apart : ∀ m w i, l.mapped m w = some i → l.removers i = 0
  reached : ∀ m w i, m < l.managers → l.Homed m w i →
    l.mapped m w = some i ∨ (∃ u, u ∈ l.removers i) ∨ l.state? i = some .retired

theorem Homed.back (homed : next.Homed m w i) (shift : Shift l t before after notes next)
    (old : i < l.slots.size) : l.Homed m w i := by
  have had : l.Homed l.slots[i].manager l.slots[i].worker i :=
    ⟨l.slots[i],Array.getElem?_eq_getElem old,rfl,rfl⟩
  obtain ⟨rfl,rfl⟩ := (had.shift shift).unique homed
  exact had

theorem Guarded.retired {rest : Multiset (Nat × Role)} (guarded : Guarded l)
    (split : l.roles = tagged t before + rest) (shift : Shift l t before after notes next)
    (retired : l.state? i = some .retired) : next.state? i = some .retired := by
  obtain same | taken | ⟨_,done⟩ := shift.state retired
  · rw [same,retired]
  · obtain ⟨q,played,fills⟩ := Option.bind_eq_some_iff.mp taken
    have vacant := guarded.fills _ (mem_of_split split played) i fills
    simp [vacant] at retired
  · exact done

theorem removers_eq {rest : Multiset (Nat × Role)} (split : l.roles = tagged t before + rest) :
    l.removers i = (if before.bind Role.detaches? = some i then {t} else 0) +
      threadsOf Role.detaches? i rest := by
  rw [removers,split,threadsOf_add,threadsOf_tagged]

theorem removers_fresh (homes : Homes l) (fresh : l.slots.size ≤ i) : l.removers i = 0 := by
  by_contra some
  obtain ⟨u,member⟩ := Multiset.exists_mem_of_ne_zero some
  obtain ⟨⟨u,r⟩,found,rfl⟩ := Multiset.mem_map.mp member
  obtain ⟨present,detaches⟩ := Multiset.mem_filter.mp found
  obtain ⟨m,w,home⟩ := Role.home_of_detaches detaches
  exact absurd (homes.roles _ present m w i home).lt (Nat.not_lt.mpr fresh)

theorem mapped_of_unmapped {n : Nat} {v : WorkerId}
    (mapped : (l.remap m w none).mapped n v = some i) :
    l.mapped n v = some i ∧ ¬(n = m ∧ v = w) := by
  by_cases own : n = m ∧ v = w
  · simp [remap,own] at mapped
  · exact ⟨by simpa [remap,own] using mapped,own⟩

/-- A move that maps nothing new and gives no call a slot to answer for. -/
theorem Removal.shrinks (removal : Removal l) (managers : next.managers = l.managers)
    (maps : ∀ n v j, next.mapped n v = some j → l.mapped n v = some j)
    (fewer : ∀ j, next.removers j ≤ l.removers j)
    (reached : ∀ n v j, n < l.managers → next.Homed n v j →
      next.mapped n v = some j ∨ (∃ u, u ∈ next.removers j) ∨ next.state? j = some .retired) :
    Removal next := by
  refine ⟨?_,?_,?_,?_⟩
  · intro n v j mapped
    exact managers ▸ removal.bound n v j (maps n v j mapped)
  · intro j
    exact (Multiset.card_le_card (fewer j)).trans (removal.alone j)
  · intro n v j mapped
    exact Multiset.le_zero.mp ((fewer j).trans_eq (removal.apart n v j (maps n v j mapped)))
  · intro n v j bound
    exact reached n v j (managers ▸ bound)

theorem Removal.adds (removal : Removal l) (homes : Homes l) (managers : next.managers = l.managers)
    (missing : l.mapped m w = none) (homed : next.Homed m w l.slots.size)
    (maps : ∀ n v, next.mapped n v =
      if m < l.managers ∧ n = m ∧ v = w then some l.slots.size else l.mapped n v)
    (kept : ∀ j, next.removers j = l.removers j)
    (old : ∀ n v j, next.Homed n v j → l.Homed n v j ∨ j = l.slots.size)
    (stays : ∀ j, l.state? j = some .retired → next.state? j = some .retired) : Removal next := by
  refine ⟨?_,?_,?_,?_⟩
  · intro n v j mapped
    rw [maps] at mapped
    split at mapped
    next own => exact managers ▸ own.2.1 ▸ own.1
    next => exact managers ▸ removal.bound n v j mapped
  · intro j
    rw [kept]
    exact removal.alone j
  · intro n v j mapped
    rw [kept]
    rw [maps] at mapped
    split at mapped
    next => exact removers_fresh homes (Option.some.inj mapped).le
    next => exact removal.apart n v j mapped
  · intro n v j bound here
    rw [kept,maps]
    obtain had | rfl := old n v j here
    · have other (mapped : l.mapped n v = some j) : ¬(m < l.managers ∧ n = m ∧ v = w) := by
        rintro ⟨_,rfl,rfl⟩
        simp [missing] at mapped
      obtain mapped | removed | retired := removal.reached n v j (managers ▸ bound) had
      · rw [if_neg (other mapped)]
        exact Or.inl mapped
      · exact Or.inr (Or.inl removed)
      · exact Or.inr (Or.inr (stays j retired))
    · obtain ⟨rfl,rfl⟩ := here.unique homed
      exact Or.inl (if_pos ⟨managers ▸ bound,rfl,rfl⟩)

theorem Removal.detaches (removal : Removal l) (homes : Homes l) (mapped : l.mapped m w = some i)
    {roles : Multiset (Nat × Role)} (kept : ∀ j, removers { l.remap m w none with roles } j =
      (if j = i then {t} else 0) + l.removers j) :
    Removal { l.remap m w none with roles } := by
  refine ⟨?_,?_,?_,?_⟩
  · intro n v j had
    exact removal.bound n v j (mapped_of_unmapped had).1
  · intro j
    rw [kept]
    split
    next same => simp [same,removal.apart m w i mapped]
    next => simpa using removal.alone j
  · intro n v j left
    obtain ⟨had,other⟩ := mapped_of_unmapped left
    have apart : j ≠ i := by
      rintro rfl
      exact other ((homes.mapped n v j had).unique (homes.mapped m w j mapped))
    rw [kept,if_neg apart,zero_add]
    exact removal.apart n v j had
  · intro n v j bound homed
    rw [kept]
    obtain had | ⟨u,member⟩ | retired := removal.reached n v j bound homed
    · by_cases own : n = m ∧ v = w
      · obtain ⟨rfl,rfl⟩ := own
        obtain rfl := Option.some.inj (had.symm.trans mapped)
        exact Or.inr (Or.inl ⟨t,by simp⟩)
      · exact Or.inl (by simpa [remap,own] using had)
    · exact Or.inr (Or.inl ⟨u,Multiset.mem_add.mpr (Or.inr member)⟩)
    · exact Or.inr (Or.inr retired)

/-- Between the map and its retirement a slot is in the hands of exactly one call, and every move
keeps that. -/
theorem Removal.move (removal : Removal l) (homes : Homes l) (guarded : Guarded l)
    (move : Move l notes next) : Removal next := by
  obtain ⟨t,before,after,notes,shared,rest,split,shift⟩ := move
  have was i := removers_eq (i := i) split
  have now i := removers_eq (i := i) (l := { shared with roles := tagged t after + rest }) rfl
  have managers := shift.managers
  have stays i (retired : l.state? i = some .retired) := guarded.retired split shift retired
  -- Whoever answered for a slot before still does, but for the one slot that the turn is about.
  cases shift.turn with
  | still same maps slots =>
    have kept i : removers { shared with roles := tagged t after + rest } i = l.removers i := by
      rw [was,now,same]
    refine removal.shrinks managers (fun n v j mapped => maps ▸ mapped) (fun j => (kept j).le) ?_
    intro n v j bound (homed : shared.Homed n v j)
    rw [kept]
    obtain mapped | removed | retired :=
      removal.reached n v j bound (homed.back shift (slots ▸ homed.lt))
    · exact Or.inl (maps ▸ mapped)
    · exact Or.inr (Or.inl removed)
    · exact Or.inr (Or.inr (stays j retired))
  | added m w old new missing size homed maps =>
    refine removal.adds homes managers missing homed maps (fun j => ?_) ?_ stays
    · rw [was,now,old,new,Option.bind_none]
    · intro n v j (homed : shared.Homed n v j)
      have inside := homed.lt
      have here : j < l.slots.size ∨ j = l.slots.size := by omega
      exact here.imp_left (homed.back shift)
  | pruned m w i old new mapped made =>
    have kept j : removers { shared with roles := tagged t after + rest } j = l.removers j := by
      rw [was,now,old,new]
      rfl
    have gone : l.state? i = some .retired :=
      guarded.empties _ (mem_of_split split (by rw [old]; rfl)) i rfl
    subst made
    refine removal.shrinks rfl (fun n v j left => (mapped_of_unmapped left).1)
      (fun j => (kept j).le) ?_
    intro n v j bound homed
    rw [kept]
    obtain had | removed | retired := removal.reached n v j bound homed
    · by_cases own : n = m ∧ v = w
      · obtain ⟨rfl,rfl⟩ := own
        obtain rfl := Option.some.inj (had.symm.trans mapped)
        exact Or.inr (Or.inr gone)
      · exact Or.inl (by simpa [remap,own] using had)
    · exact Or.inr (Or.inl removed)
    · exact Or.inr (Or.inr retired)
  | detached m w i old new mapped made =>
    subst made
    refine removal.detaches (t := t) homes mapped fun j => ?_
    rw [was,now,old,new]
    simp [Role.detaches?,eq_comm]
  | retired m w i old new maps slots state =>
    have kept j : l.removers j =
        (if j = i then {t} else 0) + removers { shared with roles := tagged t after + rest } j := by
      rw [was,now,old,new]
      simp [Role.detaches?,eq_comm]
    refine removal.shrinks managers (fun n v j mapped => maps ▸ mapped)
      (fun j => (kept j).symm ▸ Multiset.le_add_left _ _) ?_
    intro n v j bound (homed : shared.Homed n v j)
    obtain had | ⟨u,member⟩ | retired :=
      removal.reached n v j bound (homed.back shift (slots ▸ homed.lt))
    · exact Or.inl (maps ▸ had)
    · by_cases here : j = i
      · subst here
        obtain ⟨found,held⟩ := homed.state
        exact Or.inr (Or.inr (held.trans (congrArg some (state found held))))
      · rw [kept,if_neg here,zero_add] at member
        exact Or.inr (Or.inl ⟨u,member⟩)
    · exact Or.inr (Or.inr (stays j retired))

structure Sound (l : Ledger) : Prop where
  homes : Homes l
  locked : Locked l
  guarded : Guarded l
  removal : Removal l

theorem Sound.move (sound : Sound l) (move : Move l notes next) : Sound next where
  homes := sound.homes.move move
  locked := sound.locked.move move
  guarded := sound.guarded.move sound.homes sound.locked move
  removal := sound.removal.move sound.homes sound.guarded move

theorem Sound.empty (managers : Nat) : Sound (.empty managers) where
  homes := ⟨by simp [Ledger.empty],by simp [Ledger.empty]⟩
  locked := by simp [Locked,Ledger.empty,threadsOf,holder?]
  guarded := ⟨by simp [Ledger.empty],by simp [Ledger.empty]⟩
  removal := ⟨by simp [Ledger.empty],by simp [Ledger.empty,removers,threadsOf],
    by simp [Ledger.empty],by simp [Ledger.empty,Homed]⟩

end Ledger

namespace System

open Ledger

variable {F V : Type} {sharding : Sharding} {names : List String} {threads : Nat}
  {past : List (Entry F V)} {s : System F V}

theorem Interleaving.sound (run : Interleaving (idle sharding names threads) past s) :
    s.ledger.Sound := by
  refine run.induct (fun _ l => l.Sound) ?_ fun _ _ _ _ sound move => sound.move move
  rw [ledger_idle]
  exact .empty names.length

/-- What holds at the start and is kept by every move of a sound ledger holds in every reachable
state. -/
theorem Interleaving.induct_sound (run : Interleaving (idle sharding names threads) past s)
    (holds : List Note → Ledger → Prop) (initially : holds [] (.empty names.length))
    (kept : ∀ before l notes next, Sound l → holds before l → Move l notes next →
      holds (before ++ notes) next) : holds (notes past) s.ledger := by
  have both := run.induct (fun notes l => l.Sound ∧ holds notes l) ?_ ?_
  · exact both.2
  · rw [ledger_idle]
    exact ⟨.empty names.length,initially⟩
  · intro before l notes next ⟨sound,held⟩ move
    exact ⟨sound.move move,kept before l notes next sound held move⟩

theorem Interleaving.managers (run : Interleaving (idle sharding names threads) past s) :
    s.ledger.managers = names.length := by
  refine run.induct_sound (fun _ l => l.managers = names.length) rfl ?_
  intro before l more next _ same move
  rw [move.managers,same]

end System

end PerWorker
