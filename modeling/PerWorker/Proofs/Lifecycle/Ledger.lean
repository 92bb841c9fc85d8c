import PerWorker.Proofs.Lifecycle.Interleaving
import Mathlib.Algebra.BigOperators.Group.Finset.Basic

/-!
The slot protocol behind the atomic steps. A call under way matters to the protocol only through
the role it plays: which slot it refers to, whose lock it holds, which copy it answers for. The
ledger keeps the roles with the maps, the slots and the bonds of the copies. Main statement: every
atomic step of a system is one of the moves of the protocol or leaves its ledger as it is.
-/
namespace PerWorker

/-- What a call under way means to the protocol. -/
inductive Role where
  /-- A `get` with a reference to a slot, before it has the lock. -/
  | seeking (manager : Nat) (worker : WorkerId) (slot : Nat)
  | peeking (manager : Nat) (worker : WorkerId) (slot : Nat)
  /-- Has the lock of a vacant slot and no copy for it, or none any more. -/
  | populating (manager : Nat) (worker : WorkerId) (slot : Nat)
  | settingUp (manager : Nat) (worker : WorkerId) (slot copy : Nat)
  /-- The copy is set up and not yet in the slot. -/
  | ready (manager : Nat) (worker : WorkerId) (slot copy : Nat)
  /-- Is about to give back the lock, with the copy it found. -/
  | leaving (manager : Nat) (worker : WorkerId) (slot : Nat) (found : Option Nat)
  /-- Is about to give back the lock of a retired slot. -/
  | departing (manager : Nat) (worker : WorkerId) (slot : Nat)
  | pruning (manager : Nat) (worker : WorkerId) (slot : Nat)
  | detached (manager : Nat) (worker : WorkerId) (slot : Nat)
  | retiring (manager : Nat) (worker : WorkerId) (slot : Nat)
  /-- Has retired the slot and holds its lock, with the copy that was in it. -/
  | withdrawn (manager : Nat) (worker : WorkerId) (slot : Nat) (found : Option Nat)
  | taken (copy : Nat)
  | tearingDown (copy : Nat)
  | serving (copy : Nat)
  deriving DecidableEq

/-- The role of a call that waits in the middle of others. -/
def Frame.role? {F V : Type} : Frame F V → Option Role
  | .get m w point =>
    match point with
    | .look | .register => none
    | .enter i => some (.seeking m w i)
    | .replicating i | .countCloneFailure i _ | .logCloneFailure i _ | .countCopy i _
    | .number i _ | .countSetupFailure i _ _ | .logSetupFailure i _ _ | .retire i _ =>
      some (.populating m w i)
    | .settingUp i c => some (.settingUp m w i c)
    | .countSetup i c | .logSetup i c | .publish i c => some (.ready m w i c)
    | .leave i (.found c) => some (.leaving m w i (some c))
    | .leave i (.unwinding _) => some (.leaving m w i none)
    | .leave i (.failed _) | .leave i .again => some (.departing m w i)
    | .prune i _ => some (.pruning m w i)
  | .peek m w point =>
    match point with
    | .look => none
    | .enter i => some (.peeking m w i)
    | .leave i found => some (.leaving m w i found)
  | .release m w point =>
    match point with
    | .enter i => some (.detached m w i)
    | .retire i => some (.retiring m w i)
    | .leave i found => some (.withdrawn m w i found)
    | .kill c | .claim c => some (.taken c)
    | .tearingDown c => some (.tearingDown c)
    | .unregister | .unwind _ _ | .yield _ _ | .countTeardown _ _ | .logTeardown _
    | .countFailure _ _ | .logFailure _ _ => none
  | .processBody _ _ point =>
    match point with
    | .claim c | .running c | .unwind c _ | .yield c _ => some (.serving c)
  | .use _ | .processGet .. | .processLogFailure .. | .processRelease .. | .processLogTeardown ..
  | .survey .. | .releaseAll .. | .releaseAllLog .. | .drain .. | .drainLogFailure ..
  | .drainLogDone .. | .contains .. | .load .. | .logStats .. => none

structure Bond where
  manager : Nat
  worker : WorkerId
  live : Bool
  deriving DecidableEq

def Copy.bond {F : Type} (copy : Copy F) : Bond := ⟨copy.manager, copy.worker, copy.live⟩

/-- All that the slot protocol is about. -/
structure Ledger where
  managers : Nat
  mapped : Nat → WorkerId → Option Nat
  slots : Array Slot
  bonds : Array Bond
  roles : Multiset (Nat × Role)

def tagged (t : Nat) (role : Option Role) : Multiset (Nat × Role) := ↑(role.toList.map (t, ·))

@[simp] theorem tagged_none (t : Nat) : tagged t none = 0 := rfl

@[simp] theorem tagged_some (t : Nat) (role : Role) : tagged t (some role) = {(t,role)} := rfl

namespace Ledger

def empty (managers : Nat) : Ledger where
  managers
  mapped := fun _ _ => none
  slots := #[]
  bonds := #[]
  roles := 0

def remap (l : Ledger) (m : Nat) (w : WorkerId) (slot : Option Nat) : Ledger :=
  { l with mapped := fun n v => if n = m ∧ v = w then slot else l.mapped n v }

def mapSlot (l : Ledger) (i : Nat) (f : Slot → Slot) : Ledger :=
  { l with slots := l.slots.modify i f }

/-- What a move does to the role of the thread that makes it, to the maps, the slots and the
bonds. The roles in the resulting ledger are the old ones. -/
inductive Shift (l : Ledger) (t : Nat) : Option Role → Option Role → List Note → Ledger → Prop
  | stay (role) : Shift l t role role [] l
  | look {m w i} (found : l.mapped m w = some i) : Shift l t none (some (.seeking m w i)) [] l
  | glance {m w i} (found : l.mapped m w = some i) : Shift l t none (some (.peeking m w i)) [] l
  | register {m w} (missing : l.mapped m w = none) :
      Shift l t none (some (.seeking m w l.slots.size)) []
        (if m < l.managers then
          { l.remap m w (some l.slots.size) with slots := l.slots.push { manager := m, worker := w } }
        else { l with slots := l.slots.push { manager := m, worker := w } })
  | occupy {m w i slot} (cell : l.slots[i]? = some slot) (free : slot.holder = none)
      (vacant : slot.state = .vacant) :
      Shift l t (some (.seeking m w i)) (some (.populating m w i)) []
        (l.mapSlot i ({ · with holder := some t }))
  | meet {m w i slot c} (cell : l.slots[i]? = some slot) (free : slot.holder = none)
      (live : slot.state = .live c) :
      Shift l t (some (.seeking m w i)) (some (.leaving m w i (some c))) []
        (l.mapSlot i ({ · with holder := some t }))
  | miss {m w i slot} (cell : l.slots[i]? = some slot) (free : slot.holder = none)
      (retired : slot.state = .retired) :
      Shift l t (some (.seeking m w i)) (some (.departing m w i)) []
        (l.mapSlot i ({ · with holder := some t }))
  | inspect {m w i slot found} (cell : l.slots[i]? = some slot) (free : slot.holder = none)
      (seen : ∀ c, found = some c → slot.state = .live c) :
      Shift l t (some (.peeking m w i)) (some (.leaving m w i found)) []
        (l.mapSlot i ({ · with holder := some t }))
  | spoil {m w i} :
      Shift l t (some (.populating m w i)) (some (.leaving m w i none)) [.spoiled] l
  | number {m w i} :
      Shift l t (some (.populating m w i)) (some (.settingUp m w i l.bonds.size))
        [.beat l.bonds.size (.began .setup)] { l with bonds := l.bonds.push ⟨m, w, true⟩ }
  | setUp {m w i c} :
      Shift l t (some (.settingUp m w i c)) (some (.ready m w i c))
        [.beat c (.ended .setup .returned)] l
  | discard {m w i c} :
      Shift l t (some (.settingUp m w i c)) (some (.populating m w i))
        [.beat c (.ended .setup .failed)] l
  | unwind {m w i c} :
      Shift l t (some (.settingUp m w i c)) (some (.leaving m w i none))
        [.beat c (.ended .setup .panicked)] l
  | publish {m w i c} :
      Shift l t (some (.ready m w i c)) (some (.leaving m w i (some c))) []
        (l.mapSlot i ({ · with state := .live c }))
  | abandon {m w i} :
      Shift l t (some (.populating m w i)) (some (.departing m w i)) []
        (l.mapSlot i ({ · with state := .retired }))
  | leave {m w i found after notes} (served : ∀ r ∈ after, ∃ c, found = some c ∧ r = .serving c)
      (told : ∀ n ∈ notes, ∃ c, found = some c ∧ n = .handed c) :
      Shift l t (some (.leaving m w i found)) after notes
        (l.mapSlot i ({ · with holder := none }))
  | depart {m w i} :
      Shift l t (some (.departing m w i)) (some (.pruning m w i)) []
        (l.mapSlot i ({ · with holder := none }))
  | prune {m w i} :
      Shift l t (some (.pruning m w i)) none []
        (if l.mapped m w = some i then l.remap m w none else l)
  | detach {m w i} (found : l.mapped m w = some i) :
      Shift l t none (some (.detached m w i)) [] (l.remap m w none)
  | grasp {m w i slot} (cell : l.slots[i]? = some slot) (free : slot.holder = none) :
      Shift l t (some (.detached m w i)) (some (.retiring m w i)) []
        (l.mapSlot i ({ · with holder := some t }))
  | withdraw {m w i found}
      (live : ∀ c, found = some c ↔ ∃ slot, l.slots[i]? = some slot ∧ slot.state = .live c) :
      Shift l t (some (.retiring m w i)) (some (.withdrawn m w i found)) []
        (l.mapSlot i ({ · with state := .retired }))
  | carry {m w i found} :
      Shift l t (some (.withdrawn m w i found)) (found.map .taken) []
        (l.mapSlot i ({ · with holder := none }))
  | kill {c} :
      Shift l t (some (.taken c)) (some (.taken c)) []
        { l with bonds := l.bonds.modify c ({ · with live := false }) }
  | tearDown {c} :
      Shift l t (some (.taken c)) (some (.tearingDown c)) [.beat c (.began .teardown)] l
  | tornDown {c ending} :
      Shift l t (some (.tearingDown c)) none [.beat c (.ended .teardown ending)] l
  | serve {c} : Shift l t (some (.serving c)) none [] l

/-- One move of the protocol: a thread changes its role, or takes one on, or lays one down. -/
inductive Move (l : Ledger) : List Note → Ledger → Prop
  | mk (t before after notes shared rest) (roles : l.roles = tagged t before + rest)
      (shift : Shift l t before after notes shared) :
      Move l notes { shared with roles := tagged t after + rest }

theorem Move.idle (l : Ledger) (t : Nat) : Move l [] l := by
  have same : l.roles = tagged t none + l.roles := by simp
  have moved : Move l [] { l with roles := tagged t none + l.roles } :=
    .mk t none none [] l l.roles same (.stay none)
  rwa [tagged_none,zero_add] at moved

end Ledger

namespace Manager

/-- A worker that is not registered is mapped to the new slot, and all others to what they were. -/
theorem slot?_insert (m : Manager) (w v : WorkerId) (i : Nat) (missing : m.slot? w = none) :
    (m.insert w i).slot? v = if v = w then some i else m.slot? v := by
  unfold slot? insert at *
  by_cases same : v = w
  · subst v
    simp [List.lookup_append,missing]
  · have other : (v == w) = false := by simpa using same
    simp [List.lookup_append,same,List.lookup_cons,other]

/-- Taking a worker out of a map changes nothing for any other. -/
theorem slot?_erase (m : Manager) (w v : WorkerId) :
    (m.erase w).slot? v = if v = w then none else m.slot? v := by
  unfold slot? erase
  induction m.slots with
  | nil => simp
  | cons entry rest ih =>
    obtain ⟨u,i⟩ := entry
    by_cases gone : u = w
    · subst u
      have skipped : ((w,i) :: rest).filter (·.1 ≠ w) = rest.filter (·.1 ≠ w) := by simp
      rw [skipped,ih]
      by_cases same : v = w
      · simp [same]
      · have other : (v == w) = false := by simpa using same
        simp [same,List.lookup_cons,other]
    · have kept : ((u,i) :: rest).filter (·.1 ≠ w) = (u,i) :: rest.filter (·.1 ≠ w) := by simp [gone]
      rw [kept,List.lookup_cons,List.lookup_cons,ih]
      by_cases hit : v = u
      · have found : (v == u) = true := by simpa using hit
        have other : v ≠ w := fun same => gone (hit.symm.trans same)
        simp [found,other]
      · have other : (v == u) = false := by simpa using hit
        simp [other]

theorem slot?_eraseSlot (m : Manager) (w v : WorkerId) (i : Nat) :
    (m.eraseSlot w i).slot? v = if v = w ∧ m.slot? w = some i then none else m.slot? v := by
  unfold eraseSlot
  split
  next mapped => simp [slot?_erase,mapped]
  next unmapped => simp [unmapped]

end Manager

namespace System

variable {F V : Type}

def stackRoles (t : Nat) (frames : List (Frame F V)) : Multiset (Nat × Role) :=
  ↑((frames.filterMap Frame.role?).map (t, ·))

def roles (s : System F V) : Multiset (Nat × Role) :=
  ∑ t ∈ Finset.range s.threads.size, stackRoles t (s.stack t)

def ledger (s : System F V) : Ledger where
  managers := s.managers.size
  mapped := s.slot?
  slots := s.slots
  bonds := s.copies.map Copy.bond
  roles := s.roles

theorem stackRoles_cons (t : Nat) (frame : Frame F V) (below : List (Frame F V)) :
    stackRoles t (frame :: below) = tagged t frame.role? + stackRoles t below := by
  cases role : frame.role? <;> simp [stackRoles, tagged, role]

theorem roles_split (s : System F V) (t : Nat) (bound : t < s.threads.size) :
    ∃ rest, s.roles = stackRoles t (s.stack t) + rest ∧
      ∀ frames, (s.setStack t frames).roles = stackRoles t frames + rest := by
  refine ⟨∑ u ∈ (Finset.range s.threads.size).erase t, stackRoles u (s.stack u),?_,?_⟩
  · exact (Finset.add_sum_erase _ _ (Finset.mem_range.mpr bound)).symm
  · intro frames
    have size : (s.setStack t frames).threads.size = s.threads.size := by simp [setStack]
    unfold roles
    rw [size,← Finset.add_sum_erase _ _ (Finset.mem_range.mpr bound)]
    congr 1
    · simp [stack,setStack,bound]
    · apply Finset.sum_congr rfl
      intro u member
      have other : t ≠ u := fun same => (Finset.mem_erase.mp member).1 same.symm
      simp [stack,setStack,other]

theorem bound_of_stack (s : System F V) (t : Nat) (frame : Frame F V) (below : List (Frame F V))
    (top : s.stack t = frame :: below) : t < s.threads.size := by
  by_contra outside
  simp [stack,Array.getD_eq_getD_getElem?,Array.getElem?_eq_none (Nat.le_of_not_lt outside)] at top

theorem slot?_mapManager (s : System F V) (m n : Nat) (v : WorkerId) (f : Manager → Manager) :
    (s.mapManager m f).slot? n v =
      if n = m then (s.managers[m]?).bind fun manager => (f manager).slot? v else s.slot? n v := by
  simp only [mapManager,slot?,Array.getElem?_modify]
  by_cases same : n = m
  · subst same
    cases s.managers[n]? <;> simp
  · simp [same,Ne.symm same]

theorem slot?_bump (s : System F V) (m : Nat) (counter : Counter) :
    (s.bump m counter).slot? = s.slot? := by
  funext n v
  rw [bump,slot?_mapManager]
  split
  next same => subst same; rfl
  next => rfl

theorem slot?_erase (s : System F V) (m : Nat) (w : WorkerId) :
    (s.mapManager m (·.erase w)).slot? = fun n v => if n = m ∧ v = w then none else s.slot? n v := by
  funext n v
  rw [slot?_mapManager]
  by_cases same : n = m
  · subst same
    cases found : s.managers[n]? <;> simp [Manager.slot?_erase,slot?,found]
  · simp [same]

theorem slot?_eraseSlot (s : System F V) (m : Nat) (w : WorkerId) (i : Nat) :
    (s.mapManager m (·.eraseSlot w i)).slot? =
      if s.slot? m w = some i then (s.mapManager m (·.erase w)).slot? else s.slot? := by
  by_cases mapped : s.slot? m w = some i
  · rw [if_pos mapped]
    funext n v
    simp only [slot?_mapManager]
    cases found : s.managers[m]? with
    | none => rfl
    | some manager =>
      have inside : manager.slot? w = some i := by simpa [slot?,found] using mapped
      simp [Manager.slot?_eraseSlot,Manager.slot?_erase,inside]
  · rw [if_neg mapped]
    funext n v
    rw [slot?_mapManager]
    split
    next same =>
      subst same
      cases found : s.managers[n]? with
      | none => simp [slot?,found]
      | some manager =>
        have outside : manager.slot? w ≠ some i := by simpa [slot?,found] using mapped
        simp [Manager.slot?_eraseSlot,outside,slot?,found]
    next => rfl

theorem slot?_insert (s : System F V) (m : Nat) (w : WorkerId) (i : Nat)
    (missing : s.slot? m w = none) :
    (s.mapManager m (·.insert w i)).slot? =
      if m < s.managers.size then fun n v => if n = m ∧ v = w then some i else s.slot? n v
      else s.slot? := by
  funext n v
  rw [slot?_mapManager]
  by_cases same : n = m
  · subst same
    by_cases bound : n < s.managers.size
    · have unmapped : s.managers[n].slot? w = none := by simpa [slot?,bound] using missing
      simp [slot?,bound,Manager.slot?_insert _ _ _ _ unmapped]
    · simp [slot?,bound]
  · rw [if_neg same]
    split
    next => simp [same]
    next => rfl

theorem ledger_idle (sharding : Sharding) (names : List String) (threads : Nat) :
    (idle sharding names threads : System F V).ledger = .empty names.length := by
  have unmapped : (idle sharding names threads : System F V).slot? = fun _ _ => none := by
    funext m w
    cases bound : names[m]? <;> simp [slot?,idle,start,bound,Manager.slot?]
  have roles : (idle sharding names threads : System F V).roles = 0 := by
    apply Finset.sum_eq_zero
    intro t member
    have empty : (idle sharding names threads : System F V).stack t = [] := by
      simp only [idle,Array.size_replicate,Finset.mem_range] at member
      simp [stack,idle,member]
    rw [empty]
    rfl
  simp only [ledger,unmapped,roles,Ledger.empty]
  simp [idle,start]

theorem ledger_mapManager (s : System F V) (m : Nat) (f : Manager → Manager) :
    (s.mapManager m f).ledger = { s.ledger with mapped := (s.mapManager m f).slot? } := by
  have size : (s.managers.modify m f).size = s.managers.size := by simp
  unfold ledger
  simp only [mapManager,size]
  rfl

theorem ledger_bump (s : System F V) (m : Nat) (counter : Counter) :
    (s.bump m counter).ledger = s.ledger := by
  have changed := ledger_mapManager s m (·.bump counter)
  rw [← bump,slot?_bump] at changed
  exact changed

theorem ledger_erase (s : System F V) (m : Nat) (w : WorkerId) :
    (s.mapManager m (·.erase w)).ledger = s.ledger.remap m w none := by
  rw [ledger_mapManager,slot?_erase]
  rfl

theorem ledger_eraseSlot (s : System F V) (m : Nat) (w : WorkerId) (i : Nat) :
    (s.mapManager m (·.eraseSlot w i)).ledger =
      if s.ledger.mapped m w = some i then s.ledger.remap m w none else s.ledger := by
  have mapped : s.ledger.mapped m w = s.slot? m w := rfl
  rw [ledger_mapManager,slot?_eraseSlot,mapped]
  split
  next => rw [slot?_erase]; rfl
  next => rfl

theorem ledger_register (s : System F V) (m : Nat) (w : WorkerId) (missing : s.slot? m w = none) :
    ({ s with slots := s.slots.push { manager := m, worker := w } }.mapManager m
      (·.insert w s.slots.size)).ledger =
      if m < s.ledger.managers then
        { s.ledger.remap m w (some s.slots.size) with
          slots := s.ledger.slots.push { manager := m, worker := w } }
      else { s.ledger with slots := s.ledger.slots.push { manager := m, worker := w } } := by
  have changed := slot?_insert { s with slots := s.slots.push { manager := m, worker := w } } m w
    s.slots.size missing
  rw [ledger_mapManager,changed]
  have size : s.ledger.managers = s.managers.size := rfl
  rw [size]
  split <;> rfl

theorem ledger_mapCopy (s : System F V) (c : Nat) (f : Copy F → Copy F) (g : Bond → Bond)
    (bonds : ∀ copy, (f copy).bond = g copy.bond) :
    (s.mapCopy c f).ledger = { s.ledger with bonds := s.ledger.bonds.modify c g } := by
  have same : (s.copies.modify c f).map Copy.bond = (s.copies.map Copy.bond).modify c g := by
    ext1
    · simp
    next i _ _ =>
      simp only [Array.getElem_map,Array.getElem_modify]
      split <;> simp [bonds]
  simp only [ledger,mapCopy,same]
  rfl

theorem ledger_mapCopy_same (s : System F V) (c : Nat) (f : Copy F → Copy F)
    (bonds : ∀ copy, (f copy).bond = copy.bond) : (s.mapCopy c f).ledger = s.ledger := by
  have same : s.ledger.bonds.modify c id = s.ledger.bonds := by
    ext1
    · simp
    next => simp [Array.getElem_modify]
  rw [ledger_mapCopy s c f id bonds,same]

end System
end PerWorker
