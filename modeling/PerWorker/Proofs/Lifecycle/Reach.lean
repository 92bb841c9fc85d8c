import PerWorker.Proofs.Lifecycle.Books

/-!
Steps that bear on one worker. A call on a manager and a worker touches the entry of that worker,
its slots and its copies, and the counters. Main statement: to other threads and to other workers
such a step is as good as none.
-/
namespace PerWorker
namespace System

variable {F V : Type}

def registrations (s : System F V) (m : Nat) : Nat :=
  (((s.managers[m]?).map (·.slots)).getD []).length

structure Keeps (m : Nat) (w : WorkerId) (s next : System F V) : Prop where
  mapped : next.slot? m w = s.slot? m w
  slots : ∀ (i : Nat) (slot : Slot), s.slots[i]? = some slot → slot.worker = w →
    next.slots[i]? = some slot
  copies : ∀ (c : Nat) (copy : Copy F), s.copies[c]? = some copy → copy.worker = w →
    next.copies[c]? = some copy

structure Apart (m : Nat) (w : WorkerId) (s next : System F V) : Prop where
  sharding : next.sharding = s.sharding
  managers : next.managers.size = s.managers.size
  keeps : ∀ v, v ≠ w → Keeps m v s next

/-- A change to what belongs to a worker. It counts setups and teardowns and may register the
worker. -/
structure Touches (m : Nat) (w : WorkerId) (s shared : System F V) (made gone grown : Nat) : Prop
    extends Apart m w s shared where
  threads : shared.threads = s.threads
  setups : (shared.counters m).setups = (s.counters m).setups + made
  teardowns : (shared.counters m).teardowns = (s.counters m).teardowns + gone
  registrations : shared.registrations m ≤ s.registrations m + grown

structure Spares (m t : Nat) (w : WorkerId) (s next : System F V) : Prop
    extends Apart m w s next where
  threads : next.threads.size = s.threads.size
  others : ∀ u, u ≠ t → next.stack u = s.stack u

variable {s shared next : System F V} {m t i c made gone grown : Nat} {w : WorkerId}

theorem Keeps.of_eq (mapped : next.slot? m w = s.slot? m w) (slots : next.slots = s.slots)
    (copies : next.copies = s.copies) : Keeps m w s next :=
  ⟨mapped,fun _ _ cell _ => slots ▸ cell,fun _ _ there _ => copies ▸ there⟩

theorem Keeps.setStack (m t : Nat) (w : WorkerId) (s : System F V) (frames : List (Frame F V)) :
    Keeps m w s (s.setStack t frames) :=
  .of_eq rfl rfl rfl

theorem Keeps.trans {last : System F V} (first : Keeps m w s next) (second : Keeps m w next last) :
    Keeps m w s last where
  mapped := second.mapped.trans first.mapped
  slots := fun i slot cell own => second.slots i slot (first.slots i slot cell own) own
  copies := fun c copy there own => second.copies c copy (first.copies c copy there own) own

theorem Touches.refl (m : Nat) (w : WorkerId) (s : System F V) : Touches m w s s 0 0 0 :=
  ⟨⟨rfl,rfl,fun _ _ => .of_eq rfl rfl rfl⟩,rfl,rfl,rfl,le_rfl⟩

theorem Spares.refl (m t : Nat) (w : WorkerId) (s : System F V) : Spares m t w s s :=
  ⟨⟨rfl,rfl,fun _ _ => .of_eq rfl rfl rfl⟩,rfl,fun _ _ => rfl⟩

theorem Touches.bump (w : WorkerId) (counter : Counter) (bound : m < s.managers.size) :
    Touches m w s (s.bump m counter) (if counter = .setups then 1 else 0)
      (if counter = .teardowns then 1 else 0) 0 where
  sharding := rfl
  managers := by simp [System.bump,mapManager]
  keeps := fun v _ => .of_eq (by rw [slot?_bump]) rfl rfl
  threads := rfl
  setups := by
    rw [counters_bump s m counter bound,if_pos rfl]
    cases counter <;> rfl
  teardowns := by
    rw [counters_bump s m counter bound,if_pos rfl]
    cases counter <;> rfl
  registrations := by
    simp only [System.registrations,System.bump,mapManager,Array.getElem?_modify,if_true]
    cases s.managers[m]? <;> simp [Manager.bump]

/-- What happens to a slot of a worker touches no other worker, and no count. -/
theorem Touches.mapSlot {slot : Slot} (f : Slot → Slot) (cell : s.slots[i]? = some slot)
    (own : slot.worker = w) : Touches m w s (s.mapSlot i f) 0 0 0 :=
  { Touches.refl m w s with
    keeps := by
      refine fun v away => ⟨rfl,fun j other there mine => ?_,fun _ _ there _ => there⟩
      have apart : i ≠ j := by
        rintro rfl
        obtain rfl := Option.some.inj (cell.symm.trans there)
        exact away (mine.symm.trans own)
      simp [System.mapSlot,Array.getElem?_modify,apart,there] }

theorem getElem?_mapCopy {copy : Copy F} (f : Copy F → Copy F) (there : s.copies[c]? = some copy) :
    (s.mapCopy c f).copies[c]? = some (f copy) := by
  simp [System.mapCopy,Array.getElem?_modify,there]

theorem Touches.mapCopy {copy : Copy F} (f : Copy F → Copy F) (there : s.copies[c]? = some copy)
    (own : copy.worker = w) : Touches m w s (s.mapCopy c f) 0 0 0 :=
  { Touches.refl m w s with
    keeps := by
      refine fun v away => ⟨rfl,fun _ _ cell _ => cell,fun d other here mine => ?_⟩
      have apart : c ≠ d := by
        rintro rfl
        obtain rfl := Option.some.inj (there.symm.trans here)
        exact away (mine.symm.trans own)
      simp [System.mapCopy,Array.getElem?_modify,apart,here] }

theorem getElem?_push_of_some {α : Type} {xs : Array α} {x : α} (y : α)
    (there : xs[i]? = some x) : (xs.push y)[i]? = some x := by
  have bound := (Array.getElem?_eq_some_iff.mp there).1
  rw [Array.getElem?_push,if_neg (by omega),there]

theorem Touches.number (m : Nat) (w : WorkerId) (s : System F V) (copy : Copy F) :
    Touches m w s { s with copies := s.copies.push copy } 0 0 0 :=
  { Touches.refl m w s with
    keeps := fun _ _ =>
      ⟨rfl,fun _ _ cell _ => cell,fun _ _ there _ => getElem?_push_of_some copy there⟩ }

/-- A new registration is the one change by which a manager grows. -/
theorem Touches.register (missing : s.slot? m w = none) : Touches m w s
    (mapManager { s with slots := s.slots.push { manager := m, worker := w } } m
      (·.insert w s.slots.size)) 0 0 1 where
  sharding := rfl
  managers := by simp [mapManager]
  keeps := by
    refine fun v away =>
      ⟨?_,fun _ _ cell _ => getElem?_push_of_some _ cell,fun _ _ there _ => there⟩
    change (s.mapManager m (·.insert w s.slots.size)).slot? m v = s.slot? m v
    rw [slot?_insert s m w _ missing]
    split
    next => simp [away]
    next => rfl
  threads := rfl
  setups := congrArg Counters.setups
    (counters_mapManager s m (·.insert w s.slots.size) fun _ => rfl)
  teardowns := congrArg Counters.teardowns
    (counters_mapManager s m (·.insert w s.slots.size) fun _ => rfl)
  registrations := by
    simp only [System.registrations,mapManager,Array.getElem?_modify,if_true]
    cases s.managers[m]? <;> simp [Manager.insert]

theorem Touches.erase (m : Nat) (w : WorkerId) (s : System F V) :
    Touches m w s (s.mapManager m (·.erase w)) 0 0 0 where
  sharding := rfl
  managers := by simp [mapManager]
  keeps := fun v away => .of_eq (by rw [slot?_erase]; simp [away]) rfl rfl
  threads := rfl
  setups := congrArg Counters.setups (counters_mapManager s m (·.erase w) fun _ => rfl)
  teardowns := congrArg Counters.teardowns (counters_mapManager s m (·.erase w) fun _ => rfl)
  registrations := by
    simp only [System.registrations,mapManager,Array.getElem?_modify,if_true]
    cases s.managers[m]? with
    | none => simp
    | some manager => simpa [Manager.erase] using List.length_filter_le _ manager.slots

theorem Touches.spares (touches : Touches m w s shared made gone grown) (t : Nat)
    (frames : List (Frame F V)) : Spares m t w s (shared.setStack t frames) where
  sharding := touches.sharding
  managers := touches.managers
  keeps := fun v away => (touches.keeps v away).trans (.setStack m t v shared frames)
  threads := by simp [setStack,touches.threads]
  others := fun _ away => stack_other frames touches.threads away

end System
end PerWorker
