import PerWorker.Proofs.Lifecycle.Reach
import PerWorker.Proofs.Lifecycle.Roster

/-!
A thread alone with a manager. What foreign code does is given, so that the thread has one next step
whenever it has a call under way, and a conversation is what comes of making one call after the
other. A system shows a roster when it has the workers, copies and counts of that roster and no lock
is held.
-/
namespace PerWorker

def Event.reply? {V : Type} : Event V → Option (Reply V)
  | .returned reply => some reply
  | _ => none

def Event.ran? {V : Type} : Event V → Option (Hook × Nat)
  | .hookStarted hook c => some (hook,c)
  | _ => none

def hooksRun {V : Type} (events : List (Event V)) : List (Hook × Nat) := events.filterMap Event.ran?

/-- Managers with the template of the one that is called, and all that has been observed. -/
structure Supply (F V : Type) where
  system : System F V
  template : Template F
  seen : List (Event V) := []

namespace Supply

variable {F V : Type}

def act (p : Supply F V) (t : Nat) (action : Action F V) :
    Option (Supply F V × List (Event V)) :=
  (p.system.step t action).map fun (system,events) =>
    ({ p with system, seen := p.seen ++ events },events)

/-- The next step of a thread with a call under way. A hook or body leaves its value and ends. -/
def turn? (p : Supply F V) (t : Nat) (conduct : Conduct F V) :
    Option (Supply F V × List (Event V)) :=
  match p.system.stack t with
  | [] => none
  | frame :: _ =>
    match frame.hook? with
    | some (hook,c) => do
      let copy ← p.system.copies[c]?
      let (value,outcome) := conduct.act c hook copy.value
      let (left,_) ← p.act t (.assign value)
      left.act t outcome.action
    | none =>
      if frame.isDrawing then
        let (drawn,template) := p.template.replicate
        act { p with template } t (.drawn drawn)
      else p.act t .advance

def serve? (t : Nat) (conduct : Conduct F V) : Nat → Supply F V → Option (Reply V × Supply F V)
  | 0, _ => none
  | fuel + 1, p => do
    let (next,events) ← p.turn? t conduct
    match events.findSome? Event.reply? with
    | some reply => return (reply,next)
    | none => next.serve? t conduct fuel

/-- Makes these calls on a manager, each when the one before it was answered, and gives the answers.
A call is given so many steps. -/
def converse? (t m fuel : Nat) :
    List (Errand F V) → Supply F V → Option (List (Reply V) × Supply F V)
  | [], p => some ([],p)
  | errand :: rest, p => do
    let (called,_) ← p.act t (.call (errand.ask.call m))
    let (reply,next) ← called.serve? t errand.conduct fuel
    let (replies,last) ← next.converse? t m fuel rest
    return (reply :: replies,last)

inductive Leads (t : Nat) (conduct : Conduct F V) : Supply F V → Supply F V → Prop
  | refl (p) : Leads t conduct p p
  | turn {p next last : Supply F V} {events : List (Event V)}
      (turned : p.turn? t conduct = some (next,events))
      (silent : events.findSome? Event.reply? = none) (rest : Leads t conduct next last) :
      Leads t conduct p last

def Converses (t m : Nat) (errands : List (Errand F V)) (p : Supply F V)
    (replies : List (Reply V)) (last : Supply F V) : Prop :=
  ∃ fuel, p.converse? t m fuel errands = some (replies,last)

variable {t m : Nat} {conduct : Conduct F V} {p next last : Supply F V}
  {events : List (Event V)} {reply : Reply V}

theorem Leads.trans (first : Leads t conduct p next) (second : Leads t conduct next last) :
    Leads t conduct p last := by
  induction first with
  | refl => exact second
  | turn turned silent rest ih => exact .turn turned silent (ih second)

/-- Steps that end with an answer are found by running the thread long enough. -/
theorem Leads.serve (leads : Leads t conduct p next)
    (turned : next.turn? t conduct = some (last,events))
    (told : events.findSome? Event.reply? = some reply) :
    ∃ enough, ∀ fuel, enough ≤ fuel → p.serve? t conduct fuel = some (reply,last) := by
  induction leads with
  | refl =>
    refine ⟨1,fun fuel enough => ?_⟩
    obtain ⟨fuel,rfl⟩ := Nat.exists_eq_add_of_le' enough
    simp [serve?,turned,told]
  | turn first silent rest ih =>
    obtain ⟨enough,served⟩ := ih turned
    refine ⟨enough + 1,fun fuel more => ?_⟩
    obtain ⟨fuel,rfl⟩ := Nat.exists_eq_add_of_le' (Nat.le_of_add_left_le more)
    simp [serve?,first,silent,served fuel (by omega)]

theorem serve?_mono {fuel more : Nat} (served : p.serve? t conduct fuel = some (reply,last))
    (enough : fuel ≤ more) : p.serve? t conduct more = some (reply,last) := by
  induction fuel generalizing p more with
  | zero => cases served
  | succ fuel ih =>
    obtain ⟨more,rfl⟩ := Nat.exists_eq_add_of_le' (Nat.le_of_add_left_le enough)
    cases turned : p.turn? t conduct with
    | none => simp [serve?,turned] at served
    | some result =>
      cases told : result.2.findSome? Event.reply? with
      | some reply => simpa [serve?,turned,told] using served
      | none =>
        simp only [serve?,turned,told,Option.bind_eq_bind,Option.bind_some] at served ⊢
        exact ih served (by omega)

theorem converse?_mono {fuel more : Nat} {errands : List (Errand F V)} {replies : List (Reply V)}
    (conversed : p.converse? t m fuel errands = some (replies,last)) (enough : fuel ≤ more) :
    p.converse? t m more errands = some (replies,last) := by
  induction errands generalizing p replies with
  | nil => exact conversed
  | cons errand rest ih =>
    simp only [converse?,Option.bind_eq_bind,Option.bind_eq_some_iff,Prod.exists] at conversed ⊢
    obtain ⟨called,first,acted,reply,next,served,replies,final,conversed,made⟩ := conversed
    cases made
    exact ⟨called,first,acted,reply,next,serve?_mono served enough,_,_,ih conversed,rfl⟩

theorem Converses.unique {errands : List (Errand F V)} {replies replies' : List (Reply V)}
    {last' : Supply F V} (first : p.Converses t m errands replies last)
    (second : p.Converses t m errands replies' last') : replies = replies' ∧ last = last' := by
  obtain ⟨fuel,conversed⟩ := first
  obtain ⟨fuel',conversed'⟩ := second
  have same := (converse?_mono conversed (le_max_left fuel fuel')).symm.trans
    (converse?_mono conversed' (le_max_right fuel fuel'))
  exact Prod.mk.inj (Option.some.inj same)

end Supply

namespace System

variable {F V : Type}

def roll (s : System F V) (m : Nat) : List WorkerId :=
  ((s.managers[m]?).map fun manager => manager.slots.map (·.1)).getD []

def lodger? (s : System F V) (i : Nat) : Option (Nat × F) :=
  match s.slots[i]? with
  | some { state := .live c, .. } => (s.copies[c]?).map fun copy => (c,copy.value)
  | _ => none

section

variable (s : System F V) (m : Nat) (w : WorkerId)

structure Berth (i : Nat) (state : SlotState) (holder : Option Nat) : Prop where
  mapped : s.slot? m w = some i
  cell : s.slots[i]? = some ⟨m,w,state,holder⟩

/-- What is known of a worker that no call is about: not registered, registered without a copy, or
registered with a copy that has that value. -/
inductive Seated : Option (Option (Nat × F)) → Prop
  | out (missing : s.slot? m w = none) : Seated none
  | bare {i : Nat} (berth : Berth s m w i .vacant none) : Seated (some none)
  | housed {i c : Nat} {f : F} (berth : Berth s m w i (.live c) none)
      (copy : s.copies[c]? = some ⟨m,w,f,true,none⟩) : Seated (some (some (c,f)))

end

/-- A system has the workers, copies and counts of a roster, and no lock of a slot or copy is held.
Nothing is said of the slot and the copy of the worker that is excepted. -/
structure Shows (sharding : Sharding) (t m : Nat) (except : Option WorkerId) (s : System F V)
    (r : Roster F) : Prop where
  room : t < s.threads.size
  bound : m < s.managers.size
  sharding : s.sharding = sharding
  name : s.name m = r.name
  roll : s.roll m = r.workers
  nodup : r.workers.Nodup
  counters : s.counters m = r.counters
  made : s.copies.toList.map (·.worker) = r.made
  spent : ∀ c, (.teardown,c) ∈ r.hooks → ∃ copy, s.copies[c]? = some copy ∧ copy.live = false
  seated : ∀ v, except ≠ some v → Seated s m v (r.find? v)

variable {sharding : Sharding} {t m i c : Nat} {w v : WorkerId} {s shared next : System F V}
  {r after : Roster F} {state state' : SlotState} {holder holder' : Option Nat} {f : F}
  {held : Option (Option (Nat × F))}

theorem Berth.keeps (berth : Berth s m w i state holder) (keeps : Keeps m w s next) :
    Berth next m w i state holder :=
  ⟨keeps.mapped.trans berth.mapped,keeps.slots _ _ berth.cell rfl⟩

theorem Berth.mapSlot {g : Slot → Slot} (berth : Berth s m w i state holder)
    (changed : g ⟨m,w,state,holder⟩ = ⟨m,w,state',holder'⟩) :
    Berth (s.mapSlot i g) m w i state' holder' := by
  refine ⟨berth.mapped,?_⟩
  simp [System.mapSlot,Array.getElem?_modify,berth.cell,changed]

theorem Berth.mapCopy (berth : Berth s m w i state holder) (c : Nat) (g : Copy F → Copy F) :
    Berth (s.mapCopy c g) m w i state holder :=
  ⟨berth.mapped,berth.cell⟩

theorem Berth.bump (berth : Berth s m w i state holder) (counter : Counter) :
    Berth (s.bump m counter) m w i state holder :=
  ⟨by rw [slot?_bump]; exact berth.mapped,berth.cell⟩

theorem Seated.keeps (seated : Seated s m w held) (keeps : Keeps m w s next) :
    Seated next m w held := by
  cases seated with
  | out missing => exact .out (keeps.mapped.trans missing)
  | bare berth => exact .bare (berth.keeps keeps)
  | housed berth copy => exact .housed (berth.keeps keeps) (keeps.copies _ _ copy rfl)

/-- A change to what belongs to one worker is a change of the roster when it has the numbers of the
new one. -/
theorem Shows.touch {made gone grown : Nat} (shows : Shows sharding t m (some w) s r)
    (touches : Touches m w s next made gone grown) (name : next.name m = after.name)
    (roll : next.roll m = after.workers) (nodup : after.workers.Nodup)
    (counters : next.counters m = after.counters)
    (made : next.copies.toList.map (·.worker) = after.made)
    (spent : ∀ c, (.teardown,c) ∈ after.hooks →
      ∃ copy, next.copies[c]? = some copy ∧ copy.live = false)
    (others : ∀ v, v ≠ w → after.find? v = r.find? v) :
    Shows sharding t m (some w) next after where
  room := touches.threads ▸ shows.room
  bound := touches.managers ▸ shows.bound
  sharding := touches.sharding.trans shows.sharding
  name := name
  roll := roll
  nodup := nodup
  counters := counters
  made := made
  spent := spent
  seated := by
    intro v away
    have apart : v ≠ w := fun same => away (congrArg some same.symm)
    rw [others v apart]
    exact (shows.seated v away).keeps (touches.keeps v apart)

theorem Shows.seat (shows : Shows sharding t m none s r) (w : WorkerId) :
    Seated s m w (r.find? w) :=
  shows.seated w (Option.some_ne_none w).symm

theorem Shows.except (shows : Shows sharding t m none s r) (w : WorkerId) :
    Shows sharding t m (some w) s r :=
  { shows with seated := fun v _ => shows.seat v }

theorem Shows.settle (shows : Shows sharding t m (some w) s r)
    (seated : Seated s m w (r.find? w)) : Shows sharding t m none s r :=
  { shows with
    seated := by
      intro v _
      by_cases own : v = w
      · exact own ▸ seated
      · exact shows.seated v fun same => own (Option.some.inj same).symm }

theorem Shows.setStack {except : Option WorkerId} (shows : Shows sharding t m except s r)
    (frames : List (Frame F V)) : Shows sharding t m except (s.setStack t frames) r where
  room := by simpa [System.setStack] using shows.room
  bound := shows.bound
  sharding := shows.sharding
  name := shows.name
  roll := shows.roll
  nodup := shows.nodup
  counters := shows.counters
  made := shows.made
  spent := shows.spent
  seated := fun v away => (shows.seated v away).keeps (.setStack m t v s frames)

theorem Shows.mapSlot {g : Slot → Slot} {slot : Slot} (shows : Shows sharding t m (some w) s r)
    (cell : s.slots[i]? = some slot) (own : slot.worker = w) :
    Shows sharding t m (some w) (s.mapSlot i g) r :=
  shows.touch (.mapSlot g cell own) shows.name shows.roll shows.nodup shows.counters
    shows.made shows.spent fun _ _ => rfl

theorem roll_mapManager (s : System F V) (m : Nat) (g : Manager → Manager)
    (kept : ∀ manager, (g manager).slots = manager.slots) :
    (s.mapManager m g).roll m = s.roll m := by
  simp only [roll,mapManager,Array.getElem?_modify,if_true]
  cases s.managers[m]? <;> simp [kept]

theorem Shows.bump (shows : Shows sharding t m (some w) s r) (counter : Counter) :
    Shows sharding t m (some w) (s.bump m counter) (r.count counter) := by
  refine shows.touch (.bump w counter shows.bound) ?_ ?_ shows.nodup ?_ shows.made shows.spent
    fun _ _ => rfl
  · exact (name_mapManager s m m (·.bump counter) fun _ => rfl).trans shows.name
  · exact (roll_mapManager s m (·.bump counter) fun _ => rfl).trans shows.roll
  · rw [counters_bump s m counter shows.bound,if_pos rfl,shows.counters]
    rfl

theorem roll_insert (s : System F V) (w : WorkerId) (i : Nat) (bound : m < s.managers.size) :
    (s.mapManager m (·.insert w i)).roll m = s.roll m ++ [w] := by
  simp only [roll,mapManager,Array.getElem?_modify,if_true,Array.getElem?_eq_getElem bound]
  simp [Manager.insert]

theorem roll_erase (s : System F V) (m : Nat) (w : WorkerId) :
    (s.mapManager m (·.erase w)).roll m = (s.roll m).filter (· ≠ w) := by
  simp only [roll,mapManager,Array.getElem?_modify,if_true]
  cases s.managers[m]? with
  | none => rfl
  | some manager =>
    simp only [Option.map_some,Option.getD_some,Manager.erase,List.filter_map]
    rfl

theorem Shows.size {except : Option WorkerId} (shows : Shows sharding t m except s r) :
    s.copies.size = r.numbered := by
  rw [Roster.numbered,← shows.made,List.length_map,Array.length_toList]

/-- A worker that is not registered gets a vacant slot of its own, last in the order of
registration. -/
theorem Shows.register (shows : Shows sharding t m none s r) (missing : s.slot? m w = none) :
    ∃ next, next = mapManager { s with slots := s.slots.push { manager := m, worker := w } } m
        (·.insert w s.slots.size) ∧
      Shows sharding t m (some w) next (r.enroll w) ∧ Berth next m w s.slots.size .vacant none := by
  have unknown : r.find? w = none := by
    have seated := shows.seat w
    cases held : r.find? w with
    | none => rfl
    | some held' =>
      rw [held] at seated
      cases seated with
      | bare berth | housed berth => cases missing.symm.trans berth.mapped
  have fresh : w ∉ r.workers := fun member => by
    simpa [unknown] using (Roster.find?_isSome r w).mpr member
  have grown : (r.enroll w).workers = r.workers ++ [w] := by
    rw [Roster.workers_enroll,unknown]
    rfl
  refine ⟨_,rfl,(shows.except w).touch (.register missing) ?_ ?_ ?_ ?_ ?_ ?_ ?_,?_,?_⟩
  · rw [Roster.name_enroll,← shows.name]
    exact name_mapManager _ m m _ fun _ => rfl
  · rw [grown,← shows.roll]
    exact roll_insert { s with slots := _ } w s.slots.size shows.bound
  · rw [grown]
    exact List.Nodup.append shows.nodup (List.nodup_singleton w) (by simpa using fresh)
  · rw [Roster.counters_enroll,← shows.counters]
    exact counters_mapManager _ m _ fun _ => rfl
  · rw [Roster.made_enroll]
    exact shows.made
  · rw [Roster.hooks_enroll]
    exact shows.spent
  · intro v away
    rw [Roster.find?_enroll,if_neg away]
  · change (s.mapManager m (·.insert w s.slots.size)).slot? m w = some s.slots.size
    rw [slot?_insert s m w _ missing]
    simp [shows.bound]
  · simp [mapManager]

theorem Shows.erase (shows : Shows sharding t m (some w) s r) :
    Shows sharding t m (some w) (s.mapManager m (·.erase w)) (r.remove w) := by
  refine shows.touch (.erase m w s) ?_ ?_ ?_ ?_ shows.made shows.spent ?_
  · exact (name_mapManager s m m (·.erase w) fun _ => rfl).trans shows.name
  · rw [roll_erase,shows.roll,Roster.workers_remove]
  · rw [Roster.workers_remove]
    exact shows.nodup.filter _
  · exact (counters_mapManager s m (·.erase w) fun _ => rfl).trans shows.counters
  · intro v away
    rw [Roster.find?_remove,if_neg away]

theorem slot?_erased (s : System F V) (m : Nat) (w : WorkerId) :
    (s.mapManager m (·.erase w)).slot? m w = none := by
  rw [slot?_erase]
  simp

theorem mapManager_eraseSlot (mapped : s.slot? m w = some i) :
    s.mapManager m (·.eraseSlot w i) = s.mapManager m (·.erase w) := by
  have same : s.managers.modify m (·.eraseSlot w i) = s.managers.modify m (·.erase w) := by
    refine Array.ext_getElem? fun j => ?_
    simp only [Array.getElem?_modify]
    split
    next own =>
      subst own
      refine Option.map_congr fun manager member => ?_
      have here : manager.slot? w = some i := by simpa [slot?,member] using mapped
      simp [Manager.eraseSlot,here]
    next => rfl
  simp [mapManager,same]

theorem Shows.number (shows : Shows sharding t m (some w) s r) (f : F) :
    Shows sharding t m (some w)
      { s with copies := s.copies.push { manager := m, worker := w, value := f } }
        (r.number w) := by
  refine shows.touch (.number m w s _) shows.name shows.roll shows.nodup shows.counters ?_ ?_
    fun _ _ => rfl
  · simp [Roster.number,← shows.made]
  · intro c torn
    obtain ⟨copy,there,dead⟩ := shows.spent c torn
    exact ⟨copy,getElem?_push_of_some _ there,dead⟩

theorem Shows.mapCopy {g : Copy F → Copy F} {copy : Copy F}
    (shows : Shows sharding t m (some w) s r) (there : s.copies[c]? = some copy)
    (own : copy.worker = w) (kept : ∀ copy, (g copy).worker = copy.worker ∧
      (copy.live = false → (g copy).live = false)) :
    Shows sharding t m (some w) (s.mapCopy c g) r := by
  refine shows.touch (.mapCopy g there own) shows.name shows.roll shows.nodup shows.counters
    ?_ ?_ fun _ _ => rfl
  · rw [← shows.made]
    refine List.ext_getElem? fun d => ?_
    simp only [System.mapCopy,List.getElem?_map,Array.getElem?_toList,Array.getElem?_modify]
    split
    next => cases s.copies[d]? <;> simp [kept]
    next => rfl
  · intro d torn
    obtain ⟨other,here,gone⟩ := shows.spent d torn
    by_cases same : c = d
    · subst same
      exact ⟨g other,getElem?_mapCopy g here,(kept other).2 gone⟩
    · exact ⟨other,by simp [System.mapCopy,Array.getElem?_modify,same,here],gone⟩

theorem Shows.put (shows : Shows sharding t m (some w) s r) (copy : Nat × F) :
    Shows sharding t m (some w) s (r.put w copy) :=
  { shows with
    roll := shows.roll.trans (Roster.workers_put r w copy).symm
    nodup := (Roster.workers_put r w copy).symm ▸ shows.nodup
    seated := by
      intro v away
      have apart : v ≠ w := fun same => away (congrArg some same.symm)
      rw [Roster.find?_put,if_neg apart]
      exact shows.seated v away }

theorem Shows.ran {except : Option WorkerId} {hook : Hook} (shows : Shows sharding t m except s r)
    (c : Nat) (other : hook ≠ .teardown) : Shows sharding t m except s (r.ran hook c) :=
  { shows with
    spent := by
      intro d torn
      refine shows.spent d ?_
      simpa [Roster.ran,other.symm] using torn }

/-- A copy that has been claimed can be torn down without a trace in the roster but for the hook. -/
theorem Shows.tornDown {copy : Copy F} (shows : Shows sharding t m (some w) s r)
    (there : s.copies[c]? = some copy) (dead : copy.live = false) :
    Shows sharding t m (some w) s (r.ran .teardown c) :=
  { shows with
    spent := by
      intro d torn
      obtain earlier | same := List.mem_append.mp torn
      · exact shows.spent d earlier
      · obtain rfl : d = c := by simpa using same
        exact ⟨copy,there,dead⟩ }

end System
end PerWorker
