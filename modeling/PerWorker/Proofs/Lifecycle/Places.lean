import PerWorker.Proofs.Lifecycle.Custody

/-!
Where copies are kept. A copy that was set up and is not being torn down has exactly one place, and
whoever has it there will tear it down or hand it on: the slot is mapped under the copy's own
worker, or one call is on its way to it. When no call is under way only the mapped slots are left,
and unless a template or a setup panicked each of them holds a live copy.
-/
namespace PerWorker

namespace Role

def fosters? : Role → Option (Nat × Nat × WorkerId)
  | .settingUp m w _ c | .ready m w _ c => some (c,m,w)
  | _ => none

def attends? : Role → Option Nat
  | .seeking _ _ i | .populating _ _ i | .settingUp _ _ i _ | .ready _ _ i _ => some i
  | _ => none

def clears? : Role → Option Nat
  | .departing _ _ i | .pruning _ _ i => some i
  | _ => none

end Role

namespace Ledger

variable {l next : Ledger} {t m n i c : Nat} {w v : WorkerId} {before after : Option Role}
  {notes more : List Note}

def Bound (l : Ledger) (c m : Nat) (w : WorkerId) : Prop :=
  ∃ bond, l.bonds[c]? = some bond ∧ bond.manager = m ∧ bond.worker = w

theorem Bound.shift (bound : l.Bound c m w) (shift : Shift l t before after notes next) :
    next.Bound c m w := by
  cases shift with
  | register | prune => split <;> exact bound
  | number =>
    obtain ⟨bond,entry,own⟩ := bound
    have old : c < l.bonds.size := (Array.getElem?_eq_some_iff.mp entry).1
    exact ⟨bond,by simp [Array.getElem?_push,entry,old.ne],own⟩
  | @kill d =>
    obtain ⟨bond,entry,own⟩ := bound
    by_cases here : d = c
    · exact ⟨{ bond with live := false },by simp [Array.getElem?_modify,here,entry],own⟩
    · exact ⟨bond,by simp [Array.getElem?_modify,here,entry],own⟩
  | _ => exact bound

theorem Shift.fosters {r : Role} (shift : Shift l t before after notes next) (member : r ∈ after)
    (fosters : r.fosters? = some (c,m,w)) :
    (∃ q ∈ before, q.fosters? = some (c,m,w)) ∨ l.bonds.size ≤ c ∧ next.Bound c m w := by
  cases shift with
  | stay => exact Or.inl ⟨r,member,fosters⟩
  | number =>
    cases member
    cases fosters
    exact Or.inr ⟨le_rfl,by simp [Bound]⟩
  | setUp =>
    cases member
    exact Or.inl ⟨_,rfl,fosters⟩
  | leave served told =>
    obtain ⟨c,_,rfl⟩ := served r member
    cases fosters
  | carry =>
    obtain ⟨c,_,rfl⟩ := Option.map_eq_some_iff.mp member
    cases fosters
  | _ => cases member <;> cases fosters

theorem Shift.live (shift : Shift l t before after notes next)
    (live : next.state? i = some (.live c)) :
    l.state? i = some (.live c) ∨ ∃ m w, before = some (.ready m w i c) := by
  have store := shift.store i
  generalize next.state? i = now at store live
  cases store with
  | kept => exact Or.inl live
  | published m w d old =>
    cases live
    exact Or.inr ⟨m,w,old⟩
  | made | abandoned | withdrawn => cases live

structure Bonded (l : Ledger) : Prop where
  fostered : ∀ x ∈ l.roles, ∀ c m w, x.2.fosters? = some (c,m,w) → l.Bound c m w
  live : ∀ i c, l.state? i = some (.live c) → ∃ m w, l.Bound c m w ∧ l.Homed m w i

/-- A copy is kept in slots of its own worker and manager only. -/
theorem Bonded.move (bonded : Bonded l) (homes : Homes l) (move : Move l notes next) :
    Bonded next := by
  obtain ⟨t,before,after,notes,shared,rest,split,shift⟩ := move
  have played {q} (own : q ∈ before) : (t,q) ∈ l.roles := mem_of_split split own
  have kept {c m w} (bound : l.Bound c m w) : shared.Bound c m w := bound.shift shift
  have stays {m w i} (homed : l.Homed m w i) : shared.Homed m w i := homed.shift shift
  refine ⟨?_,?_⟩
  · intro x member c m w fosters
    obtain own | other := Multiset.mem_add.mp member
    · obtain ⟨r,chosen,rfl⟩ := mem_tagged.mp own
      obtain ⟨q,had,same⟩ | ⟨_,new⟩ := shift.fosters chosen fosters
      · exact kept (bonded.fostered _ (played had) c m w same)
      · exact new
    · exact kept (bonded.fostered x (by simp [split,other]) c m w fosters)
  · intro i c live
    obtain old | ⟨m,w,ready⟩ := shift.live live
    · obtain ⟨m,w,bound,homed⟩ := bonded.live i c old
      exact ⟨m,w,kept bound,stays homed⟩
    · have own := played ready
      exact ⟨m,w,kept (bonded.fostered _ own c m w rfl),stays (homes.roles _ own m w i rfl)⟩

theorem Shift.clears {r : Role} (shift : Shift l t before after notes next) (homes : Homes l)
    (member : r ∈ before) (clears : r.clears? = some i) (mapped : next.mapped m w = some i)
    (here : ∀ n v, r.home? = some (n,v,i) → l.Homed n v i) :
    ∃ q ∈ after, q.clears? = some i := by
  cases shift with
  | stay => exact ⟨r,member,clears⟩
  | depart =>
    cases member
    exact ⟨_,rfl,clears⟩
  | @prune n v j =>
    cases member
    obtain rfl := Option.some.inj clears
    split at mapped
    next current =>
      obtain ⟨had,other⟩ := mapped_of_unmapped mapped
      exact absurd ((homes.mapped m w _ had).unique (here n v rfl)) other
    next stale =>
      obtain ⟨rfl,rfl⟩ := (homes.mapped m w _ mapped).unique (here n v rfl)
      exact absurd mapped stale
  | _ => cases member <;> cases clears

theorem Shift.attends {r : Role} (shift : Shift l t before after notes next) (member : r ∈ before)
    (attends : r.attends? = some i) (vacant : next.state? i = some .vacant) :
    (∃ q ∈ after, q.attends? = some i) ∨ .spoiled ∈ notes ∨
      ∃ c, .beat c (.ended .setup .panicked) ∈ notes := by
  cases shift with
  | stay => exact Or.inl ⟨r,member,attends⟩
  | occupy | number | setUp | discard =>
    cases member
    exact Or.inl ⟨_,rfl,attends⟩
  | spoil => exact Or.inr (Or.inl (by simp))
  | unwind => exact Or.inr (Or.inr ⟨_,List.mem_cons_self⟩)
  | meet cell free state | miss cell free state =>
    cases member
    obtain rfl := Option.some.inj attends
    rw [state_lock,state?,cell,Option.map_some,state] at vacant
    cases vacant
  | publish | abandon =>
    cases member
    obtain rfl := Option.some.inj attends
    rw [state_set,if_pos rfl] at vacant
    simp at vacant
  | _ => cases member <;> cases attends

theorem Shift.mapped_anew (shift : Shift l t before after notes next)
    (mapped : next.mapped m w = some i) :
    l.mapped m w = some i ∨ after = some (.seeking m w i) ∧ next.state? i = some .vacant := by
  cases shift with
  | @register n v missing =>
    split at mapped
    next present =>
      simp only [remap] at mapped
      split at mapped
      next own =>
        obtain ⟨rfl,rfl⟩ := own
        obtain rfl := Option.some.inj mapped
        exact Or.inr ⟨rfl,by simp [state?,present]⟩
      next => exact Or.inl mapped
    next => exact Or.inl mapped
  | prune =>
    split at mapped
    next => exact Or.inl (mapped_of_unmapped mapped).1
    next => exact Or.inl mapped
  | detach => exact Or.inl (mapped_of_unmapped mapped).1
  | _ => exact Or.inl mapped

theorem Shift.retires (shift : Shift l t before after notes next)
    (retired : next.state? i = some .retired) :
    l.state? i = some .retired ∨ (∃ q ∈ after, q.clears? = some i) ∨
      ∃ m w, before = some (.retiring m w i) := by
  have store := shift.store i
  generalize next.state? i = now at store retired
  cases store with
  | kept => exact Or.inl retired
  | abandoned m w old new => exact Or.inr (Or.inl ⟨_,new,rfl⟩)
  | withdrawn m w old => exact Or.inr (Or.inr ⟨m,w,old⟩)
  | made | published => cases retired

theorem Shift.vacant (shift : Shift l t before after notes next) (bound : i < l.slots.size)
    (vacant : next.state? i = some .vacant) : l.state? i = some .vacant := by
  have store := shift.store i
  generalize next.state? i = now at store vacant
  cases store with
  | kept => exact vacant
  | made fresh => exact absurd bound fresh.not_lt
  | published | abandoned | withdrawn => cases vacant

structure Attended (notes : List Note) (l : Ledger) : Prop where
  retired : ∀ m w i, l.mapped m w = some i → l.state? i = some .retired →
    ∃ x ∈ l.roles, x.2.clears? = some i
  vacant : ∀ m w i, l.mapped m w = some i → l.state? i = some .vacant →
    (∃ x ∈ l.roles, x.2.attends? = some i) ∨ .spoiled ∈ notes ∨
      ∃ c, .beat c (.ended .setup .panicked) ∈ notes

/-- A mapped slot without a copy is seen to by some call, unless a panic has left it like that. -/
theorem Attended.move (attended : Attended notes l) (sound : Sound l) (move : Move l more next) :
    Attended (notes ++ more) next := by
  obtain ⟨t,before,after,more,shared,rest,split,shift⟩ := move
  have played {q} (own : q ∈ before) : (t,q) ∈ l.roles := mem_of_split split own
  have plays {q} (own : q ∈ after) : (t,q) ∈ tagged t after + rest := mem_of_split rfl own
  refine ⟨?_,?_⟩
  · intro m w i mapped retired
    change shared.mapped m w = some i at mapped
    change shared.state? i = some .retired at retired
    -- A slot that has just been mapped is vacant.
    obtain had | ⟨_,vacant⟩ := shift.mapped_anew mapped
    · obtain old | ⟨q,own,clears⟩ | ⟨n,v,retiring⟩ := shift.retires retired
      · obtain ⟨x,member,clears⟩ := attended.retired m w i had old
        obtain own | other := Multiset.mem_add.mp (split ▸ member)
        · obtain ⟨r,chosen,rfl⟩ := mem_tagged.mp own
          obtain ⟨q,own,clears⟩ := shift.clears sound.homes chosen clears mapped
            fun n v home => sound.homes.roles _ member n v i home
          exact ⟨(t,q),plays own,clears⟩
        · exact ⟨x,Multiset.mem_add.mpr (Or.inr other),clears⟩
      · exact ⟨(t,q),plays own,clears⟩
      · have removing : t ∈ l.removers i := mem_threadsOf (played retiring) rfl
        simp [sound.removal.apart m w i had] at removing
    · rw [retired] at vacant
      cases vacant
  · intro m w i mapped vacant
    change shared.mapped m w = some i at mapped
    change shared.state? i = some .vacant at vacant
    obtain had | ⟨seeking,_⟩ := shift.mapped_anew mapped
    · have old := shift.vacant (sound.homes.mapped m w i had).lt vacant
      obtain ⟨x,member,attends⟩ | spoiled | ⟨c,panicked⟩ := attended.vacant m w i had old
      · obtain own | other := Multiset.mem_add.mp (split ▸ member)
        · obtain ⟨r,chosen,rfl⟩ := mem_tagged.mp own
          obtain ⟨q,own,attends⟩ | spoiled | ⟨c,panicked⟩ := shift.attends chosen attends vacant
          · exact Or.inl ⟨(t,q),plays own,attends⟩
          · exact Or.inr (Or.inl (List.mem_append_right _ spoiled))
          · exact Or.inr (Or.inr ⟨c,List.mem_append_right _ panicked⟩)
        · exact Or.inl ⟨x,Multiset.mem_add.mpr (Or.inr other),attends⟩
      · exact Or.inr (Or.inl (List.mem_append_left _ spoiled))
      · exact Or.inr (Or.inr ⟨c,List.mem_append_left _ panicked⟩)
    · exact Or.inl ⟨_,plays seeking,rfl⟩

theorem Bonded.empty (managers : Nat) : Bonded (.empty managers) :=
  ⟨by simp [Ledger.empty],by simp [Ledger.empty,state?]⟩

theorem Attended.empty (managers : Nat) : Attended [] (.empty managers) :=
  ⟨by simp [Ledger.empty],by simp [Ledger.empty]⟩

end Ledger

namespace System

variable {F V : Type}

def state? (s : System F V) (i : Nat) : Option SlotState := (s.slots[i]?).map (·.state)

def collect {α : Type} (s : System F V) (f : Nat → Frame F V → Option α) : List α :=
  (List.range s.threads.size).flatMap fun t => (s.stack t).filterMap (f t)

def gather {α : Type} (s : System F V) (f : Nat → Role → Option α) : List α :=
  s.collect fun t frame => frame.role?.bind (f t)

/-- Every place in which a copy is: with the calls under way, and in slots. -/
def places (s : System F V) (c : Nat) : List Location :=
  s.gather (fun t r => r.place? t c) ++ (List.range s.slots.size).filterMap fun i =>
    if s.state? i = some (.live c) then some (.resting i) else none

def removers (s : System F V) (i : Nat) : List Nat :=
  s.gather fun t r => if r.detaches? = some i then some t else none

/-- Whoever has a copy in a place answers for it. -/
inductive Answers (s : System F V) (copy : Copy F) : Location → Prop
  /-- It is about to be put into a slot by the thread that has the slot's lock. -/
  | populating (t i : Nat) (locked : (s.slots[i]?).bind (·.holder) = some t) :
      Answers s copy (.ready t i)
  /-- Its slot is mapped under its own worker. -/
  | mapped (i : Nat) (reached : s.slot? copy.manager copy.worker = some i)
      (apart : s.removers i = []) : Answers s copy (.resting i)
  /-- Its slot is unmapped, and the one call that did so is going to retire it. -/
  | removed (t i : Nat) (unreached : ∀ m w, s.slot? m w ≠ some i) (remover : s.removers i = [t]) :
      Answers s copy (.resting i)
  | taken (t : Nat) : Answers s copy (.taken t)

theorem coe_flatMap_range {α : Type} (f : Nat → List α) (n : Nat) :
    ((List.range n).flatMap f : Multiset α) = ∑ i ∈ Finset.range n, ↑(f i) := by
  induction n with
  | zero => rfl
  | succ n ih =>
    rw [List.range_succ,List.flatMap_append,← Multiset.coe_add,ih,Finset.sum_range_succ]
    simp

theorem coe_gather {α : Type} (s : System F V) (f : Nat → Role → Option α) :
    (s.gather f : Multiset α) = s.ledger.roles.filterMap fun x => f x.1 x.2 := by
  have own (t : Nat) (frames : List (Frame F V)) :
      (stackRoles t frames).filterMap (fun x => f x.1 x.2) =
        ↑(frames.filterMap fun frame => frame.role?.bind (f t)) := by
    simp only [stackRoles,Multiset.filterMap_coe,List.filterMap_map,List.filterMap_filterMap]
    rfl
  have sum (n : Nat) (g : Nat → Multiset (Nat × Role)) :
      (∑ t ∈ Finset.range n, g t).filterMap (fun x => f x.1 x.2) =
        ∑ t ∈ Finset.range n, (g t).filterMap fun x => f x.1 x.2 := by
    induction n with
    | zero => rfl
    | succ n ih => rw [Finset.sum_range_succ,Finset.sum_range_succ,Multiset.filterMap_add,ih]
  rw [gather,collect,coe_flatMap_range]
  change _ = s.roles.filterMap _
  rw [roles,sum]
  exact Finset.sum_congr rfl fun t _ => (own t (s.stack t)).symm

theorem coe_places (s : System F V) (c : Nat) :
    (s.places c : Multiset Location) = s.ledger.places c := by
  rw [places,← Multiset.coe_add,coe_gather,Ledger.places]
  congr 1
  rw [List.filterMap_eq_flatMap_toList,coe_flatMap_range]
  rfl

theorem coe_removers (s : System F V) (i : Nat) :
    (s.removers i : Multiset Nat) = s.ledger.removers i := by
  rw [removers,coe_gather,Ledger.removers,threadsOf,Multiset.map_filter_eq_filterMap]

variable {sharding : Sharding} {names : List String} {threads : Nat} {past : List (Entry F V)}
  {s : System F V} {c : Nat} {copy : Copy F}

theorem Interleaving.bonded (run : Interleaving (idle sharding names threads) past s) :
    s.ledger.Bonded := by
  refine run.induct_sound (fun _ l => l.Bonded) (.empty names.length) ?_
  intro before l more next sound bonded move
  exact bonded.move sound.homes move

theorem Interleaving.attended (run : Interleaving (idle sharding names threads) past s) :
    s.ledger.Attended (notes past) := by
  refine run.induct_sound (fun notes l => l.Attended notes) (.empty names.length) ?_
  intro before l more next sound attended move
  exact attended.move sound move

theorem mem_places {l : Ledger} {place : Location} (member : place ∈ l.places c) :
    (∃ x ∈ l.roles, x.2.place? x.1 c = some place) ∨
      ∃ i, l.state? i = some (.live c) ∧ place = .resting i := by
  obtain own | slot := Multiset.mem_add.mp member
  · exact Or.inl ((Multiset.mem_filterMap _ _).mp own)
  · obtain ⟨i,_,here⟩ := Multiset.mem_sum.mp slot
    right
    refine ⟨i,?_⟩
    by_cases live : l.state? i = some (.live c)
    · exact ⟨live,by simpa [Ledger.resting?,live] using here⟩
    · simp [Ledger.resting?,live] at here

theorem Interleaving.remover_alone (run : Interleaving (idle sharding names threads) past s)
    {i u : Nat} (removing : u ∈ s.ledger.removers i) :
    (∀ m w, s.slot? m w ≠ some i) ∧ s.removers i = [u] := by
  have sound := run.sound
  refine ⟨?_,?_⟩
  · intro m w mapped
    have apart := sound.removal.apart m w i mapped
    simp [apart] at removing
  · obtain ⟨rest,split⟩ := Multiset.exists_cons_of_mem removing
    have alone := sound.removal.alone i
    rw [split,Multiset.card_cons] at alone
    obtain rfl : rest = 0 := Multiset.card_eq_zero.mp (by omega)
    exact Multiset.coe_eq_singleton.mp ((coe_removers s i).trans split)

/-- Whoever has a copy in a place answers for it, whatever the interleaving. -/
theorem Interleaving.answers (run : Interleaving (idle sharding names threads) past s)
    (entry : s.copies[c]? = some copy) (manager : copy.manager < names.length)
    {place : Location} (member : place ∈ s.ledger.places c) (held : place.phase = .held) :
    s.Answers copy place := by
  have sound := run.sound
  obtain ⟨⟨t,r⟩,playing,own⟩ | ⟨i,live,rfl⟩ := mem_places member
  · cases r with
    | ready m w i d =>
      have holds : t ∈ threadsOf Role.locks? i s.ledger.roles := mem_threadsOf playing rfl
      rw [sound.locked i] at holds
      simp only [Role.place?] at own
      split at own <;> cases own
      refine .populating t i ?_
      change s.ledger.holder? i = some t
      cases holder : s.ledger.holder? i with
      | none => simp [holder] at holds
      | some u => simp_all
    | withdrawn m w i found =>
      cases found with
      | none => cases own
      | some d =>
        simp only [Role.place?] at own
        split at own <;> cases own
        exact .taken t
    | taken d =>
      simp only [Role.place?] at own
      split at own <;> cases own
      exact .taken t
    | settingUp | tearingDown =>
      simp only [Role.place?] at own
      split at own <;> cases own
      cases held
    | _ => cases own
  · have removers := coe_removers s i
    obtain ⟨m,w,⟨bond,bound,rfl,rfl⟩,homed⟩ := run.bonded.live i c live
    have same : copy.bond = bond := by
      have mapped : (s.copies.map Copy.bond)[c]? = some copy.bond := by simp [entry]
      exact Option.some.inj (mapped.symm.trans bound)
    subst same
    have managers : s.ledger.managers = names.length := run.managers
    obtain mapped | ⟨u,removing⟩ | retired := sound.removal.reached _ _ i (managers ▸ manager) homed
    · have apart := sound.removal.apart _ _ i mapped
      rw [apart] at removers
      exact .mapped i mapped ((Multiset.coe_eq_zero _).mp removers)
    · obtain ⟨unreached,remover⟩ := run.remover_alone removing
      exact .removed u i unreached remover
    · rw [retired] at live
      cases live

theorem spoiled_of_noted (noted : .spoiled ∈ notes past) :
    ∃ entry ∈ past, ∃ message, entry.action = .drawn (.panicked message) := by
  obtain ⟨entry,member,noted⟩ := List.mem_flatMap.mp noted
  refine ⟨entry,member,?_⟩
  obtain acted | told := List.mem_append.mp noted
  · unfold Action.note? at acted
    split at acted
    next message drawn => exact ⟨message,drawn⟩
    next => simp at acted
  · obtain ⟨event,_,same⟩ := List.mem_filterMap.mp told
    unfold Event.note? at same
    split at same <;> cases same

theorem roles_of_idle (idle : ∀ t, s.stack t = []) : s.ledger.roles = 0 := by
  change s.roles = 0
  apply Finset.sum_eq_zero
  intro t _
  rw [idle t]
  rfl

/-- No copy is ever orphaned. One that was set up and whose teardown has not begun has exactly one
place, which is answered for. When no call is under way these copies are the live ones of the slots
mapped under their workers, and if no template and no setup panicked so far then every mapped slot
holds such a copy. -/
theorem Interleaving.no_orphan (run : Interleaving (idle sharding names threads) past s) :
    (∀ c copy, s.copies[c]? = some copy → copy.manager < names.length →
      hookHistory c (observed past) = [.began .setup,.ended .setup .returned] →
      ∃ place, s.places c = [place] ∧ s.Answers copy place) ∧
    ((∀ t, s.stack t = []) →
      (∀ c copy, s.copies[c]? = some copy → copy.manager < names.length →
        (hookHistory c (observed past) = [.began .setup,.ended .setup .returned] ↔
          ∃ i, s.slot? copy.manager copy.worker = some i ∧ s.state? i = some (.live c))) ∧
      ((∀ entry ∈ past, ∀ message, entry.action ≠ .drawn (.panicked message)) →
        (∀ c, .hookEnded .setup c .panicked ∉ observed past) →
        ∀ m w i, s.slot? m w = some i → ∃ c copy, s.state? i = some (.live c) ∧
          s.copies[c]? = some copy ∧ copy.manager = m ∧ copy.worker = w ∧
          hookHistory c (observed past) = [.began .setup,.ended .setup .returned])) := by
  have custody := run.custody
  have alone {c : Nat}
      (setUp : hookHistory c (observed past) = [.began .setup,.ended .setup .returned]) :
      ∃ place, s.ledger.places c = {place} ∧ place.phase = .held := by
    rw [hookHistory_observed] at setUp
    exact Multiset.map_eq_singleton.mp ((custody.lines c).held_of setUp)
  have setUp {i c : Nat} (live : s.state? i = some (.live c)) :
      hookHistory c (observed past) = [.began .setup,.ended .setup .returned] := by
    rw [hookHistory_observed]
    exact (custody.lines c).of_held (Ledger.held_of_live live)
  refine ⟨?_,fun idle => ⟨?_,?_⟩⟩
  · intro c copy entry manager history
    obtain ⟨place,only,held⟩ := alone history
    refine ⟨place,Multiset.coe_eq_singleton.mp ((coe_places s c).trans only),?_⟩
    exact run.answers entry manager (by simp [only]) held
  · intro c copy entry manager
    refine ⟨?_,fun ⟨i,_,live⟩ => setUp live⟩
    intro history
    obtain ⟨place,only,held⟩ := alone history
    have member : place ∈ s.ledger.places c := by simp [only]
    have answers := run.answers entry manager member held
    -- No call is under way that could hold the copy.
    obtain ⟨x,playing,_⟩ | ⟨i,live,rfl⟩ := mem_places member
    · simp [roles_of_idle idle] at playing
    · cases answers with
      | mapped i reached apart => exact ⟨i,reached,live⟩
      | removed t i unreached remover =>
        have removers := coe_removers s i
        simp [remover,Ledger.removers,threadsOf,roles_of_idle idle] at removers
  · intro undrawn unpanicked m w i mapped
    obtain ⟨state,held⟩ := (run.sound.homes.mapped m w i mapped).state
    cases state with
    | vacant =>
      obtain ⟨x,playing,_⟩ | spoiled | ⟨c,panicked⟩ := run.attended.vacant m w i mapped held
      · simp [roles_of_idle idle] at playing
      · obtain ⟨entry,member,message,drawn⟩ := spoiled_of_noted spoiled
        exact absurd drawn (undrawn entry member message)
      · exact absurd (ended_of_noted (notes_filter past) panicked) (unpanicked c)
    | retired =>
      obtain ⟨x,playing,_⟩ := run.attended.retired m w i mapped held
      simp [roles_of_idle idle] at playing
    | live c =>
      obtain ⟨n,v,⟨bond,bound,rfl,rfl⟩,homed⟩ := run.bonded.live i c held
      obtain ⟨rfl,rfl⟩ := (run.sound.homes.mapped m w i mapped).unique homed
      obtain ⟨copy,entry,rfl⟩ : ∃ copy, s.copies[c]? = some copy ∧ copy.bond = bond := by
        simpa [ledger] using bound
      exact ⟨c,copy,held,entry,rfl,rfl,setUp held⟩

def firstGet : List (Nat × Action Nat Nat) := roundTrip.take 12

theorem no_orphan_of_firstGet :
    ∃ (past : List (Entry Nat Nat)) (s : System Nat Nat) (copy : Copy Nat),
      Interleaving (idle .single ["pool"] 1) past s ∧ s.copies[0]? = some copy ∧
      hookHistory 0 (observed past) = [.began .setup,.ended .setup .returned] ∧
      ∃ place, s.places 0 = [place] ∧ s.Answers copy place := by
  obtain ⟨⟨s,past⟩,followed⟩ : ∃ reached, (idle .single ["pool"] 1).follow firstGet = some reached :=
    ⟨_,rfl⟩
  have run := Interleaving.start.follow followed
  have entry : s.copies[0]? = some { manager := 0, worker := .named "a", value := 7 } := by
    cases followed
    rfl
  have setUp : hookHistory 0 (observed past) = [.began .setup,.ended .setup .returned] := by
    cases followed
    rfl
  exact ⟨past,s,_,run,entry,setUp,run.no_orphan.1 0 _ entry Nat.one_pos setUp⟩

def spoiledGet : List (Nat × Action Nat Nat) :=
  [(0,.call (.get 0 (.named "a"))),(0,.advance),(0,.advance),(0,.advance),
    (0,.drawn (.panicked "boom")),(0,.advance)]

/-- A template that panics leaves a vacant slot mapped when no call is under way any more, although
no hook has panicked. -/
theorem vacant_of_spoiledGet :
    ∃ (past : List (Entry Nat Nat)) (s : System Nat Nat),
      Interleaving (idle .single ["pool"] 1) past s ∧ (∀ t, s.stack t = []) ∧
      (∀ hook c, .hookEnded hook c .panicked ∉ observed past) ∧
      s.slot? 0 (.named "a") = some 0 ∧ s.state? 0 = some .vacant := by
  obtain ⟨⟨s,past⟩,followed⟩ :
      ∃ reached, (idle .single ["pool"] 1).follow spoiledGet = some reached := ⟨_,rfl⟩
  refine ⟨past,s,Interleaving.start.follow followed,?_,?_,?_,?_⟩
  · have threads : s.threads = #[[]] := by
      cases followed
      rfl
    intro t
    cases t <;> simp [stack,threads]
  · cases followed
    simp [observed]
  · cases followed
    rfl
  · cases followed
    rfl

end System
end PerWorker
