import PerWorker.Proofs.Lifecycle.Places

/-!
Populations of one worker. The lock of a slot keeps two calls from populating it at once, but a
worker can have several slots: a release unmaps the slot before it waits for the population under
way, and the next call to ask for the worker gets a fresh one. Main statement: at most one of the
populations of a worker has not been overtaken in this way, and where one has, the next call that
asks for the worker starts another.
-/
namespace PerWorker

def GetPoint.creates? {F : Type} : GetPoint F → Option Nat
  | .replicating i | .countCloneFailure i _ | .logCloneFailure i _ | .countCopy i _ | .number i _
  | .settingUp i _ | .countSetupFailure i _ _ | .logSetupFailure i _ _ | .countSetup i _
  | .logSetup i _ => some i
  | .look | .register | .enter _ | .publish _ _ | .retire _ _ | .leave _ _ | .prune _ _ => none

def Frame.creates? {F V : Type} (m : Nat) (w : WorkerId) : Frame F V → Option Nat
  | .get n v point => if n = m ∧ v = w then point.creates? else none
  | _ => none

theorem Frame.role_of_creates {F V : Type} {m i : Nat} {w : WorkerId} {frame : Frame F V}
    (creates : frame.creates? m w = some i) :
    ∃ r, frame.role? = some r ∧ r.fills? = some i ∧ r.home? = some (m,w,i) := by
  unfold Frame.creates? at creates
  split at creates
  next n v point =>
    split at creates
    next own =>
      obtain ⟨rfl,rfl⟩ := own
      cases point <;> cases creates <;> exact ⟨_,rfl,rfl,rfl⟩
    next => contradiction
  next => contradiction

namespace System

variable {F V : Type} {sharding : Sharding} {names : List String} {threads : Nat}
  {past : List (Entry F V)} {s : System F V} {m i t : Nat} {w : WorkerId}

/-- The threads that are inside the creation of a copy for a worker, each with its slot. -/
def creators (s : System F V) (m : Nat) (w : WorkerId) : List (Nat × Nat) :=
  s.collect fun t frame => (frame.creates? m w).map (t,·)

/-- Those whose slot is no longer the one mapped under the worker. -/
def overtaken (s : System F V) (m : Nat) (w : WorkerId) : List (Nat × Nat) :=
  (s.creators m w).filter fun x => s.slot? m w ≠ some x.2

theorem mem_collect {α : Type} {f : Nat → Frame F V → Option α} {a : α} :
    a ∈ s.collect f ↔ ∃ t, ∃ frame ∈ s.stack t, f t frame = some a := by
  simp only [collect,List.mem_flatMap,List.mem_range,List.mem_filterMap]
  constructor
  · rintro ⟨t,_,told⟩
    exact ⟨t,told⟩
  · rintro ⟨t,frame,member,told⟩
    obtain ⟨first,below,top⟩ := List.exists_cons_of_ne_nil (List.ne_nil_of_mem member)
    exact ⟨t,bound_of_stack s t first below top,frame,member,told⟩

theorem mem_creators (member : (t,i) ∈ s.creators m w) :
    ∃ r, (t,r) ∈ s.ledger.roles ∧ r.fills? = some i ∧ r.home? = some (m,w,i) := by
  obtain ⟨u,frame,present,told⟩ := mem_collect.mp member
  obtain ⟨j,creates,same⟩ := Option.map_eq_some_iff.mp told
  cases same
  obtain ⟨r,role,fills,home⟩ := Frame.role_of_creates creates
  exact ⟨r,mem_roles present role,fills,home⟩

theorem collect_sublist {α : Type} {f g : Nat → Frame F V → Option α}
    (finer : ∀ t frame a, f t frame = some a → g t frame = some a) :
    (s.collect f).Sublist (s.collect g) := by
  have own (t : Nat) (frames : List (Frame F V)) :
      (frames.filterMap (f t)).Sublist (frames.filterMap (g t)) := by
    induction frames with
    | nil => exact .slnil
    | cons frame below ih =>
      cases told : f t frame with
      | none =>
        rw [List.filterMap_cons_none told]
        exact ih.trans ((List.sublist_cons_self ..).filterMap _)
      | some a =>
        rw [List.filterMap_cons_some told,List.filterMap_cons_some (finer t frame a told)]
        exact ih.cons_cons a
  unfold collect
  induction List.range s.threads.size with
  | nil => exact .slnil
  | cons t rest ih =>
    rw [List.flatMap_cons,List.flatMap_cons]
    exact (own t _).append ih

theorem collect_filterMap {α β : Type} (f : Nat → Frame F V → Option α) (g : α → Option β) :
    (s.collect f).filterMap g = s.collect fun t frame => (f t frame).bind g := by
  simp only [collect,List.filterMap_flatMap,List.filterMap_filterMap]

theorem Interleaving.creators_nodup (run : Interleaving (idle sharding names threads) past s)
    (m : Nat) (w : WorkerId) : ((s.creators m w).map Prod.snd).Nodup := by
  apply List.nodup_iff_count_le_one.mpr
  intro i
  have finer : ((s.creators m w).filterMap fun x => if x.2 = i then some x.1 else none).Sublist
      (s.gather fun t r => if r.locks? = some i then some t else none) := by
    rw [creators,collect_filterMap]
    apply collect_sublist
    intro t frame u told
    obtain ⟨x,creating,same⟩ := Option.bind_eq_some_iff.mp told
    obtain ⟨j,creates,rfl⟩ := Option.map_eq_some_iff.mp creating
    obtain ⟨r,role,fills,_⟩ := Frame.role_of_creates creates
    split at same <;> cases same
    next here => simp_all [Role.locks_of_fills fills]
  have few : (s.gather fun t r => if r.locks? = some i then some t else none).length ≤ 1 := by
    have held : (↑(s.gather fun t r => if r.locks? = some i then some t else none) : Multiset Nat) =
        threadsOf Role.locks? i s.ledger.roles := by
      rw [coe_gather,threadsOf,Multiset.map_filter_eq_filterMap]
    rw [← Multiset.coe_card,held,run.sound.locked i]
    cases s.ledger.holder? i <;> simp
  have count : ((s.creators m w).map Prod.snd).count i =
      ((s.creators m w).filterMap fun x => if x.2 = i then some x.1 else none).length := by
    induction s.creators m w with
    | nil => rfl
    | cons x rest ih => by_cases here : x.2 = i <;> simp [here,ih]
  rw [count]
  exact finer.length_le.trans few

/-- A slot that is being populated is mapped under its worker, or one release has unmapped it and
waits for the population. -/
theorem Interleaving.creators_reached (run : Interleaving (idle sharding names threads) past s)
    (manager : m < names.length) (creating : (t,i) ∈ s.creators m w) :
    s.slot? m w = some i ∨ (∀ n v, s.slot? n v ≠ some i) ∧ ∃ u, s.removers i = [u] := by
  have sound := run.sound
  obtain ⟨r,playing,fills,home⟩ := mem_creators creating
  have homed := sound.homes.roles _ playing m w i home
  have vacant := sound.guarded.fills _ playing i fills
  obtain mapped | ⟨u,removing⟩ | retired :=
    sound.removal.reached m w i (run.managers ▸ manager) homed
  · exact Or.inl mapped
  · obtain ⟨unreached,remover⟩ := run.remover_alone removing
    exact Or.inr ⟨unreached,u,remover⟩
  · rw [retired] at vacant
    cases vacant

theorem Interleaving.creators_length (run : Interleaving (idle sharding names threads) past s)
    (m : Nat) (w : WorkerId) : (s.creators m w).length ≤ (s.overtaken m w).length + 1 := by
  have split := List.length_eq_length_filter_add (l := s.creators m w)
    fun x => decide (s.slot? m w ≠ some x.2)
  have few : ((s.creators m w).filter fun x => !decide (s.slot? m w ≠ some x.2)).length ≤ 1 := by
    cases mapped : s.slot? m w with
    | none => simp
    | some i =>
      have once := List.nodup_iff_count_le_one.mp (run.creators_nodup m w) i
      rw [List.count,List.countP_map,List.countP_eq_length_filter] at once
      refine le_trans (le_of_eq ?_) once
      congr 1
      apply List.filter_congr
      intro x _
      by_cases here : x.2 = i
      · simp [here]
      · simp [here,Ne.symm here]
  rw [split]
  exact Nat.add_le_add_left few _

theorem stack_setStack (s : System F V) (frames : List (Frame F V)) (bound : t < s.threads.size) :
    (s.setStack t frames).stack t = frames := by
  simp [stack,setStack,bound]

theorem collect_push {α : Type} (f : Nat → Frame F V → Option α) {frame : Frame F V} {a : α}
    (bound : t < s.threads.size) (told : f t frame = some a) :
    ((s.setStack t (frame :: s.stack t)).collect f).length = (s.collect f).length + 1 := by
  have size : (s.setStack t (frame :: s.stack t)).threads.size = s.threads.size := by
    simp [setStack]
  have member : t ∈ Finset.range s.threads.size := Finset.mem_range.mpr bound
  have own : ((s.setStack t (frame :: s.stack t)).stack t).filterMap (f t) =
      a :: (s.stack t).filterMap (f t) := by
    rw [stack_setStack s _ bound,List.filterMap_cons_some told]
  have others : ∀ u ∈ (Finset.range s.threads.size).erase t,
      (↑(((s.setStack t (frame :: s.stack t)).stack u).filterMap (f u)) : Multiset α) =
        ↑((s.stack u).filterMap (f u)) := by
    intro u erased
    have other : t ≠ u := (Finset.ne_of_mem_erase erased).symm
    simp [stack,setStack,other]
  have grown : (↑((s.setStack t (frame :: s.stack t)).collect f) : Multiset α) =
      a ::ₘ ↑(s.collect f) := by
    rw [collect,collect,size,coe_flatMap_range,coe_flatMap_range,← Finset.add_sum_erase _ _ member,
      ← Finset.add_sum_erase _ _ member,Finset.sum_congr rfl others,own,← Multiset.cons_coe,
      Multiset.cons_add]
  simpa using congrArg Multiset.card grown

private theorem look_missing {below : List (Frame F V)} (top : s.stack t = .get m w .look :: below)
    (missing : s.slot? m w = none) :
    s.step t .advance = some (s.setStack t (.get m w .register :: below),[]) := by
  simp only [step,advance,top,advanceGet,missing,goto]

private theorem register_missing {below : List (Frame F V)}
    (top : s.stack t = .get m w .register :: below) (missing : s.slot? m w = none) :
    s.step t .advance =
      some (({ s with slots := s.slots.push { manager := m, worker := w } }.mapManager m
        (·.insert w s.slots.size)).setStack t (.get m w (.enter s.slots.size) :: below),[]) := by
  simp only [step,advance,top,advanceGet,missing,goto]

private theorem enter_vacant {below : List (Frame F V)} {slot : Slot}
    (top : s.stack t = .get m w (.enter i) :: below) (cell : s.slots[i]? = some slot)
    (free : slot.holder = none) (vacant : slot.state = .vacant) :
    s.step t .advance = some ((s.mapSlot i ({ · with holder := some t })).setStack t
      (.get m w (.replicating i) :: below),[.drawing m]) := by
  simp [step,advance,top,advanceGet,enterSlot?,cell,free,vacant,goto]

/-- Where no slot is mapped under a worker, a call that asks for its copy starts to create one,
whatever else is being populated. -/
theorem creators_grow (unmapped : s.slot? m w = none) (opened : s.isOpen t = true) :
    ∃ next entries, s.follow [(t,.call (.get m w)),(t,.advance),(t,.advance),(t,.advance)] =
      some (next,entries) ∧ (next.creators m w).length = (s.creators m w).length + 1 := by
  have bound : t < s.threads.size := by simp_all [isOpen]
  have top {next : System F V} {frame : Frame F V}
      (threads : next.threads = s.threads.setIfInBounds t (frame :: s.stack t)) :
      next.stack t = frame :: s.stack t := by
    simp [stack,threads,bound]
  obtain ⟨s1,called,threads1,missing1⟩ : ∃ s1, s.step t (.call (.get m w)) =
      some (s1,[.called (.get m w)]) ∧
      s1.threads = s.threads.setIfInBounds t (.get m w .look :: s.stack t) ∧
      s1.slot? m w = none :=
    ⟨s.setStack t (.get m w .look :: s.stack t),by simp [step,opened,goto,firstFrames],rfl,unmapped⟩
  obtain ⟨s2,looked,threads2,missing2⟩ : ∃ s2, s1.step t .advance = some (s2,[]) ∧
      s2.threads = s.threads.setIfInBounds t (.get m w .register :: s.stack t) ∧
      s2.slot? m w = none :=
    ⟨_,look_missing (top threads1) missing1,by simp [setStack,threads1],missing1⟩
  obtain ⟨s3,registered,threads3,cell⟩ : ∃ s3, s2.step t .advance = some (s3,[]) ∧
      s3.threads = s.threads.setIfInBounds t (.get m w (.enter s2.slots.size) :: s.stack t) ∧
      s3.slots[s2.slots.size]? = some { manager := m, worker := w } :=
    ⟨_,register_missing (top threads2) missing2,by simp [setStack,mapManager,threads2],
      by simp [setStack,mapManager]⟩
  obtain ⟨s4,entered,threads4⟩ : ∃ s4, s3.step t .advance = some (s4,[.drawing m]) ∧
      s4.threads = s.threads.setIfInBounds t (.get m w (.replicating s2.slots.size) :: s.stack t) :=
    ⟨_,enter_vacant (top threads3) cell rfl rfl,by simp [setStack,mapSlot,threads3]⟩
  refine ⟨s4,[⟨t,.call (.get m w),[.called (.get m w)]⟩,⟨t,.advance,[]⟩,⟨t,.advance,[]⟩,
    ⟨t,.advance,[.drawing m]⟩],by simp [follow,called,looked,registered,entered],?_⟩
  have same : s4.creators m w =
      (s.setStack t (.get m w (.replicating s2.slots.size) :: s.stack t)).creators m w := by
    simp only [creators,collect,stack,setStack,threads4]
  rw [same]
  exact collect_push _ bound (a := (t,s2.slots.size)) (by simp [Frame.creates?,GetPoint.creates?])

/-- The creations of copies for one worker that are under way at once: they work on different
slots, and all but one have been overtaken by a release that unmapped their slot and waits for
them. Where the slot of a worker is unmapped, any call that asks for the worker's copy adds one, so
that a single overtaken creation is enough to have two. -/
theorem Interleaving.creators_exact (run : Interleaving (idle sharding names threads) past s)
    (m : Nat) (w : WorkerId) (manager : m < names.length) :
    ((s.creators m w).map Prod.snd).Nodup ∧
    (s.creators m w).length ≤ (s.overtaken m w).length + 1 ∧
    (∀ x ∈ s.overtaken m w, (∀ n v, s.slot? n v ≠ some x.2) ∧ ∃ u, s.removers x.2 = [u]) ∧
    (s.slot? m w = none → ∀ t, s.isOpen t = true → ∃ next entries,
      s.follow [(t,.call (.get m w)),(t,.advance),(t,.advance),(t,.advance)] = some (next,entries) ∧
      (next.creators m w).length = (s.creators m w).length + 1) := by
  refine ⟨run.creators_nodup m w,run.creators_length m w,?_,?_⟩
  · intro x member
    obtain ⟨creating,stale⟩ := List.mem_filter.mp member
    obtain current | gone := run.creators_reached manager creating
    · simp [current] at stale
    · exact gone
  · intro unmapped t opened
    exact creators_grow unmapped opened

def overtaking : List (Nat × Action Nat Nat) :=
  [(0,.call (.get 0 (.named "a"))),(0,.advance),(0,.advance),(0,.advance),(0,.drawn (.copy 7)),
    (0,.advance),(0,.advance),(1,.call (.release 0 (.named "a"))),(1,.advance),
    (2,.call (.get 0 (.named "a"))),(2,.advance),(2,.advance),(2,.advance),(2,.drawn (.copy 7)),
    (2,.advance),(2,.advance)]

theorem creators_exact_of_overtaking :
    ∃ (past : List (Entry Nat Nat)) (s : System Nat Nat),
      Interleaving (idle .single ["pool"] 3) past s ∧ (s.creators 0 (.named "a")).length = 2 ∧
      s.overtaken 0 (.named "a") = [(0,0)] ∧ ∃ u, s.removers 0 = [u] := by
  obtain ⟨⟨s,past⟩,followed⟩ :
      ∃ reached, (idle .single ["pool"] 3).follow overtaking = some reached := ⟨_,rfl⟩
  have run := Interleaving.start.follow followed
  have two : (s.creators 0 (.named "a")).length = 2 := by
    cases followed
    rfl
  have first : s.overtaken 0 (.named "a") = [(0,0)] := by
    cases followed
    rfl
  have exact := run.creators_exact 0 (.named "a") Nat.one_pos
  exact ⟨past,s,run,two,first,(exact.2.2.1 (0,0) (by simp [first])).2⟩

theorem two_setups_at_once :
    ∃ (past : List (Entry Nat Nat)) (s : System Nat Nat),
      Interleaving (idle .single ["pool"] 3) past s ∧
      s.stack 0 = [.get 0 (.named "a") (.settingUp 0 0)] ∧
      s.stack 2 = [.get 0 (.named "a") (.settingUp 1 1)] := by
  obtain ⟨⟨s,past⟩,followed⟩ :
      ∃ reached, (idle .single ["pool"] 3).follow overtaking = some reached := ⟨_,rfl⟩
  refine ⟨past,s,Interleaving.start.follow followed,?_,?_⟩ <;> cases followed <;> rfl

end System
end PerWorker
