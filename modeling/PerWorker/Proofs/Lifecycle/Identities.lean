import PerWorker.Proofs.Lifecycle.Conservation
import PerWorker.Proofs.Lifecycle.Races
import PerWorker.Proofs.Lifecycle.Records

/-!
What a handle identifies. An instance is made when a copy is put into a slot, and every handle is
read off a slot: it refers to the instance that was put there. Main statement: each handle refers to
one instance, handles refer to the same one iff their numbers are equal, numbers are given out
without a gap, and as many as the managers have counted copies.
-/
namespace PerWorker

structure Placement where
  manager : Nat
  worker : WorkerId
  slot : Nat
  copy : Nat
  deriving DecidableEq, Repr

/-- The number that is shown for the copy. -/
def Placement.id (p : Placement) : Nat := p.copy + 1

/-- The instance that is read off a slot is the one that was put there, in the order of making. -/
def RefersTo (instances : List Placement) (handle : Placement) (k : Nat) : Prop :=
  (instances.map (·.slot))[k]? = some handle.slot

/-- Two handles refer to one instance. -/
def SameInstance (instances : List Placement) (h g : Placement) : Prop :=
  ∃ k, RefersTo instances h k ∧ RefersTo instances g k

section

variable {F V : Type}

def Frame.publishes? : Frame F V → Option Placement
  | .get m w (.publish i c) => some ⟨m,w,i,c⟩
  | _ => none

def Frame.hands? : Frame F V → Option Placement
  | .get m w (.leave i (.found c)) | .peek m w (.leave i (some c)) => some ⟨m,w,i,c⟩
  | _ => none

namespace Moment

variable (moment : Moment F V)

def advancing? (f : Frame F V → Option Placement) : Option Placement :=
  match moment.entry.action with
  | .advance => (moment.state.stack moment.entry.thread).head?.bind f
  | _ => none

def instance? : Option Placement := moment.advancing? Frame.publishes?

/-- The handle that a call comes to: for whoever made it, or for the body that it runs. -/
def handle? : Option Placement := moment.advancing? Frame.hands?

end Moment

def GetPoint.brings : GetPoint F → List Nat
  | .settingUp _ c | .countSetup _ c | .logSetup _ c | .publish _ c => [c]
  | _ => []

def bringing : Reading F Nat where
  get := fun _ _ point => point.brings

def numbering (m : Nat) : Reading F Unit where
  get := fun n _ point =>
    match point with
    | .number _ _ => if n = m then [()] else []
    | _ => []

end

namespace System

variable {F V : Type} {sharding : Sharding} {names : List String} {threads : Nat}
  {past : List (Entry F V)} {initial s next : System F V} {t m i c : Nat} {w : WorkerId}
  {a : Action F V} {frame : Frame F V} {below : List (Frame F V)} {events : List (Event V)}
  {p : Placement} {made : List Placement}
  {n : Nat} {v : WorkerId}

def instances (initial : System F V) (past : List (Entry F V)) : List Placement :=
  (initial.moments past).filterMap Moment.instance?

def handles (initial : System F V) (past : List (Entry F V)) : List Placement :=
  (initial.moments past).filterMap Moment.handle?

def ids (past : List (Entry F V)) : List Nat := (observed past).filterMap Event.given?

theorem advancing_top {f : Frame F V → Option Placement}
    (advancing : Moment.advancing? ⟨s,⟨t,a,events⟩⟩ f = some p) :
    a = .advance ∧ ∃ frame below, s.stack t = frame :: below ∧ f frame = some p := by
  cases a with
  | advance =>
    obtain ⟨frame,first,found⟩ := Option.bind_eq_some_iff.mp advancing
    exact ⟨rfl,frame,_,List.eq_cons_of_mem_head? first,found⟩
  | _ => cases advancing

theorem instance_iff : Moment.instance? ⟨s,⟨t,a,events⟩⟩ = some p ↔ a = .advance ∧
    ∃ below, s.stack t = .get p.manager p.worker (.publish p.slot p.copy) :: below := by
  constructor
  · intro publishing
    obtain ⟨rfl,frame,below,top,found⟩ := advancing_top publishing
    unfold Frame.publishes? at found
    split at found <;> cases found
    exact ⟨rfl,below,top⟩
  · rintro ⟨rfl,below,top⟩
    simp [Moment.instance?,Moment.advancing?,top,Frame.publishes?]

theorem stores_of_instance (made : Moment.instance? ⟨s,⟨t,a,events⟩⟩ = some p) :
    (Moment.record ⟨s,⟨t,a,events⟩⟩).stores = some (p.slot,.live p.copy) := by
  obtain ⟨rfl,below,top⟩ := instance_iff.mp made
  rw [record_of_top events top]
  rfl

theorem stores_cases {state : SlotState}
    (stores : (Moment.record ⟨s,⟨t,a,events⟩⟩).stores = some (i,state)) :
    state = .retired ∨ ∃ m w c, state = .live c ∧
      Moment.instance? ⟨s,⟨t,a,events⟩⟩ = some ⟨m,w,i,c⟩ := by
  obtain ⟨rfl,frame,below,top,storing⟩ := storing_of_stores stores
  cases storing with
  | publish m w c => exact Or.inr ⟨m,w,c,rfl,instance_iff.mpr ⟨rfl,below,top⟩⟩
  | fail | release => exact Or.inl rfl

theorem instance_of_bare (bare : (Moment.record ⟨s,⟨t,a,events⟩⟩).Bare) :
    Moment.instance? ⟨s,⟨t,a,events⟩⟩ = none := by
  refine Option.eq_none_iff_forall_not_mem.mpr fun p made => ?_
  cases (stores_of_instance made).symm.trans bare.stores

theorem instance_of_get {point : GetPoint F} (top : s.stack t = .get m w point :: below)
    (unpublished : ∀ i c, point ≠ .publish i c) : Moment.instance? ⟨s,⟨t,a,events⟩⟩ = none := by
  refine Option.eq_none_iff_forall_not_mem.mpr fun p made => ?_
  obtain ⟨_,_,here⟩ := instance_iff.mp made
  cases top.symm.trans here
  exact unpublished _ _ rfl

theorem instance_of_release {point : ReleasePoint}
    (top : s.stack t = .release m w point :: below) :
    Moment.instance? ⟨s,⟨t,a,events⟩⟩ = none := by
  refine Option.eq_none_iff_forall_not_mem.mpr fun p made => ?_
  obtain ⟨_,_,other⟩ := instance_iff.mp made
  cases top.symm.trans other

/-- A copy that gets a number is the next one, and the instance that is made is of a copy that has
been brought. -/
theorem step_brings (moved : s.step t a = some (next,events)) :
    (↑((Moment.instance? ⟨s,⟨t,a,events⟩⟩).toList.map Placement.copy) : Multiset Nat) +
        bringing.all next ≤
      bringing.all s + ↑((Moment.record ⟨s,⟨t,a,events⟩⟩).numbers.toList.map
        fun _ => s.copies.size) := by
  obtain ⟨rest,before,after,old,new,turn⟩ := step_read bringing moved
  rw [old,new,← add_assoc,add_right_comm (before : Multiset Nat)]
  refine add_le_add_left ?_ rest
  cases turn with
  | still bare =>
    rw [instance_of_bare bare]
    exact Multiset.zero_le _
  | got top ended bare =>
    rw [instance_of_bare bare]
    exact Multiset.zero_le _
  | release top | released top =>
    rw [instance_of_release top]
    exact Multiset.zero_le _
  | @get m w _ _ _ _ top turn =>
    rw [record_of_top events top]
    cases turn with
    | publish i c =>
      rw [instance_iff (p := ⟨m,w,i,c⟩) |>.mpr ⟨rfl,_,top⟩]
      exact le_rfl
    | fail | panic =>
      rw [instance_of_get top (by simp)]
      exact Multiset.zero_le _
    | _ =>
      rw [instance_of_get top (by simp)]
      exact le_rfl

theorem peek_found {point : PeekPoint} (top : s.stack t = .peek n v point :: below)
    (own : a.isOwn = true) (moved : s.step t a = some (next,events))
    (member : .peek m w (.leave i (some c)) ∈ next.stack t) :
    .peek m w (.leave i (some c)) ∈ s.stack t ∨
      s.state? i = some (.live c) ∧ .peek m w (.enter i) ∈ s.stack t := by
  rw [top]
  obtain ⟨_,_,_,goes,_,here⟩ | ⟨_,reply,_,_,_,_,answers⟩ := own_step top own moved
  · cases goes with
    | peek goes =>
      obtain same | old := List.mem_cons.mp (here ▸ member)
      · cases same
        cases goes with
        | meet free => exact Or.inr ⟨state_of_free free,List.mem_cons_self⟩
      · exact Or.inl (List.mem_cons_of_mem _ old)
  · obtain old | starts := resume_starts reply below _ (answers.1 ▸ member)
    · exact Or.inl (List.mem_cons_of_mem _ old)
    · cases starts

/-- A copy that a call has found was in the slot then, or has just been put there. -/
theorem step_hands {u : Nat} (moved : s.step t a = some (next,events))
    (member : frame ∈ next.stack u) (hands : frame.hands? = some p) :
    frame ∈ s.stack u ∨ Moment.instance? ⟨s,⟨t,a,events⟩⟩ = some p ∨
      s.state? p.slot = some (.live p.copy) ∧ ∃ former ∈ s.stack t, ∃ r, former.role? = some r ∧
        r.home? = some (p.manager,p.worker,p.slot) := by
  unfold Frame.hands? at hands
  split at hands <;> cases hands
  next m w i c =>
    obtain old | starts | ⟨point,below,top,turn⟩ := get_frames moved member
    · exact Or.inl old
    · cases starts
    · refine Or.inr ?_
      cases turn with
      | publish => exact Or.inl (instance_iff.mpr ⟨rfl,below,top⟩)
      | meet i c live => exact Or.inr ⟨live,_,top ▸ List.mem_cons_self,_,rfl,rfl⟩
  next m w i c =>
    by_cases other : u ≠ t
    · exact Or.inl ((step_effect moved).others other ▸ member)
    obtain rfl := not_not.mp other
    obtain old | starts | ⟨-,top,below,more,here,onward⟩ := step_frames moved member
    · exact Or.inl old
    · cases starts
    cases onward with
    | peek m w point =>
      obtain still | ⟨live,entering⟩ := peek_found here (own_of_plain here rfl moved) moved member
      · exact Or.inl still
      · exact Or.inr (Or.inr ⟨live,_,entering,_,rfl,rfl⟩)

structure Instanced (s : System F V) (made : List Placement) : Prop where
  single : ((made.map Placement.copy : Multiset Nat) + bringing.all s).Nodup
  numbered : ∀ c ∈ (made.map Placement.copy : Multiset Nat) + bringing.all s, c < s.copies.size
  slots : (made.map Placement.slot).Nodup
  stored : ∀ p ∈ made, ∃ state ∈ s.state? p.slot, state ≠ .vacant
  live : ∀ i c, s.state? i = some (.live c) → ∃ p ∈ made, p.slot = i ∧ p.copy = c
  own : ∀ p ∈ made, s.ledger.Homed p.manager p.worker p.slot ∧
    s.ledger.Bound p.copy p.manager p.worker
  shown : ∀ t, ∀ frame ∈ s.stack t, ∀ p ∈ frame.hands?, p ∈ made

theorem Enters.stored {record : Record} (enters : Enters s record next)
    (filled : ∀ i state, record.stores = some (i,state) → state ≠ .vacant)
    (stored : ∃ state ∈ s.state? i, state ≠ .vacant) :
    ∃ state ∈ next.state? i, state ≠ .vacant := by
  obtain ⟨state,held,full⟩ := stored
  have bound : i < s.slots.size := by
    by_contra outside
    cases (Enters.outside (Nat.not_lt.mp outside)).symm.trans held
  rw [enters.states i bound,Record.store]
  cases stores : record.stores with
  | none => exact ⟨state,held,full⟩
  | some write =>
    obtain ⟨j,new⟩ := write
    by_cases here : j = i
    · exact ⟨new,by simp [here],filled j new stores⟩
    · exact ⟨state,by simpa [here] using held,full⟩

theorem Enters.live {record : Record} (enters : Enters s record next)
    (holds : next.state? i = some (.live c)) :
    s.state? i = some (.live c) ∨ record.stores = some (i,.live c) := by
  have bound : i < s.slots.size := by
    by_contra outside
    cases enters.fresh i (Nat.not_lt.mp outside) _ holds
  rw [enters.states i bound,Record.store] at holds
  split at holds
  next j state stores =>
    split at holds
    next same =>
      obtain rfl := Option.some.inj holds
      exact Or.inr (same ▸ stores)
    next => exact Or.inl holds
  next => exact Or.inl holds

/-- The role of the call that publishes says all of the new instance. -/
theorem placed_of_instance (sound : s.ledger.Sound) (bonded : s.ledger.Bonded)
    (fresh : Moment.instance? ⟨s,⟨t,a,events⟩⟩ = some p) :
    s.ledger.Homed p.manager p.worker p.slot ∧ s.ledger.Bound p.copy p.manager p.worker ∧
      s.state? p.slot = some .vacant := by
  obtain ⟨_,below,top⟩ := instance_iff.mp fresh
  have role := mem_roles (r := .ready p.manager p.worker p.slot p.copy)
    (top ▸ List.mem_cons_self) rfl
  exact ⟨sound.homes.roles _ role _ _ _ rfl,bonded.fostered _ role _ _ _ rfl,
    sound.guarded.fills _ role _ rfl⟩

theorem stores_filled (i : Nat) (state : SlotState)
    (stores : (Moment.record ⟨s,⟨t,a,events⟩⟩).stores = some (i,state)) : state ≠ .vacant := by
  obtain rfl | ⟨_,_,_,rfl,_⟩ := stores_cases stores <;> simp

/-- What has been put into slots or is on its way there is of what was, and of a copy that gets the
next number. -/
theorem made_brings (made : List Placement) (moved : s.step t a = some (next,events)) :
    (↑((made ++ (Moment.instance? ⟨s,⟨t,a,events⟩⟩).toList).map Placement.copy) : Multiset Nat) +
        bringing.all next ≤
      ↑(made.map Placement.copy) + bringing.all s +
        ↑((Moment.record ⟨s,⟨t,a,events⟩⟩).numbers.toList.map fun _ => s.copies.size) := by
  rw [List.map_append,← Multiset.coe_add,add_assoc,add_assoc]
  exact add_le_add_right (step_brings moved) _

namespace Instanced

theorem single_step (instanced : Instanced s made) (moved : s.step t a = some (next,events)) :
    (↑((made ++ (Moment.instance? ⟨s,⟨t,a,events⟩⟩).toList).map Placement.copy) +
      bringing.all next).Nodup := by
  refine Multiset.nodup_of_le (made_brings made moved) ?_
  cases (Moment.record ⟨s,⟨t,a,events⟩⟩).numbers with
  | none => simpa using instanced.single
  | some owner =>
    rw [Option.toList_some,List.map_singleton,Multiset.coe_singleton,add_comm,
      Multiset.singleton_add,Multiset.nodup_cons]
    exact ⟨fun member => lt_irrefl _ (instanced.numbered _ member),instanced.single⟩

theorem numbered_step (instanced : Instanced s made) (moved : s.step t a = some (next,events))
    (member : c ∈ (↑((made ++ (Moment.instance? ⟨s,⟨t,a,events⟩⟩).toList).map Placement.copy) +
      bringing.all next : Multiset Nat)) : c < next.copies.size := by
  have size := (step_recorded moved).1.size
  obtain old | latest := Multiset.mem_add.mp (Multiset.mem_of_le (made_brings made moved) member)
  · exact (instanced.numbered c old).trans_le (Nat.le.intro size.symm)
  · obtain ⟨owner,given,rfl⟩ := List.mem_map.mp latest
    rw [size]
    exact Nat.lt_add_of_pos_right (List.length_pos_of_mem given)

/-- A slot that is filled is vacant, and those that have been filled are not. -/
theorem slots_step (instanced : Instanced s made) (sound : s.ledger.Sound)
    (bonded : s.ledger.Bonded) :
    ((made ++ (Moment.instance? ⟨s,⟨t,a,events⟩⟩).toList).map Placement.slot).Nodup := by
  rw [List.map_append,List.nodup_append]
  refine ⟨instanced.slots,by cases Moment.instance? ⟨s,⟨t,a,events⟩⟩ <;> simp,?_⟩
  rintro i former _ latter rfl
  obtain ⟨p,old,rfl⟩ := List.mem_map.mp former
  obtain ⟨q,latest,same⟩ := List.mem_map.mp latter
  obtain ⟨state,held,full⟩ := instanced.stored p old
  obtain ⟨-,-,vacant⟩ := placed_of_instance sound bonded (Option.mem_toList.mp latest)
  exact full (Option.some.inj (held.symm.trans (same ▸ vacant)))

theorem stored_step (instanced : Instanced s made) (sound : s.ledger.Sound)
    (bonded : s.ledger.Bonded) (moved : s.step t a = some (next,events))
    (member : p ∈ made ++ (Moment.instance? ⟨s,⟨t,a,events⟩⟩).toList) :
    ∃ state ∈ next.state? p.slot, state ≠ .vacant := by
  obtain ⟨enters,_,_⟩ := step_recorded moved
  obtain old | latest := List.mem_append.mp member
  · exact enters.stored stores_filled (instanced.stored p old)
  · have fresh := Option.mem_toList.mp latest
    obtain ⟨⟨slot,cell,_⟩,-,-⟩ := placed_of_instance sound bonded fresh
    have bound : p.slot < s.slots.size := (Array.getElem?_eq_some_iff.mp cell).1
    refine ⟨.live p.copy,?_,by simp⟩
    rw [enters.states _ bound,Record.store,stores_of_instance fresh]
    simp

theorem live_step (instanced : Instanced s made) (moved : s.step t a = some (next,events))
    (holds : next.state? i = some (.live c)) :
    ∃ p ∈ made ++ (Moment.instance? ⟨s,⟨t,a,events⟩⟩).toList, p.slot = i ∧ p.copy = c := by
  obtain held | stores := (step_recorded moved).1.live holds
  · obtain ⟨p,old,there⟩ := instanced.live i c held
    exact ⟨p,List.mem_append_left _ old,there⟩
  · obtain closed | ⟨m,w,d,same,fresh⟩ := stores_cases stores
    · cases closed
    · cases same
      exact ⟨_,List.mem_append_right _ (Option.mem_toList.mpr fresh),rfl,rfl⟩

/-- What a call finds in a slot is the instance that was put there: the slot is known to be of one
manager and worker. -/
theorem shown_step {u : Nat} (instanced : Instanced s made) (sound : s.ledger.Sound)
    (moved : s.step t a = some (next,events)) (member : frame ∈ next.stack u)
    (hands : frame.hands? = some p) :
    p ∈ made ++ (Moment.instance? ⟨s,⟨t,a,events⟩⟩).toList := by
  obtain old | fresh | ⟨held,former,entering,r,role,home⟩ := step_hands moved member hands
  · exact List.mem_append_left _ (instanced.shown u frame old p hands)
  · exact List.mem_append_right _ (Option.mem_toList.mpr fresh)
  · obtain ⟨q,old,same,copy⟩ := instanced.live _ _ held
    have home := sound.homes.roles _ (mem_roles entering role) _ _ _ home
    obtain ⟨manager,worker⟩ := (same ▸ (instanced.own q old).1).unique home
    obtain rfl : q = p := by
      cases p
      cases q
      simp_all
    exact List.mem_append_left _ old

theorem step (instanced : Instanced s made) (sound : s.ledger.Sound)
    (bonded : s.ledger.Bonded) (moved : s.step t a = some (next,events)) :
    Instanced next (made ++ (Moment.instance? ⟨s,⟨t,a,events⟩⟩).toList) where
  single := instanced.single_step moved
  numbered := fun _ member => instanced.numbered_step moved member
  slots := instanced.slots_step sound bonded
  stored := fun _ member => instanced.stored_step sound bonded moved member
  live := fun _ _ holds => instanced.live_step moved holds
  own := by
    intro p member
    have move := step_move moved
    obtain old | latest := List.mem_append.mp member
    · exact ⟨(instanced.own p old).1.move move,(instanced.own p old).2.move move⟩
    · obtain ⟨homed,bound,-⟩ := placed_of_instance sound bonded (Option.mem_toList.mp latest)
      exact ⟨homed.move move,bound.move move⟩
  shown := fun _ _ member _ hands => instanced.shown_step sound moved member hands

end Instanced

theorem Interleaving.read_step {α : Type} (f : Moment F V → Option α)
    (run : Interleaving initial past s) (moved : s.step t a = some (next,events)) :
    (initial.moments (past ++ [⟨t,a,events⟩])).filterMap f =
      (initial.moments past).filterMap f ++ (f ⟨s,⟨t,a,events⟩⟩).toList := by
  rw [run.moments_step moved,List.filterMap_append]
  cases read : f ⟨s,⟨t,a,events⟩⟩ <;> simp [read]

theorem Interleaving.instanced (run : Interleaving (idle sharding names threads) past s) :
    Instanced s (instances (idle sharding names threads) past) := by
  induction run with
  | start =>
    have vacant (i : Nat) : (idle sharding names threads : System F V).state? i = none := by
      simp [state?,idle,System.start]
    refine ⟨?_,?_,?_,?_,?_,?_,?_⟩ <;> simp [instances,moments,all_idle,vacant,stack_idle]
  | step t a events before moved ih =>
    rw [instances,before.read_step _ moved]
    exact ih.step before.sound before.bonded moved

theorem Interleaving.handles_made (run : Interleaving (idle sharding names threads) past s) :
    ∀ p ∈ handles (idle sharding names threads) past,
      p ∈ instances (idle sharding names threads) past := by
  induction run with
  | start => simp [handles,moments]
  | step t a events before moved ih =>
    intro p member
    rw [handles,before.read_step _ moved] at member
    rw [instances,before.read_step _ moved]
    refine List.mem_append_left _ ?_
    obtain old | latest := List.mem_append.mp member
    · exact ih p old
    · obtain ⟨-,frame,below,top,hands⟩ := advancing_top (Option.mem_toList.mp latest)
      exact before.instanced.shown t frame (top ▸ List.mem_cons_self) p hands

theorem handle_of_hands (hands : (Moment.record ⟨s,⟨t,a,events⟩⟩).hands = some c) :
    ∃ p, Moment.handle? ⟨s,⟨t,a,events⟩⟩ = some p ∧ p.copy = c := by
  obtain ⟨frame,below,rfl,top,same⟩ | ⟨outcome,same⟩ := record_cases s t a events <;>
    rw [same] at hands
  · have shown {p : Placement} (found : frame.hands? = some p) :
        Moment.handle? ⟨s,⟨t,.advance,events⟩⟩ = some p := by
      simp [Moment.handle?,Moment.advancing?,top,found]
    cases frame with
    | get m w point =>
      cases point with
      | leave i departure =>
        cases departure with
        | found =>
          cases hands
          exact ⟨_,shown rfl,rfl⟩
        | _ => cases hands
      | _ => cases hands
    | peek m w point =>
      cases point with
      | leave i found =>
        obtain rfl : found = some c := hands
        exact ⟨_,shown rfl,rfl⟩
      | _ => cases hands
    | release m w point => cases point <;> cases hands
    | _ => cases hands
  · cases hands

theorem Interleaving.answered_handles (run : Interleaving (idle sharding names threads) past s)
    {reply : Reply V} (told : .returned reply ∈ observed past) (handed : reply.handed? = some c) :
    ∃ p ∈ handles (idle sharding names threads) past, p.copy = c := by
  induction run with
  | start => cases told
  | @step past s next t a events before moved ih =>
    rw [handles,before.read_step _ moved]
    have split : observed (past ++ [⟨t,a,events⟩]) = observed past ++ events := by simp [observed]
    obtain old | latest := List.mem_append.mp (split ▸ told)
    · obtain ⟨p,member,same⟩ := ih old
      exact ⟨p,List.mem_append_left _ member,same⟩
    · obtain ⟨p,shown,same⟩ := handle_of_hands ((step_recorded moved).handed c
        (List.mem_filterMap.mpr ⟨_,latest,handed⟩))
      exact ⟨p,List.mem_append_right _ (Option.mem_toList.mpr shown),same⟩

theorem Interleaving.ids_range (run : Interleaving (idle sharding names threads) past s) :
    ids past = List.range' 1 s.copies.size := by
  induction run with
  | start => rfl
  | @step past s next t a events before moved ih =>
    obtain ⟨enters,tells,_⟩ := step_recorded moved
    have split : ids (past ++ [⟨t,a,events⟩]) = ids past ++ events.filterMap Event.given? := by
      simp [ids,observed]
    rw [split,ih,tells.given,enters.size]
    cases (Moment.record ⟨s,⟨t,a,events⟩⟩).numbers with
    | none => simp
    | some owner =>
      rw [Option.toList_some,List.map_singleton,List.length_singleton,List.range'_1_concat,
        Nat.add_comm]

theorem uncounted_apart (top : s.stack t = frame :: below) (away : m ∉ frame.managers)
    (counters : Counters) : (Moment.record ⟨s,⟨t,a,events⟩⟩).count m counters = counters ∧
      ((Moment.record ⟨s,⟨t,a,events⟩⟩).numbers.toList.map Prod.fst).count m = 0 := by
  obtain ⟨first,rest,-,here,same⟩ | ⟨outcome,same⟩ := record_cases s t a events <;> rw [same]
  · obtain ⟨rfl,rfl⟩ := List.cons.inj (top.symm.trans here)
    obtain ⟨counts,numbers,_⟩ := record_within s frame
    constructor
    · rw [Record.count]
      split
      next n counter counted =>
        refine if_neg ?_
        rintro rfl
        exact away (counts _ counted)
      next => rfl
    · rw [List.count_eq_zero,List.mem_map]
      rintro ⟨owner,member,rfl⟩
      exact away (numbers owner (Option.mem_toList.mp member))
  · exact ⟨rfl,rfl⟩

theorem numbering_apart (other : n ≠ m) (point : GetPoint F) :
    (numbering m).get n w point = [] := by
  cases point with
  | number => exact if_neg other
  | _ => rfl

/-- A step counts a copy before it gives it a number. -/
theorem step_counts (moved : s.step t a = some (next,events)) (bound : m < s.managers.size) :
    (next.counters m).copies + (s.owners.map Prod.fst).count m + ((numbering m).all s).card =
      (s.counters m).copies + (next.owners.map Prod.fst).count m +
        ((numbering m).all next).card := by
  obtain ⟨enters,_,_⟩ := step_recorded moved
  obtain ⟨rest,before,after,old,new,turn⟩ := step_read (numbering m) moved
  rw [old,new,enters.counters m bound,enters.owners,List.map_append,List.count_append]
  suffices turned : ((Moment.record ⟨s,⟨t,a,events⟩⟩).count m (s.counters m)).copies +
      before.length = (s.counters m).copies +
        ((Moment.record ⟨s,⟨t,a,events⟩⟩).numbers.toList.map Prod.fst).count m + after.length by
    rw [Multiset.card_add,Multiset.card_add,Multiset.coe_card,Multiset.coe_card]
    omega
  have foreign {n : Nat} {frame : Frame F V} {below : List (Frame F V)}
      (top : s.stack t = frame :: below) (only : frame.managers = [n]) (other : n ≠ m) :
      (Moment.record ⟨s,⟨t,a,events⟩⟩).count m (s.counters m) = s.counters m ∧
        ((Moment.record ⟨s,⟨t,a,events⟩⟩).numbers.toList.map Prod.fst).count m = 0 :=
    uncounted_apart top (by simpa [only] using other.symm) (s.counters m)
  cases turn with
  | still bare => simp [Record.count,bare.counts,bare.numbers]
  | got top ended bare => cases ended <;> simp [Record.count,bare.counts,bare.numbers,numbering]
  | @get n v _ _ _ _ top turn =>
    by_cases own : n = m
    · subst own
      rw [record_of_top events top]
      cases turn with
      | countRefusal | countCopy | number | countFailure | countSetup =>
        simp [Frame.writes,Frame.record,GetPoint.record,Record.count,numbering,Counters.bump,
          Counters.get,Counters.set]
      | _ => rfl
    · simp [foreign top rfl own,numbering_apart own]
  | @release n v _ _ _ _ top turn =>
    by_cases own : n = m
    · subst own
      rw [record_of_top events top]
      cases turn with
      | succeed | fail | count =>
        simp [Frame.writes,Frame.record,ReleasePoint.record,Record.count,numbering,Counters.bump,
          Counters.get,Counters.set]
      | _ => rfl
    · simp [foreign top rfl own,numbering]
  | released top ended advances =>
    rw [record_of_top events top,advances]
    cases ended <;> rfl

theorem Interleaving.counted (run : Interleaving (idle sharding names threads) past s)
    (manager : m < names.length) :
    (s.counters m).copies = (s.owners.map Prod.fst).count m + ((numbering m).all s).card := by
  induction run with
  | start =>
    have counters : (idle sharding names threads : System F V).counters m = {} := by
      simp [System.counters,idle,System.start,manager]
    rw [counters,all_idle]
    rfl
  | step t a events before moved ih =>
    have counts := step_counts moved (manager.trans_eq before.managers.symm)
    omega

theorem numbers_top {n : Nat} {v : WorkerId}
    (numbers : (Moment.record ⟨s,⟨t,a,events⟩⟩).numbers = some (n,v)) :
    ∃ i f below, s.stack t = .get n v (.number i f) :: below := by
  obtain ⟨frame,below,rfl,top,same⟩ | ⟨outcome,same⟩ := record_cases s t a events <;>
    rw [same] at numbers
  · cases frame with
    | get m w point =>
      cases point with
      | number i f =>
        cases numbers
        exact ⟨i,f,below,top⟩
      | leave i departure => cases departure <;> cases numbers
      | _ => cases numbers
    | peek m w point => cases point <;> cases numbers
    | release m w point => cases point <;> cases numbers
    | _ => cases numbers
  · cases numbers

theorem Interleaving.owned (run : Interleaving (idle sharding names threads) past s)
    (known : ∀ call ∈ calls past, ∀ m ∈ call.managers, m < names.length) :
    ∀ owner ∈ s.owners, owner.1 < names.length := by
  induction run with
  | start => simp [owners,idle,System.start]
  | @step past s next t a events before moved ih =>
    rw [calls,List.filterMap_append] at known
    have earlier := (List.forall_mem_append.mp known).1
    rw [(step_recorded moved).owners]
    refine List.forall_mem_append.mpr ⟨ih earlier,fun owner latest => ?_⟩
    obtain ⟨i,f,below,top⟩ := numbers_top (Option.mem_toList.mp latest)
    exact before.within (stack_idle sharding names threads) earlier t _ (top ▸ List.mem_cons_self) _
      (List.mem_singleton_self _)

/-- When no call is under way there are as many copies as the managers have counted. -/
theorem Interleaving.copies_counted (run : Interleaving (idle sharding names threads) past s)
    (quiet : ∀ t, s.stack t = [])
    (known : ∀ call ∈ calls past, ∀ m ∈ call.managers, m < names.length) :
    s.copies.size = ∑ m ∈ Finset.range names.length, (s.counters m).copies := by
  have counted (m : Nat) (member : m ∈ Finset.range names.length) :
      (s.counters m).copies = Multiset.count m ↑(s.owners.map Prod.fst) := by
    rw [run.counted (Finset.mem_range.mp member),all_quiet _ quiet,Multiset.card_zero,
      Nat.add_zero,Multiset.coe_count]
  rw [Finset.sum_congr rfl counted,Multiset.sum_count_eq_card]
  · simp [owners]
  · intro m member
    obtain ⟨owner,among,rfl⟩ := List.mem_map.mp member
    exact Finset.mem_range.mpr (run.owned known owner among)

theorem Instanced.refers (instanced : Instanced s made) (member : p ∈ made) :
    ∃! k, RefersTo made p k := by
  obtain ⟨k,here⟩ := List.getElem?_of_mem member
  have refers : (made.map Placement.slot)[k]? = some p.slot := by simp [here]
  refine ⟨k,refers,fun j other => ?_⟩
  have bound := (List.getElem?_eq_some_iff.mp refers).1
  exact ((List.getElem?_inj bound instanced.slots).mp (refers.trans other.symm)).symm

theorem Instanced.eq_of_id {q : Placement} (instanced : Instanced s made) (first : p ∈ made)
    (second : q ∈ made) (same : p.id = q.id) : p = q := by
  have copies : (made.map Placement.copy).Nodup :=
    Multiset.coe_nodup.mp (Multiset.nodup_of_le (Multiset.le_add_right ..) instanced.single)
  exact List.inj_on_of_nodup_map copies first second (Nat.succ_inj.mp same)

theorem Instanced.same_iff {q : Placement} (instanced : Instanced s made) (first : p ∈ made)
    (second : q ∈ made) : SameInstance made p q ↔ p.id = q.id := by
  constructor
  · rintro ⟨k,one,other⟩
    have same : p.slot = q.slot := Option.some.inj (one.symm.trans other)
    rw [List.inj_on_of_nodup_map instanced.slots first second same]
  · intro same
    obtain rfl := instanced.eq_of_id first second same
    obtain ⟨k,refers,_⟩ := instanced.refers first
    exact ⟨k,refers,refers⟩

theorem bound_copy (bound : s.ledger.Bound c m w) :
    (s.copies[c]?).map (fun copy => (copy.manager,copy.worker)) = some (m,w) := by
  obtain ⟨bond,entry,rfl,rfl⟩ := bound
  obtain ⟨copy,found,rfl⟩ : ∃ copy, s.copies[c]? = some copy ∧ copy.bond = bond := by
    simpa [ledger] using entry
  simp [found,Copy.bond]

/-- Numbers identify copies. However many managers there are, and whatever calls threads make in
whatever interleaving, however templates, hooks and bodies end: every handle refers to one instance,
and two handles refer to the same one iff their numbers are equal, which they never are for copies
of different managers or workers. The numbers are given out without a gap from one on. When no call
is under way, the last one is the number of copies that all managers have counted: one for each
setup, each failed setup and each setup hook that panicked, and none for a refused copy. -/
theorem Interleaving.ids_identify (run : Interleaving (idle sharding names threads) past s) :
    let made := instances (idle sharding names threads) past
    let given := handles (idle sharding names threads) past
    (∀ h ∈ given, ∃! k, RefersTo made h k) ∧
    (∀ h ∈ given, ∀ g ∈ given, (SameInstance made h g ↔ h.id = g.id) ∧
      (h.id = g.id → h.manager = g.manager ∧ h.worker = g.worker)) ∧
    (∀ h ∈ given, (s.copies[h.copy]?).map (fun copy => (copy.manager,copy.worker)) =
      some (h.manager,h.worker)) ∧
    (∀ reply c, .returned reply ∈ observed past → reply.handed? = some c →
      ∃ h ∈ given, h.copy = c) ∧
    ids past = List.range' 1 s.copies.size ∧
    ((∀ t, s.stack t = []) → (∀ call ∈ calls past, ∀ m ∈ call.managers, m < names.length) →
      s.copies.size = ∑ m ∈ Finset.range names.length, (s.counters m).copies ∧
      ∀ m < names.length,
        (s.counters m).copies = (s.counters m).setups + (s.counters m).setupFailures +
          mishaps (idle sharding names threads) past m .setupPanic ∧
        (s.counters m).cloneFailures = mishaps (idle sharding names threads) past m .refusal) := by
  intro made given
  have instanced : Instanced s made := run.instanced
  have among : ∀ h ∈ given, h ∈ made := run.handles_made
  refine ⟨?_,?_,?_,?_,run.ids_range,?_⟩
  · exact fun h member => instanced.refers (among h member)
  · intro h one g other
    refine ⟨instanced.same_iff (among h one) (among g other),fun ids => ?_⟩
    obtain rfl := instanced.eq_of_id (among h one) (among g other) ids
    exact ⟨rfl,rfl⟩
  · exact fun h member => bound_copy (instanced.own h (among h member)).2
  · exact fun reply c told handed => run.answered_handles told handed
  · intro quiet known
    refine ⟨run.copies_counted quiet known,fun m manager => ?_⟩
    have conserved := run.conserved quiet manager
    exact ⟨conserved.copies,conserved.refusals⟩

/-- Two managers share the numbers: a refusal and a failed setup in one, a copy in the other, then a
copy in the first that is released and made anew. -/
def exchange : List (Nat × Action Nat Nat) :=
  [(0,.call (.get 0 (.named "a"))),(0,.advance),(0,.advance),(0,.advance),
    (0,.drawn (.refused (.other "full"))),(0,.advance),(0,.advance),(0,.advance),(0,.advance),
    (0,.advance),(0,.call (.get 0 (.named "a"))),(0,.advance),(0,.advance),(0,.advance),
    (0,.drawn (.copy 7)),(0,.advance),(1,.call (.get 1 (.named "b"))),(1,.advance),(1,.advance),
    (1,.advance),(1,.drawn (.copy 9)),(1,.advance),(0,.advance),(1,.advance),
    (0,.finish (.error { message := "cold" })),(0,.advance),(0,.advance),(0,.advance),(0,.advance),
    (0,.advance),(1,.finish (.ok 0)),(1,.advance),(1,.advance),(1,.advance),(1,.advance),
    (0,.call (.get 0 (.named "a"))),(0,.advance),(0,.advance),(0,.advance),(0,.drawn (.copy 7)),
    (0,.advance),(0,.advance),(0,.finish (.ok 0)),(0,.advance),(0,.advance),(0,.advance),
    (0,.advance),(1,.call (.peek 0 (.named "a"))),(1,.advance),(1,.advance),(1,.advance),
    (0,.call (.release 0 (.named "a"))),(0,.advance),(0,.advance),(0,.advance),(0,.advance),
    (0,.advance),(0,.advance),(0,.finish (.ok 0)),(0,.advance),(0,.advance),(0,.advance),
    (1,.call (.get 0 (.named "a"))),(1,.advance),(1,.advance),(1,.advance),(1,.drawn (.copy 7)),
    (1,.advance),(1,.advance),(1,.finish (.ok 0)),(1,.advance),(1,.advance),(1,.advance),
    (1,.advance)]

set_option maxRecDepth 4000 in
theorem ids_identify_of_exchange :
    ∃ (past : List (Entry Nat Nat)) (s : System Nat Nat),
      Interleaving (idle .single ["pool","cache"] 2) past s ∧ (∀ t, s.stack t = []) ∧
      instances (idle .single ["pool","cache"] 2) past =
        [⟨1,.named "b",2,1⟩,⟨0,.named "a",3,2⟩,⟨0,.named "a",4,3⟩] ∧
      handles (idle .single ["pool","cache"] 2) past =
        [⟨1,.named "b",2,1⟩,⟨0,.named "a",3,2⟩,⟨0,.named "a",3,2⟩,⟨0,.named "a",4,3⟩] ∧
      (∀ h ∈ handles (idle .single ["pool","cache"] 2) past,
        ∃! k, RefersTo (instances (idle .single ["pool","cache"] 2) past) h k) ∧
      ids past = [1,2,3,4] ∧
      s.copies.size = ∑ m ∈ Finset.range 2, (s.counters m).copies ∧
      (s.counters 0).copies = (s.counters 0).setups + (s.counters 0).setupFailures ∧
      (s.counters 0).cloneFailures = 1 := by
  obtain ⟨past,s,followed,made,given,calls,threads,calm,refused⟩ :
      ∃ past s, (idle .single ["pool","cache"] 2).follow exchange = some (s,past) ∧
        instances (idle .single ["pool","cache"] 2) past =
          [⟨1,.named "b",2,1⟩,⟨0,.named "a",3,2⟩,⟨0,.named "a",4,3⟩] ∧
        handles (idle .single ["pool","cache"] 2) past =
          [⟨1,.named "b",2,1⟩,⟨0,.named "a",3,2⟩,⟨0,.named "a",3,2⟩,⟨0,.named "a",4,3⟩] ∧
        calls past = [.get 0 (.named "a"),.get 0 (.named "a"),.get 1 (.named "b"),
          .get 0 (.named "a"),.peek 0 (.named "a"),.release 0 (.named "a"),.get 0 (.named "a")] ∧
        s.threads = #[[],[]] ∧
        mishaps (idle .single ["pool","cache"] 2) past 0 .setupPanic = 0 ∧
        mishaps (idle .single ["pool","cache"] 2) past 0 .refusal = 1 :=
    ⟨_,_,rfl,rfl,rfl,rfl,rfl,rfl,rfl⟩
  have quiet (t : Nat) : s.stack t = [] := by
    rw [stack,threads]
    obtain _ | _ | t := t <;> rfl
  have run := Interleaving.start.follow followed
  obtain ⟨refers,-,-,-,numbered,counted⟩ := run.ids_identify
  obtain ⟨sizes,each⟩ := counted quiet (by simp [calls,Call.managers])
  obtain ⟨copies,refusals⟩ := each 0 (by decide)
  have size : s.copies.size = 4 := by
    cases followed
    rfl
  refine ⟨past,s,run,quiet,made,given,refers,?_,sizes,?_,refusals.trans refused⟩
  · rw [List.nil_append] at numbered
    rw [numbered,size]
    rfl
  · rw [copies]
    simpa using calm

end System
end PerWorker
