import PerWorker.Proofs.Lifecycle.Turns

/-!
What a worker gets after its copy was discarded. Once its slot is unmapped the worker only ever has
slots that are newer, and these only ever hold copies that are newer. Main statement: after a
release, a drain or a failed `process` has returned, no call that begins then hands out a copy that
was registered or handed out before.
-/
namespace PerWorker

def Role.joins? : Role → Option (Nat × Nat)
  | .settingUp _ _ i c | .ready _ _ i c | .leaving _ _ i (some c) => some (i,c)
  | _ => none

theorem Role.home_of_joins {r : Role} {i c : Nat} (joins : r.joins? = some (i,c)) :
    ∃ m w, r.home? = some (m,w,i) := by
  cases r with
  | leaving m w j found =>
    cases found <;> cases joins
    exact ⟨m,w,rfl⟩
  | settingUp m w j d | ready m w j d =>
    cases joins
    exact ⟨m,w,rfl⟩
  | _ => cases joins

namespace Frame

variable {F V : Type}

def hasUnmapped : Frame F V → Bool
  | .release _ _ .unregister => false
  | .release .. | .processLogTeardown .. => true
  | _ => false

/-- Whether a drain has still to look at a worker, or to release it. -/
def Awaits (sharding : Sharding) (v : WorkerId) : Frame F V → List (Frame F V) → Prop
  | .survey _ _ shard seen, _ => shard ≤ (sharding.shardOf v).val ∨ v ∈ seen
  | .release _ w point, .releaseAll _ pending _ :: _ => v = w ∧ point = .unregister ∨ v ∈ pending
  | _, _ => False

end Frame

namespace Ledger

variable {l next : Ledger} {t m i c a b : Nat} {w : WorkerId} {before after : Option Role}
  {notes : List Note}

theorem Shift.joins {r : Role} (shift : Shift l t before after notes next) (member : r ∈ after)
    (joins : r.joins? = some (i,c)) :
    (∃ q ∈ before, q.joins? = some (i,c)) ∨ c = l.bonds.size ∨ l.state? i = some (.live c) := by
  cases shift with
  | stay => exact Or.inl ⟨r,member,joins⟩
  | number =>
    cases member
    cases joins
    exact Or.inr (Or.inl rfl)
  | setUp | publish =>
    cases member
    cases joins
    exact Or.inl ⟨_,rfl,rfl⟩
  | meet cell free live =>
    cases member
    cases joins
    exact Or.inr (Or.inr (by simp [state?,cell,live]))
  | @inspect m w j slot found cell free seen =>
    cases member
    cases found <;> cases joins
    exact Or.inr (Or.inr (by simp [state?,cell,seen c rfl]))
  | leave served told =>
    obtain ⟨d,_,rfl⟩ := served r member
    cases joins
  | carry =>
    obtain ⟨d,_,rfl⟩ := Option.map_eq_some_iff.mp member
    cases joins
  | _ => cases member <;> cases joins

theorem Shift.slots (shift : Shift l t before after notes next) :
    l.slots.size ≤ next.slots.size := by
  cases shift.turn with
  | still same maps slots => exact slots.ge
  | added n v old new missing size => omega
  | pruned n v j old new mapped shared => rw [shared]; exact le_rfl
  | detached n v j old new mapped shared => rw [shared]; exact le_rfl
  | retired n v j old new maps slots => exact slots.ge

/-- A worker's slots are not older than some slot, and slots from that one on hold no copy that is
older than some copy. -/
structure Renewed (l : Ledger) (a b m : Nat) (w : WorkerId) : Prop where
  mapped : ∀ i, l.mapped m w = some i → a ≤ i
  live : ∀ i c, a ≤ i → l.state? i = some (.live c) → b ≤ c
  joins : ∀ x ∈ l.roles, ∀ i c, x.2.joins? = some (i,c) → a ≤ i → b ≤ c
  slots : a ≤ l.slots.size
  bonds : b ≤ l.bonds.size

/-- Whatever is made for a worker that is not registered is new. -/
theorem Renewed.start (sound : Sound l) (missing : l.mapped m w = none) :
    Renewed l l.slots.size l.bonds.size m w where
  mapped := by simp [missing]
  live := fun i c fresh live => absurd (lt_of_state live) (Nat.not_lt.mpr fresh)
  joins := by
    intro x member i c joins fresh
    obtain ⟨n,v,home⟩ := Role.home_of_joins joins
    exact absurd (sound.homes.roles x member n v i home).lt (Nat.not_lt.mpr fresh)
  slots := le_rfl
  bonds := le_rfl

/-- Slots and copies of a worker are never replaced by older ones. -/
theorem Renewed.move (renewed : Renewed l a b m w) (move : Move l notes next) :
    Renewed next a b m w := by
  obtain ⟨t,before,after,notes,shared,rest,split,shift⟩ := move
  have played {q} (own : q ∈ before) : (t,q) ∈ l.roles := mem_of_split split own
  refine ⟨?_,?_,?_,?_,?_⟩
  · intro i mapped
    obtain old | ⟨rfl,_⟩ := shift.mapped mapped
    · exact renewed.mapped i old
    · exact renewed.slots
  · intro i c newer live
    have store := shift.store i
    change shared.state? i = _ at live
    rw [live] at store
    generalize told : (some (SlotState.live c)) = now at store
    cases store with
    | kept => exact renewed.live i c newer told.symm
    | published n v d old =>
      cases told
      exact renewed.joins _ (played old) i c rfl newer
    | made | abandoned | withdrawn => cases told
  · intro x member i c joins newer
    obtain own | other := Multiset.mem_add.mp member
    · obtain ⟨r,chosen,rfl⟩ := mem_tagged.mp own
      obtain ⟨q,had,same⟩ | rfl | live := shift.joins chosen joins
      · exact renewed.joins _ (played had) i c same newer
      · exact renewed.bonds
      · exact renewed.live i c newer live
    · exact renewed.joins x (by simp [split,other]) i c joins newer
  · exact renewed.slots.trans shift.slots
  · exact renewed.bonds.trans shift.bonds

theorem Move.grows (move : Move l notes next) :
    l.slots.size ≤ next.slots.size ∧ l.bonds.size ≤ next.bonds.size := by
  obtain ⟨t,before,after,notes,shared,rest,split,shift⟩ := move
  exact ⟨shift.slots,shift.bonds⟩

end Ledger

namespace System

variable {F V : Type} {sharding : Sharding} {names : List String} {threads : Nat}
  {past : List (Entry F V)} {s now next last : System F V} {t u m c slots copies : Nat}
  {v w : WorkerId} {call : Call} {a : Action F V} {events : List (Event V)}
  {span : List (Moment F V)} {frame frame' : Frame F V} {below below' : List (Frame F V)}
  {reply : Reply V}

theorem step_grows (moved : s.step u a = some (next,events)) :
    s.slots.size ≤ next.slots.size ∧ s.copies.size ≤ next.copies.size := by
  obtain ⟨wider,longer⟩ := (step_move moved).grows
  have size (r : System F V) : r.ledger.bonds.size = r.copies.size := by simp [ledger]
  exact ⟨wider,size s ▸ size next ▸ longer⟩

theorem Trail.grows (trail : Trail s span now) :
    s.slots.size ≤ now.slots.size ∧ s.copies.size ≤ now.copies.size := by
  induction trail with
  | start => exact ⟨le_rfl,le_rfl⟩
  | on u a before moved ih =>
    have more := step_grows moved
    exact ⟨ih.1.trans more.1,ih.2.trans more.2⟩

theorem Underway.grows (under : Underway s t call span now) :
    s.slots.size ≤ now.slots.size ∧ s.copies.size ≤ now.copies.size := under.trail.grows

/-- The slots of a worker, and the copies in them, are at least so new. -/
def Cleared (slots copies m : Nat) (w : WorkerId) (now : System F V) : Prop :=
  ∃ a b, slots ≤ a ∧ copies ≤ b ∧ now.ledger.Renewed a b m w

theorem Cleared.step (cleared : Cleared slots copies m w now)
    (moved : now.step u a = some (next,events)) : Cleared slots copies m w next := by
  obtain ⟨x,y,older,elder,renewed⟩ := cleared
  exact ⟨x,y,older,elder,renewed.move (step_move moved)⟩

theorem Interleaving.cleared (run : Interleaving (idle sharding names threads) past now)
    (missing : now.slot? m w = none) (wider : slots ≤ now.slots.size)
    (longer : copies ≤ now.copies.size) : Cleared slots copies m w now := by
  refine ⟨_,_,wider,?_,.start run.sound missing⟩
  simpa [ledger] using longer

theorem Interleaving.unregistered (run : Interleaving (idle sharding names threads) past now)
    (wider : slots ≤ now.slots.size) (top : now.stack t = .release m w .unregister :: below)
    (own : a.isOwn = true) (moved : now.step t a = some (next,events)) :
    Cleared slots now.copies.size m w next := by
  have more := step_grows moved
  have missing := unregister_missing top own moved
  exact (run.step t a events moved).cleared missing (wider.trans more.1) more.2

theorem Underway.unregistered (run : Interleaving (idle sharding names threads) past s)
    (under : Underway s t call span now) (top : now.stack t = .release m w .unregister :: below)
    (own : a.isOwn = true) (moved : now.step t a = some (next,events)) :
    Cleared s.slots.size now.copies.size m w next :=
  (under.run run).unregistered under.grows.1 top own moved

theorem Cleared.weaken {fewer : Nat} (cleared : Cleared slots copies m w now)
    (less : fewer ≤ copies) : Cleared slots fewer m w now := by
  obtain ⟨x,y,older,elder,renewed⟩ := cleared
  exact ⟨x,y,older,less.trans elder,renewed⟩

theorem release_kept (run : Interleaving (idle sharding names threads) past s) :
    Kept s t (.release m w) fun _ frame below now => below = [] ∧
      ∃ point, frame = .release m w point ∧
        (point = .unregister ∨ Cleared s.slots.size s.copies.size m w now) where
  made := by
    intro next frame below moved opening stood
    cases opening
    exact ⟨rfl,.unregister,rfl,Or.inl rfl⟩
  aside := by
    rintro span now frame below u a next events under ⟨rfl,point,rfl,cleared⟩ moved stood silent
    exact ⟨rfl,point,rfl,cleared.imp_right (·.step moved)⟩
  onward := by
    rintro span now frame below a next events frame' below' under ⟨rfl,point,rfl,cleared⟩ moved own
      top here acting stood
    obtain ⟨rfl,point',rfl,turn⟩ := release_onward under.stands top own moved here
    refine ⟨rfl,point',rfl,Or.inr ?_⟩
    obtain rfl | cleared := cleared
    · exact (under.unregistered run top own moved).weaken under.grows.2
    · exact cleared.step moved

/-- The copies on which a call runs bodies are older than some copy. -/
def Bodies (t depth : Nat) (span : List (Moment F V)) (bound : Nat) : Prop :=
  ∀ moment ∈ span, ∀ m w point, moment.acting? t depth = some (.processBody m w point) →
    point.copy < bound

theorem Bodies.append {depth bound : Nat} {moment : Moment F V} (bodies : Bodies t depth span bound)
    (last : ∀ m w point, moment.acting? t depth = some (.processBody m w point) →
      point.copy < bound) : Bodies t depth (span ++ [moment]) bound := by
  intro other member
  obtain old | new := List.mem_append.mp member
  · exact bodies other old
  · obtain rfl := List.mem_singleton.mp new
    exact last

theorem Bodies.mono {depth bound more : Nat} (bodies : Bodies t depth span bound)
    (less : bound ≤ more) : Bodies t depth span more :=
  fun moment member m w point acting => (bodies moment member m w point acting).trans_le less

theorem Interleaving.made_of_noted (run : Interleaving (idle sharding names threads) past s)
    {beat : Beat} (noted : .beat c beat ∈ notes past) : c < s.copies.size := by
  by_contra unmade
  have size : s.ledger.bonds.size = s.copies.size := by simp [ledger]
  have unborn := run.custody.unborn c (size ▸ Nat.le_of_not_lt unmade)
  have member : beat ∈ beats c (notes past) := beats_of_mem noted
  simp [unborn] at member

theorem Interleaving.serving_noted (run : Interleaving (idle sharding names threads) past s)
    {point : BodyPoint V} (member : .processBody m w point ∈ s.stack t) :
    .beat point.copy (.ended .setup .returned) ∈ notes past := by
  have role : (Frame.processBody m w point : Frame F V).role? = some (.serving point.copy) := by
    cases point <;> rfl
  exact run.custody.shown _ (mem_roles member role) point.copy rfl

theorem process_kept (run : Interleaving (idle sharding names threads) past s) :
    Kept s t (.process m w) fun span frame below now => Processing m w frame below ∧
      Bodies t (s.stack t).length span now.copies.size ∧
      (frame.hasUnmapped = true → ∃ copies, s.copies.size ≤ copies ∧
        Bodies t (s.stack t).length span copies ∧ Cleared s.slots.size copies m w now) where
  made := by
    intro next frame below moved opening stood
    cases opening
    refine ⟨.look .look,?_,by simp [Frame.hasUnmapped]⟩
    rintro moment member n v point acting
    obtain rfl := List.mem_singleton.mp member
    simp [Moment.acting?,Action.isOwn] at acting
  aside := by
    rintro span now frame below u a next events under ⟨shape,bodies,cleared⟩ moved stood silent
    have quiet (bound : Nat) (old : Bodies t (s.stack t).length span bound) :
        Bodies t (s.stack t).length (span ++ [⟨now,⟨u,a,events⟩⟩]) bound :=
      old.append (by simp [silent])
    refine ⟨shape,quiet _ (bodies.mono (step_grows moved).2),?_⟩
    intro unmapped
    obtain ⟨copies,less,earlier,renewed⟩ := cleared unmapped
    exact ⟨copies,less,quiet copies earlier,renewed.step moved⟩
  onward := by
    rintro span now frame below a next events frame' below' under ⟨shape,bodies,cleared⟩ moved own
      top here acting stood
    have serving : ∀ n v point, frame = .processBody n v point → point.copy < now.copies.size := by
      rintro n v point rfl
      have member : .processBody n v point ∈ now.stack t := by
        rw [top]
        exact List.mem_cons_self
      have reached := under.run run
      exact reached.made_of_noted (reached.serving_noted member)
    have grown : Bodies t (s.stack t).length (span ++ [⟨now,⟨t,a,events⟩⟩]) next.copies.size := by
      refine (bodies.mono (step_grows moved).2).append ?_
      intro n v point acts
      have same := Option.some.inj (acting.symm.trans acts)
      exact (serving n v point same).trans_le (step_grows moved).2
    have released (copies : Nat) (earlier : Bodies t (s.stack t).length span copies)
        (bodiless : ∀ n v point, frame ≠ .processBody n v point) :
        Bodies t (s.stack t).length (span ++ [⟨now,⟨t,a,events⟩⟩]) copies := by
      refine earlier.append ?_
      intro n v point acts
      exact absurd (Option.some.inj (acting.symm.trans acts)) (bodiless n v point)
    have continued (unmapped : frame.hasUnmapped = true)
        (bodiless : ∀ n v point, frame ≠ .processBody n v point) :
        ∃ copies, s.copies.size ≤ copies ∧
          Bodies t (s.stack t).length (span ++ [⟨now,⟨t,a,events⟩⟩]) copies ∧
          Cleared s.slots.size copies m w next := by
      obtain ⟨copies,less,earlier,renewed⟩ := cleared unmapped
      exact ⟨copies,less,released copies earlier bodiless,renewed.step moved⟩
    cases process_onward shape under.stands top own moved here with
    | look point point' known => exact ⟨.look point',grown,by simp [Frame.hasUnmapped]⟩
    | serve i c => exact ⟨.body _,grown,by simp [Frame.hasUnmapped]⟩
    | run point point' same => exact ⟨.body point',grown,by simp [Frame.hasUnmapped]⟩
    | fail c fault => exact ⟨.failing c fault,grown,by simp [Frame.hasUnmapped]⟩
    | discard c fault => exact ⟨.release _ fault,grown,by simp [Frame.hasUnmapped]⟩
    | release point point' fault turn =>
      refine ⟨.release point' fault,grown,fun _ => ?_⟩
      cases turn with
      | unregister i mapped =>
        exact ⟨now.copies.size,under.grows.2,released _ bodies (by simp),
          under.unregistered run top own moved⟩
      | _ => exact continued rfl (by simp)
    | report point fault e ended =>
      refine ⟨.failed fault e,grown,fun _ => ?_⟩
      cases ended
      exact continued rfl (by simp)

theorem mem_shardWorkers {i : Nat} (mapped : s.slot? m w = some i) :
    w ∈ s.shardWorkers m (s.sharding.shardOf w).val := by
  obtain ⟨manager,found,inside⟩ := Option.bind_eq_some_iff.mp mapped
  have member : (w,i) ∈ manager.slots := by
    obtain ⟨left,right,split,_⟩ := List.lookup_eq_some_iff.mp inside
    simp [split]
  simp only [shardWorkers,found,List.mem_filter,List.mem_map,decide_true,and_true]
  exact ⟨(w,i),member,rfl⟩

/-- What a drain that began when there were so many slots and copies has done about each worker. -/
def Clearing (slots copies m : Nat) (frame : Frame F V) (below : List (Frame F V))
    (now : System F V) : Prop :=
  slots ≤ now.slots.size ∧ copies ≤ now.copies.size ∧
    ∀ v, Cleared slots copies m v now ∨ frame.Awaits now.sharding v below

theorem Clearing.start (m : Nat) (now : System F V) :
    Clearing now.slots.size now.copies.size m (.survey m .releaseAll 0 []) [] now :=
  ⟨le_rfl,le_rfl,fun _ => Or.inr (Or.inl (Nat.zero_le _))⟩

theorem Clearing.aside (clearing : Clearing slots copies m frame below now)
    (moved : now.step u a = some (next,events)) : Clearing slots copies m frame below next := by
  obtain ⟨wider,longer,cleared⟩ := clearing
  have more := step_grows moved
  refine ⟨wider.trans more.1,longer.trans more.2,fun v => ?_⟩
  rw [(step_effect moved).sharding]
  exact (cleared v).imp_left (·.step moved)

/-- A drain keeps its promise about each worker with every step: the worker is ahead of it, or has
nothing old left. -/
theorem Clearing.onward {floor : List (Frame F V)}
    (run : Interleaving (idle sharding names threads) past now)
    (clearing : Clearing slots copies m frame below now) (top : now.stack t = frame :: floor)
    (own : a.isOwn = true) (moved : now.step t a = some (next,events))
    (turn : DrainTurn now m a frame below frame' below') :
    Clearing slots copies m frame' below' next := by
  obtain ⟨wider,longer,cleared⟩ := clearing
  have more := step_grows moved
  refine ⟨wider.trans more.1,longer.trans more.2,fun v => ?_⟩
  obtain done | awaits := cleared v
  · exact Or.inl (done.step moved)
  -- A worker that is not listed with its shard is not mapped then.
  have unlisted : Cleared slots copies m v next ∨
      v ∈ now.shardWorkers m (now.sharding.shardOf v).val := by
    cases mapped : now.slot? m v with
    | none => exact Or.inl ((run.cleared mapped wider longer).step moved)
    | some i => exact Or.inr (mem_shardWorkers mapped)
  have removed {below : List (Frame F V)} (here : now.stack t = .release m v .unregister :: below) :
      Cleared slots copies m v next := (run.unregistered wider here own moved).weaken longer
  cases turn with
  | read shard seen more =>
    rw [(step_effect moved).sharding]
    obtain later | listed := awaits
    · obtain here | later := later.eq_or_lt
      · subst here
        exact unlisted.imp_right fun listed => Or.inr (List.mem_append_right _ listed)
      · exact Or.inr (Or.inl later)
    · exact Or.inr (Or.inr (List.mem_append_left _ listed))
  | first shard seen x rest last listed =>
    have ahead (member : v ∈ seen ++ now.shardWorkers m shard) :
        (Frame.release m x .unregister : Frame F V).Awaits next.sharding v
          [.releaseAll m rest []] := by
      rw [listed] at member
      exact (List.mem_cons.mp member).imp (fun same => ⟨same,rfl⟩) id
    obtain later | member := awaits
    · have bound := (now.sharding.shardOf v).isLt
      have here : shard = (now.sharding.shardOf v).val := by omega
      subst here
      exact unlisted.imp_right fun member => ahead (List.mem_append_right _ member)
    · exact Or.inr (ahead (List.mem_append_left _ member))
  | release x point point' pending errors turn =>
    obtain ⟨rfl,rfl⟩ | member := awaits
    · exact Or.inl (removed top)
    · exact Or.inr (Or.inr member)
  | next x point y rest errors reply ended calm =>
    obtain ⟨rfl,rfl⟩ | member := awaits
    · exact Or.inl (removed top)
    · exact Or.inr ((List.mem_cons.mp member).imp (fun same => ⟨same,rfl⟩) id)
  | report x point errors reply ended calm =>
    obtain ⟨rfl,rfl⟩ | member := awaits
    · exact Or.inl (removed top)
    · cases member

/-- When a drain answers, no worker has anything left that is older than the drain. -/
theorem Clearing.over {floor : List (Frame F V)} {errors : List LifecycleError}
    (run : Interleaving (idle sharding names threads) past now)
    (clearing : Clearing slots copies m frame below now) (top : now.stack t = frame :: floor)
    (own : a.isOwn = true) (moved : now.step t a = some (last,events))
    (ended : DrainEnd now m frame below (.errors errors : Reply V)) (v : WorkerId) :
    Cleared slots copies m v last := by
  obtain ⟨wider,longer,cleared⟩ := clearing
  obtain done | awaits := cleared v
  · exact done.step moved
  cases ended with
  | empty shard seen end' unlisted =>
    obtain ⟨rfl,none⟩ := List.append_eq_nil_iff.mp unlisted
    have later : shard ≤ (now.sharding.shardOf v).val := by simpa [Frame.Awaits] using awaits
    have bound := (now.sharding.shardOf v).isLt
    have here : shard = (now.sharding.shardOf v).val := by omega
    subst here
    cases mapped : now.slot? m v with
    | none => exact (run.cleared mapped wider longer).step moved
    | some i => exact absurd (mem_shardWorkers mapped) (by simp [none])
  | clean w point reply ended calm errorless =>
    obtain ⟨rfl,rfl⟩ : v = w ∧ point = .unregister := by simpa [Frame.Awaits] using awaits
    exact (run.unregistered wider top own moved).weaken longer
  | logged errors => cases awaits

theorem drain_kept (run : Interleaving (idle sharding names threads) past s) :
    Kept s t (.releaseAll m) fun _ frame below now => Draining m frame below ∧
      Clearing s.slots.size s.copies.size m frame below now where
  made := by
    intro next frame below moved opening stood
    cases opening
    exact ⟨.survey 0 [],(Clearing.start m s).aside moved⟩
  aside := by
    rintro span now frame below u a next events under ⟨shape,clearing⟩ moved stood silent
    exact ⟨shape,clearing.aside moved⟩
  onward := by
    rintro span now frame below a next events frame' below' under ⟨shape,clearing⟩ moved own top
      here acting stood
    have turn := drain_onward shape under.stands top own moved here
    exact ⟨turn.shape,clearing.onward (under.run run) top own moved turn⟩

theorem Answered.drained (run : Interleaving (idle sharding names threads) past s)
    {errors : List LifecycleError}
    (answered : Answered s t (.releaseAll m) span (.errors errors) last) (v : WorkerId) :
    Cleared s.slots.size s.copies.size m v last := by
  obtain ⟨before,now,frame,below,a,events,rfl,answering,shape,clearing⟩ :=
    (drain_kept run).ends answered
  exact clearing.over (answering.under.run run) answering.top answering.own answering.moved
    (drain_ended shape answering) v

/-- A call that has returned after it discarded the worker's copy, if there was one. -/
inductive Retires (m : Nat) (w : WorkerId) : Call → Reply V → Prop
  | release (reply : Reply V) : Retires m w (.release m w) reply
  | releaseAll (errors : List LifecycleError) : Retires m w (.releaseAll m) (.errors errors)
  | process (fault : Fault) : Retires m w (.process m w) (.fault fault)

/-- A call that retires a worker's copy leaves the worker with copies only that were made since. -/
theorem Answered.cleared (run : Interleaving (idle sharding names threads) past s)
    (retires : Retires m w call reply) (answered : Answered s t call span reply last) :
    ∃ copies, s.copies.size ≤ copies ∧ Cleared s.slots.size copies m w last ∧
      (call = .process m w → Bodies t (s.stack t).length span copies) := by
  cases retires with
  | release =>
    obtain ⟨before,now,frame,below,a,events,rfl,⟨under,own,top,moved,_⟩,rfl,point,rfl,cleared⟩ :=
      (release_kept run).ends answered
    refine ⟨_,le_rfl,?_,by simp⟩
    obtain rfl | cleared := cleared
    · exact (under.unregistered run top own moved).weaken under.grows.2
    · exact cleared.step moved
  | releaseAll errors => exact ⟨_,le_rfl,answered.drained run w,by simp⟩
  | process fault =>
    obtain ⟨before,now,frame,below,a,events,rfl,answering,shape,bodies,cleared⟩ :=
      (process_kept run).ends answered
    have bodiless (copies : Nat) (earlier : Bodies t (s.stack t).length before copies)
        (other : ∀ n v point, frame ≠ .processBody n v point) :
        Bodies t (s.stack t).length (before ++ [⟨now,⟨t,a,events⟩⟩]) copies := by
      refine earlier.append ?_
      intro n v point acts
      exact absurd (Option.some.inj (answering.acting.symm.trans acts)) (other n v point)
    have continued (unmapped : frame.hasUnmapped = true)
        (other : ∀ n v point, frame ≠ .processBody n v point) : ∃ copies, s.copies.size ≤ copies ∧
          Cleared s.slots.size copies m w last ∧ (Call.process m w = .process m w →
            Bodies t (s.stack t).length (before ++ [⟨now,⟨t,a,events⟩⟩]) copies) := by
      obtain ⟨copies,less,earlier,renewed⟩ := cleared unmapped
      exact ⟨copies,less,renewed.step answering.moved,fun _ => bodiless copies earlier other⟩
    cases process_ended shape answering with
    | unserved point _ faultless => exact absurd rfl (faultless fault)
    | served point _ faultless => exact absurd rfl (faultless fault)
    | discarded point _ ended =>
      cases ended with
      | absent missing =>
        obtain ⟨under,own,top,moved,_⟩ := answering
        exact ⟨_,under.grows.2,under.unregistered run top own moved,
          fun _ => bodiless _ bodies (by simp)⟩
      | empty | done => exact continued rfl (by simp)
    | reported => exact continued rfl (by simp)

/-- A lookup that begins when a worker's slots are new hands out only a new copy. -/
theorem seek_kept (renewed : s.ledger.Renewed slots copies m w)
    (asks : call = .get m w ∨ call = .peek m w) :
    Kept s t call fun _ frame below now => below = [] ∧ now.ledger.Renewed slots copies m w ∧
      ∃ slot, frame.seeks? = some (m,w,slot) ∧ ∀ i, slot = some i → slots ≤ i where
  made := by
    intro next frame below moved opening stood
    have later := renewed.move (step_move moved)
    obtain rfl | rfl := asks <;> cases opening <;> exact ⟨rfl,later,none,rfl,by simp⟩
  aside := by
    rintro span now frame below u a next events under ⟨rfl,renewed,slot,seeks,newer⟩ moved
      stood silent
    exact ⟨rfl,renewed.move (step_move moved),slot,seeks,newer⟩
  onward := by
    rintro span now frame below a next events frame' below' under ⟨rfl,renewed,slot,seeks,newer⟩
      moved own top here acting stood
    obtain ⟨rfl,slot',seeks',known⟩ := seek_onward seeks under.stands top own moved here
    refine ⟨rfl,renewed.move (step_move moved),slot',seeks',?_⟩
    intro i referred
    obtain old | mapped | fresh := known i referred
    · exact newer i old
    · exact renewed.mapped i mapped
    · exact fresh ▸ renewed.slots

theorem processing_kept (renewed : s.ledger.Renewed slots copies m w) :
    Kept s t (.process m w) fun _ frame below now => Processing m w frame below ∧
      now.ledger.Renewed slots copies m w ∧
      (∀ point i, frame = .get m w point → point.slot? = some i → slots ≤ i) ∧
      ∀ point, frame = .processBody m w point → copies ≤ point.copy where
  made := by
    intro next frame below moved opening stood
    cases opening
    refine ⟨.look .look,renewed.move (step_move moved),?_,by simp⟩
    rintro point i same referred
    cases same
    cases referred
  aside := by
    rintro span now frame below u a next events under ⟨shape,renewed,newer,serves⟩ moved
      stood silent
    exact ⟨shape,renewed.move (step_move moved),newer,serves⟩
  onward := by
    rintro span now frame below a next events frame' below' under ⟨shape,renewed,newer,serves⟩
      moved own top here acting stood
    have later := renewed.move (step_move moved)
    cases process_onward shape under.stands top own moved here with
    | look point point' known =>
      refine ⟨.look point',later,?_,by simp⟩
      rintro other i same referred
      cases same
      obtain old | mapped | fresh := known i referred
      · exact newer point i rfl old
      · exact renewed.mapped i mapped
      · exact fresh ▸ renewed.slots
    | serve i c =>
      refine ⟨.body _,later,by simp,?_⟩
      rintro point same
      cases same
      have member : Frame.get m w (.leave i (.found c)) ∈ now.stack t := by
        rw [top]
        exact List.mem_cons_self
      exact renewed.joins _ (mem_roles member rfl) i c rfl (newer _ i rfl rfl)
    | run point point' same =>
      refine ⟨.body point',later,by simp,?_⟩
      rintro other alike
      cases alike
      exact same ▸ serves point rfl
    | fail c fault => exact ⟨.failing c fault,later,by simp,by simp⟩
    | discard c fault => exact ⟨.release _ fault,later,by simp,by simp⟩
    | release point point' fault turn => exact ⟨.release point' fault,later,by simp,by simp⟩
    | report point fault e ended => exact ⟨.failed fault e,later,by simp,by simp⟩

/-- A call on a worker's copy hands out that copy, to its caller or to its body. -/
inductive Hands (s : System F V) (t m : Nat) (w : WorkerId) : Nat → Prop
  | get {span : List (Moment F V)} {last : System F V} {c : Nat}
      (answered : Answered s t (.get m w) span (.handle c) last) : Hands s t m w c
  | peek {span : List (Moment F V)} {last : System F V} {c : Nat}
      (answered : Answered s t (.peek m w) span (.peeked (some c)) last) : Hands s t m w c
  | process {span : List (Moment F V)} {now : System F V} (above : List (Frame F V))
      (point : BodyPoint V) (under : Underway s t (.process m w) span now)
      (serving : now.stack t = above ++ .processBody m w point :: s.stack t) :
      Hands s t m w point.copy

theorem Hands.renewed (hands : Hands s t m w c) (cleared : Cleared slots copies m w s) :
    copies ≤ c := by
  obtain ⟨a,b,_,elder,renewed⟩ := cleared
  have sought {asked : Call} {span : List (Moment F V)} {reply : Reply V} {last : System F V}
      (asks : asked = .get m w ∨ asked = .peek m w) (answered : Answered s t asked span reply last)
      (handed : reply.handed? = some c) : copies ≤ c := by
    obtain ⟨before,now,frame,below,a,events,rfl,answering,rfl,renewed,slot,seeks,newer⟩ :=
      (seek_kept renewed asks).ends answered
    obtain ⟨i,referred,role⟩ := seek_ended seeks answering handed
    have member : frame ∈ now.stack t := by
      rw [answering.top]
      exact List.mem_cons_self
    exact elder.trans (renewed.joins _ (mem_roles member role) i c rfl (newer i referred))
  cases hands with
  | get answered => exact sought (Or.inl rfl) answered rfl
  | peek answered => exact sought (Or.inr rfl) answered rfl
  | @process span now above point under serving =>
    obtain ⟨frame,below,stood,shape,_,_,serves⟩ := (processing_kept renewed).holds under
    -- The frame right above those of the caller is the last of the call's own.
    have own : ∃ upper, upper ++ frame :: below = above ++ [.processBody m w point] := by
      have parts : now.stack t = above ++ [.processBody m w point] ++ s.stack t := by
        simp [serving]
      obtain top | ⟨_,first,middle,nested⟩ := stood.stack
      · exact ⟨[],List.append_cancel_right (top.symm.trans parts)⟩
      · have whole : first :: middle ++ frame :: below ++ s.stack t =
            above ++ [.processBody m w point] ++ s.stack t := by
          rw [← parts,nested]
          simp
        exact ⟨first :: middle,List.append_cancel_right whole⟩
    obtain ⟨upper,same⟩ := own
    have ends := congrArg List.getLast? same
    cases shape with
    | body other =>
      obtain rfl : other = point := by simpa using ends
      exact elder.trans (serves other rfl)
    | _ => simp at ends

/-- A copy has been registered or handed out by then. -/
def Known (initial : System F V) (past : List (Entry F V)) (c : Nat) : Prop :=
  (∃ reply, .returned reply ∈ observed past ∧ reply.handed? = some c) ∨
    ∃ earlier later s, past = earlier ++ later ∧ Interleaving initial earlier s ∧
      ((∃ i, s.state? i = some (.live c)) ∨
        ∃ t m w point, .processBody m w point ∈ s.stack t ∧ point.copy = c)

/-- A copy that anyone has seen has been made. -/
theorem Known.made (run : Interleaving (idle sharding names threads) past s)
    (known : Known (idle sharding names threads) past c) : c < s.copies.size := by
  obtain ⟨reply,member,handed⟩ | ⟨earlier,later,q,rfl,reached,known⟩ := known
  · obtain ⟨left,right,told⟩ := List.append_of_mem member
    have noted : (Event.returned reply).note? = some (.handed c) := by
      rw [note_returned,handed]
      rfl
    obtain ⟨before,after,all,_⟩ := notes_of_observed told noted
    have setUp := run.custody.handed before c after all
    exact run.made_of_noted (all ▸ List.mem_append_left _ setUp)
  · have noted : .beat c (.ended .setup .returned) ∈ notes earlier := by
      obtain ⟨i,live⟩ | ⟨t,m,w,point,member,rfl⟩ := known
      · have history := (reached.custody.lines c).of_held (Ledger.held_of_live live)
        exact mem_of_beats (by simp [history])
      · exact reached.serving_noted member
    have whole : notes (earlier ++ later) = notes earlier ++ notes later := by simp [notes]
    exact run.made_of_noted (whole ▸ List.mem_append_left _ noted)

/-- No stale reuse. Once a release of a worker, a drain, or a `process` whose body failed has
returned, whatever else went on meanwhile, a call on that worker which begins afterwards hands out
no copy that was registered or handed out before the first call began, nor the one on which the
failing body ran: the copy was made since. -/
theorem Interleaving.no_stale_reuse (run : Interleaving (idle sharding names threads) past s)
    (retires : Retires m w call reply) (answered : Answered s t call span reply last)
    {since : List (Entry F V)} {again : System F V} (later : Interleaving last since again)
    (hands : Hands again u m w c) :
    ¬Known (idle sharding names threads) past c ∧ s.copies.size ≤ c ∧
      (call = .process m w → ∀ moment ∈ span, ∀ n v point,
        moment.acting? t (s.stack t).length = some (.processBody n v point) → point.copy ≠ c) := by
  obtain ⟨copies,less,cleared,bodies⟩ := answered.cleared run retires
  have reached : Cleared s.slots.size copies m w again := by
    clear hands
    induction later with
    | start => exact cleared
    | step u a events before moved ih => exact ih.step moved
  have newer := hands.renewed reached
  refine ⟨?_,less.trans newer,?_⟩
  · intro known
    have made := known.made run
    omega
  · rintro discarded moment member n v point acting rfl
    have older := bodies discarded moment member n v point acting
    omega

def registered : System Nat Nat where
  managers := #[{
    name := "pool", slots := [(.named "a",0)], counters := { copies := 1, setups := 1 } }]
  slots := #[{ manager := 0, worker := .named "a", state := .live 0 }]
  copies := #[{ manager := 0, worker := .named "a", value := 7 }]
  threads := #[[]]

def discarding : List (Nat × Action Nat Nat) :=
  [(0,.advance),(0,.advance),(0,.advance),(0,.advance),(0,.advance),(0,.advance),
    (0,.finish (.ok 0)),(0,.advance),(0,.advance)]

def creating : List (Nat × Action Nat Nat) :=
  [(0,.advance),(0,.advance),(0,.advance),(0,.drawn (.copy 7)),(0,.advance),(0,.advance),
    (0,.finish (.ok 0)),(0,.advance),(0,.advance),(0,.advance)]

theorem no_stale_reuse_of_roundTrip :
    ∃ (past : List (Entry Nat Nat)) (span : List (Moment Nat Nat)) (last : System Nat Nat),
      Interleaving (idle .single ["pool"] 1) past registered ∧
      Known (idle .single ["pool"] 1) past 0 ∧
      Answered registered 0 (.release 0 (.named "a")) span .done last ∧
      Hands last 0 0 (.named "a") 1 ∧ ¬Known (idle .single ["pool"] 1) past 1 := by
  obtain ⟨past,followed⟩ :
      ∃ past, (idle .single ["pool"] 1).follow firstGet = some (registered,past) := ⟨_,rfl⟩
  have run := Interleaving.start.follow followed
  have known : Known (idle .single ["pool"] 1) ([] ++ past) 0 :=
    Or.inr ⟨_,[],registered,by simp,run,Or.inl ⟨0,rfl⟩⟩
  obtain ⟨span,last,performed⟩ : ∃ span last,
      registered.perform 0 (.release 0 (.named "a")) discarding = some (span,.done,last) :=
    ⟨_,_,rfl⟩
  have answered := Answered.perform performed
  have hands : Hands last 0 0 (.named "a") 1 := by
    obtain ⟨again,end',repeated⟩ : ∃ again end',
        last.perform 0 (.get 0 (.named "a")) creating = some (again,.handle 1,end') := by
      cases performed
      exact ⟨_,_,rfl⟩
    exact .get (.perform repeated)
  exact ⟨_,span,last,run,known,answered,hands,
    (run.no_stale_reuse (.release .done) answered .start hands).1⟩

end System
end PerWorker
