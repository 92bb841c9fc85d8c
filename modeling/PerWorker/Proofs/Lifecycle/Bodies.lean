import PerWorker.Proofs.Lifecycle.Spans

/-!
When a `process` runs its body. It finds the copy live in a slot, gives back the lock of the slot
and then waits for the lock of the copy, under which teardown runs too. Main statement: no body
starts on a copy while its teardown is under way; but between the two locks another thread may have
torn the copy down from beginning to end.
-/
namespace PerWorker

def Frame.bears {F V : Type} (frame : Frame F V) : Bool := frame.waits || frame.isForeign

namespace Ledger

variable {l next : Ledger} {t m i c : Nat} {w : WorkerId} {notes : List Note}

/-- Whoever is about to leave a slot with the copy that it found has the lock of the slot, so that
the copy is still there. -/
def Found (l : Ledger) : Prop :=
  ∀ x ∈ l.roles, ∀ m w i c, x.2 = .leaving m w i (some c) → l.state? i = some (.live c)

/-- Whoever is about to leave a slot with a live copy has kept the copy from being taken out. -/
theorem Found.move (found : Found l) (sound : Sound l) (move : Move l notes next) : Found next := by
  obtain ⟨t,before,after,notes,shared,rest,split,shift⟩ := move
  have played {q} (own : q ∈ before) : (t,q) ∈ l.roles := mem_of_split split own
  intro x member m w i c leaving
  change shared.state? i = _
  obtain own | other := Multiset.mem_add.mp member
  · obtain ⟨r,chosen,rfl⟩ := mem_tagged.mp own
    obtain rfl : r = .leaving m w i (some c) := leaving
    cases shift with
    | stay => exact found _ (played chosen) m w i c rfl
    | meet cell free live =>
      cases chosen
      rw [state_lock]
      simp [state?,cell,live]
    | inspect cell free seen =>
      cases chosen
      rw [state_lock]
      simp [state?,cell,seen c rfl]
    | publish =>
      cases chosen
      have vacant : l.state? i = some .vacant := sound.guarded.fills _ (played rfl) i rfl
      simp [state_set,vacant]
    | leave served told =>
      obtain ⟨d,_,same⟩ := served _ chosen
      cases same
    | carry =>
      obtain ⟨d,_,same⟩ := Option.map_eq_some_iff.mp chosen
      cases same
    | _ => cases chosen
  · have live := found x (by simp [split,other]) m w i c leaving
    have locks : x.2.locks? = some i := by
      rw [leaving]
      rfl
    -- What is in the slot changes only with its lock, which another call has.
    obtain same | taken | ⟨taken,_⟩ := shift.state live
    · rw [same,live]
    · obtain ⟨q,rfl,fills⟩ := Option.bind_eq_some_iff.mp taken
      exact absurd locks (sound.locked.alone split (Role.locks_of_fills fills) other)
    · exact absurd locks (sound.locked.alone split taken other)

end Ledger

namespace System

variable {F V : Type} {sharding : Sharding} {names : List String} {threads : Nat}
  {past : List (Entry F V)} {s shared next : System F V} {t u m c : Nat} {w : WorkerId}
  {a : Action F V} {events : List (Event V)} {frames frames' below : List (Frame F V)}
  {before after : Option Nat}

theorem Interleaving.found (run : Interleaving (idle sharding names threads) past s) :
    s.ledger.Found := by
  refine run.induct_sound (fun _ l => l.Found) (by simp [Ledger.Found,Ledger.empty]) ?_
  intro before l more next sound found move
  exact found.move sound move

def grips (s : System F V) (t : Nat) : List Nat := (s.stack t).filterMap Frame.grips?

structure Gripped (s : System F V) : Prop where
  held : ∀ t, ∀ c ∈ s.grips t, s.copyHolder? c = some t
  once : ∀ t, (s.grips t).Nodup

theorem nextDrain_grips (pending : List Nat) (drained : Nat) (errors : List LifecycleError)
    (below : List (Frame F V)) : (nextDrain pending drained errors below).filterMap Frame.grips? =
      below.filterMap Frame.grips? := by
  cases pending <;> rfl

theorem gripless_of_waits {frame : Frame F V} (waits : frame.waits = true) :
    frame.grips? = none := by
  cases frame <;> first | rfl | cases waits

theorem resume_grips (reply : Reply V) (frames : List (Frame F V)) :
    (resume reply frames).1.filterMap Frame.grips? = frames.filterMap Frame.grips? := by
  refine resume_filterMap (fun _ => gripless_of_waits) (fun woken => ?_) reply frames
  cases woken <;> rfl

theorem firstFrames_grips (call : Call) (frames : List (Frame F V)) :
    (firstFrames call frames).filterMap Frame.grips? = frames.filterMap Frame.grips? := by
  cases call with
  | drain ms => exact nextDrain_grips ..
  | _ => rfl

theorem Reach.grips (reach : Reach frames a before after frames' events) :
    ∃ rest, frames.filterMap Frame.grips? = before.toList ++ rest ∧
      frames'.filterMap Frame.grips? = after.toList ++ rest := by
  cases reach with
  | assign => exact ⟨_,rfl,rfl⟩
  | call frames call => exact ⟨_,rfl,firstFrames_grips call frames⟩
  | go frame below first more _ _ _ own waiting bodiless grips =>
    have idle : more.filterMap Frame.grips? = [] := by
      refine List.filterMap_eq_nil_iff.mpr fun other member => ?_
      exact gripless_of_waits (waiting other member)
    refine ⟨below.filterMap Frame.grips?,?_,?_⟩
    · cases taken : frame.grips? <;> simp [taken]
    · rw [List.cons_append,List.filterMap_cons,List.filterMap_append,idle,List.nil_append,grips]
      cases after <;> rfl
  | answer frame below reply told =>
    refine ⟨below.filterMap Frame.grips?,?_,resume_grips reply below⟩
    cases taken : frame.grips? <;> simp [taken]

theorem Change.grip (change : Change s t before after shared) :
    (after = before ∧ ∀ d, shared.copyHolder? d = s.copyHolder? d) ∨
      (∃ c, before = none ∧ after = some c ∧ s.copyHolder? c = none ∧
        ∀ d, shared.copyHolder? d = if c = d then some t else s.copyHolder? d) ∨
      ∃ c, before = some c ∧ after = none ∧
        ∀ d, shared.copyHolder? d = if c = d then none else s.copyHolder? d := by
  have mapped (c d : Nat) (f : Copy F → Copy F) : (s.mapCopy c f).copyHolder? d =
      if c = d then (s.copies[d]?).bind fun copy => (f copy).holder else s.copyHolder? d := by
    simp only [copyHolder?,mapCopy,Array.getElem?_modify]
    split <;> cases s.copies[d]? <;> rfl
  cases change with
  | still | manager | register | slot => exact Or.inl ⟨rfl,fun _ => rfl⟩
  | number copy free =>
    refine Or.inl ⟨rfl,fun d => ?_⟩
    simp only [copyHolder?,Array.getElem?_push]
    split
    next new => simp [new,free]
    next => rfl
  | copy grip c f kept =>
    refine Or.inl ⟨rfl,fun d => ?_⟩
    rw [mapped]
    split
    next => simp [kept,copyHolder?]
    next => rfl
  | claim c copy entry free =>
    refine Or.inr (Or.inl ⟨c,rfl,rfl,by simp [copyHolder?,entry,free],fun d => ?_⟩)
    rw [mapped]
    split
    next same => subst same; simp [entry]
    next => rfl
  | yield c =>
    refine Or.inr (Or.inr ⟨c,rfl,rfl,fun d => ?_⟩)
    rw [yieldCopy,mapped]
    split
    next => cases s.copies[d]? <;> rfl
    next => rfl

/-- Every copy in use is locked by the one call that uses it, and every step keeps that. -/
theorem Gripped.step (gripped : Gripped s) (moved : s.step t a = some (next,events)) :
    Gripped next := by
  have effect := step_effect moved
  obtain ⟨bound,shared,before,after,frames,rfl,change,reach⟩ := effect
  obtain ⟨rest,had,has⟩ := reach.grips
  have bound : t < shared.threads.size := change.threads ▸ bound
  have own : (shared.setStack t frames).grips t = after.toList ++ rest := by
    rw [grips,stack_setStack shared frames bound,has]
  have others {u : Nat} (other : u ≠ t) : (shared.setStack t frames).grips u = s.grips u := by
    rw [grips,stack_other frames change.threads other,grips]
  have once : (before.toList ++ rest).Nodup := had ▸ gripped.once t
  have held : ∀ c ∈ before.toList ++ rest, s.copyHolder? c = some t := had ▸ gripped.held t
  have parts (kept : ∀ u c, c ∈ (shared.setStack t frames).grips u → shared.copyHolder? c = some u)
      (nodup : (after.toList ++ rest).Nodup) : Gripped (shared.setStack t frames) := by
    refine ⟨kept,fun u => ?_⟩
    by_cases same : u = t
    · rw [same,own]
      exact nodup
    · rw [others same]
      exact gripped.once u
  -- In each case the copies in use on the other stacks are as before, and so are their locks: a lock
  -- that is taken was free, and one that is given back was this thread's and no other's.
  obtain ⟨rfl,same⟩ | ⟨c,rfl,rfl,free,now⟩ | ⟨c,rfl,rfl,now⟩ := change.grip
  · refine parts (fun u d member => ?_) once
    rw [same]
    by_cases here : u = t
    · subst here
      exact held d (own ▸ member)
    · exact gripped.held u d (others here ▸ member)
  · have apart {u d : Nat} (old : s.copyHolder? d = some u) : ¬c = d := by
      rintro rfl
      simp [free] at old
    have fresh : c ∉ rest := fun member => apart (held c member) rfl
    refine parts (fun u d member => ?_) (List.nodup_cons.mpr ⟨fresh,once⟩)
    rw [now]
    by_cases here : u = t
    · subst here
      obtain rfl | old := List.mem_cons.mp (own ▸ member)
      · exact if_pos rfl
      · rw [if_neg (apart (held d old))]
        exact held d old
    · have old := gripped.held u d (others here ▸ member)
      rw [if_neg (apart old)]
      exact old
  · obtain ⟨fresh,nodup⟩ := List.nodup_cons.mp once
    refine parts (fun u d member => ?_) nodup
    rw [now]
    by_cases here : u = t
    · subst here
      rw [own] at member
      have apart : ¬c = d := by
        rintro rfl
        exact fresh member
      rw [if_neg apart]
      exact held d (List.mem_cons_of_mem c member)
    · have old := gripped.held u d (others here ▸ member)
      have apart : ¬c = d := by
        rintro rfl
        exact here (Option.some.inj (old.symm.trans (held c List.mem_cons_self)))
      rw [if_neg apart]
      exact old

theorem stack_idle (sharding : Sharding) (names : List String) (threads t : Nat) :
    (idle sharding names threads : System F V).stack t = [] := by
  simp only [stack,idle,Array.getD_eq_getD_getElem?,Array.getElem?_replicate]
  split <;> rfl

theorem Interleaving.gripped (run : Interleaving (idle sharding names threads) past s) :
    Gripped s := by
  induction run with
  | start =>
    have none (t : Nat) : (idle sharding names threads : System F V).grips t = [] := by
      rw [grips,stack_idle]
      rfl
    exact ⟨fun t c member => by simp [none] at member,fun t => none t ▸ List.nodup_nil⟩
  | step t a events before moved ih => exact ih.step moved

theorem resume_bears (reply : Reply V) (bear : ∀ frame ∈ frames, frame.bears = true) :
    ∀ frame ∈ (resume reply frames).1.tail, frame.bears = true := by
  have resumed := resumed reply frames
  generalize resume reply frames = result at resumed ⊢
  induction resumed with
  | returned => exact fun frame member => bear frame (List.mem_of_mem_tail member)
  | woken below woken =>
    intro frame member
    obtain new | old := List.mem_append.mp member
    · simp [Frame.bears,woken.waiting frame new]
    · exact bear frame (List.mem_cons_of_mem _ old)
  | passed _ _ _ ih => exact ih (List.forall_mem_cons.mp bear).2

theorem resume_body {reply : Reply V} {rest : List (Frame F V)}
    (bear : ∀ frame ∈ frames, frame.bears = true)
    (here : (resume reply frames).1 = .processBody m w (.claim c) :: rest) :
    reply = .handle c := by
  have resumed := resumed reply frames
  generalize resume reply frames = result at resumed here
  induction resumed with
  | returned => cases bear _ (here ▸ List.mem_cons_self)
  | woken below woken =>
    cases woken <;> cases here
    rfl
  | passed _ told _ ih =>
    have handle := ih (List.forall_mem_cons.mp bear).2 here
    obtain rfl | ⟨_,rfl⟩ | ⟨_,rfl⟩ := told <;> first | exact handle | cases handle

theorem Reach.bears (reach : Reach frames a before after frames' events)
    (bear : ∀ frame ∈ frames.tail, frame.bears = true) :
    ∀ frame ∈ frames'.tail, frame.bears = true := by
  cases reach with
  | assign => exact bear
  | call frames call floor =>
    obtain ⟨first,more,opening,waiting⟩ := firstFrames_waiting (F := F) (V := V) call
    have parts : firstFrames call frames = first :: (more ++ frames) := by
      simpa [opening] using firstFrames_append call [] frames
    intro frame member
    rw [parts,List.tail_cons] at member
    obtain own | old := List.mem_append.mp member
    · simp [Frame.bears,waiting frame own]
    · cases frames with
      | nil => cases old
      | cons top rest =>
        obtain rfl | old := List.mem_cons.mp old
        · simp [Frame.bears,floor frame rfl]
        · exact bear frame old
  | go frame below first more _ _ _ own waiting =>
    intro other member
    obtain new | old := List.mem_append.mp member
    · simp [Frame.bears,waiting other new]
    · exact bear other old
  | answer frame below reply told => exact resume_bears reply bear

theorem Interleaving.bears (run : Interleaving (idle sharding names threads) past s) (t : Nat) :
    ∀ frame ∈ (s.stack t).tail, frame.bears = true := by
  induction run generalizing t with
  | start => simp [stack_idle]
  | step u a events before moved ih =>
    have effect := step_effect moved
    by_cases same : t = u
    · subst same
      obtain ⟨_,_,reach⟩ := effect.stack
      exact reach.bears (ih t)
    · rw [effect.others same]
      exact ih t

theorem Reach.body {rest : List (Frame F V)} (reach : Reach frames a before after frames' events)
    (bear : ∀ frame ∈ frames.tail, frame.bears = true)
    (here : frames' = .processBody m w (.claim c) :: rest) :
    (∃ value, a = .assign value ∧ frames' = frames) ∨
      a = .advance ∧ ∃ n v i under, frames = .get n v (.leave i (.found c)) :: under := by
  cases reach with
  | assign frames value => exact Or.inl ⟨value,rfl,rfl⟩
  | call frames call =>
    cases call with
    | drain ms => cases ms <;> cases here
    | _ => cases here
  | go frame below first more _ _ _ _ _ bodiless =>
    exact absurd (List.cons.inj here).1 (bodiless m w c)
  | answer frame below reply told handed =>
    obtain ⟨n,v,i,rfl⟩ := handed c (resume_body bear here)
    exact Or.inr ⟨rfl,n,v,i,below,rfl⟩

/-- A thread has got the copy from a slot in which it was live, and has taken no step since. -/
structure Obtained (initial : System F V) (past : List (Entry F V)) (t c : Nat)
    (earlier since : List (Entry F V)) (got : System F V) : Prop where
  split : past = earlier ++ since
  run : Interleaving initial earlier got
  live : ∃ i, got.state? i = some (.live c)
  waits : ∀ entry ∈ since, entry.thread ≠ t

theorem left_live {i : Nat} (top : s.stack t = .get m w (.leave i (.found c)) :: below)
    (moved : s.step t .advance = some (next,events)) (live : s.state? i = some (.live c)) :
    next.state? i = some (.live c) := by
  simp only [step,advance,top,advanceGet,answer,Option.some.injEq,Prod.mk.injEq] at moved
  obtain ⟨rfl,_⟩ := moved
  obtain ⟨slot,cell,state⟩ := Option.map_eq_some_iff.mp live
  simp [state?,setStack,leaveSlot,mapSlot,Array.getElem?_modify,cell,state]

/-- A thread that is about to claim a copy got it from a slot, and the copy was live then. -/
theorem Interleaving.obtained (run : Interleaving (idle sharding names threads) past s)
    (top : s.stack t = .processBody m w (.claim c) :: below) :
    ∃ earlier since got, Obtained (idle sharding names threads) past t c earlier since got := by
  -- Back from the state in which the call waits: steps of other threads leave it waiting, and the
  -- last one of its own is the one with which it left the slot.
  induction run generalizing below with
  | start => simp [stack_idle] at top
  | @step past s next u a events run moved ih =>
    have effect := step_effect moved
    by_cases same : t = u
    · subst same
      obtain ⟨_,_,reach⟩ := effect.stack
      obtain ⟨value,rfl,same⟩ | ⟨rfl,n,v,i,under,leaving⟩ := reach.body (run.bears t) top
      · rw [same] at top
        simp [System.step,top,Frame.hook?] at moved
      · have member : .get n v (.leave i (.found c)) ∈ s.stack t := by
          rw [leaving]
          exact List.mem_cons_self
        have live : s.state? i = some (.live c) :=
          run.found _ (mem_roles member rfl) n v i c rfl
        exact ⟨_,[],next,by simp,run.step t _ events moved,⟨i,left_live leaving moved live⟩,by simp⟩
    · obtain ⟨earlier,since,got,split,reached,live,waits⟩ := ih (effect.others same ▸ top)
      refine ⟨earlier,since ++ [⟨u,a,events⟩],got,by simp [split],reached,live,?_⟩
      intro entry member
      obtain old | here := List.mem_append.mp member
      · exact waits entry old
      · obtain rfl := List.mem_singleton.mp here
        exact Ne.symm same

theorem tearing_of_place {r : Role} {place : Location} (placed : r.place? u c = some place)
    (phase : place.phase = .tearingDown) : r = .tearingDown c := by
  cases r with
  | tearingDown d =>
    obtain rfl : d = c := by simpa [Role.place?] using Option.isSome_of_eq_some placed
    rfl
  | settingUp m w i d | ready m w i d | taken d =>
    simp only [Role.place?] at placed
    split at placed <;> cases placed
    cases phase
  | withdrawn m w i found =>
    cases found with
    | none => cases placed
    | some d =>
      simp only [Role.place?] at placed
      split at placed <;> cases placed
      cases phase
  | _ => cases placed

/-- No two calls use one copy. -/
theorem Gripped.unique {first second : Frame F V} (gripped : Gripped s)
    (member : first ∈ s.stack t) (grips : first.grips? = some c)
    (member' : second ∈ s.stack u) (grips' : second.grips? = some c) : t = u ∧ first = second := by
  have held := gripped.held t c (List.mem_filterMap.mpr ⟨first,member,grips⟩)
  have held' := gripped.held u c (List.mem_filterMap.mpr ⟨second,member',grips'⟩)
  obtain rfl := Option.some.inj (held.symm.trans held')
  refine ⟨rfl,?_⟩
  by_contra apart
  obtain ⟨left,right,split⟩ := List.append_of_mem member
  have nodup := gripped.once t
  rw [System.grips,split,List.filterMap_append,List.filterMap_cons_some grips] at nodup
  have other : second ∈ left ++ right := by
    rw [split] at member'
    obtain here | there := List.mem_append.mp member'
    · exact List.mem_append_left _ here
    · exact List.mem_append_right _ ((List.mem_cons.mp there).resolve_left (Ne.symm apart))
  have twice : c ∈ left.filterMap Frame.grips? ++ right.filterMap Frame.grips? := by
    rw [← List.filterMap_append]
    exact List.mem_filterMap.mpr ⟨second,other,grips'⟩
  exact (List.nodup_middle.mp nodup).notMem twice

theorem frame_of_role {r : Role} (member : (t,r) ∈ s.roles) :
    ∃ frame ∈ s.stack t, frame.role? = some r := by
  obtain ⟨u,_,here⟩ := Multiset.mem_sum.mp member
  simp only [stackRoles,Multiset.mem_coe,List.mem_map,List.mem_filterMap] at here
  obtain ⟨q,⟨frame,member,role⟩,same⟩ := here
  cases same
  exact ⟨frame,member,role⟩

theorem release_of_tearing {frame : Frame F V} (role : frame.role? = some (.tearingDown c)) :
    ∃ m w, frame = .release m w (.tearingDown c) := by
  cases frame with
  | release m w point =>
    cases point <;> cases role
    exact ⟨m,w,rfl⟩
  | get m w point =>
    cases point with
    | leave i departure => cases departure <;> cases role
    | _ => cases role
  | peek m w point => cases point <;> cases role
  | processBody m w point => cases point <;> cases role
  | _ => cases role

theorem Interleaving.body_history (run : Interleaving (idle sharding names threads) past s)
    (member : .processBody m w (.running c) ∈ s.stack t) :
    hookHistory c (observed past) = [.began .setup,.ended .setup .returned] ∨
      ∃ ending, hookHistory c (observed past) =
        [.began .setup,.ended .setup .returned,.began .teardown,.ended .teardown ending] := by
  have noted : .beat c (.ended .setup .returned) ∈ notes past :=
    run.custody.shown _ (mem_roles member rfl) c rfl
  have setUp : Beat.ended .setup .returned ∈ beats c (notes past) := beats_of_mem noted
  have quiet : .tearingDown ∉ s.ledger.phases c := by
    -- The call that tears it down has the lock of the copy, which the body has.
    intro tearing
    obtain ⟨place,there,phase⟩ := Multiset.mem_map.mp tearing
    obtain ⟨⟨u,r⟩,role,placed⟩ | ⟨i,_,rfl⟩ := mem_places there
    · obtain rfl : r = .tearingDown c := tearing_of_place placed phase
      obtain ⟨frame,member',role⟩ := frame_of_role role
      obtain ⟨n,v,rfl⟩ := release_of_tearing role
      cases (run.gripped.unique member rfl member' rfl).2
    · cases phase
  rw [hookHistory_observed]
  have line := run.custody.lines c
  generalize beats c (notes past) = history, s.ledger.phases c = phases at line setUp quiet ⊢
  cases line <;> simp_all

theorem body_of_claim (top : s.stack t = .processBody m w (.claim c) :: below)
    (moved : s.step t a = some (next,events)) :
    next.stack t = .processBody m w (.running c) :: below ∧ events = [.hookStarted .body c] := by
  cases step_acts moved with
  | call opened => simp [isOpen,top,Frame.isForeign,Frame.isDrawing,Frame.hook?] at opened
  | assign running => simp [top,Frame.hook?] at running
  | own here acts =>
    obtain ⟨rfl,rfl⟩ := List.cons.inj (top.symm.trans here)
    cases acts with
    | goes goes =>
      have threads := goes.threads
      cases goes with
      | body goes =>
        cases goes with
        | claim => exact ⟨stack_setStack _ _ (threads ▸ bound_of_stack s t _ below top),rfl⟩
    | replies _ replies =>
      cases replies with
      | body replies => cases replies

/-- Whenever a `process` starts its body on a copy, which takes the lock of the copy, the teardown
of that copy is not under way. It had not started when the call got the copy from its slot; so if it
has started at all, then other threads have torn the copy down completely since. -/
theorem Interleaving.body_start (run : Interleaving (idle sharding names threads) past s)
    (top : s.stack t = .processBody m w (.claim c) :: below)
    (moved : s.step t a = some (next,events)) :
    next.stack t = .processBody m w (.running c) :: below ∧
      ∃ earlier since got, Obtained (idle sharding names threads) past t c earlier since got ∧
        hookHistory c (observed earlier) = [.began .setup,.ended .setup .returned] ∧
        (hookHistory c (observed since) = [] ∨
          ∃ ending, hookHistory c (observed since) = [.began .teardown,.ended .teardown ending]) := by
  obtain ⟨starts,rfl⟩ := body_of_claim top moved
  obtain ⟨earlier,since,got,obtained⟩ := run.obtained top
  refine ⟨starts,earlier,since,got,obtained,?_⟩
  obtain ⟨rfl,reached,⟨i,live⟩,waits⟩ := obtained
  have held : hookHistory c (observed earlier) = [.began .setup,.ended .setup .returned] := by
    rw [hookHistory_observed]
    exact (reached.custody.lines c).of_held (Ledger.held_of_live live)
  refine ⟨held,?_⟩
  have whole : hookHistory c (observed (earlier ++ since ++ [⟨t,a,[.hookStarted .body c]⟩])) =
      hookHistory c (observed earlier) ++ hookHistory c (observed since) := by
    simp [observed,hookHistory,beats,Event.note?]
  have running : .processBody m w (.running c) ∈ next.stack t := by
    rw [starts]
    exact List.mem_cons_self
  obtain kept | ⟨ending,torn⟩ := (run.step t a _ moved).body_history running
  · rw [whole,held] at kept
    exact Or.inl (by simpa using kept)
  · rw [whole,held] at torn
    exact Or.inr ⟨ending,by simpa using torn⟩

/-- The copy is torn down between the two locks. -/
def overtakenBody : List (Nat × Action Nat Nat) :=
  [(0,.call (.process 0 (.named "a"))),(0,.advance),(0,.advance),(0,.advance),(0,.drawn (.copy 7)),
    (0,.advance),(0,.advance),(0,.finish (.ok 0)),(0,.advance),(0,.advance),(0,.advance),
    (0,.advance),(1,.call (.release 0 (.named "a"))),(1,.advance),(1,.advance),(1,.advance),
    (1,.advance),(1,.advance),(1,.advance),(1,.finish (.ok 0)),(1,.advance),(1,.advance),
    (1,.advance)]

theorem body_start_of_overtakenBody :
    ∃ (past : List (Entry Nat Nat)) (s next : System Nat Nat) (events : List (Event Nat)),
      Interleaving (idle .single ["pool"] 2) past s ∧ s.step 0 .advance = some (next,events) ∧
      next.stack 0 = [.processBody 0 (.named "a") (.running 0)] ∧
      ∃ earlier since got, Obtained (idle .single ["pool"] 2) past 0 0 earlier since got ∧
        hookHistory 0 (observed earlier) = [.began .setup,.ended .setup .returned] ∧
        (hookHistory 0 (observed since) = [] ∨
          ∃ ending, hookHistory 0 (observed since) = [.began .teardown,.ended .teardown ending]) := by
  obtain ⟨⟨s,past⟩,followed⟩ : ∃ reached,
      (idle .single ["pool"] 2).follow overtakenBody = some reached := ⟨_,rfl⟩
  have run := Interleaving.start.follow followed
  have top : s.stack 0 = [.processBody 0 (.named "a") (.claim 0)] := by
    cases followed
    rfl
  obtain ⟨⟨next,events⟩,moved⟩ : ∃ reached, s.step 0 .advance = some reached := by
    cases followed
    exact ⟨_,rfl⟩
  have started := run.body_start top moved
  exact ⟨_,s,next,events,run,moved,started⟩

/-- A body can start on a copy that has been torn down. -/
theorem torn_down_body :
    ∃ (past : List (Entry Nat Nat)) (s next : System Nat Nat),
      Interleaving (idle .single ["pool"] 2) past s ∧
      hookHistory 0 (observed past) =
        [.began .setup,.ended .setup .returned,.began .teardown,.ended .teardown .returned] ∧
      s.step 0 .advance = some (next,[.hookStarted .body 0]) := by
  obtain ⟨⟨s,past⟩,followed⟩ : ∃ reached,
      (idle .single ["pool"] 2).follow overtakenBody = some reached := ⟨_,rfl⟩
  have run := Interleaving.start.follow followed
  have torn : hookHistory 0 (observed ([] ++ past)) =
      [.began .setup,.ended .setup .returned,.began .teardown,.ended .teardown .returned] := by
    cases followed
    rfl
  obtain ⟨next,moved⟩ : ∃ next, s.step 0 .advance = some (next,[.hookStarted .body 0]) := by
    cases followed
    exact ⟨_,rfl⟩
  exact ⟨_,s,next,run,torn,moved⟩

end System
end PerWorker
