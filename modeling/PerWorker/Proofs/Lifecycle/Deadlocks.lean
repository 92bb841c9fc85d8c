import PerWorker.Proofs.Lifecycle.Conservation
import PerWorker.Proofs.Lifecycle.Points
import Mathlib.Logic.Relation

/-!
Threads that wait for locks. Templates and setup hooks make no calls, and bodies and teardown hooks
only look copies up. Then whoever has the lock of a slot can go on, and whoever has the lock of a
copy waits for the lock of a slot at most. Main statement: every call under way can go on, or waits
through other threads for one that can, and no thread waits for itself.
-/
namespace PerWorker

inductive Lock where
  | slot (i : Nat)
  | copy (c : Nat)
  deriving Repr, DecidableEq

def Call.isLookup : Call → Bool
  | .get .. | .peek .. => true
  | _ => false

namespace Frame

variable {F V : Type}

/-- The lock that a call takes with its next step. -/
def wants? : Frame F V → Option Lock
  | .get _ _ (.enter i) | .peek _ _ (.enter i) | .release _ _ (.enter i) => some (.slot i)
  | .release _ _ (.claim c) | .use (.claim c) | .processBody _ _ (.claim c) => some (.copy c)
  | _ => none

def lends : Frame F V → Bool
  | .release _ _ (.tearingDown _) | .use (.running _) | .processBody _ _ (.running _) => true
  | _ => false

end Frame

/-- A call that is made where it may be made: by an idle thread, on a manager or on a copy that is
there, or by a body or a teardown hook, to look a copy up. -/
def Moment.isPermitted {F V : Type} (moment : Moment F V) : Bool :=
  match moment.entry.action, moment.state.stack moment.entry.thread with
  | .call (.use c), [] => c < moment.state.copies.size
  | .call _, [] => true
  | .call call, frame :: _ => frame.lends && call.isLookup
  | _, _ => true

namespace System

variable {F V : Type}

def lockHolder? (s : System F V) : Lock → Option Nat
  | .slot i => s.ledger.holder? i
  | .copy c => s.copyHolder? c

/-- The innermost call of the one thread waits for a lock that the other thread holds. -/
def Waits (s : System F V) (t u : Nat) : Prop :=
  ∃ frame below lock, s.stack t = frame :: below ∧ frame.wants? = some lock ∧
    s.lockHolder? lock = some u

/-- The innermost call of a thread can take its next step, or foreign code runs in it and can end in
whichever way it likes. -/
inductive Able (s : System F V) (t : Nat) : Prop
  | goes (moved : (s.step t .advance).isSome = true)
  | draws (moved : ∀ draw, (s.step t (.drawn draw)).isSome = true)
  | runs (returned : ∀ result, (s.step t (.finish result)).isSome = true)
      (panicked : ∀ message, (s.step t (.panic message)).isSome = true)

/-- How many kinds of locks a thread can be kept from, one behind the other. -/
def rank (s : System F V) (t : Nat) : Nat :=
  match (s.stack t).head?.bind Frame.wants? with
  | some (.copy _) => 2
  | some (.slot _) => 1
  | none => 0

/-- A thread is idle, or its innermost call has only calls below it that wait for it, or it is a
lookup that a body or a teardown hook makes in such a call. -/
inductive Layered (made : Nat) : List (Frame F V) → Prop
  | idle : Layered made []
  | call (frame below) (awake : frame.waits = false)
      (waiting : ∀ other ∈ below, other.waits = true)
      (known : ∀ c, frame = .use (.claim c) → c < made) : Layered made (frame :: below)
  | nested (lookup frame below) (seeks : lookup.seeks?.isSome = true) (lends : frame.lends = true)
      (waiting : ∀ other ∈ below, other.waits = true) : Layered made (lookup :: frame :: below)

variable {sharding : Sharding} {names : List String} {threads : Nat} {past : List (Entry F V)}
  {s next : System F V} {t u m c made : Nat} {w : WorkerId} {a : Action F V}
  {frame first other : Frame F V} {below more frames : List (Frame F V)} {reply : Reply V}
  {events : List (Event V)}

theorem Onward.seeking (onward : Onward s a frame first more)
    (seeks : frame.seeks?.isSome = true) : first.seeks?.isSome = true ∧ more = [] := by
  cases onward <;> first | exact ⟨rfl,rfl⟩ | simp [Frame.seeks?] at seeks

theorem awake_of_lends (lends : frame.lends = true) :
    frame.waits = false ∧ ∀ c, frame ≠ .use (.claim c) := by
  cases frame with
  | use point => cases point <;> simp_all [Frame.lends,Frame.waits]
  | _ => simp_all [Frame.lends,Frame.waits]

theorem lendless_of_seeks (seeks : frame.seeks?.isSome = true) : frame.lends = false := by
  cases frame <;> simp_all [Frame.seeks?,Frame.lends]

theorem Layered.resumed (reply : Reply V) (waiting : ∀ frame ∈ frames, frame.waits = true) :
    Layered made (resume reply frames).1 := by
  have resumed := System.resumed reply frames
  generalize resume reply frames = result at resumed ⊢
  induction resumed with
  | returned reply below still =>
    cases below with
    | nil => exact .idle
    | cons frame below => simp [still frame rfl] at waiting
  | woken below woken =>
    have others := (List.forall_mem_cons.mp waiting).2
    refine .call _ _ (by cases woken <;> rfl) (fun other member => ?_) (by cases woken <;> nofun)
    exact (List.mem_append.mp member).elim (woken.waiting other) (others other)
  | passed _ _ _ ih => exact ih (List.forall_mem_cons.mp waiting).2

theorem Layered.opened (call : Call) (known : ∀ c, call = .use c → c < made) :
    Layered made (firstFrames call [] : List (Frame F V)) := by
  cases call with
  | drain ms => cases ms <;> exact .call _ _ rfl (by simp [Frame.waits]) (by simp)
  | use c =>
    refine .call _ _ rfl (by simp) ?_
    rintro d same
    cases same
    exact known c rfl
  | _ => exact .call _ _ rfl (by simp [Frame.waits]) (by simp)

theorem Layered.grow {more : Nat} (layered : Layered made frames) (less : made ≤ more) :
    Layered more frames := by
  cases layered with
  | idle => exact .idle
  | call frame below awake waiting known =>
    exact .call frame below awake waiting fun c same => (known c same).trans_le less
  | nested lookup frame below seeks lends waiting =>
    exact .nested lookup frame below seeks lends waiting

theorem Layered.own (layered : Layered made (frame :: below)) (top : s.stack t = frame :: below)
    (own : a.isOwn = true) (moved : s.step t a = some (next,events)) :
    Layered made (next.stack t) := by
  obtain ⟨first,more,onward,here⟩ | ⟨reply,closes,answers⟩ := own_points top own moved
  · obtain ⟨awake,begun,waiting'⟩ := onward.waiting
    rw [here]
    cases layered with
    | call _ _ _ waiting =>
      refine .call first (more ++ below) awake ?_ fun c same => absurd same (begun c)
      intro other member
      exact (List.mem_append.mp member).elim (waiting' other) (waiting other)
    | nested _ base rest seeks lends waiting =>
      obtain ⟨seeks',rfl⟩ := onward.seeking seeks
      exact .nested first base rest seeks' lends waiting
  · rw [answers.1]
    cases layered with
    | call _ _ _ waiting => exact .resumed reply waiting
    | nested _ base rest seeks lends waiting =>
      obtain ⟨awake,begun⟩ := awake_of_lends lends
      rw [resume_quiet (by simpa using awake)]
      exact .call base rest awake waiting fun c same => absurd same (begun c)

theorem Layered.called {call : Call} (layered : Layered s.copies.size (s.stack t))
    (permitted : Moment.isPermitted (⟨s,⟨t,.call call,events⟩⟩ : Moment F V) = true)
    (moved : s.step t (.call call) = some (next,events)) :
    Layered s.copies.size (next.stack t) := by
  rw [(step_call moved).2.1]
  unfold Moment.isPermitted at permitted
  cases stack : s.stack t with
  | nil =>
    rw [List.append_nil]
    refine .opened call ?_
    rintro c rfl
    simpa [stack] using permitted
  | cons frame below =>
    rw [stack] at layered
    have allowed : frame.lends = true ∧ call.isLookup = true := by
      cases call <;> simpa [stack] using permitted
    cases layered with
    | call _ _ _ waiting =>
      cases call with
      | get m w | peek m w => exact .nested _ frame below rfl allowed.1 waiting
      | _ => simp [Call.isLookup] at allowed
    | nested _ base rest seeks => simp [lendless_of_seeks seeks] at allowed

/-- Calls that are made where they may be made are layered, with one lookup of a body or hook on top
at most. -/
theorem Layered.step (layered : ∀ t, Layered s.copies.size (s.stack t))
    (permitted : Moment.isPermitted (⟨s,⟨t,a,events⟩⟩ : Moment F V) = true)
    (moved : s.step t a = some (next,events)) : ∀ u, Layered next.copies.size (next.stack u) := by
  intro u
  refine Layered.grow ?_ (step_grows moved).2
  by_cases same : u = t
  · subst same
    have here := layered u
    by_cases own : a.isOwn = true
    · cases stack : s.stack u with
      | nil =>
        obtain ⟨_,_,reach⟩ := (step_effect moved).stack
        rw [stack] at reach
        generalize next.stack u = frames at reach ⊢
        cases reach <;> cases own
      | cons frame below => exact (stack ▸ here).own stack own moved
    · cases a with
      | call call => exact here.called permitted moved
      | assign value =>
        obtain ⟨_,_,reach⟩ := (step_effect moved).stack
        generalize s.stack u = old, next.stack u = frames at reach here ⊢
        cases reach with
        | assign => exact here
        | go _ _ _ _ _ _ _ own => cases own
      | _ => exact absurd rfl own
  · rw [(step_effect moved).others same]
    exact layered u

theorem Interleaving.layered (run : Interleaving (idle sharding names threads) past s)
    (permitted : ∀ moment ∈ (idle sharding names threads : System F V).moments past,
      moment.isPermitted = true) : ∀ t, Layered s.copies.size (s.stack t) := by
  induction run with
  | start =>
    intro t
    rw [stack_idle]
    exact .idle
  | @step past s next t a events before moved ih =>
    rw [before.moments_step moved] at permitted
    refine Layered.step (ih fun moment member => ?_) (permitted _ (by simp)) moved
    exact permitted moment (List.mem_append_left _ member)

theorem Interleaving.holding (run : Interleaving (idle sharding names threads) past s)
    (held : s.copyHolder? c = some u) : c ∈ s.grips u := by
  induction run with
  | start => simp [copyHolder?,idle,System.start] at held
  | @step past s next t a events before moved ih =>
    obtain ⟨bound,shared,taken,given,frames,rfl,change,reach⟩ := step_effect moved
    obtain ⟨rest,had,has⟩ := reach.grips
    replace held : shared.copyHolder? c = some u := held
    have own : (shared.setStack t frames).grips t = given.toList ++ rest := by
      rw [grips,stack_setStack shared frames (change.threads ▸ bound),has]
    have kept (old : s.copyHolder? c = some u)
        (still : c ∈ taken.toList ++ rest → c ∈ given.toList ++ rest) :
        c ∈ (shared.setStack t frames).grips u := by
      have used := ih old
      by_cases same : u = t
      · subst same
        rw [own]
        rw [grips,had] at used
        exact still used
      · rwa [grips,stack_other frames change.threads same]
    -- The step changes no grip, takes one, or gives one back.
    obtain ⟨rfl,same⟩ | ⟨d,rfl,rfl,free,now⟩ | ⟨d,rfl,rfl,now⟩ := change.grip
    · exact kept (same c ▸ held) id
    · rw [now] at held
      split at held
      next here =>
        obtain rfl := Option.some.inj held
        rw [own,here]
        exact List.mem_cons_self
      next => exact kept held (List.mem_cons_of_mem d)
    · rw [now] at held
      split at held
      next => contradiction
      next apart =>
        refine kept held fun member => ?_
        exact (List.mem_cons.mp member).resolve_left (Ne.symm apart)

theorem Interleaving.locking {i : Nat} (run : Interleaving (idle sharding names threads) past s)
    (held : s.ledger.holder? i = some u) : ∃ r, (u,r) ∈ s.roles ∧ r.locks? = some i := by
  have sole : u ∈ threadsOf Role.locks? i s.roles := by
    have locked : threadsOf Role.locks? i s.roles = _ := run.sound.locked i
    rw [locked,held]
    exact Multiset.mem_singleton_self u
  obtain ⟨⟨v,r⟩,member,rfl⟩ := Multiset.mem_map.mp sole
  obtain ⟨present,locks⟩ := Multiset.mem_filter.mp member
  exact ⟨r,present,locks⟩

theorem Interleaving.made_of_taken (run : Interleaving (idle sharding names threads) past s)
    (member : .release m w (.claim c) ∈ s.stack t) : c < s.copies.size := by
  simpa [ledger] using run.custody.born (Ledger.held_of_taken (mem_roles member rfl))

theorem enterable {i : Nat} (t : Nat) (homed : s.ledger.Homed m w i) :
    (∃ entered, s.enterSlot? i t = some entered) ∨ ∃ u, s.lockHolder? (.slot i) = some u := by
  obtain ⟨slot,cell,_⟩ := homed
  replace cell : s.slots[i]? = some slot := cell
  cases holder : slot.holder with
  | none => exact Or.inl ⟨_,by simp [enterSlot?,cell,holder]; rfl⟩
  | some u => exact Or.inr ⟨u,by simp [lockHolder?,Ledger.holder?,ledger,cell,holder]⟩

theorem claimable (t : Nat) (made : c < s.copies.size) :
    (∃ claimed, s.claimCopy? c t = some claimed) ∨ ∃ u, s.lockHolder? (.copy c) = some u := by
  have there : s.copies[c]? = some s.copies[c] := Array.getElem?_eq_getElem made
  cases holder : s.copies[c].holder with
  | none => exact Or.inl ⟨_,by simp [claimCopy?,there,holder]; rfl⟩
  | some u => exact Or.inr ⟨u,by simp [lockHolder?,copyHolder?,there,holder]⟩

def Heeds (s : System F V) (t : Nat) : Prop := s.Able t ∨ ∃ u, s.Waits t u

theorem Heeds.goes (moved : (s.advance t).isSome = true) : s.Heeds t := Or.inl (.goes moved)

theorem Heeds.waits {lock : Lock} (top : s.stack t = frame :: below)
    (wants : frame.wants? = some lock) (held : s.lockHolder? lock = some u) : s.Heeds t :=
  Or.inr ⟨u,frame,below,lock,top,wants,held⟩

theorem Heeds.runs {hook : Hook} (top : s.stack t = frame :: below)
    (runs : frame.hook? = some (hook,c)) : s.Heeds t := by
  refine Or.inl (.runs (fun result => ?_) fun message => ?_)
  all_goals
    cases frame with
    | get m w point | release m w point | use point | processBody m w point =>
      cases point <;> first
        | cases runs; done
        | simp only [step,finish,unwind,top,Option.isSome_some]
    | _ => cases runs

theorem get_heeds {point : GetPoint F} (sound : s.ledger.Sound)
    (top : s.stack t = .get m w point :: below) : s.Heeds t := by
  have member : .get m w point ∈ s.stack t := by simp [top]
  cases point with
  | look | register =>
    cases mapped : s.slot? m w <;> exact .goes (by simp [advance,top,advanceGet,mapped])
  | enter i =>
    obtain ⟨⟨shared,state⟩,entered⟩ | ⟨u,held⟩ :=
      enterable t (sound.homes.roles _ (mem_roles member rfl) m w i rfl)
    · cases state <;> exact .goes (by simp [advance,top,advanceGet,entered])
    · exact .waits top rfl held
  | replicating i =>
    refine Or.inl (.draws fun draw => ?_)
    cases draw <;> simp [step,System.draw,top]
  | settingUp i c => exact .runs top rfl
  | leave i departure => cases departure <;> exact .goes (by simp [advance,top,advanceGet])
  | prune i e => cases e <;> exact .goes (by simp [advance,top,advanceGet])
  | _ => exact .goes (by simp [advance,top,advanceGet])

theorem peek_heeds {point : PeekPoint} (sound : s.ledger.Sound)
    (top : s.stack t = .peek m w point :: below) : s.Heeds t := by
  have member : .peek m w point ∈ s.stack t := by simp [top]
  cases point with
  | look => cases mapped : s.slot? m w <;> exact .goes (by simp [advance,top,advancePeek,mapped])
  | enter i =>
    obtain ⟨⟨shared,state⟩,entered⟩ | ⟨u,held⟩ :=
      enterable t (sound.homes.roles _ (mem_roles member rfl) m w i rfl)
    · cases state <;> exact .goes (by simp [advance,top,advancePeek,entered])
    · exact .waits top rfl held
  | leave i found => exact .goes (by simp [advance,top,advancePeek])

theorem release_heeds {point : ReleasePoint} (sound : s.ledger.Sound)
    (made : ∀ c, point = .claim c → c < s.copies.size)
    (top : s.stack t = .release m w point :: below) : s.Heeds t := by
  have member : .release m w point ∈ s.stack t := by simp [top]
  cases point with
  | unregister =>
    cases mapped : s.slot? m w <;> exact .goes (by simp [advance,top,advanceRelease,mapped])
  | enter i =>
    obtain ⟨⟨shared,state⟩,entered⟩ | ⟨u,held⟩ :=
      enterable t (sound.homes.roles _ (mem_roles member rfl) m w i rfl)
    · exact .goes (by simp [advance,top,advanceRelease,entered])
    · exact .waits top rfl held
  | leave i found => cases found <;> exact .goes (by simp [advance,top,advanceRelease])
  | claim c =>
    obtain ⟨shared,claimed⟩ | ⟨u,held⟩ := claimable t (made c rfl)
    · exact .goes (by simp [advance,top,advanceRelease,claimed])
    · exact .waits top rfl held
  | tearingDown c => exact .runs top rfl
  | countTeardown c fault => cases fault <;> exact .goes (by simp [advance,top,advanceRelease])
  | _ => exact .goes (by simp [advance,top,advanceRelease])

theorem body_heeds {point : BodyPoint V} (made : ∀ c, point = .claim c → c < s.copies.size)
    (top : s.stack t = .use point :: below ∨ ∃ m w, s.stack t = .processBody m w point :: below) :
    s.Heeds t := by
  obtain top | ⟨m,w,top⟩ := top
  all_goals
    cases point with
    | claim c =>
      obtain ⟨shared,claimed⟩ | ⟨u,held⟩ := claimable t (made c rfl)
      · exact .goes (by simp [advance,top,claimed])
      · exact .waits top rfl held
    | running c => exact .runs top rfl
    | yield c result => cases result <;> exact .goes (by simp [advance,top])
    | unwind c message => exact .goes (by simp [advance,top])

/-- A call that waits for no other call can go on, or waits for a lock that some thread has. -/
theorem Interleaving.heeds (run : Interleaving (idle sharding names threads) past s)
    (top : s.stack t = frame :: below) (awake : frame.waits = false)
    (known : ∀ c, frame = .use (.claim c) → c < s.copies.size) : s.Heeds t := by
  have member : frame ∈ s.stack t := by simp [top]
  cases frame with
  | get m w point => exact get_heeds run.sound top
  | peek m w point => exact peek_heeds run.sound top
  | release m w point =>
    refine release_heeds run.sound ?_ top
    rintro c rfl
    exact run.made_of_taken member
  | use point => exact body_heeds (fun c here => known c (congrArg _ here)) (Or.inl top)
  | processBody m w point =>
    have made := run.made_of_noted (run.serving_noted member)
    exact body_heeds (by rintro c rfl; exact made) (Or.inr ⟨m,w,top⟩)
  | load m left read registered =>
    cases left with
    | cons counter rest => exact .goes (by simp [advance,top])
    | nil => cases registered <;> exact .goes (by simp [advance,top])
  | processGet | processRelease | releaseAll | drain => cases awake
  | _ => exact .goes (by simp [advance,top])

theorem Interleaving.heeds_layered (run : Interleaving (idle sharding names threads) past s)
    (layered : Layered s.copies.size (s.stack t)) (busy : s.stack t ≠ []) : s.Heeds t := by
  generalize here : s.stack t = frames at layered busy
  cases layered with
  | idle => exact absurd rfl busy
  | call frame below awake _ known => exact run.heeds here awake known
  | nested lookup frame below seeks =>
    cases lookup with
    | get m w point => exact get_heeds run.sound here
    | peek m w point => exact peek_heeds run.sound here
    | _ => simp [Frame.seeks?] at seeks

theorem wantless_of_locks {r : Role} {i : Nat} (role : frame.role? = some r)
    (locks : r.locks? = some i) : frame.wants? = none := by
  cases frame with
  | get m w point | peek m w point | release m w point | processBody m w point =>
    cases point <;> first | rfl | (cases role; cases locks)
  | _ => cases role

theorem wantless_of_grips (grips : frame.grips? = some c) : frame.wants? = none := by
  cases frame with
  | release m w point | use point | processBody m w point =>
    cases point <;> first | rfl | cases grips
  | _ => cases grips

theorem idle_of_waits (waits : frame.waits = true) :
    frame.role? = none ∧ frame.grips? = none := by
  refine ⟨?_,gripless_of_waits waits⟩
  cases frame <;> first | rfl | cases waits

theorem lockless_of_lends {r : Role} (lends : frame.lends = true) (role : frame.role? = some r) :
    r.locks? = none := by
  cases frame with
  | release m w point | use point | processBody m w point =>
    cases point <;> first | cases lends; done | (cases role; rfl) | cases role
  | _ => cases lends

theorem rank_top (top : s.stack t = frame :: below) : s.rank t = match frame.wants? with
    | some (.copy _) => 2
    | some (.slot _) => 1
    | none => 0 := by
  simp [rank,top]

theorem rank_of_seeks (top : s.stack t = frame :: below) (seeks : frame.seeks?.isSome = true) :
    s.rank t ≤ 1 := by
  rw [rank_top top]
  cases frame with
  | get m w point | peek m w point => cases point <;> simp [Frame.wants?]
  | _ => simp [Frame.seeks?] at seeks

theorem Layered.rank_of_locks {r : Role} {i : Nat} (layered : Layered made (s.stack u))
    (member : (u,r) ∈ s.roles) (locks : r.locks? = some i) : s.rank u = 0 := by
  obtain ⟨holder,inside,role⟩ := frame_of_role member
  generalize here : s.stack u = frames at layered inside
  cases layered with
  | idle => cases inside
  | call first rest awake waiting =>
    obtain rfl | later := List.mem_cons.mp inside
    · rw [rank_top here,wantless_of_locks role locks]
    · simp [(idle_of_waits (waiting holder later)).1] at role
  | nested lookup first rest seeks lends waiting =>
    obtain rfl | inside := List.mem_cons.mp inside
    · rw [rank_top here,wantless_of_locks role locks]
    · obtain rfl | later := List.mem_cons.mp inside
      · simp [lockless_of_lends lends role] at locks
      · simp [(idle_of_waits (waiting holder later)).1] at role

theorem Layered.rank_of_grips (layered : Layered made (s.stack u)) (used : c ∈ s.grips u) :
    s.rank u ≤ 1 := by
  obtain ⟨holder,inside,grips⟩ := List.mem_filterMap.mp used
  generalize here : s.stack u = frames at layered inside
  cases layered with
  | idle => cases inside
  | call first rest awake waiting =>
    obtain rfl | later := List.mem_cons.mp inside
    · simp [rank_top here,wantless_of_grips grips]
    · simp [(idle_of_waits (waiting holder later)).2] at grips
  | nested lookup first rest seeks => exact rank_of_seeks here seeks

theorem Waits.rank_lt (run : Interleaving (idle sharding names threads) past s)
    (layered : ∀ t, Layered s.copies.size (s.stack t)) (waits : s.Waits t u) :
    s.rank u < s.rank t := by
  obtain ⟨frame,below,lock,top,wants,held⟩ := waits
  rw [rank_top top,wants]
  cases lock with
  | slot i =>
    obtain ⟨r,member,locks⟩ := run.locking held
    rw [(layered u).rank_of_locks member locks]
    exact Nat.one_pos
  | copy c => exact Nat.lt_succ_of_le ((layered u).rank_of_grips (run.holding held))

/-- Who waits for a lock waits for a thread that has a call under way. -/
theorem Waits.busy (run : Interleaving (idle sharding names threads) past s)
    (waits : s.Waits t u) : s.stack u ≠ [] := by
  obtain ⟨frame,below,lock,top,wants,held⟩ := waits
  intro none
  cases lock with
  | slot i =>
    obtain ⟨r,member,_⟩ := run.locking held
    obtain ⟨holder,inside,_⟩ := frame_of_role member
    simp [none] at inside
  | copy c =>
    have used := run.holding held
    simp [grips,none] at used

/-- Deadlock freedom. Any number of threads make whatever calls on managers, templates and setup
hooks make none, bodies and teardown hooks make lookups of any worker, and what foreign code does
otherwise is to end. Then every call under way can take a step, or waits through other threads for
one that can; and no thread waits, through whichever others, for itself. -/
theorem Interleaving.deadlock_free (run : Interleaving (idle sharding names threads) past s)
    (permitted : ∀ moment ∈ (idle sharding names threads : System F V).moments past,
      moment.isPermitted = true) :
    (∀ t, s.stack t ≠ [] →
      ∃ u, Relation.ReflTransGen s.Waits t u ∧ s.stack u ≠ [] ∧ s.Able u) ∧
    ∀ t, ¬Relation.TransGen s.Waits t t := by
  have layered := run.layered permitted
  refine ⟨?_,?_⟩
  · intro t busy
    induction reached : s.rank t using Nat.strong_induction_on generalizing t with
    | _ k ih =>
      obtain able | ⟨u,waits⟩ := run.heeds_layered (layered t) busy
      · exact ⟨t,.refl,busy,able⟩
      · have less := waits.rank_lt run layered
        obtain ⟨v,chain,busy,able⟩ := ih (s.rank u) (reached ▸ less) u (waits.busy run) rfl
        exact ⟨v,.head waits chain,busy,able⟩
  · have falls {t u : Nat} (chain : Relation.TransGen s.Waits t u) : s.rank u < s.rank t := by
      induction chain with
      | single waits => exact waits.rank_lt run layered
      | tail _ waits ih => exact (waits.rank_lt run layered).trans ih
    exact fun t cycle => (falls cycle).false

/-- One thread is about to look up, in a body, the worker whose copy it uses, which another thread
has released meanwhile. -/
def contention : List (Nat × Action Nat Nat) :=
  [(0,.call (.process 0 (.named "a"))),(0,.advance),(0,.advance),(0,.advance),(0,.drawn (.copy 7)),
    (0,.advance),(0,.advance),(0,.finish (.ok 0)),(0,.advance),(0,.advance),(0,.advance),
    (0,.advance),(0,.advance),(0,.call (.get 0 (.named "a"))),(1,.call (.release 0 (.named "a"))),
    (1,.advance),(1,.advance),(1,.advance),(1,.advance),(1,.advance)]

theorem deadlock_free_of_contention :
    ∃ (past : List (Entry Nat Nat)) (s : System Nat Nat),
      Interleaving (idle .single ["pool"] 2) past s ∧
      (∀ moment ∈ (idle .single ["pool"] 2 : System Nat Nat).moments past,
        moment.isPermitted = true) ∧
      s.stack 1 ≠ [] ∧ s.Waits 1 0 ∧
      (∃ u, Relation.ReflTransGen s.Waits 1 u ∧ s.stack u ≠ [] ∧ s.Able u) ∧
      ∀ t, ¬Relation.TransGen s.Waits t t := by
  obtain ⟨⟨s,past⟩,followed⟩ :
      ∃ reached, (idle .single ["pool"] 2).follow contention = some reached := ⟨_,rfl⟩
  have run := Interleaving.start.follow followed
  have permitted : ∀ moment ∈ (idle .single ["pool"] 2 : System Nat Nat).moments past,
      moment.isPermitted = true := by
    cases followed
    exact List.all_eq_true.mp rfl
  have busy : s.stack 1 ≠ [] := by
    cases followed
    exact List.cons_ne_nil _ _
  have waits : s.Waits 1 0 := by
    cases followed
    exact ⟨_,_,.copy 0,rfl,rfl,rfl⟩
  have free := run.deadlock_free permitted
  exact ⟨past,s,run,permitted,busy,waits,free.1 1 busy,free.2⟩

/-- Locks are not reentrant: a body that releases the worker whose copy it uses waits for itself. -/
theorem waits_of_reentry : ∃ (past : List (Entry Nat Nat)) (s : System Nat Nat),
    Interleaving (idle .single ["pool"] 1) past s ∧ s.Waits 0 0 := by
  obtain ⟨⟨s,past⟩,followed⟩ : ∃ reached, (idle .single ["pool"] 1).follow (contention.take 13 ++
      [(0,.call (.release 0 (.named "a"))),(0,.advance),(0,.advance),(0,.advance),(0,.advance),
        (0,.advance)]) = some reached := ⟨_,rfl⟩
  refine ⟨past,s,Interleaving.start.follow followed,?_⟩
  cases followed
  exact ⟨_,_,.copy 0,rfl,rfl,rfl⟩

end System
end PerWorker
