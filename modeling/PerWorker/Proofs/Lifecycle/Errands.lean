import PerWorker.Proofs.Lifecycle.Alone

/-!
A `get` and a `release` of a thread that has a manager to itself, followed from the first step to
the answer. They are cut where foreign code runs and where two ways meet. Main statements: each ends
with the answer that the roster gives, and the manager shows the roster that is left.
-/
namespace PerWorker

open PerWorker.System (Shows Berth Seated Keeps resume)

def Outcome.ending {V : Type} : Outcome V → Ending
  | .returned _ => .returned
  | .failed _ => .failed
  | .panicked _ => .panicked

def Frame.ended {F V : Type} (outcome : Outcome V) : Frame F V → Frame F V
  | .get m w (.settingUp i c) =>
    match outcome with
    | .returned _ => .get m w (.countSetup i c)
    | .failed fault => .get m w (.countSetupFailure i c fault)
    | .panicked message => .get m w (.leave i (.unwinding message))
  | .release m w (.tearingDown c) =>
    match outcome with
    | .returned _ => .release m w (.yield c none)
    | .failed fault => .release m w (.yield c (some fault))
    | .panicked message => .release m w (.unwind c message)
  | .use (.running c) =>
    match outcome with
    | .returned v => .use (.yield c (.ok v))
    | .failed fault => .use (.yield c (.error fault))
    | .panicked message => .use (.unwind c message)
  | .processBody m w (.running c) =>
    match outcome with
    | .returned v => .processBody m w (.yield c (.ok v))
    | .failed fault => .processBody m w (.yield c (.error fault))
    | .panicked message => .processBody m w (.unwind c message)
  | frame => frame

def Draw.point {F : Type} (i : Nat) : Draw F → GetPoint F
  | .copy f => .countCopy i f
  | .refused e => .countCloneFailure i e
  | .panicked message => .leave i (.unwinding message)

namespace Supply

variable {F V : Type}

structure Poised (sharding : Sharding) (t m : Nat) (busy : Option WorkerId) (p : Supply F V)
    (frames : List (Frame F V)) (r : Roster F) (template : Template F) : Prop where
  shows : Shows sharding t m busy p.system r
  stack : p.system.stack t = frames
  seen : hooksRun p.seen = r.hooks
  template : p.template = template

/-- The call above these frames goes on until it gives that answer to them, and then everything
shows that roster. -/
def Ends (sharding : Sharding) (t m : Nat) (conduct : Conduct F V) (below : List (Frame F V))
    (p : Supply F V) (result : Reply V × Roster F × Template F) : Prop :=
  ∃ now next told, Leads t conduct p now ∧
    now.turn? t conduct = some (next,told ++ (resume result.1 below).2) ∧
    told.findSome? Event.reply? = none ∧
    next.Poised sharding t m none (resume result.1 below).1 result.2.1 result.2.2

variable {sharding : Sharding} {t m i c : Nat} {w : WorkerId} {busy busy' : Option WorkerId}
  {conduct : Conduct F V} {p q : Supply F V} {s shared : System F V} {r after : Roster F}
  {template template' : Template F} {frame : Frame F V} {frames frames' below : List (Frame F V)}
  {events told : List (Event V)} {reply : Reply V} {result : Reply V × Roster F × Template F}
  {f value : F} {outcome : Outcome V} {hook : Hook} {copy : Copy F} {fault : Fault}
  {state : SlotState} {message : String} {e : LifecycleError}

theorem hooksRun_append (first second : List (Event V)) :
    hooksRun (first ++ second) = hooksRun first ++ hooksRun second := List.filterMap_append

theorem hooksRun_resume (reply : Reply V) (below : List (Frame F V)) :
    hooksRun (resume reply below).2 = [] := by
  fun_induction resume reply below with
  | case1 | case3 | case9 | case10 | case12 => rfl
  | case2 | case4 | case5 | case6 | case11 =>
    rename_i ih
    exact ih
  | case7 m pending errors below e ih =>
    cases System.nextRelease m pending (errors ++ [e]) below with
    | none => exact ih
    | some frames => rfl
  | case8 reply m pending errors below _ _ ih =>
    cases System.nextRelease m pending errors below with
    | none => exact ih
    | some frames => rfl

theorem Poised.to (poised : Poised sharding t m busy p frames r template)
    (shows : Shows sharding t m busy' shared after)
    (hooks : after.hooks = r.hooks ++ hooksRun events) (frames' : List (Frame F V))
    (template' : Template F) : Poised sharding t m busy'
      ⟨shared.setStack t frames',template',p.seen ++ events⟩ frames' after template' where
  shows := shows.setStack frames'
  stack := System.stack_setStack shared frames' shows.room
  seen := by rw [hooksRun_append,poised.seen,hooks]
  template := rfl

theorem turn?_of_advance (advanced : p.system.advance t = some (s,events)) :
    p.turn? t conduct = some (⟨s,p.template,p.seen ++ events⟩,events) := by
  unfold turn?
  cases top : p.system.stack t with
  | nil => simp [System.advance,top] at advanced
  | cons frame below =>
    -- A frame that waits for foreign code does not advance.
    obtain ⟨hook,drawing⟩ : frame.hook? = none ∧ frame.isDrawing = false := by
      simp only [System.advance,top] at advanced
      split at advanced
      case h_1 m w point =>
        cases point <;> simp_all [System.advanceGet,Frame.hook?,Frame.isDrawing]
      case h_3 m w point =>
        cases point <;> simp_all [System.advanceRelease,Frame.hook?,Frame.isDrawing]
      case h_4 point => cases point <;> simp_all [Frame.hook?,Frame.isDrawing]
      case h_5 point => cases point <;> simp_all [Frame.hook?,Frame.isDrawing]
      all_goals simp_all [Frame.hook?,Frame.isDrawing]
    simp [hook,drawing,act,System.step,advanced]

theorem turn?_of_hook (top : p.system.stack t = frame :: below)
    (runs : frame.hook? = some (hook,c)) (there : p.system.copies[c]? = some copy)
    (acts : conduct.act c hook copy.value = (value,outcome)) : p.turn? t conduct =
      some (⟨(p.system.mapCopy c ({ · with value })).setStack t (frame.ended outcome :: below),
        p.template,p.seen ++ [.hookEnded hook c outcome.ending]⟩,
          [.hookEnded hook c outcome.ending]) := by
  have assigned : p.system.step t (.assign value) =
      some (p.system.mapCopy c ({ · with value }),[]) := by
    simp [System.step,top,runs]
  have still : (p.system.mapCopy c ({ · with value })).stack t = frame :: below := top
  have ended : (p.system.mapCopy c ({ · with value })).step t outcome.action =
      some ((p.system.mapCopy c ({ · with value })).setStack t (frame.ended outcome :: below),
        [.hookEnded hook c outcome.ending]) := by
    cases frame with
    | get _ _ point | release _ _ point | use point | processBody _ _ point =>
      cases point <;> cases runs
      cases outcome <;> simp only [Outcome.action,System.step,System.finish,System.unwind,still,
        System.goto,Frame.ended,Outcome.ending]
    | _ => cases runs
  simp [turn?,top,runs,there,acts,act,assigned,ended]

theorem turn?_of_draw (top : p.system.stack t = .get m w (.replicating i) :: below) :
    p.turn? t conduct = some (⟨p.system.setStack t
      (.get m w (p.template.replicate.1.point i) :: below),p.template.replicate.2,p.seen ++ []⟩,
        []) := by
  cases drawn : p.template.replicate.1 <;>
    simp [turn?,top,Frame.hook?,Frame.isDrawing,drawn,act,System.step,System.draw,System.goto,
      Draw.point]

/-- A silent step leads to where the rest of the call is known to end. -/
theorem Poised.on (poised : Poised sharding t m busy p frames r template)
    (turned : p.turn? t conduct =
      some (⟨shared.setStack t frames',template',p.seen ++ events⟩,events))
    (silent : events.findSome? Event.reply? = none) (shows : Shows sharding t m busy' shared after)
    (hooks : after.hooks = r.hooks ++ hooksRun events)
    (rest : ∀ q : Supply F V, (∀ v, Keeps m v shared q.system) →
      Poised sharding t m busy' q frames' after template' →
      Ends sharding t m conduct below q result) : Ends sharding t m conduct below p result := by
  obtain ⟨now,next,told,leads,last⟩ := rest _ (fun v => .setStack m t v shared frames')
    (poised.to shows hooks frames' template')
  exact ⟨now,next,told,.turn turned silent leads,last⟩

theorem Poised.advance (poised : Poised sharding t m busy p frames r template)
    (advanced : p.system.advance t = some (shared.setStack t frames',events))
    (silent : events.findSome? Event.reply? = none) (shows : Shows sharding t m busy' shared after)
    (hooks : after.hooks = r.hooks ++ hooksRun events)
    (rest : ∀ q : Supply F V, (∀ v, Keeps m v shared q.system) →
      Poised sharding t m busy' q frames' after template →
      Ends sharding t m conduct below q result) : Ends sharding t m conduct below p result := by
  refine poised.on (turn?_of_advance advanced) silent shows hooks ?_
  rw [poised.template]
  exact rest

theorem Poised.answer (poised : Poised sharding t m busy p frames r template)
    (advanced : p.system.advance t =
      some (shared.setStack t (resume reply below).1,told ++ (resume reply below).2))
    (silent : told.findSome? Event.reply? = none) (shows : Shows sharding t m none shared after)
    (hooks : after.hooks = r.hooks ++ hooksRun told) :
    Ends sharding t m conduct below p (reply,after,template) := by
  refine ⟨p,_,told,.refl p,turn?_of_advance advanced,silent,?_⟩
  rw [poised.template]
  refine poised.to shows ?_ _ template
  rw [hooksRun_append,hooksRun_resume,List.append_nil,hooks]

theorem Poised.concludes (poised : Poised sharding t m busy p (frame :: frames) r template)
    (runs : frame.hook? = some (hook,c)) (there : p.system.copies[c]? = some copy)
    (acts : conduct.act c hook copy.value = (value,outcome))
    (shows : Shows sharding t m busy' (p.system.mapCopy c ({ · with value })) after)
    (hooks : after.hooks = r.hooks)
    (rest : ∀ q : Supply F V, (∀ v, Keeps m v (p.system.mapCopy c ({ · with value })) q.system) →
      Poised sharding t m busy' q (frame.ended outcome :: frames) after template →
      Ends sharding t m conduct below q result) : Ends sharding t m conduct below p result := by
  refine poised.on (turn?_of_hook poised.stack runs there acts) rfl shows
    (hooks.trans (List.append_nil _).symm) ?_
  rw [poised.template]
  exact rest

theorem Poised.draws
    (poised : Poised sharding t m busy p (.get m w (.replicating i) :: frames) r template)
    (rest : ∀ q : Supply F V, (∀ v, Keeps m v p.system q.system) →
      Poised sharding t m busy q (.get m w (template.replicate.1.point i) :: frames) r
        template.replicate.2 →
      Ends sharding t m conduct below q result) : Ends sharding t m conduct below p result := by
  refine poised.on (turn?_of_draw poised.stack) rfl poised.shows (List.append_nil _).symm ?_
  rw [poised.template]
  exact rest

section Release

structure Bereft (m : Nat) (w : WorkerId) (c : Nat) (copy : Copy F) (s : System F V) : Prop where
  missing : s.slot? m w = none
  there : s.copies[c]? = some copy
  own : copy.worker = w

theorem Bereft.keeps (bereft : Bereft m w c copy s) (keeps : Keeps m w s shared) :
    Bereft m w c copy shared :=
  ⟨keeps.mapped.trans bereft.missing,keeps.copies c copy bereft.there bereft.own,bereft.own⟩

theorem Bereft.mapCopy {g : Copy F → Copy F} (bereft : Bereft m w c copy s)
    (own : (g copy).worker = copy.worker) : Bereft m w c (g copy) (s.mapCopy c g) :=
  ⟨bereft.missing,System.getElem?_mapCopy g bereft.there,own.trans bereft.own⟩

theorem Bereft.bump (bereft : Bereft m w c copy s) (counter : Counter) :
    Bereft m w c copy (s.bump m counter) :=
  ⟨by rw [System.slot?_bump]; exact bereft.missing,bereft.there,bereft.own⟩

theorem Bereft.settle (bereft : Bereft m w c copy s) (shows : Shows sharding t m (some w) s r)
    (unknown : r.find? w = none) : Shows sharding t m none s r :=
  shows.settle (unknown ▸ .out bereft.missing)

theorem Bereft.copyWorker (bereft : Bereft m w c copy s) : s.copyWorker c = w := by
  simp [System.copyWorker,bereft.there,bereft.own]

theorem Poised.returned (poised : Poised sharding t m (some w) p
      (.release m w (.yield c none) :: below) r template) (bereft : Bereft m w c copy p.system)
    (unknown : r.find? w = none) :
    Ends sharding t m conduct below p (.done,r.count .teardowns,template) := by
  have yielded : p.system.advance t = some ((p.system.yieldCopy c).setStack t
      (.release m w (.countTeardown c none) :: below),[]) := by
    simp only [System.advance,poised.stack,System.advanceRelease,System.goto]
  refine poised.advance yielded rfl (poised.shows.mapCopy bereft.there bereft.own fun _ => ⟨rfl,id⟩)
    (List.append_nil _).symm fun p keeps poised => ?_
  have bereft := (bereft.mapCopy (g := ({ · with holder := none })) rfl).keeps (keeps w)
  have counted : p.system.advance t = some ((p.system.bump m .teardowns).setStack t
      (.release m w (.logTeardown c) :: below),[]) := by
    simp only [System.advance,poised.stack,System.advanceRelease,System.goto]
  refine poised.advance counted rfl (poised.shows.bump .teardowns) (List.append_nil _).symm
    fun p keeps poised => ?_
  have bereft := (bereft.bump .teardowns).keeps (keeps w)
  have logged : p.system.advance t = some (p.system.setStack t (resume .done below).1,
      [.logged (.teardown (p.system.name m) (p.system.copyWorker c) (c + 1))] ++
        (resume .done below).2) := by
    simp only [System.advance,poised.stack,System.advanceRelease,System.answer]
  exact poised.answer logged rfl (bereft.settle poised.shows unknown) (List.append_nil _).symm

/-- A teardown that fails is counted and answered with, and the worker is gone all the same. -/
theorem Poised.failed (poised : Poised sharding t m (some w) p
      (.release m w (.yield c (some fault)) :: below) r template)
    (bereft : Bereft m w c copy p.system) (unknown : r.find? w = none) :
    Ends sharding t m conduct below p (.failed (.teardown r.name w (c + 1) fault),
      (r.count .teardowns).count .teardownFailures,template) := by
  have yielded : p.system.advance t = some ((p.system.yieldCopy c).setStack t
      (.release m w (.countTeardown c (some fault)) :: below),[]) := by
    simp only [System.advance,poised.stack,System.advanceRelease,System.goto]
  refine poised.advance yielded rfl (poised.shows.mapCopy bereft.there bereft.own fun _ => ⟨rfl,id⟩)
    (List.append_nil _).symm fun p keeps poised => ?_
  have bereft := (bereft.mapCopy (g := ({ · with holder := none })) rfl).keeps (keeps w)
  have counted : p.system.advance t = some ((p.system.bump m .teardowns).setStack t
      (.release m w (.countFailure c fault) :: below),[]) := by
    simp only [System.advance,poised.stack,System.advanceRelease,System.goto]
  refine poised.advance counted rfl (poised.shows.bump .teardowns) (List.append_nil _).symm
    fun p keeps poised => ?_
  have bereft := (bereft.bump .teardowns).keeps (keeps w)
  have failed : p.system.advance t = some ((p.system.bump m .teardownFailures).setStack t
      (.release m w (.logFailure c fault) :: below),[]) := by
    simp only [System.advance,poised.stack,System.advanceRelease,System.goto]
  refine poised.advance failed rfl (poised.shows.bump .teardownFailures) (List.append_nil _).symm
    fun p keeps poised => ?_
  have bereft := (bereft.bump .teardownFailures).keeps (keeps w)
  have logged : p.system.advance t = some (p.system.setStack t
      (resume (.failed (.teardown r.name w (c + 1) fault)) below).1,
      [.logged (.teardownFailed (p.system.name m) (p.system.copyWorker c) (c + 1) fault.message)] ++
        (resume (.failed (.teardown r.name w (c + 1) fault)) below).2) := by
    have name : p.system.name m = r.name := poised.shows.name
    simp only [System.advance,poised.stack,System.advanceRelease,System.answer,name,
      bereft.copyWorker]
  exact poised.answer logged rfl (bereft.settle poised.shows unknown) (List.append_nil _).symm

theorem Poised.tearsDown (poised : Poised sharding t m (some w) p
      (.release m w (.tearingDown c) :: below) r template) (bereft : Bereft m w c copy p.system)
    (unknown : r.find? w = none) : Ends sharding t m conduct below p
      (match (conduct.teardown c copy.value).2 with
      | .returned _ => (.done,r.count .teardowns,template)
      | .failed fault => (.failed (.teardown r.name w (c + 1) fault),
          (r.count .teardowns).count .teardownFailures,template)
      | .panicked message => (.panicked message,r,template)) := by
  generalize ended : conduct.teardown c copy.value = result
  obtain ⟨value,outcome⟩ := result
  refine poised.concludes rfl bereft.there ended
    (poised.shows.mapCopy bereft.there bereft.own fun _ => ⟨rfl,id⟩) rfl fun p keeps poised => ?_
  have bereft := (bereft.mapCopy (g := ({ · with value })) rfl).keeps (keeps w)
  cases outcome with
  | returned => exact poised.returned bereft unknown
  | failed => exact poised.failed bereft unknown
  | panicked message =>
    have yielded : p.system.advance t = some ((p.system.yieldCopy c).setStack t
        (resume (.panicked message) below).1,[] ++ (resume (.panicked message) below).2) := by
      simp only [System.advance,poised.stack,Frame.ended,System.advanceRelease,System.answer]
    have shows : Shows sharding t m (some w) (p.system.yieldCopy c) r :=
      poised.shows.mapCopy bereft.there bereft.own fun _ => ⟨rfl,id⟩
    have bereft := bereft.mapCopy (g := ({ · with holder := none })) rfl
    exact poised.answer yielded rfl (bereft.settle shows unknown) (List.append_nil _).symm

theorem Poised.kills (poised : Poised sharding t m (some w) p
      (.release m w (.kill c) :: below) r template)
    (bereft : Bereft m w c ⟨m,w,f,true,none⟩ p.system) (unknown : r.find? w = none) :
    Ends sharding t m conduct below p
      (match (conduct.teardown c f).2 with
      | .returned _ => (.done,(r.ran .teardown c).count .teardowns,template)
      | .failed fault => (.failed (.teardown r.name w (c + 1) fault),
          ((r.ran .teardown c).count .teardowns).count .teardownFailures,template)
      | .panicked message => (.panicked message,r.ran .teardown c,template)) := by
  have killed : p.system.advance t = some ((p.system.mapCopy c ({ · with live := false })).setStack
      t (.release m w (.claim c) :: below),[]) := by
    simp only [System.advance,poised.stack,System.advanceRelease,System.goto]
  refine poised.advance killed rfl
    (poised.shows.mapCopy bereft.there bereft.own fun _ => ⟨rfl,fun _ => rfl⟩)
    (List.append_nil _).symm fun p keeps poised => ?_
  have bereft := (bereft.mapCopy (g := ({ · with live := false })) rfl).keeps (keeps w)
  have claimed : p.system.advance t =
      some ((p.system.mapCopy c ({ · with holder := some t })).setStack t
        (.release m w (.tearingDown c) :: below),[.hookStarted .teardown c]) := by
    simp only [System.advance,poised.stack,System.advanceRelease,System.claimCopy?,bereft.there,
      Option.isNone_none,if_true,System.goto]
  have held := bereft.mapCopy (g := ({ · with holder := some t })) rfl
  have shows : Shows sharding t m (some w) (p.system.mapCopy c ({ · with holder := some t })) r :=
    poised.shows.mapCopy bereft.there bereft.own fun _ => ⟨rfl,id⟩
  refine poised.advance claimed rfl (shows.tornDown held.there rfl) rfl fun p keeps poised => ?_
  exact poised.tearsDown (held.keeps (keeps w)) unknown

theorem Poised.empties (poised : Poised sharding t m (some w) p
      (.release m w (.enter i) :: below) r template) (missing : p.system.slot? m w = none)
    (cell : p.system.slots[i]? = some ⟨m,w,state,none⟩) {found : Option Nat}
    (inside : (match state with | .live c => some c | _ => none) = found)
    (rest : ∀ q : Supply F V, q.system.slot? m w = none →
      q.system.slots[i]? = some ⟨m,w,.retired,some t⟩ →
      (∀ (c : Nat) (copy : Copy F), p.system.copies[c]? = some copy → copy.worker = w →
        q.system.copies[c]? = some copy) →
      Poised sharding t m (some w) q (.release m w (.leave i found) :: below) r template →
      Ends sharding t m conduct below q result) : Ends sharding t m conduct below p result := by
  have entered : p.system.advance t =
      some ((p.system.mapSlot i ({ · with holder := some t })).setStack t
        (.release m w (.retire i) :: below),[]) := by
    simp only [System.advance,poised.stack,System.advanceRelease,System.enterSlot?,cell,
      Option.isNone_none,if_true,System.goto]
  refine poised.advance entered rfl (poised.shows.mapSlot cell rfl) (List.append_nil _).symm
    fun p₁ keeps poised => ?_
  have missing := (keeps w).mapped.trans missing
  have copies := (keeps w).copies
  have cell : p₁.system.slots[i]? = some ⟨m,w,state,some t⟩ :=
    (keeps w).slots i _ (by simp [System.mapSlot,Array.getElem?_modify,cell]) rfl
  have retired : p₁.system.advance t =
      some ((p₁.system.mapSlot i ({ · with state := .retired })).setStack t
        (.release m w (.leave i found) :: below),[]) := by
    subst inside
    simp only [System.advance,poised.stack,System.advanceRelease,cell,Option.map_some,System.goto]
    cases state <;> rfl
  refine poised.advance retired rfl (poised.shows.mapSlot cell rfl) (List.append_nil _).symm
    fun p₂ keeps poised => ?_
  refine rest p₂ ((keeps w).mapped.trans missing) ?_ ?_ poised
  · exact (keeps w).slots i _ (by simp [System.mapSlot,Array.getElem?_modify,cell]) rfl
  · exact fun c copy there own => (keeps w).copies c copy (copies c copy there own) own

/-- A release ends as on the roster, whether or not the worker has a copy. -/
theorem Poised.releases (poised : Poised sharding t m none p
      (.release m w .unregister :: below) r template) :
    Ends sharding t m conduct below p
      ((r.release w conduct).1,(r.release w conduct).2,template) := by
  have seated := poised.shows.seat w
  generalize held : r.find? w = was at seated
  have unknown : (r.remove w).find? w = none := by simp [Roster.find?_remove]
  have unmapped {i : Nat} (mapped : p.system.slot? m w = some i) : p.system.advance t =
      some ((p.system.mapManager m (·.erase w)).setStack t
        (.release m w (.enter i) :: below),[]) := by
    simp only [System.advance,poised.stack,System.advanceRelease,mapped,System.goto]
  have erased := (poised.shows.except w).erase
  have missing := System.slot?_erased p.system m w
  cases seated with
  | out absent =>
    have done : p.system.advance t = some (p.system.setStack t (resume .done below).1,
        [] ++ (resume .done below).2) := by
      simp only [System.advance,poised.stack,System.advanceRelease,absent,System.answer]
    simp only [Roster.release,held,Roster.remove_of_unknown r w held]
    exact poised.answer done rfl poised.shows (List.append_nil _).symm
  | @bare i berth =>
    simp only [Roster.release,held]
    refine poised.advance (unmapped berth.mapped) rfl erased (List.append_nil _).symm
      fun p keeps poised => ?_
    refine poised.empties ((keeps w).mapped.trans missing) ((keeps w).slots i _ berth.cell rfl)
      rfl fun p missing cell copies poised => ?_
    have left : p.system.advance t = some ((p.system.leaveSlot i).setStack t
        (resume .done below).1,[] ++ (resume .done below).2) := by
      simp only [System.advance,poised.stack,System.advanceRelease,System.answer]
    have shows : Shows sharding t m (some w) (p.system.leaveSlot i) (r.remove w) :=
      poised.shows.mapSlot cell rfl
    exact poised.answer left rfl (shows.settle (unknown ▸ .out missing)) (List.append_nil _).symm
  | @housed i c f berth copy =>
    have result : ((r.release w conduct).1,(r.release w conduct).2,template) =
        (match (conduct.teardown c f).2 with
        | .returned _ => (.done,((r.remove w).ran .teardown c).count .teardowns,template)
        | .failed fault => (.failed (.teardown (r.remove w).name w (c + 1) fault),
            (((r.remove w).ran .teardown c).count .teardowns).count .teardownFailures,template)
        | .panicked message => (.panicked message,(r.remove w).ran .teardown c,template)) := by
      simp only [Roster.release,held]
      cases (conduct.teardown c f).2 <;> rfl
    rw [result]
    refine poised.advance (unmapped berth.mapped) rfl erased (List.append_nil _).symm
      fun p₁ keeps poised => ?_
    refine poised.empties ((keeps w).mapped.trans missing) ((keeps w).slots i _ berth.cell rfl)
      rfl fun p missing cell copies poised => ?_
    have there := copies c _ ((keeps w).copies c _ copy rfl) rfl
    have left : p.system.advance t = some ((p.system.leaveSlot i).setStack t
        (.release m w (.kill c) :: below),[]) := by
      simp only [System.advance,poised.stack,System.advanceRelease,System.goto]
    refine poised.advance left rfl (poised.shows.mapSlot cell rfl) (List.append_nil _).symm
      fun p keeps poised => ?_
    exact poised.kills
      ⟨(keeps w).mapped.trans missing,(keeps w).copies c _ there rfl,rfl⟩ unknown

end Release

section Get

/-- A slot that is left vacant or with a copy gives its lock back, and the call is answered. -/
theorem Poised.found (poised : Poised sharding t m (some w) p
      (.get m w (.leave i (.found c)) :: below) r template)
    (berth : Berth p.system m w i (.live c) (some t))
    (there : p.system.copies[c]? = some ⟨m,w,f,true,none⟩)
    (known : r.find? w = some (some (c,f))) :
    Ends sharding t m conduct below p (.handle c,r,template) := by
  have left : p.system.advance t = some ((p.system.leaveSlot i).setStack t
      (resume (.handle c) below).1,[] ++ (resume (.handle c) below).2) := by
    simp only [System.advance,poised.stack,System.advanceGet,System.answer]
  have shows : Shows sharding t m (some w) (p.system.leaveSlot i) r :=
    poised.shows.mapSlot berth.cell rfl
  have seated : Seated (p.system.leaveSlot i) m w (some (some (c,f))) :=
    .housed (berth.mapSlot rfl) there
  exact poised.answer left rfl (shows.settle (known ▸ seated)) (List.append_nil _).symm

theorem Poised.unwinds (poised : Poised sharding t m (some w) p
      (.get m w (.leave i (.unwinding message)) :: below) r template)
    (berth : Berth p.system m w i .vacant (some t)) (known : r.find? w = some none) :
    Ends sharding t m conduct below p (.panicked message,r,template) := by
  have left : p.system.advance t = some ((p.system.leaveSlot i).setStack t
      (resume (.panicked message) below).1,[] ++ (resume (.panicked message) below).2) := by
    simp only [System.advance,poised.stack,System.advanceGet,System.answer]
  have shows : Shows sharding t m (some w) (p.system.leaveSlot i) r :=
    poised.shows.mapSlot berth.cell rfl
  have seated : Seated (p.system.leaveSlot i) m w (some none) := .bare (berth.mapSlot rfl)
  exact poised.answer left rfl (shows.settle (known ▸ seated)) (List.append_nil _).symm

/-- A call that has no copy to give retires the slot and unmaps the worker. -/
theorem Poised.retires (poised : Poised sharding t m (some w) p
      (.get m w (.retire i e) :: below) r template)
    (berth : Berth p.system m w i .vacant (some t)) :
    Ends sharding t m conduct below p (.failed e,r.remove w,template) := by
  have retired : p.system.advance t =
      some ((p.system.mapSlot i ({ · with state := .retired })).setStack t
        (.get m w (.leave i (.failed e)) :: below),[]) := by
    simp only [System.advance,poised.stack,System.advanceGet,System.goto]
  refine poised.advance retired rfl (poised.shows.mapSlot berth.cell rfl) (List.append_nil _).symm
    fun p keeps poised => ?_
  have berth : Berth p.system m w i .retired (some t) := (berth.mapSlot rfl).keeps (keeps w)
  have left : p.system.advance t = some ((p.system.leaveSlot i).setStack t
      (.get m w (.prune i (some e)) :: below),[]) := by
    simp only [System.advance,poised.stack,System.advanceGet,System.goto]
  refine poised.advance left rfl (poised.shows.mapSlot berth.cell rfl) (List.append_nil _).symm
    fun p keeps poised => ?_
  have mapped : p.system.slot? m w = some i := (keeps w).mapped.trans berth.mapped
  have pruned : p.system.advance t = some ((p.system.mapManager m (·.erase w)).setStack t
      (resume (.failed e) below).1,[] ++ (resume (.failed e) below).2) := by
    simp only [System.advance,poised.stack,System.advanceGet,System.answer,
      System.mapManager_eraseSlot mapped]
  have unknown : (r.remove w).find? w = none := by simp [Roster.find?_remove]
  refine poised.answer pruned rfl (poised.shows.erase.settle ?_) (List.append_nil _).symm
  exact unknown ▸ .out (System.slot?_erased p.system m w)

theorem Poised.setsUp (poised : Poised sharding t m (some w) p
      (.get m w (.settingUp i c) :: below) r template)
    (berth : Berth p.system m w i .vacant (some t))
    (there : p.system.copies[c]? = some ⟨m,w,f,true,none⟩) (known : r.find? w = some none) :
    Ends sharding t m conduct below p
      (match conduct.setup f with
      | (f,.returned _) => (.handle c,(r.count .setups).put w (c,f),template)
      | (_,.failed fault) =>
        (.failed (.setup r.name w (c + 1) fault),(r.count .setupFailures).remove w,template)
      | (_,.panicked message) => (.panicked message,r,template)) := by
  generalize ended : conduct.setup f = result
  obtain ⟨value,outcome⟩ := result
  refine poised.concludes rfl there ended (poised.shows.mapCopy there rfl fun _ => ⟨rfl,id⟩) rfl
    fun p keeps poised => ?_
  have berth := (berth.mapCopy c _).keeps (keeps w)
  have there : p.system.copies[c]? = some ⟨m,w,value,true,none⟩ :=
    (keeps w).copies c _ (System.getElem?_mapCopy _ there) rfl
  cases outcome with
  | returned v =>
    have counted : p.system.advance t = some ((p.system.bump m .setups).setStack t
        (.get m w (.logSetup i c) :: below),[]) := by
      simp only [System.advance,poised.stack,Frame.ended,System.advanceGet,System.goto]
    refine poised.advance counted rfl (poised.shows.bump .setups) (List.append_nil _).symm
      fun p keeps poised => ?_
    have berth := (berth.bump .setups).keeps (keeps w)
    have there := (keeps w).copies c _ there rfl
    have logged : p.system.advance t = some (p.system.setStack t
        (.get m w (.publish i c) :: below),
          [.logged (.setup (p.system.name m) w (c + 1))]) := by
      simp only [System.advance,poised.stack,System.advanceGet,System.goto]
    refine poised.advance logged rfl poised.shows (List.append_nil _).symm
      fun p keeps poised => ?_
    have berth := berth.keeps (keeps w)
    have there := (keeps w).copies c _ there rfl
    have published : p.system.advance t =
        some ((p.system.mapSlot i ({ · with state := .live c })).setStack t
          (.get m w (.leave i (.found c)) :: below),[]) := by
      simp only [System.advance,poised.stack,System.advanceGet,System.goto]
    refine poised.advance published rfl ((poised.shows.mapSlot berth.cell rfl).put (c,value))
      (List.append_nil _).symm fun p keeps poised => ?_
    exact poised.found ((berth.mapSlot rfl).keeps (keeps w)) ((keeps w).copies c _ there rfl)
      (by simp [Roster.find?_put,known])
  | failed fault =>
    have counted : p.system.advance t = some ((p.system.bump m .setupFailures).setStack t
        (.get m w (.logSetupFailure i c fault) :: below),[]) := by
      simp only [System.advance,poised.stack,Frame.ended,System.advanceGet,System.goto]
    refine poised.advance counted rfl (poised.shows.bump .setupFailures) (List.append_nil _).symm
      fun p keeps poised => ?_
    have berth := (berth.bump .setupFailures).keeps (keeps w)
    have name : p.system.name m = r.name := poised.shows.name
    have logged : p.system.advance t = some (p.system.setStack t
        (.get m w (.retire i (.setup r.name w (c + 1) fault)) :: below),
          [.logged (.setupFailed (p.system.name m) w (c + 1) fault.message)]) := by
      simp only [System.advance,poised.stack,System.advanceGet,System.goto,name]
    refine poised.advance logged rfl poised.shows (List.append_nil _).symm
      fun p keeps poised => ?_
    exact poised.retires (berth.keeps (keeps w))
  | panicked message => exact poised.unwinds berth known

/-- A worker that is registered without a copy gets one, if the template and the setup allow. -/
theorem Poised.creates (poised : Poised sharding t m (some w) p
      (.get m w (.enter i) :: below) r template) (berth : Berth p.system m w i .vacant none)
    (known : r.find? w = some none) :
    Ends sharding t m conduct below p
      (match r.create w template conduct with
      | (.ok copy,next) => (.handle copy.1,next)
      | (.error reply,next) => (reply,next)) := by
  have entered : p.system.advance t =
      some ((p.system.mapSlot i ({ · with holder := some t })).setStack t
        (.get m w (.replicating i) :: below),[.drawing m]) := by
    simp only [System.advance,poised.stack,System.advanceGet,System.enterSlot?,berth.cell,
      Option.isNone_none,if_true,System.goto]
  refine poised.advance entered rfl (poised.shows.mapSlot berth.cell rfl) (List.append_nil _).symm
    fun p keeps poised => ?_
  have berth : Berth p.system m w i .vacant (some t) := (berth.mapSlot rfl).keeps (keeps w)
  refine poised.draws fun p keeps poised => ?_
  have berth := berth.keeps (keeps w)
  unfold Roster.create
  generalize template.replicate = drawn at poised
  obtain ⟨draw,next⟩ := drawn
  cases draw with
  | refused e =>
    have counted : p.system.advance t = some ((p.system.bump m .cloneFailures).setStack t
        (.get m w (.logCloneFailure i e) :: below),[]) := by
      simp only [System.advance,poised.stack,Draw.point,System.advanceGet,System.goto]
    refine poised.advance counted rfl (poised.shows.bump .cloneFailures) (List.append_nil _).symm
      fun p keeps poised => ?_
    have berth := (berth.bump .cloneFailures).keeps (keeps w)
    have name : p.system.name m = r.name := poised.shows.name
    have logged : p.system.advance t = some (p.system.setStack t
        (.get m w (.retire i (.clone r.name w e)) :: below),
          [.logged (.cloneFailed (p.system.name m) w e.message)]) := by
      simp only [System.advance,poised.stack,System.advanceGet,System.goto,name]
    refine poised.advance logged rfl poised.shows (List.append_nil _).symm
      fun p keeps poised => ?_
    exact poised.retires (berth.keeps (keeps w))
  | panicked message => exact poised.unwinds berth known
  | copy f =>
    have counted : p.system.advance t = some ((p.system.bump m .copies).setStack t
        (.get m w (.number i f) :: below),[]) := by
      simp only [System.advance,poised.stack,Draw.point,System.advanceGet,System.goto]
    refine poised.advance counted rfl (poised.shows.bump .copies) (List.append_nil _).symm
      fun p keeps poised => ?_
    have berth := (berth.bump .copies).keeps (keeps w)
    have size : p.system.copies.size = r.numbered := poised.shows.size
    have numbered : p.system.advance t = some (System.setStack { p.system with
        copies := p.system.copies.push { manager := m, worker := w, value := f } } t
          (.get m w (.settingUp i r.numbered) :: below),[.hookStarted .setup r.numbered]) := by
      simp only [System.advance,poised.stack,System.advanceGet,System.goto,size]
    have shows : Shows sharding t m (some w) _ (r.drawn w) :=
      (poised.shows.number f).ran r.numbered (by decide)
    refine poised.advance numbered rfl shows rfl fun p keeps poised => ?_
    have berth : Berth p.system m w i .vacant (some t) :=
      ⟨(keeps w).mapped.trans berth.mapped,(keeps w).slots i _ berth.cell rfl⟩
    have there : p.system.copies[r.numbered]? = some ⟨m,w,f,true,none⟩ :=
      (keeps w).copies _ _ (by rw [← size]; exact Array.getElem?_push_size) rfl
    have ends : Ends sharding t m conduct below p _ := poised.setsUp berth there known
    dsimp only
    generalize conduct.setup f = ended at ends ⊢
    obtain ⟨value,outcome⟩ := ended
    cases outcome <;> exact ends

theorem Poised.gets (poised : Poised sharding t m none p (.get m w .look :: below) r template) :
    Ends sharding t m conduct below p
      (match r.obtain w template conduct with
      | (.ok copy,next) => (.handle copy.1,next)
      | (.error reply,next) => (reply,next)) := by
  have looks {i : Nat} (mapped : p.system.slot? m w = some i) : p.system.advance t =
      some (p.system.setStack t (.get m w (.enter i) :: below),[]) := by
    simp only [System.advance,poised.stack,System.advanceGet,mapped,System.goto]
  have seated := poised.shows.seat w
  generalize held : r.find? w = was at seated
  cases seated with
  | out absent =>
    have looked : p.system.advance t =
        some (p.system.setStack t (.get m w .register :: below),[]) := by
      simp only [System.advance,poised.stack,System.advanceGet,absent,System.goto]
    refine poised.advance looked rfl poised.shows (List.append_nil _).symm fun p keeps poised => ?_
    have absent : p.system.slot? m w = none := (keeps w).mapped.trans absent
    obtain ⟨next,made,shows,berth⟩ := poised.shows.register absent
    have registered : p.system.advance t = some (next.setStack t
        (.get m w (.enter p.system.slots.size) :: below),[]) := by
      simp only [System.advance,poised.stack,System.advanceGet,absent,System.goto,made]
    have hooks : (r.enroll w).hooks = r.hooks := Roster.hooks_enroll r w
    have known : (r.enroll w).find? w = some none := by simp [Roster.find?_enroll,held]
    simp only [Roster.obtain,held]
    refine poised.advance registered rfl shows (hooks.trans (List.append_nil _).symm)
      fun p keeps poised => ?_
    exact poised.creates (berth.keeps (keeps w)) known
  | @bare i berth =>
    have enrolled : r.enroll w = r := by simp [Roster.enroll,held]
    simp only [Roster.obtain,held,enrolled]
    refine poised.advance (looks berth.mapped) rfl (poised.shows.except w) (List.append_nil _).symm
      fun p keeps poised => ?_
    exact poised.creates (berth.keeps (keeps w)) held
  | @housed i c f berth copy =>
    simp only [Roster.obtain,held]
    refine poised.advance (looks berth.mapped) rfl (poised.shows.except w) (List.append_nil _).symm
      fun p keeps poised => ?_
    have berth := berth.keeps (keeps w)
    have copy := (keeps w).copies c _ copy rfl
    have entered : p.system.advance t =
        some ((p.system.mapSlot i ({ · with holder := some t })).setStack t
          (.get m w (.leave i (.found c)) :: below),[]) := by
      simp only [System.advance,poised.stack,System.advanceGet,System.enterSlot?,berth.cell,
        Option.isNone_none,if_true,System.goto]
    refine poised.advance entered rfl (poised.shows.mapSlot berth.cell rfl)
      (List.append_nil _).symm fun p keeps poised => ?_
    exact poised.found ((berth.mapSlot rfl).keeps (keeps w)) ((keeps w).copies c _ copy rfl) held

end Get

end Supply
end PerWorker
