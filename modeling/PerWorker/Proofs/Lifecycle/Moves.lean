import PerWorker.Proofs.Lifecycle.Acts
import PerWorker.Proofs.Lifecycle.Ledger

/-!
Every atomic step is a move of the slot protocol. The cases follow the calls and their points; what
answering does to the calls below is settled first, since an answer may end any number of them.
-/
namespace PerWorker
open Ledger

def Reply.handed? {V : Type} : Reply V → Option Nat
  | .handle c | .peeked (some c) => some c
  | _ => none

namespace System

variable {F V : Type}

theorem move_of_shift (s shared : System F V) (t : Nat) (frames : List (Frame F V))
    (before after : Option Role) (kept : Multiset (Nat × Role)) (notes : List Note)
    (bound : t < s.threads.size) (same : shared.threads = s.threads)
    (old : stackRoles t (s.stack t) = tagged t before + kept)
    (new : stackRoles t frames = tagged t after + kept)
    (shift : Shift s.ledger t before after notes shared.ledger) :
    Move s.ledger notes (shared.setStack t frames).ledger := by
  obtain ⟨rest,roles,_⟩ := roles_split s t bound
  obtain ⟨rest',roles',exchanged⟩ := roles_split shared t (same ▸ bound)
  have sameStack : shared.stack t = s.stack t := by simp only [stack,same]
  have total : shared.roles = s.roles := by simp only [System.roles,stack,same]
  have others : rest' = rest := by
    rw [total,roles,sameStack] at roles'
    exact (add_left_cancel roles').symm
  have split : s.ledger.roles = tagged t before + (kept + rest) := by
    rw [← add_assoc,← old]
    exact roles
  have moved := Move.mk t before after notes shared.ledger (kept + rest) split shift
  rw [← add_assoc,← new,← others,← exchanged frames] at moved
  exact moved

theorem move_of_top (s shared : System F V) (t : Nat) (frame : Frame F V)
    (below frames : List (Frame F V)) (after : Option Role) (notes : List Note)
    (top : s.stack t = frame :: below) (same : shared.threads = s.threads)
    (new : stackRoles t frames = tagged t after + stackRoles t below)
    (shift : Shift s.ledger t frame.role? after notes shared.ledger) :
    Move s.ledger notes (shared.setStack t frames).ledger :=
  move_of_shift s shared t frames frame.role? after (stackRoles t below) notes
    (bound_of_stack s t frame below top) same (by rw [top,stackRoles_cons]) new shift

@[simp] theorem stackRoles_nextDrain (t : Nat) (pending : List Nat) (drained : Nat)
    (errors : List LifecycleError) (below : List (Frame F V)) :
    stackRoles t (nextDrain pending drained errors below) = stackRoles t below := by
  cases pending <;> rfl

theorem stackRoles_nextRelease (t m : Nat) (pending : List WorkerId)
    (errors : List LifecycleError) (below frames : List (Frame F V))
    (next : nextRelease m pending errors below = some frames) :
    stackRoles t frames = stackRoles t below := by
  cases pending with
  | nil =>
    cases errors with
    | nil => simp [nextRelease] at next
    | cons e rest => cases next; rfl
  | cons w rest => cases next; rfl

theorem note_returned (reply : Reply V) :
    (Event.returned reply).note? = reply.handed?.map Note.handed := by
  cases reply with
  | peeked found => cases found <;> rfl
  | _ => rfl

/-- An answer without a copy moves no role and hands nothing out, however many calls it ends. -/
theorem resume_silent (t : Nat) (reply : Reply V) (frames : List (Frame F V))
    (silent : reply.handed? = none) :
    stackRoles t (resume reply frames).1 = stackRoles t frames ∧
      (resume reply frames).2.filterMap Event.note? = [] := by
  fun_induction resume reply frames with
  | case1 => simp [Reply.handed?] at silent
  | case2 m w below reply other ih => simpa [stackRoles_cons,Frame.role?] using ih silent
  | case4 m w fault below message ih | case6 m pending errors below message ih =>
    simpa [stackRoles_cons,Frame.role?] using ih rfl
  | case5 reply m w fault below _ _ ih => simpa [stackRoles_cons,Frame.role?] using ih rfl
  | case7 m pending errors below e ih =>
    cases next : nextRelease m pending (errors ++ [e]) below with
    | none => simpa [stackRoles_cons,Frame.role?] using ih rfl
    | some frames => simp [stackRoles_cons,Frame.role?,stackRoles_nextRelease _ _ _ _ _ _ next]
  | case8 reply m pending errors below _ _ ih =>
    cases next : nextRelease m pending errors below with
    | none => simpa [stackRoles_cons,Frame.role?] using ih rfl
    | some frames => simp [stackRoles_cons,Frame.role?,stackRoles_nextRelease _ _ _ _ _ _ next]
  | case3 | case9 | case10 => simp [stackRoles_cons,Frame.role?]
  | case11 m pending drained errors below reply _ _ ih =>
    simpa [stackRoles_cons,Frame.role?] using ih silent
  | case12 reply frames => simp [note_returned,silent]

/-- Answering touches no role below, but that a call waiting for a handle starts to serve the copy.
What is handed out is the copy of the answer. -/
theorem resume_roles (t : Nat) (reply : Reply V) (frames : List (Frame F V)) :
    ∃ after, stackRoles t (resume reply frames).1 = tagged t after + stackRoles t frames ∧
      (∀ r ∈ after, ∃ c, reply.handed? = some c ∧ r = .serving c) ∧
      ∀ n ∈ (resume reply frames).2.filterMap Event.note?,
        ∃ c, reply.handed? = some c ∧ n = .handed c := by
  have quiet (reply : Reply V) (frames : List (Frame F V)) (silent : reply.handed? = none) :=
    resume_silent t reply frames silent
  cases told : reply.handed? with
  | none => exact ⟨none,by simp [quiet reply frames told],by simp,by simp [quiet reply frames told]⟩
  | some c =>
    fun_induction resume reply frames with
    | case1 m w below d =>
      refine ⟨some (.serving d),by simp [stackRoles_cons,Frame.role?],?_,by simp⟩
      simp [← told,Reply.handed?]
    | case2 m w below reply other ih =>
      obtain ⟨after,roles,served,handed⟩ := ih told
      exact ⟨after,by simpa [stackRoles_cons,Frame.role?] using roles,served,handed⟩
    | case3 | case4 | case6 | case7 | case9 | case10 => simp [Reply.handed?] at told
    | case5 reply m w fault below =>
      have silent := quiet (.fault fault) below rfl
      exact ⟨none,by simp [stackRoles_cons,Frame.role?,silent],by simp,by simp [silent]⟩
    | case8 reply m pending errors below =>
      have silent := quiet (.errors errors) below rfl
      cases next : nextRelease m pending errors below with
      | none => exact ⟨none,by simp [stackRoles_cons,Frame.role?,silent],by simp,by simp [silent]⟩
      | some frames =>
        have same := stackRoles_nextRelease t _ _ _ _ _ next
        exact ⟨none,by simp [stackRoles_cons,Frame.role?,same],by simp,by simp⟩
    | case11 m pending drained errors below reply _ _ ih =>
      obtain ⟨after,roles,served,handed⟩ := ih told
      exact ⟨after,by simpa [stackRoles_cons,Frame.role?] using roles,served,handed⟩
    | case12 reply frames =>
      exact ⟨none,by simp,by simp,by simp [note_returned,told]⟩

variable {s shared next : System F V} {t m : Nat} {w : WorkerId} {a : Action F V}
  {frame : Frame F V} {below : List (Frame F V)} {reply : Reply V} {told : List (Event V)}

theorem lockCopy_ledger (s : System F V) (t c : Nat) : (s.lockCopy t c).ledger = s.ledger :=
  ledger_mapCopy_same s c _ (fun _ => rfl)

theorem yieldCopy_ledger (s : System F V) (c : Nat) : (s.yieldCopy c).ledger = s.ledger :=
  ledger_mapCopy_same s c _ (fun _ => rfl)

private theorem counted (role : Option Role) (counter : Counter) :
    Shift s.ledger t role role [] (s.bump m counter).ledger := by
  rw [ledger_bump]
  exact .stay role

private theorem GetGoes.shift {point point' : GetPoint F}
    (goes : GetGoes s t m w a point shared point' told) :
    Shift s.ledger t (Frame.get m w point : Frame F V).role? (Frame.get m w point' : Frame F V).role?
      (Entry.notes ⟨t,a,told⟩) shared.ledger := by
  cases goes with
  | seen mapped | beaten mapped => exact .look mapped
  | unseen => exact .stay none
  | register missing =>
    rw [ledger_register s m w missing]
    exact .register missing
  | occupy free =>
    obtain ⟨slot,cell,free,vacant⟩ := free
    exact .occupy cell free vacant
  | meet free =>
    obtain ⟨slot,cell,free,live⟩ := free
    exact .meet cell free live
  | miss free =>
    obtain ⟨slot,cell,free,retired⟩ := free
    exact .miss cell free retired
  | copy | refuse | logRefusal | logFailure | logSetup => exact .stay _
  | spoil => exact .spoil
  | countRefusal | countCopy | countFailure | countSetup => exact counted ..
  | @number i f =>
    have size : s.ledger.bonds.size = s.copies.size := by simp [ledger]
    have bonds : (s.copies.push { manager := m, worker := w, value := f }).map Copy.bond =
        s.ledger.bonds.push ⟨m,w,true⟩ := by simp [ledger,Copy.bond]
    have shift := Shift.number (l := s.ledger) (t := t) (m := m) (w := w) (i := i)
    rw [size,← bonds] at shift
    exact shift
  | setUp => exact .setUp
  | fail => exact .discard
  | panic => exact .unwind
  | publish => exact .publish
  | retire => exact .abandon
  | failed | again => exact .depart
  | restart =>
    rw [ledger_eraseSlot]
    exact .prune

private theorem PeekGoes.shift {point point' : PeekPoint}
    (goes : PeekGoes s t m w point shared point') :
    Shift s.ledger t (Frame.peek m w point : Frame F V).role?
      (Frame.peek m w point' : Frame F V).role? [] shared.ledger := by
  cases goes with
  | seen mapped => exact .glance mapped
  | meet free =>
    obtain ⟨slot,cell,free,live⟩ := free
    exact .inspect cell free (by simp [live])
  | miss free =>
    obtain ⟨slot,cell,free,_⟩ := free
    exact .inspect cell free (by simp)

private theorem ReleaseGoes.shift {point point' : ReleasePoint}
    (goes : ReleaseGoes s t m w a point shared point' told) :
    Shift s.ledger t (Frame.release m w point : Frame F V).role?
      (Frame.release m w point' : Frame F V).role? (Entry.notes ⟨t,a,told⟩) shared.ledger := by
  cases goes with
  | unregister mapped =>
    rw [ledger_erase]
    exact .detach mapped
  | enter free =>
    obtain ⟨slot,cell,free,_⟩ := free
    exact .grasp cell free
  | retire live => exact .withdraw fun c => (live c).trans Option.map_eq_some_iff
  | leave => exact .carry
  | kill =>
    rw [ledger_mapCopy s _ ({ · with live := false }) ({ · with live := false }) (fun _ => rfl)]
    exact .kill
  | claim =>
    rw [lockCopy_ledger]
    exact .tearDown
  | tornDown | fail | panic => exact .tornDown
  | yield =>
    rw [yieldCopy_ledger]
    exact .stay none
  | countTeardown | countBroken | countFailure => exact counted ..

private theorem BodyGoes.shift {point point' : BodyPoint V}
    (goes : BodyGoes s t a point shared point' told) (role : Option Role) :
    Shift s.ledger t role role (Entry.notes ⟨t,a,told⟩) shared.ledger := by
  cases goes with
  | claim =>
    rw [lockCopy_ledger]
    exact .stay role
  | finish | fail | panic => exact .stay role

theorem stackRoles_append (t : Nat) (above below : List (Frame F V)) :
    stackRoles t (above ++ below) = stackRoles t above + stackRoles t below := by
  simp [stackRoles]

private theorem Goes.move {first : Frame F V} {more : List (Frame F V)}
    (goes : Goes s t a frame shared first more told) (top : s.stack t = frame :: below) :
    Move s.ledger (Entry.notes ⟨t,a,told⟩)
      (shared.setStack t (first :: more ++ below)).ledger := by
  have threads := goes.threads
  have on (shift : Shift s.ledger t frame.role? first.role? (Entry.notes ⟨t,a,told⟩) shared.ledger)
      (idle : stackRoles t more = 0) : Move s.ledger (Entry.notes ⟨t,a,told⟩)
        (shared.setStack t (first :: more ++ below)).ledger := by
    refine move_of_top s shared t frame below _ _ _ top threads ?_ shift
    rw [List.cons_append,stackRoles_cons,stackRoles_append,idle,zero_add]
  cases goes with
  | get goes => exact on goes.shift rfl
  | peek goes => exact on goes.shift rfl
  | release goes => exact on goes.shift rfl
  | use goes => exact on (goes.shift none) rfl
  | @body m w _ point _ point' _ goes =>
    have same : (Frame.processBody m w point' : Frame F V).role? =
        (Frame.processBody m w point : Frame F V).role? := by cases goes <;> rfl
    refine on ?_ rfl
    rw [same]
    exact goes.shift _
  | fail =>
    refine on ?_ rfl
    rw [yieldCopy_ledger]
    exact .serve
  | _ => exact on (.stay none) rfl

/-- The frame that replies leaves; where a copy is handed out the call below may serve it. -/
private theorem Replies.shift {after : Option Role} {notes : List Note}
    (replies : Replies s frame shared reply told)
    (served : ∀ r ∈ after, ∃ c, reply.handed? = some c ∧ r = .serving c)
    (handed : ∀ n ∈ notes, ∃ c, reply.handed? = some c ∧ n = .handed c) :
    Shift s.ledger t frame.role? after (told.filterMap Event.note? ++ notes) shared.ledger := by
  have silent (unhanded : reply.handed? = none) : after = none ∧ notes = [] := by
    rw [unhanded] at served handed
    exact ⟨Option.eq_none_iff_forall_not_mem.mpr fun r own => by simpa using served r own,
      List.eq_nil_iff_forall_not_mem.mpr fun n own => by simpa using handed n own⟩
  cases replies with
  | get replies =>
    cases replies with
    | found | unwound => exact .leave served handed
    | failed =>
      obtain ⟨rfl,rfl⟩ := silent rfl
      rw [ledger_eraseSlot]
      exact .prune
  | @peek m w point _ found replies =>
    cases replies with
    | unseen =>
      obtain ⟨rfl,rfl⟩ := silent rfl
      exact .stay none
    | left => cases found <;> exact .leave served handed
  | release replies =>
    cases replies with
    | empty =>
      obtain ⟨rfl,rfl⟩ := silent rfl
      exact .carry
    | unwound =>
      obtain ⟨rfl,rfl⟩ := silent rfl
      rw [yieldCopy_ledger]
      exact .stay none
    | absent | done | failed =>
      obtain ⟨rfl,rfl⟩ := silent rfl
      exact .stay none
  | use replies =>
    cases replies <;> obtain ⟨rfl,rfl⟩ := silent rfl <;> rw [yieldCopy_ledger] <;> exact .stay none
  | body replies =>
    cases replies <;> obtain ⟨rfl,rfl⟩ := silent rfl <;> rw [yieldCopy_ledger] <;> exact .serve
  | broken =>
    obtain ⟨rfl,rfl⟩ := silent rfl
    rw [yieldCopy_ledger]
    exact .stay none
  | _ =>
    obtain ⟨rfl,rfl⟩ := silent rfl
    exact .stay none

private theorem Replies.move (replies : Replies s frame shared reply told)
    (top : s.stack t = frame :: below) :
    Move s.ledger ((told ++ (resume reply below).2).filterMap Event.note?)
      (shared.setStack t (resume reply below).1).ledger := by
  obtain ⟨after,kept,served,handed⟩ := resume_roles t reply below
  rw [List.filterMap_append]
  exact move_of_top s shared t frame below _ after _ top replies.threads kept
    (replies.shift served handed)

theorem stackRoles_firstFrames (t : Nat) (call : Call) (below : List (Frame F V)) :
    stackRoles t (firstFrames call below) = stackRoles t below := by
  cases call <;> simp [firstFrames,stackRoles_cons,Frame.role?]

/-- Whatever a thread does in one atomic step, it makes one move of the slot protocol. -/
theorem step_move (moved : s.step t a = some (next,told)) :
    Move s.ledger (Entry.notes ⟨t,a,told⟩) next.ledger := by
  cases step_acts moved with
  | @call call opened =>
    have bound : t < s.threads.size := by simp_all [isOpen]
    exact move_of_shift s s t _ none none (stackRoles t (s.stack t)) [] bound rfl (by simp)
      (by simpa using stackRoles_firstFrames t call (s.stack t)) (.stay none)
  | @assign value _ c =>
    have same : (s.mapCopy c ({ · with value })).ledger = s.ledger :=
      ledger_mapCopy_same s c _ (fun _ => rfl)
    rw [same]
    exact .idle s.ledger t
  | own top acts =>
    cases acts with
    | goes goes => exact goes.move top
    | replies own replies =>
      subst own
      exact replies.move top

/-- What holds at the start and is kept by every move holds in every reachable state, with all
that has been noted on the way there. -/
theorem Interleaving.induct {initial s : System F V} {past : List (Entry F V)}
    (run : Interleaving initial past s) (holds : List Note → Ledger → Prop)
    (initially : holds [] initial.ledger)
    (kept : ∀ before l notes next, holds before l → Move l notes next →
      holds (before ++ notes) next) :
    holds (notes past) s.ledger := by
  induction run with
  | start => exact initially
  | step t a events before moved ih =>
    have last := kept _ _ _ _ ih (step_move moved)
    simpa [notes] using last

end System
end PerWorker
