import PerWorker.Proofs.Lifecycle.Stands

/-!
Every step of a session is an advance of the call of the thread that takes it. The cases follow the
points of the three calls. That no panic passes through a call, that an error is one of `get`'s own
and that a copy taken out is bound to the worker is carried along with the frame.
-/
namespace PerWorker
open Ledger

def Blames (name : String) (w : WorkerId) (e : LifecycleError) : Prop :=
  (∃ source, e = .clone name w source) ∨ ∃ id source, e = .setup name w id source

/-- A call of a session with that manager that no panic passes through. -/
def Frame.Fits {F V : Type} (name : String) (m : Nat) (l : Ledger) : Frame F V → Prop
  | .get n w point => n = m ∧
    match point with
    | .retire _ e | .leave _ (.failed e) | .prune _ (some e) => Blames name w e
    | .leave _ (.unwinding _) => False
    | _ => True
  | .peek n _ _ => n = m
  | .release n w point => n = m ∧
    match point with
    | .leave _ (some c) | .kill c | .claim c | .tearingDown c | .yield c _ | .countTeardown c _
    | .logTeardown c | .countFailure c _ | .logFailure c _ => l.Bound c m w
    | .unwind _ _ => False
    | _ => True
  | _ => False

theorem Frame.Fits.mono {F V : Type} {name : String} {m : Nat} {l next : Ledger} {frame : Frame F V}
    (fits : frame.Fits name m l) (kept : ∀ c w, l.Bound c m w → next.Bound c m w) :
    frame.Fits name m next := by
  cases frame with
  | release n w point =>
    obtain ⟨rfl,valid⟩ := fits
    refine ⟨rfl,?_⟩
    cases point with
    | leave i found =>
      cases found with
      | none => trivial
      | some c => exact kept c w valid
    | kill | claim | tearingDown | yield | countTeardown | logTeardown | countFailure | logFailure =>
      exact kept _ w valid
    | unregister | enter | retire => trivial
    | unwind => exact valid.elim
  | get | peek => exact fits
  | _ => exact fits.elim

theorem Frame.Fits.busy {F V : Type} {name : String} {m : Nat} {l : Ledger} {frame : Frame F V}
    (fits : frame.Fits name m l) : frame.stand name ≠ .idle := by
  cases frame with
  | get k w point | peek k w point | release k w point =>
    unfold Frame.stand
    dsimp only
    split <;> simp
  | _ => exact fits.elim

theorem Ledger.Alike.trans {l l' l'' : Ledger} (first : l.Alike l') (second : l'.Alike l'') :
    l.Alike l'' :=
  ⟨second.1.trans first.1,fun i => (second.2 i).trans (first.2 i)⟩

namespace System

variable {F V : Type}

def Orderly (s : System F V) (name : String) (m t : Nat) : Prop :=
  s.stack t = [] ∨ ∃ frame, s.stack t = [frame] ∧ frame.Fits name m s.ledger

structure Progress (name : String) (m : Nat) (torn : Nat → Option Fault → Prop)
    (s next : System F V) (t : Nat) (events : List (Event V)) : Prop where
  advance : ∃ said, events.filterMap Event.talk? = said.toList ∧
    Advance name m torn s.ledger next.ledger (s.stand name t) (next.stand name t) said
  others : ∀ u, u ≠ t → next.stack u = s.stack u
  orderly : next.Orderly name m t
  named : next.name m = s.name m

variable {name : String} {m k t i c : Nat} {w : WorkerId} {torn : Nat → Option Fault → Prop}
  {s shared next : System F V} {frame other : Frame F V} {events told : List (Event V)}

theorem stack_other (frames : List (Frame F V)) (same : shared.threads = s.threads) {u : Nat}
    (away : u ≠ t) : (shared.setStack t frames).stack u = s.stack u := by
  simp [stack,setStack,same,Ne.symm away]

theorem stand_of_top {below : List (Frame F V)} (top : s.stack t = frame :: below) :
    s.stand name t = frame.stand name := by
  simp only [stand,top]

theorem alike_refl (l : Ledger) : l.Alike l := ⟨rfl,fun _ => rfl⟩

theorem alike_setStack (s : System F V) (t : Nat) (frames : List (Frame F V)) :
    s.ledger.Alike (s.setStack t frames).ledger :=
  ⟨rfl,fun _ => rfl⟩

theorem alike_bump (s : System F V) (m : Nat) (counter : Counter) :
    s.ledger.Alike (s.bump m counter).ledger := by
  rw [ledger_bump]
  exact alike_refl s.ledger

theorem alike_lock (s : System F V) (i : Nat) (holder : Option Nat) :
    s.ledger.Alike (s.mapSlot i ({ · with holder })).ledger :=
  ⟨rfl,fun j => state_lock s.ledger i j holder⟩

theorem alike_of_ledger (same : shared.ledger = s.ledger) : s.ledger.Alike shared.ledger := by
  rw [same]
  exact alike_refl _

structure Ready (s : System F V) (name : String) (m : Nat) : Prop where
  sound : s.ledger.Sound
  bonded : s.ledger.Bonded
  present : m < s.ledger.managers
  named : s.name m = name

theorem Ready.homed {r : Role} (ready : s.Ready name m)
    (top : s.stack t = [frame]) (role : frame.role? = some r) (home : r.home? = some (m,w,i)) :
    s.ledger.Homed m w i :=
  ready.sound.homes.roles _ (mem_roles (top ▸ List.mem_singleton_self _) role) m w i home

theorem Ready.vacant {r : Role} (ready : s.Ready name m)
    (top : s.stack t = [frame]) (role : frame.role? = some r) (fills : r.fills? = some i) :
    s.ledger.state? i = some .vacant :=
  ready.sound.guarded.fills _ (mem_roles (top ▸ List.mem_singleton_self _) role) i fills

theorem state_of_free {state : SlotState} (free : s.FreeSlot i state) :
    s.ledger.state? i = some state := by
  obtain ⟨slot,cell,_,rfl⟩ := free
  simp [Ledger.state?,ledger,cell]

theorem copyWorker_of_bound (bound : s.ledger.Bound c m w) : s.copyWorker c = w := by
  obtain ⟨bond,entry,-,rfl⟩ := bound
  obtain ⟨copy,found,rfl⟩ : ∃ copy, s.copies[c]? = some copy ∧ copy.bond = bond := by
    simpa [ledger] using entry
  simp [copyWorker,found,Copy.bond]

section

variable {call : Call} {debt : Debt V} {l : Ledger}

/-- The lock of a slot changes hands, and the call has its effect with what is in the slot. -/
theorem settle_found {holder : Option Nat}
    (same : (s.mapSlot i ({ · with holder })).ledger.Alike l) (homed : s.ledger.Homed m w i)
    (effect : ∀ reply, debt.Met name torn reply →
      Entails name m torn w (held (s.ledger.state? i)) call reply none (held (s.ledger.state? i))) :
    Advance name m torn s.ledger l (.waiting call (some i)) (.owing call debt) none := by
  obtain ⟨maps,states⟩ := (alike_lock s i holder).trans same
  refine .settle call w i debt none maps (fun j _ => states j) ?_ homed (by simp)
  rw [states]
  exact effect

/-- The call has its effect when it stores into the slot. -/
theorem settle_stored {old state : SlotState} (made : Option Nat)
    (same : (s.mapSlot i ({ · with state })).ledger.Alike l) (homed : s.ledger.Homed m w i)
    (found : s.ledger.state? i = some old)
    (effect : ∀ reply, debt.Met name torn reply →
      Entails name m torn w (held (some old)) call reply made (held (some state)))
    (fresh : l.state? i = some state → ∀ c, made = some c → s.ledger.Fresh c ∧ ¬l.Fresh c) :
    Advance name m torn s.ledger l (.waiting call (some i)) (.owing call debt) none := by
  obtain ⟨maps,states⟩ := same
  have set (j : Nat) : l.state? j = (s.ledger.mapSlot i ({ · with state })).state? j := states j
  have stored : l.state? i = some state := by
    rw [set,Ledger.state_set,if_pos rfl,found]
    rfl
  refine .settle call w i debt made maps ?_ ?_ homed (fresh stored)
  · intro j away
    rw [set,Ledger.state_set,if_neg (Ne.symm away)]
  · rw [found,stored]
    exact effect

theorem pruned (same : (s.mapManager m (·.eraseSlot w i)).ledger.Alike l) :
    s.ledger.mapped m w = some i ∧ s.ledger.Unmaps m w l ∨ s.ledger.Alike l := by
  obtain ⟨maps,states⟩ := same
  rw [ledger_eraseSlot] at maps states
  split at maps
  next mapped =>
    rw [if_pos mapped] at states
    exact Or.inl ⟨mapped,fun n v => by rw [maps]; rfl,states⟩
  next other =>
    rw [if_neg other] at states
    exact Or.inr ⟨maps,states⟩

end

section

variable {l : Ledger} {a : Action F V}

/-- A step within a lookup fits what callers can tell of its thread before and after it. -/
theorem GetGoes.advance {point point' : GetPoint F} (ready : s.Ready name m)
    (published : ∀ i c, l.state? i = some (.live c) → ¬l.Fresh c)
    (calm : ∀ message, a ≠ .drawn (.panicked message) ∧ a ≠ .panic message)
    (top : s.stack t = [.get m w point])
    (fits : (Frame.get m w point : Frame F V).Fits name m s.ledger)
    (goes : GetGoes s t m w a point shared point' told) (same : shared.ledger.Alike l) :
    (Frame.get m w point' : Frame F V).Fits name m shared.ledger ∧
      Advance name m torn s.ledger l ((Frame.get m w point : Frame F V).stand name)
        ((Frame.get m w point' : Frame F V).stand name) none := by
  cases goes with
  | seen mapped | beaten mapped =>
    exact ⟨⟨rfl,trivial⟩,.wait _ _ _ same fun _ here => Or.inr ⟨m,w,mapped.trans here⟩⟩
  | unseen | copy | refuse | setUp | fail | logSetup =>
    exact ⟨⟨rfl,trivial⟩,.wait _ _ _ same (by simp)⟩
  | register missing =>
    have registered := ledger_register s m w missing
    rw [if_pos ready.present] at registered
    rw [registered] at same
    refine ⟨⟨rfl,trivial⟩,.register _ w missing (fun n v => by rw [same.1]; rfl) fun j => ?_⟩
    rw [same.2]
    unfold Ledger.state?
    rw [slots_push]
    split <;> rfl
  | occupy | miss =>
    exact ⟨⟨rfl,trivial⟩,.wait _ _ _ ((alike_lock s _ _).trans same) (by simp)⟩
  | @meet i c free =>
    refine ⟨⟨rfl,trivial⟩,settle_found same (ready.homed top rfl rfl) ?_⟩
    rintro reply rfl
    rw [state_of_free free]
    exact .found c
  | @spoil _ message => exact absurd rfl (calm message).1
  | @panic _ _ message => exact absurd rfl (calm message).2
  | countRefusal | countCopy | countFailure | countSetup =>
    exact ⟨⟨rfl,trivial⟩,.wait _ _ _ ((alike_bump ..).trans same) (by simp)⟩
  | @logRefusal i e =>
    exact ⟨⟨rfl,Or.inl ⟨e,by rw [ready.named]⟩⟩,.wait _ _ _ same (by simp)⟩
  | @logFailure i c fault =>
    exact ⟨⟨rfl,Or.inr ⟨c + 1,fault,by rw [ready.named]⟩⟩,.wait _ _ _ same (by simp)⟩
  | number => exact ⟨⟨rfl,trivial⟩,.wait _ _ _ same (by simp)⟩
  | @publish i c =>
    refine ⟨⟨rfl,trivial⟩,settle_stored (some c) same (ready.homed top rfl rfl)
      (ready.vacant top rfl rfl) ?_ ?_⟩
    · rintro reply rfl
      exact .made c
    · intro stored d same
      obtain rfl := Option.some.inj same
      have playing : (t,Role.ready m w i c) ∈ s.roles :=
        mem_roles (top ▸ List.mem_singleton_self _) rfl
      exact ⟨Or.inr ⟨_,playing,m,w,rfl⟩,published i c stored⟩
  | retire =>
    have blames : Blames name w _ := fits.2
    refine ⟨⟨rfl,blames⟩,settle_stored none same (ready.homed top rfl rfl)
      (ready.vacant top rfl rfl) ?_ (by simp)⟩
    rintro reply rfl
    obtain ⟨source,rfl⟩ | ⟨id,source,rfl⟩ := blames
    · exact .cloneFailed source
    · exact .setupFailed id source
  | failed =>
    exact ⟨⟨rfl,fits.2⟩,.carry _ _ _ ((alike_lock s _ none).trans same) fun _ met => met⟩
  | again => exact ⟨⟨rfl,trivial⟩,.wait _ _ _ ((alike_lock s _ none).trans same) (by simp)⟩
  | restart =>
    refine ⟨⟨rfl,trivial⟩,?_⟩
    obtain ⟨mapped,unmaps⟩ | same := pruned same
    · exact .restart _ w _ mapped unmaps
    · exact .wait _ _ _ same (by simp)

theorem PeekGoes.advance {point point' : PeekPoint} (ready : s.Ready name m)
    (top : s.stack t = [.peek m w point])
    (goes : PeekGoes s t m w point shared point') (same : shared.ledger.Alike l) :
    Advance name m torn s.ledger l ((Frame.peek m w point : Frame F V).stand name)
      ((Frame.peek m w point' : Frame F V).stand name) none := by
  cases goes with
  | seen mapped => exact .wait _ _ _ same fun _ here => Or.inr ⟨m,w,mapped.trans here⟩
  | @meet i c free =>
    refine settle_found same (ready.homed top rfl rfl) ?_
    rintro reply rfl
    rw [state_of_free free]
    exact .peeked (some c)
  | @miss i state free bare =>
    refine settle_found same (ready.homed top rfl rfl) ?_
    rintro reply rfl
    have empty : held (some state) = none := by
      cases state with
      | live c => exact absurd rfl (bare c)
      | vacant | retired => rfl
    rw [state_of_free free,empty]
    exact .peeked none

theorem ReleaseGoes.advance {point point' : ReleasePoint} (ready : s.Ready name m)
    (ended : ∀ result c ending, a = .finish result → .hookEnded .teardown c ending ∈ told →
      torn c (failure? result))
    (calm : ∀ message, a ≠ .panic message) (top : s.stack t = [.release m w point])
    (fits : (Frame.release m w point : Frame F V).Fits name m s.ledger)
    (goes : ReleaseGoes s t m w a point shared point' told) (same : shared.ledger.Alike l) :
    (Frame.release m w point' : Frame F V).Fits name m shared.ledger ∧
      Advance name m torn s.ledger l ((Frame.release m w point : Frame F V).stand name)
        ((Frame.release m w point' : Frame F V).stand name) none := by
  have valid := fits.2
  cases goes with
  | unregister mapped =>
    have erased := ledger_erase s m w
    rw [erased] at same
    exact ⟨⟨rfl,trivial⟩,.detach _ w _ mapped ⟨fun n v => by rw [same.1]; rfl,same.2⟩⟩
  | enter =>
    exact ⟨⟨rfl,trivial⟩,.wait _ _ _ ((alike_lock s _ _).trans same) (by simp)⟩
  | @retire i found live =>
    have homed : s.ledger.Homed m w i := ready.homed top rfl rfl
    obtain ⟨state,there⟩ := homed.state
    cases found with
    | none =>
      have bare : held (some state) = none := by
        cases state with
        | live c => cases (live c).mpr there
        | vacant | retired => rfl
      refine ⟨⟨rfl,trivial⟩,settle_stored none same homed there ?_ (by simp)⟩
      rintro reply rfl
      rw [bare]
      exact .absent
    | some c =>
      have there : s.ledger.state? i = some (.live c) := (live c).mp rfl
      obtain ⟨n,v,bound,own⟩ := ready.bonded.live i c there
      obtain ⟨rfl,rfl⟩ := homed.unique own
      refine ⟨⟨rfl,bound⟩,settle_stored none same homed there ?_ (by simp)⟩
      rintro reply ⟨fault,ended,rfl⟩
      exact .removed c fault ended
  | leave => exact ⟨⟨rfl,valid⟩,.carry _ _ _ ((alike_lock s _ none).trans same) fun _ met => met⟩
  | @kill c =>
    have killed := ledger_mapCopy s c ({ · with live := false }) ({ · with live := false })
      (fun _ => rfl)
    have bound := valid.shift (.kill (t := t) (c := c))
    rw [← killed] at bound
    exact ⟨⟨rfl,bound⟩,.carry _ _ _ same fun _ met => met⟩
  | @claim c =>
    have still := lockCopy_ledger s t c
    exact ⟨⟨rfl,still ▸ valid⟩,.carry _ _ _ ((alike_of_ledger still).trans same) fun _ met => met⟩
  | @tornDown c v =>
    refine ⟨⟨rfl,valid⟩,.carry _ _ _ same ?_⟩
    rintro reply rfl
    exact ⟨none,ended _ c _ rfl List.mem_cons_self,rfl⟩
  | @fail c fault =>
    refine ⟨⟨rfl,valid⟩,.carry _ _ _ same ?_⟩
    rintro reply rfl
    exact ⟨some fault,ended _ c _ rfl List.mem_cons_self,rfl⟩
  | @panic _ message => exact absurd rfl (calm message)
  | @yield c =>
    have still := yieldCopy_ledger s c
    exact ⟨⟨rfl,still ▸ valid⟩,.carry _ _ _ ((alike_of_ledger still).trans same) fun _ met => met⟩
  | countTeardown | countBroken | countFailure =>
    refine ⟨⟨rfl,?_⟩,.carry _ _ _ ((alike_bump ..).trans same) fun _ met => met⟩
    rw [ledger_bump]
    exact valid

/-- An answer is what its frame stands for. -/
theorem Replies.advance {reply : Reply V} (ready : s.Ready name m)
    (fits : frame.Fits name m s.ledger) (replies : Replies s frame shared reply told)
    (same : shared.ledger.Alike l) :
    Advance name m torn s.ledger l (frame.stand name) .idle (some (.returned reply)) := by
  cases replies with
  | get replies =>
    obtain ⟨rfl,valid⟩ := fits
    cases replies with
    | found => exact .answer _ _ ((alike_lock s _ none).trans same)
    | unwound => exact valid.elim
    | failed =>
      obtain ⟨mapped,unmaps⟩ | same := pruned same
      · exact .fail _ _ _ _ mapped unmaps
      · exact .answer _ _ same
  | peek replies =>
    obtain rfl : _ = m := fits
    cases replies with
    | unseen missing => exact .skip _ _ _ missing same (.peeked none)
    | left => exact .answer _ _ ((alike_lock s _ none).trans same)
  | release replies =>
    obtain ⟨rfl,valid⟩ := fits
    cases replies with
    | absent missing => exact .skip _ _ _ missing same .absent
    | empty => exact .answer _ _ ((alike_lock s _ none).trans same)
    | unwound => exact valid.elim
    | done => exact .answer _ _ same
    | failed =>
      have worker := copyWorker_of_bound valid
      have named := ready.named
      subst named worker
      exact .answer _ _ same
  | _ => exact fits.elim

end

private theorem Goes.progress {a : Action F V} {first : Frame F V} {more : List (Frame F V)}
    (goes : Goes s t a frame shared first more told) (top : s.stack t = [frame])
    (quiet : told.filterMap Event.talk? = []) (alone : more = [])
    (fits : first.Fits name m shared.ledger)
    (advance : Advance name m torn s.ledger (shared.setStack t [first]).ledger (frame.stand name)
      (first.stand name) none) :
    Progress name m torn s (shared.setStack t (first :: more)) t told := by
  subst alone
  have bound : t < shared.threads.size := goes.threads ▸ bound_of_stack s t frame [] top
  have top' : (shared.setStack t [first]).stack t = [first] := by simp [stack,setStack,bound]
  refine ⟨⟨none,quiet,?_⟩,fun u away => stack_other _ goes.threads away,Or.inr ⟨first,top',?_⟩,
    goes.name m⟩
  · rw [stand_of_top top,stand_of_top top']
    exact advance
  · exact fits.mono fun c w bound => bound

private theorem Replies.progress {reply : Reply V} (replies : Replies s frame shared reply told)
    (top : s.stack t = [frame]) (quiet : told.filterMap Event.talk? = [])
    (advance : Advance name m torn s.ledger (shared.setStack t []).ledger (frame.stand name) .idle
      (some (.returned reply))) :
    Progress name m torn s (shared.setStack t []) t (told ++ [.returned reply]) := by
  have bound : t < shared.threads.size := replies.threads ▸ bound_of_stack s t frame [] top
  have top' : (shared.setStack t []).stack t = [] := by simp [stack,setStack,bound]
  have idle : (shared.setStack t []).stand name t = .idle := by simp only [stand,top']
  refine ⟨⟨some (.returned reply),?_,?_⟩,fun u away => stack_other _ replies.threads away,
    Or.inl top',replies.name m⟩
  · rw [List.filterMap_append,quiet]
    rfl
  · rw [stand_of_top top]
    exact idle ▸ advance

theorem assign_progress {value : F} (top : s.stack t = [frame])
    (fits : frame.Fits name m s.ledger) :
    Progress name m torn s (s.mapCopy c ({ · with value })) t [] := by
  have same : (s.mapCopy c ({ · with value })).ledger = s.ledger :=
    ledger_mapCopy_same s c _ fun _ => rfl
  have top' : (s.mapCopy c ({ · with value })).stack t = [frame] := top
  refine ⟨⟨none,rfl,?_⟩,fun _ _ => rfl,Or.inr ⟨frame,top',same ▸ fits⟩,rfl⟩
  rw [stand_of_top top,stand_of_top top',same]
  cases stand : frame.stand name with
  | waiting call slot => exact .wait call slot slot (alike_refl _) fun _ same => Or.inl same
  | owing call debt => exact .carry call debt debt (alike_refl _) fun _ met => met
  | idle => exact absurd stand fits.busy

theorem call_progress {call : Call} (opened : s.isOpen t = true) (idle : s.stack t = [])
    (asks : call.asks m = true) :
    Progress name m torn s (s.setStack t (firstFrames call [])) t [.called call] := by
  have bound : t < s.threads.size := by simp_all [isOpen]
  have top : (s.setStack t (firstFrames call [])).stack t = firstFrames call [] := by
    simp [stack,setStack,bound]
  have before : s.stand name t = .idle := by simp only [stand,idle]
  have after : (s.setStack t (firstFrames call [])).stand name t = .waiting call none := by
    cases call with
    | get n w | peek n w | release n w => exact stand_of_top top
    | _ => cases asks
  refine ⟨⟨some (.called call),rfl,?_⟩,fun u away => stack_other _ rfl away,Or.inr ?_,rfl⟩
  · rw [before,after]
    exact .begin call ⟨rfl,fun _ => rfl⟩
  · cases call with
    | get n w | release n w => exact ⟨_,top,of_decide_eq_true asks,trivial⟩
    | peek n w =>
      have same : n = m := of_decide_eq_true asks
      exact ⟨_,top,same⟩
    | _ => cases asks

/-- Whatever a thread does in a session, its call advances as the plain map has it. -/
theorem step_progress {a : Action F V} (ready : s.Ready name m)
    (published : ∀ i c, next.ledger.state? i = some (.live c) → ¬next.ledger.Fresh c)
    (orderly : s.Orderly name m t) (allowed : s.allows m t a = true)
    (ended : ∀ c ending result, a = .finish result → .hookEnded .teardown c ending ∈ told →
      torn c (failure? result))
    (moved : s.step t a = some (next,told)) : Progress name m torn s next t told := by
  cases step_acts moved with
  | call opened =>
    obtain idle | ⟨frame,top,_⟩ := orderly
    · rw [idle]
      exact call_progress opened idle (Bool.and_eq_true_iff.mp allowed).2
    · simp [allows,top] at allowed
  | assign running =>
    obtain idle | ⟨frame,top,fits⟩ := orderly
    · simp [idle] at running
    · exact assign_progress top fits
  | @own _ frame below _ _ top acts =>
    obtain ⟨rfl,fits⟩ : below = [] ∧ frame.Fits name m s.ledger := by
      obtain idle | ⟨other,only,fits⟩ := orderly
      · simp [idle] at top
      · obtain ⟨rfl,rfl⟩ := List.cons.inj (top.symm.trans only)
        exact ⟨rfl,fits⟩
    have calm (message : String) : a ≠ .drawn (.panicked message) ∧ a ≠ .panic message := by
      constructor <;> rintro rfl <;> cases allowed
    cases acts with
    | goes goes =>
      rw [List.append_nil] at published ⊢
      cases goes with
      | get goes =>
        obtain rfl : _ = m := fits.1
        obtain ⟨fits,advance⟩ := goes.advance ready published calm top fits (alike_setStack ..)
        exact (Goes.get goes).progress top (by cases goes <;> rfl) rfl fits advance
      | peek goes =>
        obtain rfl : _ = m := fits
        exact (Goes.peek goes).progress top rfl rfl rfl (goes.advance ready top (alike_setStack ..))
      | release goes =>
        obtain rfl : _ = m := fits.1
        obtain ⟨fits,advance⟩ := goes.advance ready (fun result c ending => ended c ending result)
          (fun message => (calm message).2) top fits (alike_setStack ..)
        exact (Goes.release goes).progress top (by cases goes <;> rfl) rfl fits advance
      | _ => exact fits.elim
    | replies own replies =>
      exact replies.progress top (by cases replies with
        | release replies => cases replies <;> rfl
        | _ => rfl) (replies.advance ready fits (alike_setStack ..))

end System

end PerWorker
