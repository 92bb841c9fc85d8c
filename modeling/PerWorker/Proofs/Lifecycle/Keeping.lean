import PerWorker.Proofs.Lifecycle.Renewal

/-!
What a call that takes a slot out of the map finds in it. A copy that is in the slot then, or is
being set up for it, stays with the slot until the call retires it, unless the setup fails; and no
copy made before gets there later. So the call tears down that copy and no other. All this is told
from the steps of the call itself: the workers it tries to take out and the teardowns it ends.
-/
namespace PerWorker

def Role.brings? : Role → Option (Nat × Nat)
  | .settingUp _ _ i c | .ready _ _ i c => some (i,c)
  | _ => none

theorem Role.locks_of_brings {r : Role} {i c : Nat} (brings : r.brings? = some (i,c)) :
    r.locks? = some i := by
  cases r <;> cases brings <;> rfl

namespace Ledger

variable {l next : Ledger} {t m i c : Nat} {w : WorkerId} {before after : Option Role}
  {notes : List Note} {rest : Multiset (Nat × Role)}

def Keeps (l : Ledger) (i c : Nat) : Prop :=
  l.state? i = some (.live c) ∨ ∃ x ∈ l.roles, x.2.brings? = some (i,c)

def Discarded (c : Nat) (notes : List Note) : Prop :=
  ∃ ending, ending ≠ .returned ∧ .beat c (.ended .setup ending) ∈ notes

theorem Shift.live_back (shift : Shift l t before after notes next)
    (live : next.state? i = some (.live c)) :
    l.state? i = some (.live c) ∨ ∃ m w, before = some (.ready m w i c) := by
  have store := shift.store i
  generalize told : next.state? i = now at store
  rw [told] at live
  cases store with
  | kept => exact Or.inl live
  | published m w d old =>
    cases live
    exact Or.inr ⟨m,w,old⟩
  | made | abandoned | withdrawn => cases live

theorem Shift.brings_back {r : Role} (shift : Shift l t before after notes next)
    (member : r ∈ after) (brings : r.brings? = some (i,c)) :
    (∃ q ∈ before, q.brings? = some (i,c)) ∨ c = l.bonds.size := by
  cases shift with
  | stay => exact Or.inl ⟨r,member,brings⟩
  | number =>
    cases member
    cases brings
    exact Or.inr rfl
  | setUp =>
    cases member
    cases brings
    exact Or.inl ⟨_,rfl,rfl⟩
  | leave served told =>
    obtain ⟨d,_,rfl⟩ := served r member
    cases brings
  | carry =>
    obtain ⟨d,_,rfl⟩ := Option.map_eq_some_iff.mp member
    cases brings
  | _ => cases member <;> cases brings

theorem Keeps.back (keeps : Keeps next i c) (move : Move l notes next) :
    Keeps l i c ∨ l.bonds.size ≤ c := by
  obtain ⟨t,before,after,notes,shared,rest,split,shift⟩ := move
  have played {q} (own : q ∈ before) : (t,q) ∈ l.roles := mem_of_split split own
  obtain live | ⟨x,member,brings⟩ := keeps
  · obtain live | ⟨m,w,old⟩ := shift.live_back live
    · exact Or.inl (Or.inl live)
    · exact Or.inl (Or.inr ⟨_,played old,rfl⟩)
  · obtain own | other := Multiset.mem_add.mp member
    · obtain ⟨r,chosen,rfl⟩ := mem_tagged.mp own
      obtain ⟨q,had,same⟩ | new := shift.brings_back chosen brings
      · exact Or.inl (Or.inr ⟨_,played had,same⟩)
      · exact Or.inr new.ge
    · exact Or.inl (Or.inr ⟨x,by simp [split,other],brings⟩)

theorem Shift.live_on (shift : Shift l t before after notes next) (guarded : Guarded l)
    (split : l.roles = tagged t before + rest) (live : l.state? i = some (.live c)) :
    next.state? i = some (.live c) ∨
      ∃ m w, before = some (.retiring m w i) ∧ after.bind Role.detaches? = none := by
  have filled {q} (own : q ∈ before) (fills : q.fills? = some i) : False := by
    have vacant := guarded.fills _ (mem_of_split split own) i fills
    simp [vacant] at live
  have store := shift.store i
  generalize told : next.state? i = now at store
  cases store with
  | kept => exact Or.inl live
  | made fresh => exact absurd (lt_of_state live) fresh.not_lt
  | published m w d old => exact (filled old rfl).elim
  | abandoned m w old => exact (filled old rfl).elim
  | withdrawn m w old =>
    subst old
    cases shift with
    | stay => exact Or.inl (told ▸ live)
    | withdraw => exact Or.inr ⟨m,w,rfl,rfl⟩

/-- A copy stays where it is kept until its setup has failed or its slot has been retired. -/
theorem Keeps.move (sound : Sound l) (keeps : Keeps l i c) (move : Move l notes next) :
    Keeps next i c ∨ Discarded c notes ∨ next.removers i = 0 := by
  obtain ⟨t,before,after,notes,shared,rest,split,shift⟩ := move
  have new {r} (chosen : r ∈ after) : (t,r) ∈ tagged t after + rest :=
    Multiset.mem_add.mpr (Or.inl (mem_tagged.mpr ⟨r,chosen,rfl⟩))
  obtain live | ⟨x,member,brings⟩ := keeps
  · obtain same | ⟨m,w,rfl,done⟩ := shift.live_on sound.guarded split live
    · exact Or.inl (Or.inl same)
    -- Only one call removes the slot, so that none is left once this one has retired it.
    · refine Or.inr (Or.inr ?_)
      have few := sound.removal.alone i
      have own : (some (Role.retiring m w i)).bind Role.detaches? = some i := rfl
      rw [removers_eq split,if_pos own,Multiset.card_add,Multiset.card_singleton] at few
      rw [removers_eq (l := { shared with roles := tagged t after + rest }) rfl,done]
      simpa using Multiset.card_eq_zero.mp (by omega)
  · obtain own | other := Multiset.mem_add.mp (split ▸ member)
    · obtain ⟨q,played,rfl⟩ := mem_tagged.mp own
      have vacant (fills : q.fills? = some i) : l.state? i = some .vacant :=
        sound.guarded.fills (t,q) member i fills
      cases q with
      | settingUp m w j d =>
        cases brings
        cases played
        cases shift with
        | stay => exact Or.inl (Or.inr ⟨_,new rfl,rfl⟩)
        | setUp => exact Or.inl (Or.inr ⟨_,new rfl,rfl⟩)
        | discard => exact Or.inr (Or.inl ⟨.failed,by simp,by simp⟩)
        | unwind => exact Or.inr (Or.inl ⟨.panicked,by simp,by simp⟩)
      | ready m w j d =>
        cases brings
        cases played
        cases shift with
        | stay => exact Or.inl (Or.inr ⟨_,new rfl,rfl⟩)
        | publish =>
          have there : (l.mapSlot i ({ · with state := .live c })).state? i = some (.live c) := by
            simp [state_set,vacant rfl]
          exact Or.inl (Or.inl there)
      | _ => cases brings
    · exact Or.inl (Or.inr ⟨x,Multiset.mem_add.mpr (Or.inr other),brings⟩)

theorem Keeps.live (sound : Sound l) (keeps : Keeps l i c)
    (retiring : (t,Role.retiring m w i) ∈ l.roles) : l.state? i = some (.live c) := by
  obtain live | ⟨x,member,brings⟩ := keeps
  · exact live
  · obtain ⟨rest,split⟩ := Multiset.exists_cons_of_mem retiring
    have parts : l.roles = tagged t (some (.retiring m w i)) + rest := by simp [split]
    rw [split] at member
    obtain rfl | other := Multiset.mem_cons.mp member
    · cases brings
    · exact absurd (Role.locks_of_brings brings) (sound.locked.alone parts rfl other)

end Ledger

namespace ReleasePoint

def slot? : ReleasePoint → Option Nat
  | .enter i | .retire i => some i
  | _ => none

def takes? : ReleasePoint → Option Nat
  | .leave _ found => found
  | .kill c | .claim c | .tearingDown c | .unwind c _ => some c
  | _ => none

def isDue : ReleasePoint → Bool
  | .enter _ | .retire _ | .leave _ _ | .kill _ | .claim _ | .tearingDown _ | .unwind _ _ => true
  | _ => false

def Owes (l : Ledger) (i c : Nat) (point : ReleasePoint) : Prop :=
  point.slot? = some i ∧ l.Keeps i c ∨ point.takes? = some c

end ReleasePoint

def Ending.ofFault : Option Fault → Ending
  | none => .returned
  | some _ => .failed

namespace Frame

variable {F V : Type}

def releases? : Frame F V → Option (WorkerId × ReleasePoint)
  | .release _ w point => some (w,point)
  | _ => none

def due : Frame F V → List WorkerId
  | .release _ w point => if point.isDue then [w] else []
  | _ => []

end Frame

namespace Moment

variable {F V : Type}

/-- The worker that the call takes out of the map, with the slot it was mapped to. -/
def attempt? (t depth : Nat) (moment : Moment F V) : Option (WorkerId × Option Nat) :=
  match moment.acting? t depth with
  | some (.release m w .unregister) => some (w,moment.state.slot? m w)
  | _ => none

def detached? (t depth : Nat) (moment : Moment F V) : Option (WorkerId × Nat) :=
  match moment.acting? t depth with
  | some (.release m w .unregister) => (moment.state.slot? m w).map (w,·)
  | some (.release _ w (.enter i)) | some (.release _ w (.retire i)) => some (w,i)
  | _ => none

/-- The copy whose teardown returns to the call, with the worker it was taken from. -/
def torn? (t depth : Nat) (moment : Moment F V) : Option (WorkerId × Nat × Option Fault) :=
  match moment.acting? t depth, moment.entry.action with
  | some (.release _ w (.tearingDown c)), .finish result => some (w,c,failure? result)
  | _, _ => none

end Moment

namespace System

open Ledger

variable {F V : Type} {sharding : Sharding} {names : List String} {threads : Nat}
  {past : List (Entry F V)} {s now next : System F V} {t u m depth : Nat} {w : WorkerId}
  {call : Call} {a : Action F V} {events : List (Event V)} {span : List (Moment F V)}
  {frame : Frame F V} {below floor : List (Frame F V)} {moment : Moment F V}

def attempts (t depth : Nat) (span : List (Moment F V)) : List (WorkerId × Option Nat) :=
  span.filterMap (·.attempt? t depth)

def teardowns (t depth : Nat) (span : List (Moment F V)) : List (WorkerId × Nat × Option Fault) :=
  span.filterMap (·.torn? t depth)

theorem attempts_append (span : List (Moment F V)) (moment : Moment F V) :
    attempts t depth (span ++ [moment]) =
      attempts t depth span ++ (moment.attempt? t depth).toList := by
  cases tried : moment.attempt? t depth <;> simp [attempts,tried]

theorem teardowns_append (span : List (Moment F V)) (moment : Moment F V) :
    teardowns t depth (span ++ [moment]) =
      teardowns t depth span ++ (moment.torn? t depth).toList := by
  cases torn : moment.torn? t depth <;> simp [teardowns,torn]

def Removed (t depth : Nat) (span : List (Moment F V)) (w : WorkerId) (c : Nat) : Prop :=
  ∃ q ∈ span, ∃ i, q.attempt? t depth = some (w,some i) ∧
    (q.state.ledger.Keeps i c ∨ q.state.copies.size ≤ c)

/-- What a call has removed so far is accounted for, with the release in it that is under way. -/
structure Accounted (past : List (Entry F V)) (t depth : Nat) (span : List (Moment F V))
    (current : Option (WorkerId × ReleasePoint)) (now : System F V) : Prop where
  settled : ∀ q ∈ span, ∀ w i c, q.detached? t depth = some (w,i) → q.state.ledger.Keeps i c →
    (∃ fault, (w,c,fault) ∈ teardowns t depth span) ∨ Discarded c (notes (past ++ entries span)) ∨
      ∃ point, current = some (w,point) ∧ point.Owes now.ledger i c
  traced : ∀ w c fault, (w,c,fault) ∈ teardowns t depth span → Removed t depth span w c
  removed : ∀ w point i, current = some (w,point) → point.slot? = some i →
    ∃ q ∈ span, q.attempt? t depth = some (w,some i) ∧ q.state.copies.size ≤ now.copies.size ∧
      ∀ c, now.ledger.Keeps i c → q.state.ledger.Keeps i c ∨ q.state.copies.size ≤ c
  taken : ∀ w point c, current = some (w,point) → point.takes? = some c →
    Removed t depth span w c

theorem Accounted.start (past : List (Entry F V)) (t depth : Nat) (now : System F V) :
    Accounted past t depth [] none now where
  settled := by simp
  traced := by simp [teardowns]
  removed := by simp
  taken := by simp

theorem Removed.append {c : Nat} (removed : Removed t depth span w c) :
    Removed t depth (span ++ [moment]) w c := by
  obtain ⟨q,member,i,attempt,kept⟩ := removed
  exact ⟨q,List.mem_append_left _ member,i,attempt,kept⟩

theorem discarded_append {c : Nat} (discarded : Discarded c (notes (past ++ entries span))) :
    Discarded c (notes (past ++ entries (span ++ [moment]))) := by
  obtain ⟨ending,failed,noted⟩ := discarded
  refine ⟨ending,failed,?_⟩
  have more : notes (past ++ entries (span ++ [moment])) =
      notes (past ++ entries span) ++ moment.entry.notes := by simp [notes,entries]
  exact more ▸ List.mem_append_left _ noted

/-- While a release waits for a slot that it unmapped, the slot goes on keeping what it keeps. -/
theorem keeps_step {i c : Nat} (reached : now.ledger.Sound)
    (moved : now.step u a = some (next,events)) (keeps : now.ledger.Keeps i c)
    {r : Role} (removing : (t,r) ∈ next.ledger.roles) (detaches : r.detaches? = some i) :
    next.ledger.Keeps i c ∨
      Discarded c (notes (past ++ entries (span ++ [⟨now,⟨u,a,events⟩⟩]))) := by
  obtain kept | ⟨ending,failed,noted⟩ | gone := keeps.move reached (step_move moved)
  · exact Or.inl kept
  · refine Or.inr ⟨ending,failed,?_⟩
    have more : notes (past ++ entries (span ++ [⟨now,⟨u,a,events⟩⟩])) =
        notes (past ++ entries span) ++ Entry.notes ⟨u,a,events⟩ := by simp [notes,entries]
    exact more ▸ List.mem_append_right _ noted
  · have remover : t ∈ next.ledger.removers i := mem_threadsOf removing detaches
    simp [gone] at remover

theorem detaches_of_slot {point : ReleasePoint} {i : Nat}
    (member : .release m w point ∈ now.stack t) (slot : point.slot? = some i) :
    ∃ r, (t,r) ∈ now.ledger.roles ∧ r.detaches? = some i := by
  cases point with
  | enter j | retire j =>
    cases slot
    exact ⟨_,mem_roles member rfl,rfl⟩
  | _ => cases slot

/-- The copy has been torn down by the call, or its setup failed, or the release under way owes it. -/
def Covered (past : List (Entry F V)) (t depth : Nat) (span : List (Moment F V))
    (current : Option (WorkerId × ReleasePoint)) (now : System F V) (w : WorkerId) (i c : Nat) :
    Prop :=
  (∃ fault, (w,c,fault) ∈ teardowns t depth span) ∨ Discarded c (notes (past ++ entries span)) ∨
    ∃ point, current = some (w,point) ∧ point.Owes now.ledger i c

/-- What earlier steps removed stays accounted for if the step covers what the release owed and the
slot that the step itself is about. -/
theorem Accounted.extend {current current' : Option (WorkerId × ReleasePoint)}
    (accounted : Accounted past t depth span current now)
    (owed : ∀ w point i c, current = some (w,point) → point.Owes now.ledger i c →
      Covered past t depth (span ++ [moment]) current' next w i c)
    (held : ∀ w i c, moment.detached? t depth = some (w,i) → moment.state.ledger.Keeps i c →
      Covered past t depth (span ++ [moment]) current' next w i c)
    (torn : ∀ w c fault, moment.torn? t depth = some (w,c,fault) →
      Removed t depth (span ++ [moment]) w c)
    (removed : ∀ w point i, current' = some (w,point) → point.slot? = some i →
      ∃ q ∈ span ++ [moment], q.attempt? t depth = some (w,some i) ∧
        q.state.copies.size ≤ next.copies.size ∧
        ∀ c, next.ledger.Keeps i c → q.state.ledger.Keeps i c ∨ q.state.copies.size ≤ c)
    (taken : ∀ w point c, current' = some (w,point) → point.takes? = some c →
      Removed t depth (span ++ [moment]) w c) :
    Accounted past t depth (span ++ [moment]) current' next := by
  refine ⟨?_,?_,removed,taken⟩
  · intro q found w i c detached keeps
    obtain old | new := List.mem_append.mp found
    · obtain ⟨fault,done⟩ | discarded | ⟨point,here,owes⟩ :=
        accounted.settled q old w i c detached keeps
      · exact Or.inl ⟨fault,teardowns_append span moment ▸ List.mem_append_left _ done⟩
      · exact Or.inr (Or.inl (discarded_append discarded))
      · exact owed w point i c here owes
    · obtain rfl := List.mem_singleton.mp new
      exact held w i c detached keeps
  · intro w c fault ended
    rw [teardowns_append] at ended
    obtain old | new := List.mem_append.mp ended
    · exact (accounted.traced w c fault old).append
    · exact torn w c fault (by simpa using new)

/-- A step that neither takes a worker out of the map nor ends a teardown, where the release under
way owes what it owed. -/
theorem Accounted.carry {point point' : ReleasePoint}
    (accounted : Accounted past t depth span (some (w,point)) now) (reached : now.ledger.Sound)
    (moved : now.step u a = some (next,events))
    (apart : ∀ v i, Moment.detached? t depth ⟨now,⟨u,a,events⟩⟩ = some (v,i) →
      v = w ∧ point.slot? = some i)
    (torn : Moment.torn? t depth ⟨now,⟨u,a,events⟩⟩ = none)
    (member : .release m w point' ∈ next.stack t) (slot : point'.slot? = point.slot?)
    (takes : point'.takes? = point.takes?) :
    Accounted past t depth (span ++ [⟨now,⟨u,a,events⟩⟩]) (some (w,point')) next := by
  have onward {i c : Nat} (waiting : point.slot? = some i) (kept : now.ledger.Keeps i c) :
      Covered past t depth (span ++ [⟨now,⟨u,a,events⟩⟩]) (some (w,point')) next w i c := by
    obtain ⟨r,removing,detaches⟩ := detaches_of_slot member (slot.trans waiting)
    obtain kept | discarded := keeps_step reached moved kept removing detaches
    · exact Or.inr (Or.inr ⟨point',rfl,Or.inl ⟨slot.trans waiting,kept⟩⟩)
    · exact Or.inr (Or.inl discarded)
  refine accounted.extend ?_ ?_ (by simp [torn]) ?_ ?_
  · rintro v _ i c here owes
    cases here
    obtain ⟨waiting,kept⟩ | taking := owes
    · exact onward waiting kept
    · exact Or.inr (Or.inr ⟨point',rfl,Or.inr (takes.trans taking)⟩)
  · intro v i c held keeps
    obtain ⟨rfl,waiting⟩ := apart v i held
    exact onward waiting keeps
  · rintro v _ i here waiting
    cases here
    obtain ⟨q,old,tried,size,back⟩ := accounted.removed w point i rfl (slot ▸ waiting)
    refine ⟨q,List.mem_append_left _ old,tried,size.trans (step_grows moved).2,?_⟩
    intro c keeps
    obtain kept | new := keeps.back (step_move moved)
    · exact back c kept
    · exact Or.inr (size.trans (by simpa [ledger] using new))
  · rintro v _ c here taking
    cases here
    exact (accounted.taken w point c rfl (takes ▸ taking)).append

/-- A slot that is taken out of the map is accounted for by the release that is to retire it. -/
theorem Accounted.unregister {i : Nat}
    (accounted : Accounted past t depth span (some (w,.unregister)) now)
    (reached : now.ledger.Sound) (moved : now.step u a = some (next,events))
    (attempt : Moment.attempt? t depth ⟨now,⟨u,a,events⟩⟩ = some (w,some i))
    (detached : Moment.detached? t depth ⟨now,⟨u,a,events⟩⟩ = some (w,i))
    (torn : Moment.torn? t depth ⟨now,⟨u,a,events⟩⟩ = none)
    (member : .release m w (.enter i) ∈ next.stack t) :
    Accounted past t depth (span ++ [⟨now,⟨u,a,events⟩⟩]) (some (w,.enter i)) next := by
  refine accounted.extend ?_ ?_ (by simp [torn]) ?_ ?_
  · rintro v _ j c here (⟨waiting,_⟩ | taking)
    · cases here
      cases waiting
    · cases here
      cases taking
  · intro v j c held keeps
    cases detached.symm.trans held
    obtain ⟨r,removing,detaches⟩ := detaches_of_slot member rfl
    obtain kept | discarded := keeps_step reached moved keeps removing detaches
    · exact Or.inr (Or.inr ⟨_,rfl,Or.inl ⟨rfl,kept⟩⟩)
    · exact Or.inr (Or.inl discarded)
  · rintro v _ j here waiting
    cases here
    cases waiting
    refine ⟨_,List.mem_append_right _ List.mem_cons_self,attempt,(step_grows moved).2,?_⟩
    intro c keeps
    exact (keeps.back (step_move moved)).imp_right fun new => by simpa [ledger] using new
  · rintro v _ c here taking
    cases here
    cases taking

/-- A slot that is retired leaves the release with its copy, if it had one. -/
theorem Accounted.retire {i : Nat} {found : Option Nat}
    (accounted : Accounted past t depth span (some (w,.retire i)) now) (reached : now.ledger.Sound)
    (top : now.stack t = .release m w (.retire i) :: below)
    (live : ∀ c, found = some c ↔ now.state? i = some (.live c))
    (detached : Moment.detached? t depth ⟨now,⟨u,a,events⟩⟩ = some (w,i))
    (torn : Moment.torn? t depth ⟨now,⟨u,a,events⟩⟩ = none) :
    Accounted past t depth (span ++ [⟨now,⟨u,a,events⟩⟩]) (some (w,.leave i found)) next := by
  have member : .release m w (.retire i) ∈ now.stack t := by
    rw [top]
    exact List.mem_cons_self
  have retiring : (t,Role.retiring m w i) ∈ now.ledger.roles := mem_roles member rfl
  refine accounted.extend ?_ ?_ (by simp [torn]) ?_ ?_
  · rintro v _ j c here (⟨waiting,kept⟩ | taking)
    · cases here
      cases waiting
      exact Or.inr (Or.inr ⟨_,rfl,Or.inr ((live c).mpr (kept.live reached retiring))⟩)
    · cases here
      cases taking
  · intro v j c held keeps
    cases detached.symm.trans held
    exact Or.inr (Or.inr ⟨_,rfl,Or.inr ((live c).mpr (keeps.live reached retiring))⟩)
  · rintro v _ j here waiting
    cases here
    cases waiting
  · rintro v _ c here taking
    cases here
    obtain ⟨q,old,tried,_,back⟩ := accounted.removed w _ i rfl rfl
    exact ⟨q,List.mem_append_left _ old,i,tried,back c (Or.inl ((live c).mp taking))⟩

theorem Accounted.finish {c : Nat} {fault : Option Fault}
    (accounted : Accounted past t depth span (some (w,.tearingDown c)) now)
    (apart : moment.detached? t depth = none)
    (torn : moment.torn? t depth = some (w,c,fault)) :
    Accounted past t depth (span ++ [moment]) (some (w,.yield c fault)) next := by
  have ended : (w,c,fault) ∈ teardowns t depth (span ++ [moment]) := by
    simp [teardowns_append,torn]
  refine accounted.extend ?_ (by simp [apart]) ?_ ?_ ?_
  · rintro v _ i d here (⟨waiting,_⟩ | taking)
    · cases here
      cases waiting
    · cases here
      cases taking
      exact Or.inl ⟨fault,ended⟩
  · intro v d other here
    cases torn.symm.trans here
    exact (accounted.taken w _ c rfl rfl).append
  · rintro v _ i here waiting
    cases here
    cases waiting
  · rintro v _ d here taking
    cases here
    cases taking

theorem Accounted.rest {current current' : Option (WorkerId × ReleasePoint)}
    (accounted : Accounted past t depth span current now)
    (apart : moment.detached? t depth = none)
    (torn : moment.torn? t depth = none)
    (idle : ∀ v point, current = some (v,point) → point.slot? = none ∧ point.takes? = none)
    (idle' : ∀ v point, current' = some (v,point) → point.slot? = none ∧ point.takes? = none) :
    Accounted past t depth (span ++ [moment]) current' next := by
  refine accounted.extend ?_ (by simp [apart]) (by simp [torn]) ?_ ?_
  · rintro v point i c here (⟨waiting,_⟩ | taking)
    · simp [(idle _ _ here).1] at waiting
    · simp [(idle _ _ here).2] at taking
  · intro v point i here waiting
    simp [(idle' v point here).1] at waiting
  · intro v point c here taking
    simp [(idle' v point here).2] at taking

theorem Accounted.aside (accounted : Accounted past t depth span frame.releases? now)
    (reached : now.ledger.Sound) (moved : now.step u a = some (next,events))
    (member : frame ∈ next.stack t)
    (silent : Moment.acting? t depth ⟨now,⟨u,a,events⟩⟩ = none) :
    Accounted past t depth (span ++ [⟨now,⟨u,a,events⟩⟩]) frame.releases? next := by
  have apart : Moment.detached? t depth ⟨now,⟨u,a,events⟩⟩ = none := by
    simp [Moment.detached?,silent]
  have torn : Moment.torn? t depth ⟨now,⟨u,a,events⟩⟩ = none := by
    simp [Moment.torn?,silent]
  cases frame with
  | release m w point => exact accounted.carry reached moved (by simp [apart]) torn member rfl rfl
  | _ =>
    refine accounted.rest apart torn ?_ ?_ <;> simp [Frame.releases?]

theorem Accounted.turn {point point' : ReleasePoint}
    (accounted : Accounted past t depth span (some (w,point)) now) (reached : now.ledger.Sound)
    (moved : now.step t a = some (next,events)) (turn : ReleaseTurn now m w a point point')
    (top : now.stack t = .release m w point :: below)
    (acting : Moment.acting? t depth ⟨now,⟨t,a,events⟩⟩ = some (.release m w point))
    (member : .release m w point' ∈ next.stack t) :
    Accounted past t depth (span ++ [⟨now,⟨t,a,events⟩⟩]) (some (w,point')) next := by
  cases turn with
  | unregister i mapped =>
    exact accounted.unregister reached moved (by simp [Moment.attempt?,acting,mapped])
      (by simp [Moment.detached?,acting,mapped]) (by simp [Moment.torn?,acting]) member
  | retire i found live =>
    exact accounted.retire reached top live (by simp [Moment.detached?,acting])
      (by simp [Moment.torn?,acting])
  | finish c result =>
    exact accounted.finish (by simp [Moment.detached?,acting]) (by simp [Moment.torn?,acting])
  | enter | leave | kill | claim | panic =>
    refine accounted.carry reached moved ?_ (by simp [Moment.torn?,acting]) member rfl rfl
    simp [Moment.detached?,acting,ReleasePoint.slot?,eq_comm]
  | yield | succeed | fail | count =>
    exact accounted.rest (by simp [Moment.detached?,acting]) (by simp [Moment.torn?,acting])
      (by simp [ReleasePoint.slot?,ReleasePoint.takes?])
      (by simp [ReleasePoint.slot?,ReleasePoint.takes?])

theorem Accounted.ended {point : ReleasePoint} {reply : Reply V}
    {current : Option (WorkerId × ReleasePoint)}
    (accounted : Accounted past t depth span (some (w,point)) now)
    (ended : ReleaseEnd now m w point reply) (calm : ∀ message, reply ≠ .panicked message)
    (acting : Moment.acting? t depth ⟨now,⟨t,a,events⟩⟩ = some (.release m w point))
    (idle : ∀ v other, current = some (v,other) → other = .unregister) :
    Accounted past t depth (span ++ [⟨now,⟨t,a,events⟩⟩]) current next := by
  have idle' : ∀ v other, current = some (v,other) → other.slot? = none ∧ other.takes? = none := by
    intro v other here
    obtain rfl := idle v other here
    exact ⟨rfl,rfl⟩
  have owes : point.slot? = none ∧ point.takes? = none := by
    cases ended with
    | unwound c message => exact absurd rfl (calm message)
    | absent | empty | done | failed => exact ⟨rfl,rfl⟩
  have apart : Moment.detached? t depth ⟨now,⟨t,a,events⟩⟩ = none := by
    cases ended <;> simp_all [Moment.detached?]
  have torn : Moment.torn? t depth ⟨now,⟨t,a,events⟩⟩ = none := by
    cases ended <;> simp [Moment.torn?,acting]
  refine accounted.rest apart torn ?_ idle'
  rintro v other here
  cases here
  exact owes

theorem torn_told {c : Nat} {fault : Option Fault} (moved : now.step u a = some (next,events))
    (torn : Moment.torn? t depth ⟨now,⟨u,a,events⟩⟩ = some (w,c,fault)) :
    events = [.hookEnded .teardown c (.ofFault fault)] := by
  unfold Moment.torn? at torn
  split at torn
  next n v d result acting action =>
    obtain ⟨rfl,rfl,rfl⟩ : v = w ∧ d = c ∧ failure? result = fault := by simpa using torn
    obtain ⟨rfl,below,top⟩ := Moment.stack_of_acting acting
    replace action : a = .finish result := action
    replace top : now.stack u = .release n v (.tearingDown d) :: below := top
    subst action
    simp only [step,finish,top] at moved
    rw [← (Prod.mk.inj (Option.some.inj moved)).2]
    cases result <;> rfl
  next => contradiction

theorem torn_noted {c : Nat} {fault : Option Fault} (taken : ∀ moment ∈ span, Taken moment)
    (torn : (w,c,fault) ∈ teardowns t depth span) :
    .beat c (.ended .teardown (.ofFault fault)) ∈ notes (entries span) := by
  obtain ⟨moment,member,torn⟩ := List.mem_filterMap.mp torn
  obtain ⟨next,moved⟩ := taken moment member
  refine List.mem_flatMap.mpr ⟨moment.entry,List.mem_map.mpr ⟨moment,member,rfl⟩,?_⟩
  simp [Entry.notes,torn_told moved torn,Event.note?]

theorem Interleaving.setup_failed {c : Nat}
    (run : Interleaving (idle sharding names threads) past s) (discarded : Discarded c (notes past)) :
    ∃ ending, ending ≠ .returned ∧
      hookHistory c (observed past) = [.began .setup,.ended .setup ending] := by
  obtain ⟨ending,failed,noted⟩ := discarded
  refine ⟨ending,failed,?_⟩
  rw [hookHistory_observed]
  have member : Beat.ended .setup ending ∈ beats c (notes past) := beats_of_mem noted
  have line := run.custody.lines c
  generalize beats c (notes past) = history, s.ledger.phases c = held at line member ⊢
  cases line <;> simp_all

theorem Interleaving.torn_down (run : Interleaving (idle sharding names threads) past s)
    {c : Nat} {ending : Ending} (noted : .beat c (.ended .teardown ending) ∈ notes past) :
    hookHistory c (observed past) =
      [.began .setup,.ended .setup .returned,.began .teardown,.ended .teardown ending] := by
  rw [hookHistory_observed]
  have member : Beat.ended .teardown ending ∈ beats c (notes past) := beats_of_mem noted
  have line := run.custody.lines c
  generalize beats c (notes past) = history, s.ledger.phases c = held at line member ⊢
  cases line <;> simp_all

theorem detached_of_attempt {i : Nat} (tried : moment.attempt? t depth = some (w,some i)) :
    moment.detached? t depth = some (w,i) := by
  unfold Moment.attempt? at tried
  split at tried
  next n v acting =>
    obtain ⟨rfl,mapped⟩ : v = w ∧ moment.state.slot? n v = some i := by simpa using tried
    simp [Moment.detached?,acting,mapped]
  next => contradiction

/-- A copy that is live when a call takes its slot out of the map is torn down by the call. -/
theorem Trail.tears {i c : Nat} (run : Interleaving (idle sharding names threads) past s)
    (trail : Trail s span now) (accounted : Accounted past t depth span none now)
    (member : moment ∈ span) (tried : moment.attempt? t depth = some (w,some i))
    (live : moment.state.state? i = some (.live c)) :
    ∃ fault, (w,c,fault) ∈ teardowns t depth span := by
  rcases accounted.settled moment member w i c (detached_of_attempt tried) (Or.inl live) with
    done | discarded | ⟨_,none,_⟩
  · exact done
  · obtain ⟨before,after,rfl,reached⟩ := trail.reached run member
    have history := (reached.custody.lines c).of_held (held_of_live live)
    obtain ⟨ending,failed,whole⟩ := (trail.run run).setup_failed discarded
    have parts : notes (past ++ entries (before ++ moment :: after)) =
        notes (past ++ entries before) ++ notes (entries (moment :: after)) := by
      simp [notes,entries]
    rw [hookHistory_observed,parts,beats_append,history] at whole
    simp [failed.symm] at whole
  · cases none

end System
end PerWorker
