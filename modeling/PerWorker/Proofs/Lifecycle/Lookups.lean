import PerWorker.Proofs.Lifecycle.Points
import PerWorker.Proofs.Lifecycle.Spans

/-!
The lookup that a call begins with, whether it is all of the call or another call waits for it. Main
statement: what the start of the lookup establishes and every step keeps, at each of its points and
from its end on, holds of a call under way and of one that has been answered.
-/
namespace PerWorker
namespace System

variable {F V : Type} {s now next last : System F V} {t u m : Nat} {w : WorkerId}
  {call : Call} {a : Action F V} {events : List (Event V)} {span : List (Moment F V)}
  {reply : Reply V}

/-- A property of a lookup at its points, and one of what it comes to once it is over, that every
step keeps. -/
structure Lookup (s : System F V) (t m : Nat) (w : WorkerId)
    (on : List (Moment F V) → GetPoint F → System F V → Prop)
    (beyond : Reply V → List (Moment F V) → System F V → Prop) : Prop where
  made : ∀ call next, s.step t (.call call) = some (next,[.called call]) →
    on [⟨s,⟨t,.call call,[.called call]⟩⟩] .look next
  aside : ∀ call span now point below u a next events, Underway s t call span now →
    on span point now → Stood t (s.stack t) (.get m w point) below now →
    now.step u a = some (next,events) →
    Moment.acting? t (s.stack t).length ⟨now,⟨u,a,events⟩⟩ = none →
    on (span ++ [⟨now,⟨u,a,events⟩⟩]) point next
  turn : ∀ call span now point below a next events point', Underway s t call span now →
    on span point now → now.stack t = .get m w point :: below →
    now.step t a = some (next,events) →
    Moment.acting? t (s.stack t).length ⟨now,⟨t,a,events⟩⟩ = some (.get m w point) →
    GetTurn now m w a point point' → on (span ++ [⟨now,⟨t,a,events⟩⟩]) point' next
  ends : ∀ call span now point a next events reply, Underway s t call span now →
    on span point now → now.step t a = some (next,events) →
    Moment.acting? t (s.stack t).length ⟨now,⟨t,a,events⟩⟩ = some (.get m w point) →
    GetEnd point reply → beyond reply (span ++ [⟨now,⟨t,a,events⟩⟩]) next
  after : ∀ call span now u a next events reply, Underway s t call span now →
    beyond reply span now → now.step u a = some (next,events) →
    (∀ frame, Moment.acting? t (s.stack t).length ⟨now,⟨u,a,events⟩⟩ = some frame →
      ∀ n v point, frame ≠ .get n v point) → beyond reply (span ++ [⟨now,⟨u,a,events⟩⟩]) next

variable {on on' : List (Moment F V) → GetPoint F → System F V → Prop}
  {beyond beyond' : Reply V → List (Moment F V) → System F V → Prop}

theorem Lookup.and (first : Lookup s t m w on beyond) (second : Lookup s t m w on' beyond') :
    Lookup s t m w (fun span point now => on span point now ∧ on' span point now)
      (fun reply span now => beyond reply span now ∧ beyond' reply span now) where
  made := fun call next moved => ⟨first.made call next moved,second.made call next moved⟩
  aside := fun call span now point below u a next events under held stood moved silent =>
    ⟨first.aside call span now point below u a next events under held.1 stood moved silent,
      second.aside call span now point below u a next events under held.2 stood moved silent⟩
  turn := fun call span now point below a next events point' under held top moved acting turn =>
    ⟨first.turn call span now point below a next events point' under held.1 top moved acting turn,
      second.turn call span now point below a next events point' under held.2 top moved acting
        turn⟩
  ends := fun call span now point a next events reply under held moved acting ended =>
    ⟨first.ends call span now point a next events reply under held.1 moved acting ended,
      second.ends call span now point a next events reply under held.2 moved acting ended⟩
  after := fun call span now u a next events reply under held moved apart =>
    ⟨first.after call span now u a next events reply under held.1 moved apart,
      second.after call span now u a next events reply under held.2 moved apart⟩

def Looking (s : System F V) (t m : Nat) (w : WorkerId)
    (on : List (Moment F V) → GetPoint F → System F V → Prop) (waiting : List (Frame F V))
    (span : List (Moment F V)) (frame : Frame F V) (below : List (Frame F V)) (now : System F V) :
    Prop :=
  ∃ point, frame = .get m w point ∧ below = waiting ∧ Stood t (s.stack t) frame below now ∧
    on span point now

section

variable {waiting below : List (Frame F V)} {frame : Frame F V}

theorem Lookup.beside (lookup : Lookup s t m w on beyond) (under : Underway s t call span now)
    (looking : Looking s t m w on waiting span frame below now)
    (moved : now.step u a = some (next,events)) (stood : Stood t (s.stack t) frame below next)
    (silent : Moment.acting? t (s.stack t).length ⟨now,⟨u,a,events⟩⟩ = none) :
    Looking s t m w on waiting (span ++ [⟨now,⟨u,a,events⟩⟩]) frame below next := by
  obtain ⟨point,rfl,rfl,here,held⟩ := looking
  exact ⟨point,rfl,rfl,stood,
    lookup.aside call span now point below u a next events under held here moved silent⟩

theorem Lookup.own (lookup : Lookup s t m w on beyond) (under : Underway s t call span now)
    (looking : Looking s t m w on waiting span frame below now) (own : a.isOwn = true)
    (top : now.stack t = frame :: below ++ s.stack t) (moved : now.step t a = some (next,events))
    (acting : Moment.acting? t (s.stack t).length ⟨now,⟨t,a,events⟩⟩ = some frame) :
    (∃ point', next.stack t = .get m w point' :: waiting ++ s.stack t ∧
        on (span ++ [⟨now,⟨t,a,events⟩⟩]) point' next) ∨
      ∃ outcome, beyond outcome (span ++ [⟨now,⟨t,a,events⟩⟩]) next ∧
        Answers? outcome (waiting ++ s.stack t) (next.stack t) events := by
  obtain ⟨point,rfl,rfl,_,held⟩ := looking
  obtain ⟨point',turn,here⟩ | ⟨outcome,ended,answers⟩ := get_points top own moved
  · exact Or.inl ⟨point',here,
      lookup.turn call span now point _ a next events point' under held top moved acting turn⟩
  · exact Or.inr ⟨outcome,
      lookup.ends call span now point a next events outcome under held moved acting ended,answers⟩

/-- What every step of a lookup keeps holds throughout a `get`. -/
theorem Lookup.get (lookup : Lookup s t m w on beyond) :
    Kept s t (.get m w) (Looking s t m w on []) where
  made := by
    intro next frame below moved opening stood
    cases opening
    exact ⟨.look,rfl,rfl,stood,lookup.made _ next moved⟩
  aside := by
    intro span now frame below u a next events under looking moved stood silent
    exact lookup.beside under looking moved stood silent
  onward := by
    intro span now frame below a next events frame' below' under looking moved own top here acting
      stood
    obtain ⟨point',there,held⟩ | ⟨outcome,_,answers⟩ :=
      lookup.own under looking own top moved acting
    · obtain ⟨rfl,rfl⟩ := parts_unique there here
      exact ⟨point',rfl,rfl,stood,held⟩
    · exact absurd (answers.returned under.stands).1 (parts_above here)

theorem ProcessTurn.served {frame' : Frame F V} {below' : List (Frame F V)}
    (turn : ProcessTurn s m w a frame below frame' below')
    (served : ∀ n v point, frame ≠ .get n v point) :
    Processing m w frame' below' ∧ ∀ n v point, frame' ≠ .get n v point := by
  cases turn with
  | look point => exact absurd rfl (served m w point)
  | serve => exact ⟨.body _,by simp⟩
  | run => exact ⟨.body _,by simp⟩
  | fail => exact ⟨.failing _ _,by simp⟩
  | discard => exact ⟨.release _ _,by simp⟩
  | release => exact ⟨.release _ _,by simp⟩
  | report => exact ⟨.failed _ _,by simp⟩

/-- The same for a `process`, whose lookup is over before its body begins. -/
theorem Lookup.process (lookup : Lookup s t m w on beyond) :
    Kept s t (.process m w) fun span frame below now =>
      Looking s t m w on [.processGet m w] span frame below now ∨
        Processing m w frame below ∧ (∀ n v point, frame ≠ .get n v point) ∧
          ∃ outcome, beyond outcome span now where
  made := by
    intro next frame below moved opening stood
    cases opening
    exact Or.inl ⟨.look,rfl,rfl,stood,lookup.made _ next moved⟩
  aside := by
    rintro span now frame below u a next events under held moved stood silent
    obtain looking | ⟨shape,served,outcome,past⟩ := held
    · exact Or.inl (lookup.beside under looking moved stood silent)
    · exact Or.inr ⟨shape,served,outcome,
        lookup.after _ span now u a next events outcome under past moved (by simp [silent])⟩
  onward := by
    rintro span now frame below a next events frame' below' under held moved own top here acting
      stood
    obtain looking | ⟨shape,served,outcome,past⟩ := held
    · obtain ⟨point',there,held⟩ | ⟨outcome,past,answers⟩ :=
        lookup.own under looking own top moved acting
      · obtain ⟨rfl,rfl⟩ := parts_unique there here
        exact Or.inl ⟨point',rfl,rfl,stood,held⟩
      -- A copy starts the body; anything else is what the whole call answers.
      · cases outcome with
        | handle c =>
          have there : next.stack t = .processBody m w (.claim c) :: [] ++ s.stack t := answers.1
          obtain ⟨rfl,rfl⟩ := parts_unique there here
          exact Or.inr ⟨.body _,by simp,_,past⟩
        | _ => exact absurd ((answers.passed rfl).returned under.stands).1 (parts_above here)
    · obtain ⟨shape',served'⟩ :=
        (process_onward shape under.stands top own moved here).served served
      refine Or.inr ⟨shape',served',outcome,
        lookup.after _ span now t a next events outcome under past moved ?_⟩
      intro other acts
      obtain rfl := Option.some.inj (acting.symm.trans acts)
      exact served

end

theorem Lookup.underway (lookup : Lookup s t m w on beyond)
    (looks : call = .get m w ∨ call = .process m w) (under : Underway s t call span now) :
    (∃ point below, Stood t (s.stack t) (.get m w point) below now ∧ on span point now) ∨
      call = .process m w ∧ ∃ outcome, beyond outcome span now := by
  obtain rfl | rfl := looks
  · obtain ⟨frame,below,_,point,rfl,rfl,stood,held⟩ := lookup.get.holds under
    exact Or.inl ⟨point,_,stood,held⟩
  · obtain ⟨frame,below,_,⟨point,rfl,rfl,stood,held⟩ | ⟨_,_,past⟩⟩ := lookup.process.holds under
    · exact Or.inl ⟨point,_,stood,held⟩
    · exact Or.inr ⟨rfl,past⟩

/-- When a call has been answered its lookup is over, and what that came to is the answer to a call
that is no more than a lookup. -/
theorem Lookup.answered (lookup : Lookup s t m w on beyond)
    (looks : call = .get m w ∨ call = .process m w) (answered : Answered s t call span reply last) :
    ∃ outcome, beyond outcome span last ∧ (call = .get m w → outcome = reply) := by
  obtain rfl | rfl := looks
  · obtain ⟨before,now,frame,below,a,events,rfl,answering,looking⟩ := lookup.get.ends answered
    obtain ⟨point',there,_⟩ | ⟨outcome,past,answers⟩ :=
      lookup.own answering.under looking answering.own answering.top answering.moved
        answering.acting
    · exact absurd answering.back (parts_above there)
    · have told := (answers.returned answering.under.stands).2 reply
      exact ⟨outcome,past,fun _ => (told.mp answering.told).symm⟩
  · obtain ⟨before,now,frame,below,a,events,rfl,answering,held⟩ := lookup.process.ends answered
    obtain looking | ⟨_,served,outcome,past⟩ := held
    · obtain ⟨point',there,_⟩ | ⟨outcome,past,_⟩ :=
        lookup.own answering.under looking answering.own answering.top answering.moved
          answering.acting
      · exact absurd answering.back (parts_above there)
      · exact ⟨outcome,past,nofun⟩
    · refine ⟨outcome,?_,nofun⟩
      refine lookup.after _ before now t a last events outcome answering.under past
        answering.moved ?_
      intro other acts
      obtain rfl := Option.some.inj (answering.acting.symm.trans acts)
      exact served

end System
end PerWorker
