import PerWorker.Proofs.Lifecycle.Lookups

/-!
What one lookup costs. Main statement: a call that looks up a worker's copy ends the lookup once,
runs the template at most once on the way, and does so exactly when the lookup comes to a copy that
this call has made, to an error or to a panic.
-/
namespace PerWorker

namespace Frame

variable {F V : Type}

def numbers? (made : Nat) : Frame F V → Option Nat
  | .get _ _ (.number _ _) => some made
  | _ => none

def outcome? : Frame F V → Option (Reply V)
  | .get _ _ (.leave _ (.found c)) => some (.handle c)
  | .get _ _ (.leave _ (.unwinding message)) => some (.panicked message)
  | .get _ _ (.prune _ (some e)) => some (.failed e)
  | _ => none

end Frame

def GetPoint.Spends {F : Type} (runs : Nat) (made : List Nat) : GetPoint F → Prop
  | .look | .register | .enter _ | .replicating _ | .leave _ .again | .prune _ none =>
    runs = 0 ∧ made = []
  | .countCloneFailure _ _ | .logCloneFailure _ _ | .countCopy _ _ | .number _ _ =>
    runs = 1 ∧ made = []
  | .settingUp _ c | .countSetupFailure _ c _ | .logSetupFailure _ c _ | .countSetup _ c
  | .logSetup _ c | .publish _ c => runs = 1 ∧ made = [c]
  | .leave _ (.found c) => runs = 0 ∧ made = [] ∨ runs = 1 ∧ made = [c]
  | .retire _ _ | .leave _ (.failed _) | .leave _ (.unwinding _) | .prune _ (some _) => runs = 1

/-- The template is run at most once, and exactly for a copy of one's own, an error or a panic. -/
structure Economical {V : Type} (outcome : Reply V) (runs : Nat) (made : List Nat) : Prop where
  once : runs ≤ 1
  exactly : runs = 1 ↔ (∃ c ∈ made, outcome = .handle c) ∨ (∃ e, outcome = .failed e) ∨
    ∃ message, outcome = .panicked message

namespace System

variable {F V : Type} {s last : System F V} {t m depth runs : Nat} {w : WorkerId} {call : Call}
  {a : Action F V} {span : List (Moment F V)} {moment : Moment F V} {reply : Reply V}
  {made : List Nat} {point point' : GetPoint F}

/-- How often a call ends a run of the template. -/
def drawings (t depth : Nat) (span : List (Moment F V)) : Nat :=
  span.countP fun moment => (moment.acting? t depth).any Frame.isDrawing

def numbered (t depth : Nat) (span : List (Moment F V)) : List Nat :=
  span.filterMap fun moment =>
    (moment.acting? t depth).bind (Frame.numbers? moment.state.copies.size)

def outcomes (t depth : Nat) (span : List (Moment F V)) : List (Reply V) :=
  span.filterMap fun moment => (moment.acting? t depth).bind Frame.outcome?

theorem spending_append {actor : Option (Frame F V)} (acting : moment.acting? t depth = actor) :
    drawings t depth (span ++ [moment]) =
        drawings t depth span + (if actor.any Frame.isDrawing then 1 else 0) ∧
      numbered t depth (span ++ [moment]) =
        numbered t depth span ++ (actor.bind (Frame.numbers? moment.state.copies.size)).toList ∧
      outcomes t depth (span ++ [moment]) =
        outcomes t depth span ++ (actor.bind Frame.outcome?).toList := by
  refine ⟨?_,?_,?_⟩
  · simp [drawings,acting,List.countP_append,List.countP_singleton]
  · cases told : actor.bind (Frame.numbers? moment.state.copies.size) <;>
      simp [numbered,acting,told]
  · cases told : actor.bind Frame.outcome? <;> simp [outcomes,acting,told]

theorem spending_same (apart : ∀ frame, moment.acting? t depth = some frame →
      ∀ n v point, frame ≠ .get n v point) :
    drawings t depth (span ++ [moment]) = drawings t depth span ∧
      numbered t depth (span ++ [moment]) = numbered t depth span ∧
      outcomes t depth (span ++ [moment]) = outcomes t depth span := by
  cases acting : moment.acting? t depth with
  | none => simpa using spending_append acting
  | some frame =>
    obtain ⟨drawing,numbers,outcome⟩ : frame.isDrawing = false ∧
        frame.numbers? moment.state.copies.size = none ∧ frame.outcome? = none := by
      cases frame with
      | get n v point => exact absurd rfl (apart _ acting n v point)
      | _ => exact ⟨rfl,rfl,rfl⟩
    simpa [drawing,numbers,outcome] using spending_append acting

theorem GetTurn.spends (turn : GetTurn s m w a point point') (spends : point.Spends runs made) :
    (Frame.get m w point : Frame F V).outcome? = none ∧ point'.Spends
      (runs + if (Frame.get m w point : Frame F V).isDrawing then 1 else 0)
      (made ++ ((Frame.get m w point : Frame F V).numbers? s.copies.size).toList) := by
  cases turn <;>
    simp_all [GetPoint.Spends,Frame.isDrawing,Frame.numbers?,Frame.outcome?]

theorem GetEnd.outcome (ended : GetEnd point reply) :
    (Frame.get m w point : Frame F V).outcome? = some reply ∧
      (Frame.get m w point : Frame F V).isDrawing = false ∧
      (Frame.get m w point : Frame F V).numbers? s.copies.size = none := by
  cases ended <;> exact ⟨rfl,rfl,rfl⟩

theorem GetEnd.economical (ended : GetEnd point reply) (spends : point.Spends runs made) :
    Economical reply runs made := by
  cases ended with
  | found i c =>
    obtain ⟨rfl,rfl⟩ | ⟨rfl,rfl⟩ := spends
    · exact ⟨by simp,by simp⟩
    · exact ⟨le_rfl,by simp⟩
  | unwound | failed =>
    obtain rfl : runs = 1 := spends
    exact ⟨le_rfl,by simp⟩

def Searched (t depth : Nat) (span : List (Moment F V)) (outcome : Reply V) : Prop :=
  outcomes t depth span = [outcome] ∧
    Economical outcome (drawings t depth span) (numbered t depth span)

theorem Searched.extend {outcome : Reply V} (searched : Searched t depth span outcome)
    (apart : ∀ frame, moment.acting? t depth = some frame → ∀ n v point, frame ≠ .get n v point) :
    Searched t depth (span ++ [moment]) outcome := by
  obtain ⟨drawn,number,ended⟩ := spending_same apart
  rw [Searched,drawn,number,ended]
  exact searched

/-- Until a lookup is over there is nothing that it comes to, and then one thing. -/
theorem lookup_searches : Lookup s t m w
    (fun span point _ => outcomes t (s.stack t).length span = [] ∧
      point.Spends (drawings t (s.stack t).length span) (numbered t (s.stack t).length span))
    (fun outcome span _ => Searched t (s.stack t).length span outcome) where
  made := by
    intro call next moved
    refine ⟨?_,?_,?_⟩ <;> simp [outcomes,drawings,numbered,Moment.acting?,Action.isOwn]
  aside := by
    intro call span now point below u a next events under searching stood moved silent
    obtain ⟨none,spends⟩ := searching
    obtain ⟨drawn,number,ended⟩ := spending_append silent
    rw [ended,none,drawn,number]
    simpa using spends
  turn := by
    intro call span now point below a next events point' under searching top moved acting turn
    obtain ⟨none,spends⟩ := searching
    obtain ⟨drawn,number,ended⟩ := spending_append acting
    obtain ⟨outcomeless,spends⟩ := turn.spends (V := V) spends
    rw [ended,none,drawn,number]
    exact ⟨by simpa using outcomeless,spends⟩
  ends := by
    intro call span now point a next events reply under searching moved acting ends
    obtain ⟨none,spends⟩ := searching
    obtain ⟨drawn,number,ended⟩ := spending_append acting
    obtain ⟨some,undrawn,unnumbered⟩ := ends.outcome (m := m) (w := w) (s := now)
    have economical := ends.economical spends
    rw [Searched,ended,none,drawn,number]
    exact ⟨by simp [some],by simpa [undrawn,unnumbered] using economical⟩
  after := by
    intro call span now u a next events reply under searched moved apart
    exact searched.extend apart

/-- A lookup ends once, and what it ends with tells whether the template was run for it. -/
theorem Answered.looked_up (answered : Answered s t call span reply last)
    (looks : call = .get m w ∨ call = .process m w) :
    ∃ outcome, Searched t (s.stack t).length span outcome ∧ (call = .get m w → outcome = reply) :=
  lookup_searches.answered looks answered

end System
end PerWorker
