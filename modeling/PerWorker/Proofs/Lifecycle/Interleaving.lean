import PerWorker.Lifecycle.Step

/-!
Interleavings of the atomic steps of any number of threads, and what can be told from them about a
copy. The hook history of a copy is read off the observed events alone; it shows setup and teardown
and leaves bodies out.
-/
namespace PerWorker

/-- One atomic step of an interleaving with what could be observed of it. -/
structure Entry (F V : Type) where
  thread : Nat
  action : Action F V
  events : List (Event V)

namespace System

variable {F V : Type}

/-- Managers with these names under some sharding, that many idle threads, nothing registered. -/
def idle (sharding : Sharding) (names : List String) (threads : Nat) : System F V :=
  { (start names : System F V) with sharding, threads := Array.replicate threads [] }

/-- The system that a sequence of steps leads to, whichever threads take them. -/
inductive Interleaving (initial : System F V) : List (Entry F V) → System F V → Prop
  | start : Interleaving initial [] initial
  | step {past : List (Entry F V)} {s next : System F V} (t : Nat) (a : Action F V)
      (events : List (Event V)) (before : Interleaving initial past s)
      (moved : s.step t a = some (next, events)) :
      Interleaving initial (past ++ [⟨t, a, events⟩]) next

def follow (s : System F V) : List (Nat × Action F V) → Option (System F V × List (Entry F V))
  | [] => some (s,[])
  | (t,a) :: turns => do
    let (next,events) ← s.step t a
    let (last,entries) ← next.follow turns
    return (last,⟨t,a,events⟩ :: entries)

theorem Interleaving.follow {initial s last : System F V} {past entries : List (Entry F V)}
    {turns : List (Nat × Action F V)} (run : Interleaving initial past s)
    (followed : s.follow turns = some (last,entries)) :
    Interleaving initial (past ++ entries) last := by
  induction turns generalizing past s entries with
  | nil =>
    cases followed
    simpa using run
  | cons turn turns ih =>
    obtain ⟨t,a⟩ := turn
    obtain ⟨⟨next,events⟩,moved,followed⟩ := Option.bind_eq_some_iff.mp followed
    obtain ⟨⟨reached,rest⟩,continued,same⟩ := Option.bind_eq_some_iff.mp followed
    cases same
    simpa using ih (run.step t a events moved) continued

end System

def observed {F V : Type} (past : List (Entry F V)) : List (Event V) := past.flatMap (·.events)

inductive Beat where
  | began (hook : Hook)
  | ended (hook : Hook) (ending : Ending)
  deriving Repr, DecidableEq, Inhabited

inductive Note where
  | beat (copy : Nat) (beat : Beat)
  | handed (copy : Nat)
  | spoiled
  deriving Repr, DecidableEq, Inhabited

def Event.note? {V : Type} : Event V → Option Note
  | .hookStarted .body _ | .hookEnded .body _ _ => none
  | .hookStarted hook c => some (.beat c (.began hook))
  | .hookEnded hook c ending => some (.beat c (.ended hook ending))
  | .returned (.handle c) | .returned (.peeked (some c)) => some (.handed c)
  | _ => none

def Action.note? {F V : Type} : Action F V → Option Note
  | .drawn (.panicked _) => some .spoiled
  | _ => none

namespace Entry

variable {F V : Type}

def notes (entry : Entry F V) : List Note :=
  entry.action.note?.toList ++ entry.events.filterMap Event.note?

end Entry

def notes {F V : Type} (past : List (Entry F V)) : List Note := past.flatMap Entry.notes

def Note.beatOf? (c : Nat) : Note → Option Beat
  | .beat d b => if d = c then some b else none
  | _ => none

def beats (c : Nat) (notes : List Note) : List Beat := notes.filterMap (Note.beatOf? c)

end PerWorker
