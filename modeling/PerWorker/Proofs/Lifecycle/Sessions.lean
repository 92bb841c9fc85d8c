import PerWorker.Proofs.Lifecycle.Places

/-!
Sessions and what they look like from outside. In a session every thread asks one manager for the
copies of workers, one call after the other, and templates and hooks return or fail without calling
back. An operation is a call with its answer and the steps between which it was under way. What a
sequence of operations should answer is said by a plain map from workers to copies.
-/
namespace PerWorker

def Call.asks (m : Nat) : Call → Bool
  | .get n _ | .peek n _ | .release n _ => n = m
  | _ => false

namespace System

variable {F V : Type}

/-- Whether an action is one that threads take in a session. -/
def allows (s : System F V) (m t : Nat) : Action F V → Bool
  | .call call => (s.stack t).isEmpty && call.asks m
  | .drawn (.panicked _) | .panic _ => false
  | _ => true

/-- A sequence of steps that threads take in a session with one manager. -/
inductive Session (m : Nat) : System F V → List (Entry F V) → System F V → Prop
  | done (s : System F V) : Session m s [] s
  | step {s next last : System F V} {rest : List (Entry F V)} (t : Nat) (a : Action F V)
      (events : List (Event V)) (moved : s.step t a = some (next,events))
      (allowed : s.allows m t a) (after : Session m next rest last) :
      Session m s (⟨t,a,events⟩ :: rest) last

def converse (s : System F V) (m : Nat) :
    List (Nat × Action F V) → Option (System F V × List (Entry F V))
  | [] => some (s,[])
  | (t,a) :: turns =>
    if s.allows m t a then do
      let (next,events) ← s.step t a
      let (last,entries) ← next.converse m turns
      return (last,⟨t,a,events⟩ :: entries)
    else none

theorem Session.of_converse {m : Nat} {s last : System F V} {entries : List (Entry F V)}
    {turns : List (Nat × Action F V)} (conversed : s.converse m turns = some (last,entries)) :
    Session m s entries last := by
  induction turns generalizing s entries with
  | nil =>
    cases conversed
    exact .done last
  | cons turn turns ih =>
    obtain ⟨t,a⟩ := turn
    rw [converse] at conversed
    split at conversed
    next allowed =>
      obtain ⟨⟨next,events⟩,moved,conversed⟩ := Option.bind_eq_some_iff.mp conversed
      obtain ⟨⟨reached,rest⟩,continued,same⟩ := Option.bind_eq_some_iff.mp conversed
      cases same
      exact .step t a events moved allowed (ih continued)
    next => contradiction

end System

/-- A call that was answered, with the steps in which it was made and answered. -/
structure Operation (V : Type) where
  thread : Nat
  call : Call
  reply : Reply V
  called : Nat
  returned : Nat

inductive Talk (V : Type) where
  | called (call : Call)
  | returned (reply : Reply V)

def Event.talk? {V : Type} : Event V → Option (Talk V)
  | .called call => some (.called call)
  | .returned reply => some (.returned reply)
  | _ => none

def talks {F V : Type} (n : Nat) : List (Entry F V) → List (Nat × Nat × Talk V)
  | [] => []
  | entry :: rest => (entry.events.filterMap Event.talk?).map (n,entry.thread,·) ++ talks (n + 1) rest

/-- The operations completed in what callers see, where some threads have begun one before. -/
def completed {V : Type} (begun : Nat → Option (Call × Nat)) :
    List (Nat × Nat × Talk V) → List (Operation V)
  | [] => []
  | (n,t,.called call) :: rest => completed (Function.update begun t (some (call,n))) rest
  | (n,t,.returned reply) :: rest =>
    (begun t).toList.map (fun (call,called) => ⟨t,call,reply,called,n⟩) ++
      completed (Function.update begun t none) rest

def operations {F V : Type} (past : List (Entry F V)) : List (Operation V) :=
  completed (fun _ => none) (talks 0 past)

def Talk.call? {V : Type} : Talk V → Option Call
  | .called call => some call
  | .returned _ => none

def callsOf {F V : Type} (t : Nat) (past : List (Entry F V)) : List Call :=
  (past.filter (·.thread = t)).flatMap fun entry =>
    (entry.events.filterMap Event.talk?).filterMap Talk.call?

def failure? {V : Type} : Except Fault V → Option Fault
  | .ok _ => none
  | .error failure => some failure

/-- The teardown of a copy returned and failed like that, or did not fail. -/
def TornDown {F V : Type} (past : List (Entry F V)) (c : Nat) (fault : Option Fault) : Prop :=
  ∃ entry ∈ past, (∃ ending, .hookEnded .teardown c ending ∈ entry.events) ∧
    ∃ result, entry.action = .finish result ∧ failure? result = fault

def Reply.ofTeardown {V : Type} (name : String) (w : WorkerId) (c : Nat) : Option Fault → Reply V
  | none => .done
  | some failure => .failed (.teardown name w (c + 1) failure)

/-- A plain map from workers to copies, with the copies that it has held so far. -/
structure Register where
  copies : WorkerId → Option Nat
  used : List Nat

namespace Register

variable {V : Type}

/-- What a call does to a plain map and what it answers. -/
inductive Answers (name : String) (m : Nat) (torn : Nat → Option Fault → Prop) (r : Register) :
    Call → Reply V → Register → Prop
  | found {w c} (registered : r.copies w = some c) :
      Answers name m torn r (.get m w) (.handle c) r
  | made {w c} (missing : r.copies w = none) (fresh : c ∉ r.used) :
      Answers name m torn r (.get m w) (.handle c)
        ⟨Function.update r.copies w (some c),c :: r.used⟩
  | cloneFailed {w e} (missing : r.copies w = none) :
      Answers name m torn r (.get m w) (.failed (.clone name w e)) r
  | setupFailed {w n fault} (missing : r.copies w = none) :
      Answers name m torn r (.get m w) (.failed (.setup name w n fault)) r
  | peeked {w} : Answers name m torn r (.peek m w) (.peeked (r.copies w)) r
  | removed {w c fault} (registered : r.copies w = some c) (ended : torn c fault) :
      Answers name m torn r (.release m w) (.ofTeardown name w c fault)
        { r with copies := Function.update r.copies w none }
  | absent {w} (missing : r.copies w = none) : Answers name m torn r (.release m w) .done r

inductive Explains (name : String) (m : Nat) (torn : Nat → Option Fault → Prop) :
    Register → List (Operation V) → Prop
  | done (r : Register) : Explains name m torn r []
  | next {r r' : Register} {x : Operation V} {rest : List (Operation V)}
      (answers : r.Answers name m torn x.call x.reply r')
      (after : Explains name m torn r' rest) : Explains name m torn r (x :: rest)

end Register
end PerWorker
