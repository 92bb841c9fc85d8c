import PerWorker.Proofs.Lifecycle.Sessions

/-!
Where the calls of a session stand. A call is without effect for as long as it waits; with its one
effect on the slot it refers to, or on the map that has none, its answer is settled, and from then
on it owes it. An advance is what one step of a session can do to its call and to the slots and maps,
told apart only as far as callers can see.
-/
namespace PerWorker

inductive Debt (V : Type) where
  | reply (reply : Reply V)
  /-- What the teardown of the worker's copy comes to. -/
  | teardown (worker : WorkerId) (copy : Nat)

inductive Stand (V : Type) where
  | idle
  /-- Its call has had no effect yet; it may refer to a slot. -/
  | waiting (call : Call) (slot : Option Nat)
  /-- Its call has had its effect, and the answer is settled. -/
  | owing (call : Call) (debt : Debt V)

def Debt.Met {V : Type} (name : String) (torn : Nat → Option Fault → Prop) :
    Debt V → Reply V → Prop
  | .reply promised, given => given = promised
  | .teardown w c, given => ∃ fault, torn c fault ∧ given = .ofTeardown name w c fault

def Frame.stand {F V : Type} (name : String) : Frame F V → Stand V
  | .get m w point =>
    match point with
    | .look | .register | .leave _ .again | .prune _ none => .waiting (.get m w) none
    | .enter i | .replicating i | .countCloneFailure i _ | .logCloneFailure i _ | .countCopy i _
    | .number i _ | .settingUp i _ | .countSetupFailure i _ _ | .logSetupFailure i _ _
    | .countSetup i _ | .logSetup i _ | .publish i _ | .retire i _ =>
      .waiting (.get m w) (some i)
    | .leave _ (.found c) => .owing (.get m w) (.reply (.handle c))
    | .leave _ (.failed e) | .prune _ (some e) => .owing (.get m w) (.reply (.failed e))
    | .leave _ (.unwinding message) => .owing (.get m w) (.reply (.panicked message))
  | .peek m w point =>
    match point with
    | .look => .waiting (.peek m w) none
    | .enter i => .waiting (.peek m w) (some i)
    | .leave _ found => .owing (.peek m w) (.reply (.peeked found))
  | .release m w point =>
    match point with
    | .unregister => .waiting (.release m w) none
    | .enter i | .retire i => .waiting (.release m w) (some i)
    | .leave _ none | .logTeardown _ => .owing (.release m w) (.reply .done)
    | .leave _ (some c) | .kill c | .claim c | .tearingDown c =>
      .owing (.release m w) (.teardown w c)
    | .yield c fault | .countTeardown c fault =>
      .owing (.release m w) (.reply (.ofTeardown name w c fault))
    | .countFailure c fault | .logFailure c fault =>
      .owing (.release m w) (.reply (.ofTeardown name w c (some fault)))
    | .unwind _ message => .owing (.release m w) (.reply (.panicked message))
  | _ => .idle

def System.stand {F V : Type} (s : System F V) (name : String) (t : Nat) : Stand V :=
  match s.stack t with
  | [] => .idle
  | frame :: _ => frame.stand name

def held : Option SlotState → Option Nat
  | some (.live c) => some c
  | _ => none

namespace Ledger

def Fresh (l : Ledger) (c : Nat) : Prop :=
  l.bonds.size ≤ c ∨ ∃ x ∈ l.roles, ∃ m w, x.2.fosters? = some (c,m,w)

/-- Nothing that a caller could tell has changed. -/
def Alike (l next : Ledger) : Prop :=
  next.mapped = l.mapped ∧ ∀ i, next.state? i = l.state? i

def Unmaps (l : Ledger) (m : Nat) (w : WorkerId) (next : Ledger) : Prop :=
  (∀ n v, next.mapped n v = if n = m ∧ v = w then none else l.mapped n v) ∧
    ∀ i, next.state? i = l.state? i

end Ledger

inductive Entails {V : Type} (name : String) (m : Nat) (torn : Nat → Option Fault → Prop)
    (w : WorkerId) : Option Nat → Call → Reply V → Option Nat → Option Nat → Prop
  | found (c) : Entails name m torn w (some c) (.get m w) (.handle c) none (some c)
  | made (c) : Entails name m torn w none (.get m w) (.handle c) (some c) (some c)
  | cloneFailed (e) : Entails name m torn w none (.get m w) (.failed (.clone name w e)) none none
  | setupFailed (n fault) :
      Entails name m torn w none (.get m w) (.failed (.setup name w n fault)) none none
  | peeked (entry) : Entails name m torn w entry (.peek m w) (.peeked entry) none entry
  | removed (c fault) (ended : torn c fault) :
      Entails name m torn w (some c) (.release m w) (.ofTeardown name w c fault) none none
  | absent : Entails name m torn w none (.release m w) .done none none

inductive Advance {V : Type} (name : String) (m : Nat) (torn : Nat → Option Fault → Prop)
    (l next : Ledger) : Stand V → Stand V → Option (Talk V) → Prop
  | begin (call) (same : l.Alike next) :
      Advance name m torn l next .idle (.waiting call none) (some (.called call))
  /-- The call goes on without effect, and may come to refer to the slot of its worker. -/
  | wait (call i j) (same : l.Alike next)
      (known : ∀ k, j = some k → i = some k ∨ ∃ n v, l.mapped n v = some k) :
      Advance name m torn l next (.waiting call i) (.waiting call j) none
  | register (call w) (missing : l.mapped m w = none)
      (maps : ∀ n v, next.mapped n v = if n = m ∧ v = w then some l.slots.size else l.mapped n v)
      (states : ∀ i, next.state? i = if i = l.slots.size then some .vacant else l.state? i) :
      Advance name m torn l next (.waiting call none) (.waiting call (some l.slots.size)) none
  /-- The call has its effect on the slot it refers to. -/
  | settle (call w i debt made) (maps : next.mapped = l.mapped)
      (states : ∀ j, j ≠ i → next.state? j = l.state? j)
      (effect : ∀ reply, debt.Met name torn reply →
        Entails name m torn w (held (l.state? i)) call reply made (held (next.state? i)))
      (homed : l.Homed m w i)
      (fresh : ∀ c, made = some c → l.Fresh c ∧ ¬next.Fresh c) :
      Advance name m torn l next (.waiting call (some i)) (.owing call debt) none
  | skip (call w reply) (missing : l.mapped m w = none) (same : l.Alike next)
      (effect : Entails name m torn w none call reply none none) :
      Advance name m torn l next (.waiting call none) .idle (some (.returned reply))
  | detach (call w i) (mapped : l.mapped m w = some i) (unmaps : l.Unmaps m w next) :
      Advance name m torn l next (.waiting call none) (.waiting call (some i)) none
  | restart (call w i) (mapped : l.mapped m w = some i) (unmaps : l.Unmaps m w next) :
      Advance name m torn l next (.waiting call none) (.waiting call none) none
  | fail (call w i reply) (mapped : l.mapped m w = some i) (unmaps : l.Unmaps m w next) :
      Advance name m torn l next (.owing call (.reply reply)) .idle (some (.returned reply))
  | carry (call debt debt') (same : l.Alike next)
      (kept : ∀ reply, debt'.Met name torn reply → debt.Met name torn reply) :
      Advance name m torn l next (.owing call debt) (.owing call debt') none
  | answer (call reply) (same : l.Alike next) :
      Advance name m torn l next (.owing call (.reply reply)) .idle (some (.returned reply))

end PerWorker
