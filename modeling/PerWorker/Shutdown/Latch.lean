/-!
A latch counts tasks that are under way and tells those who wait when none is left. A task that
finishes takes itself off the count and then, if it was the last one, notifies the waiters: two
steps, between which anything may happen. A waiter listens before it looks at the count, so that no
notification after the look is missed.
-/
namespace PerWorker

/-- The tasks under way, and how often the waiters were notified. -/
structure Latch where
  pending : UInt64 := 0
  notifications : Nat := 0
  deriving Repr, DecidableEq, Inhabited

namespace Latch

def add (l : Latch) (n : UInt64) : Latch := { l with pending := l.pending + n }

/-- One task fewer, if one is under way, and whether it was the last one. -/
def finish (l : Latch) : Latch × Bool :=
  if l.pending = 0 then (l, false) else ({ l with pending := l.pending - 1 }, l.pending = 1)

def notify (l : Latch) : Latch := { l with notifications := l.notifications + 1 }

def settle (l : Latch) : Latch :=
  match l.finish with
  | (l, true) => l.notify
  | (l, false) => l

theorem finish_zero (l : Latch) (h : l.pending = 0) : l.finish = (l, false) := by
  simp [finish, h]

theorem finish_last (l : Latch) : l.finish.2 = true ↔ l.pending = 1 := by
  unfold finish
  split <;> simp_all

theorem pending_finish (l : Latch) : l.finish.1.pending.toNat = l.pending.toNat - 1 := by
  unfold finish
  split
  · simp_all
  · rename_i h
    have : 1 ≤ l.pending := by
      rw [UInt64.le_iff_toNat_le]
      exact Nat.one_le_iff_ne_zero.mpr fun zero => h (UInt64.toNat_inj.mp zero)
    simp [UInt64.toNat_sub_of_le _ _ this]

end Latch

/-- Where someone stands who waits at a latch. A listener remembers how many notifications came
before it began to listen. -/
inductive Waiter where
  | fresh
  | listening (since : Nat)
  | asleep (since : Nat)
  | satisfied
  deriving Repr, DecidableEq, Inhabited

namespace Waiter

/-- The next step of a waiter: it begins to listen, looks at the count, and either is satisfied or
sleeps until it is notified and starts over. -/
def step (waiter : Waiter) (latch : Latch) : Option Waiter :=
  match waiter with
  | .fresh => some (.listening latch.notifications)
  | .listening since => some (if latch.pending = 0 then .satisfied else .asleep since)
  | .asleep since => if since < latch.notifications then some .fresh else none
  | .satisfied => none

end Waiter

/-- Tasks and waiters around one latch. `owing` tasks have taken themselves off the count as the
last one and have yet to notify. -/
structure Gathering where
  latch : Latch := {}
  owing : Nat := 0
  waiters : List Waiter := []
  deriving Repr, DecidableEq, Inhabited

namespace Gathering

inductive Move where
  | add (n : UInt64)
  | finish
  | notify
  | join
  | wait (waiter : Nat)
  deriving Repr, DecidableEq, Inhabited

/-- One step of someone around the latch, if that step is open. -/
def step (g : Gathering) : Move → Option Gathering
  | .add n => some { g with latch := g.latch.add n }
  | .finish =>
    let (latch, last) := g.latch.finish
    some { g with latch, owing := g.owing + if last then 1 else 0 }
  | .notify =>
    if 0 < g.owing then some { g with latch := g.latch.notify, owing := g.owing - 1 } else none
  | .join => some { g with waiters := g.waiters ++ [.fresh] }
  | .wait i =>
    match (g.waiters[i]?).bind (·.step g.latch) with
    | some waiter => some { g with waiters := g.waiters.set i waiter }
    | none => none

end Gathering
end PerWorker
