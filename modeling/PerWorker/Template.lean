import PerWorker.Lifecycle.Error

/-!
Templates hold a prototype and produce independent copies of it, one at a time. A copy is cloned,
read back from the text of the prototype, or made by a factory that follows a plan. The prototype
itself is never handed out.
-/
namespace PerWorker

/-- How values are written as a text and read back. Reading may depend on how many readings came
before it. -/
structure Codec (α : Type) where
  encode : α → Except String String
  decode : Nat → String → Except String α

inductive Draw (α : Type) where
  | copy (value : α)
  | refused (error : CloneError)
  | panicked (message : String)
  deriving Repr, DecidableEq, Inhabited

inductive Template (α : Type) where
  /-- Copies equal to the prototype. -/
  | clone (prototype : α)
  /-- Copies read back from the text of the prototype; `reads` counts the readings so far. -/
  | serialized (codec : Codec α) (text : String) (reads : Nat)
  /-- One draw per request, and then always the last resort. -/
  | factory (plan : List (Draw α)) (lastResort : Draw α)

namespace Template

variable {α : Type}

/-- Writes the prototype and reads it back once, so a prototype that cannot be reproduced is
refused here and not on first use. -/
def ofCodec (codec : Codec α) (prototype : α) : Except CloneError (Template α) := do
  let text ← (codec.encode prototype).mapError .encode
  let _ ← (codec.decode 0 text).mapError .decode
  return .serialized codec text 1

def encodedSize? : Template α → Option Nat
  | .serialized _ text _ => some text.utf8ByteSize
  | _ => none

def replicate : Template α → Draw α × Template α
  | .clone prototype => (.copy prototype, .clone prototype)
  | .serialized codec text reads =>
    let drawn := match codec.decode reads text with
      | .ok value => .copy value
      | .error reason => .refused (.decode reason)
    (drawn, .serialized codec text (reads + 1))
  | .factory [] lastResort => (lastResort, .factory [] lastResort)
  | .factory (drawn :: plan) lastResort => (drawn, .factory plan lastResort)

def replicates (template : Template α) : Nat → List (Draw α)
  | 0 => []
  | n + 1 =>
    let (drawn, next) := template.replicate
    drawn :: next.replicates n

theorem replicates_clone (prototype : α) (n : Nat) :
    (Template.clone prototype).replicates n = List.replicate n (.copy prototype) := by
  induction n with
  | zero => rfl
  | succ n ih => simp [replicates, replicate, ih, List.replicate_succ]

end Template
end PerWorker
