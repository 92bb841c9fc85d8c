import PerWorker.Fault
import PerWorker.Json.Written
import PerWorker.Template

/-!
The worker function of the pipeline: it puts a tag in front of each element. An enricher works
only between setup and teardown, can be told to reject every n-th element, and counts what it
processed since it was set up. Its text holds the tag and the rejection rule and nothing of the
running session.
-/
namespace PerWorker

structure Enricher where
  tag : String
  /-- Rejects the positive multiples of this number; zero rejects nothing. -/
  failEvery : UInt64
  /-- The number of elements processed since setup, while set up. -/
  session : Option Nat := none
  /-- The text of the element processed last. -/
  scratch : String := ""
  deriving Repr, DecidableEq, Inhabited

namespace Enricher

inductive Refusal where
  | alreadyOpen
  | closedUnopened
  | notOpen
  | rejected (element : UInt64)
  deriving Repr, DecidableEq, Inhabited

def Refusal.message : Refusal → String
  | .alreadyOpen => "enricher set up twice"
  | .closedUnopened => "enricher torn down without setup"
  | .notOpen => "enricher used outside of setup/teardown"
  | .rejected element => s!"element {element.toNat} rejected"

def Refusal.fault (refusal : Refusal) : Fault := { message := refusal.message }

def isOpen (e : Enricher) : Bool := e.session.isSome

def processed (e : Enricher) : Nat := e.session.getD 0

def rejects (e : Enricher) (element : UInt64) : Bool :=
  0 < e.failEvery && 0 < element && element % e.failEvery == 0

def setup (e : Enricher) : Except Refusal Enricher :=
  match e.session with
  | some _ => .error .alreadyOpen
  | none => .ok { e with session := some 0 }

/-- Closes the session and tells how many elements it processed. -/
def teardown (e : Enricher) : Except Refusal (Nat × Enricher) :=
  match e.session with
  | none => .error .closedUnopened
  | some processed => .ok (processed, { e with session := none })

/-- Tags one element and gives the length of the result in bytes. -/
def process (e : Enricher) (element : UInt64) : Except Refusal (Nat × Enricher) :=
  match e.session with
  | none => .error .notOpen
  | some processed =>
    if e.rejects element then .error (.rejected element)
    else
      let scratch := e.tag ++ toString element.toNat
      .ok (scratch.utf8ByteSize, { e with session := some (processed + 1), scratch })

/-- Processes the `count` elements from `first` on, up to the first one refused, and adds up the
lengths. The elements before a refused one stay processed. -/
def processRange (e : Enricher) (first : UInt64) (count : Nat) (bytes : Nat := 0) :
    Except Refusal Nat × Enricher :=
  match count with
  | 0 => (.ok bytes, e)
  | count + 1 =>
    match e.process first with
    | .error refusal => (.error refusal, e)
    | .ok (size, e) => e.processRange (first + 1) count (bytes + size)

/-- Processes elements in order, up to the first one refused, and lists the lengths after those that
are known. -/
def processAll (e : Enricher) (sizes : List Nat) :
    List UInt64 → Except Refusal (List Nat) × Enricher
  | [] => (.ok sizes, e)
  | element :: rest =>
    match e.process element with
    | .ok (size, e) => e.processAll (sizes ++ [size]) rest
    | .error refusal => (.error refusal, e)

/-- Runs a session: opening, elements in order, closing, up to the first refusal. Gives the lengths,
the enricher as it is left, and the count of a session that was closed. -/
def runSession (e : Enricher) (opens : Bool) (elements : List UInt64) (closes : Bool) :
    Except Refusal (List Nat) × Enricher × Option Nat :=
  match if opens then e.setup else .ok e with
  | .error refusal => (.error refusal, e, none)
  | .ok e =>
    match e.processAll [] elements with
    | (.error refusal, e) => (.error refusal, e, none)
    | (.ok sizes, e) =>
      if closes then
        match e.teardown with
        | .ok (processed, e) => (.ok sizes, e, some processed)
        | .error refusal => (.error refusal, e, none)
      else (.ok sizes, e, none)

def encode (e : Enricher) : String :=
  (Json.obj [("prefix", .str e.tag), ("fail_every", .nat e.failEvery.toNat)]).render

def word? : Json.Written → Option UInt64
  | .number numeral =>
    match Json.Written.integer? numeral with
    | some (.ofNat n) => some (UInt64.ofNat n)
    | _ => none
  | _ => none

def string? : Json.Written → Option String
  | .str body => Json.Written.string? body
  | _ => none

structure Fields where
  tag : Option String := none
  failEvery : Option UInt64 := none

/-- Reads one member: a known field once, any other name without a look at its value. -/
def readMember (fields : Fields) (member : List Char × Json.Written) : Option Fields :=
  match Json.Written.string? member.1 with
  | none => none
  | some "prefix" =>
    match fields.tag, string? member.2 with
    | none, some tag => some { fields with tag := some tag }
    | _, _ => none
  | some "fail_every" =>
    match fields.failEvery, word? member.2 with
    | none, some n => some { fields with failEvery := some n }
    | _, _ => none
  | some _ => some fields

def decode (text : String) : Option Enricher :=
  match Json.Written.parse? text with
  | some (.obj members) =>
    match members.foldlM readMember {} with
    | some { tag := some tag, failEvery := some failEvery } => some { tag, failEvery }
    | _ => none
  | some (.arr [tag, failEvery]) =>
    match string? tag, word? failEvery with
    | some tag, some failEvery => some { tag, failEvery }
    | _, _ => none
  | _ => none

def codec : Codec Enricher where
  encode e := .ok e.encode
  decode _ text :=
    match decode text with
    | some e => .ok e
    | none => .error "not an enricher"

def template (e : Enricher) : Except CloneError (Template Enricher) := Template.ofCodec codec e

end Enricher
end PerWorker
