import PerWorker.Binary64.Numeral
import PerWorker.Binary64.Shortest
import PerWorker.Enricher
import PerWorker.Json.Written
import PerWorker.Template

/-!
Prototypes of many kinds, to see what a template makes of them: settings with a field that is not
written, an enricher, a document, a real number, a map whose keys are pairs, a value that cannot be
written, one that can be read back only so often, and a factory with a plan. `Specimen.template`
gives the template of each, with every copy shown as a JSON value.
-/
namespace PerWorker

/-- Settings of a worker; `hits` belongs to the running worker and is not written. -/
structure Settings where
  tag : String
  limits : List Nat
  hits : Nat
  deriving Repr, DecidableEq, Inhabited

namespace Settings

def encode (s : Settings) : String :=
  (Json.obj [("prefix", .str s.tag), ("limits", .arr (s.limits.map .nat))]).render

/-- Reads the written fields back; the running ones start at zero. -/
def decode? (text : String) : Option Settings := do
  let value ← Json.parse? text
  let .str tag ← value.member? "prefix" | none
  let .arr items ← value.member? "limits" | none
  let limits ← items.mapM fun
    | .int (.ofNat n) => some n
    | _ => none
  return { tag, limits, hits := 0 }

def codec : Codec Settings where
  encode s := .ok s.encode
  decode _ text := (decode? text).elim (.error "not settings") .ok

def toJson (s : Settings) : Json :=
  .obj [("prefix", .str s.tag), ("limits", .arr (s.limits.map .nat)), ("hits", .nat s.hits)]

end Settings

/-- An enricher as it is shown: its session and its text. -/
def Enricher.toJson (e : Enricher) : Json :=
  .obj [("open", .bool e.isOpen), ("processed", .nat e.processed), ("json", .str e.encode)]

/-- A document in an object of its own. Reading refuses documents that nest too deep. -/
def documentCodec : Codec Json where
  encode doc := .ok (Json.obj [("doc", doc)]).render
  decode _ text :=
    match Json.Written.parse? text with
    | none => .error "not a document"
    | some written =>
      match written.toJson Json.Written.maxDepth with
      | .error .tooDeep => .error "recursion limit exceeded"
      | .error .loneSurrogate => .error "lone surrogate"
      | .ok value => (value.member? "doc").elim (.error "missing field `doc`") .ok

def nested (doc : Json) : Nat → Json
  | 0 => doc
  | n + 1 => .arr [nested doc n]

namespace Binary64

/-- A real number as JSON; what is not finite has no numeral. -/
def toJson : Binary64 → Json
  | .finite negative m q => .real (numeral negative m q)
  | _ => .null

def codec : Codec Binary64 where
  encode x := .ok (Json.obj [("real", x.toJson)]).render
  decode _ text :=
    match (Json.parse? text).bind (·.member? "real") with
    | some (.real numeral) => (ofJson? numeral).elim (.error "number out of range") .ok
    | some .null => .error "invalid type: null, expected f64"
    | _ => .error "not a number"

end Binary64

/-- A map with keys that are pairs. JSON has no such keys, so only the empty map can be written. -/
def pairKeysCodec : Codec (List Json) where
  encode pairs :=
    if pairs.isEmpty then .ok (Json.obj [("map", .obj [])]).render
    else .error "key must be a string"
  decode _ _ := .ok []

/-- A value that refuses to be written, with the text given. -/
def unwritableCodec : Codec String where
  encode message := .error message
  decode _ text := .ok text

/-- A text that can be read back `left` times and refuses from then on, with the text itself. -/
def oneWayCodec (left : Nat) : Codec String where
  encode message := .ok (Json.str message).render
  decode reads text :=
    match Json.parse? text with
    | some (.str message) => if reads < left then .ok message else .error message
    | _ => .error "not a string"

namespace Draw

variable {α β : Type}

def map (f : α → β) : Draw α → Draw β
  | .copy value => .copy (f value)
  | .refused error => .refused error
  | .panicked message => .panicked message

end Draw

inductive Specimen where
  | settings (cloned : Bool) (prototype : Settings)
  | enricher (prototype : Enricher)
  | document (doc : Json) (nest : Option Nat)
  | real (value : Binary64)
  | pairKeys (pairs : List Json)
  | unwritable (message : String)
  | oneWay (message : String) (left : Nat)
  | factory (plan : List (Draw Json))

namespace Specimen

/-- Makes the template of a specimen and draws copies from it: the size of the written prototype,
where there is one, and the copies as they are shown. -/
def draw (specimen : Specimen) (count : Nat) :
    Except CloneError (Option Nat × List (Draw Json)) :=
  match specimen with
  | .settings true prototype => .ok (drawFrom (.clone prototype) Settings.toJson)
  | .settings false prototype =>
    (Template.ofCodec Settings.codec prototype).map (drawFrom · Settings.toJson)
  | .enricher prototype => prototype.template.map (drawFrom · Enricher.toJson)
  | .document doc nest =>
    (Template.ofCodec documentCodec (nested doc (nest.getD 0))).map
      (drawFrom · fun copy => if nest.isSome then .bool true else copy)
  | .real value => (Template.ofCodec Binary64.codec value).map (drawFrom · Binary64.toJson)
  | .pairKeys pairs => (Template.ofCodec pairKeysCodec pairs).map (drawFrom · .arr)
  | .unwritable message => (Template.ofCodec unwritableCodec message).map (drawFrom · .str)
  | .oneWay message left => (Template.ofCodec (oneWayCodec left) message).map (drawFrom · .str)
  | .factory plan => .ok (drawFrom (.factory plan (.copy .null)) id)
where
  drawFrom {α : Type} (template : Template α) (shown : α → Json) :
      Option Nat × List (Draw Json) :=
    (template.encodedSize?, (template.replicates count).map (·.map shown))

end Specimen
end PerWorker
