import PerWorker.Duration
import PerWorker.Yaml.Node
import PerWorker.Yaml.Value

/-!
Reading typed values from a document. A place is a node with the way that leads to it; what does not
fit there is reported with that way. Values are read in the order of the text, and the first problem
counts, so a value of the wrong kind wins over a fault in the text behind it.
-/
namespace PerWorker.Yaml

inductive Problem where
  /-- The text is not one well-formed document. -/
  | malformed
  /-- A value does not fit the place that the path names. -/
  | misfit (path : List String) (reason : String)
  deriving Repr, DecidableEq, Inhabited

def Problem.message : Problem → String
  | .malformed => "<yaml syntax>"
  | .misfit [] reason => reason
  | .misfit path reason => ".".intercalate path ++ ": " ++ reason

/-- A node of a document and the names of the fields that lead to it. -/
structure Place where
  document : Document
  path : List String := []
  node : Node
  deriving Inhabited

namespace Place

/-- The node that counts: an alias stands for another one. -/
def target (p : Place) : Node := p.document.resolve p.node

def misfit (p : Place) (reason : String) : Problem := .misfit p.path reason

def wrongKind (found expected : String) : String := s!"invalid type: {found}, expected {expected}"

/-- The problem of a node that is not of the expected kind. A scalar that is not even of the kind
its tag asks for is reported as that. -/
def mismatch (p : Place) (expected : String) : Problem :=
  match p.target with
  | .sequence .. => p.misfit (wrongKind "sequence" expected)
  | .mapping .. => p.misfit (wrongKind "map" expected)
  | .scalar _ s =>
    match s.value with
    | .ok value => p.misfit (wrongKind value.description expected)
    | .error kind =>
      p.misfit s!"invalid value: {(Value.string s.text).description}, expected {kind}"
  | .alias _ | .cut => .malformed

def text (p : Place) (expected : String := "a string") : Except Problem String :=
  match p.target with
  | .scalar _ s => .ok s.text
  | _ => .error (p.mismatch expected)

def word (p : Place) (expected : String) : Except Problem UInt64 :=
  match p.target with
  | .scalar _ s =>
    match if s.mayBe "int" then Scalar.natural? UInt64.size s.text else none with
    | some n => .ok (UInt64.ofNat n)
    | none => .error (p.mismatch expected)
  | _ => .error (p.mismatch expected)

def bool (p : Place) : Except Problem Bool :=
  match p.target with
  | .scalar _ s =>
    match if s.mayBe "bool" then Scalar.bool? s.text else none with
    | some b => .ok b
    | none => .error (p.mismatch "a boolean")
  | _ => .error (p.mismatch "a boolean")

def duration (p : Place) : Except Problem Duration := do
  let text ← p.text "a duration"
  match Duration.parse? text with
  | some d => .ok d
  | none =>
    .error (p.misfit s!"invalid value: {(Value.string text).description}, expected a duration")

/-- Whether nothing stands in a place: no value, or null. A tag that asks for null allows nothing
else. -/
def isNone (p : Place) : Except Problem Bool :=
  match p.target with
  | .scalar _ { text, style := .plain, tag := none } =>
    .ok (text.isEmpty || Scalar.isNullWord text)
  | .scalar _ { text, style := .plain, tag := some tag } =>
    if tag ≠ Scalar.standardTag "null" then .ok false
    else if Scalar.isNullWord text then .ok true
    else
      .error (.misfit p.path.dropLast
        s!"invalid value: {(Value.string text).description}, expected null")
  | .cut => .error .malformed
  | _ => .ok false

def optional {α : Type} (p : Place) (read : Place → Except Problem α) :
    Except Problem (Option α) := do
  if ← p.isNone then return none else return some (← read p)

def fieldName (p : Place) (key : Node) : Except Problem String :=
  Place.text { p with node := key } "field identifier"

/-- The place of a field's value. A field that is named through an alias is not told by name. -/
def field (p : Place) (key value : Node) : Place :=
  let name := match key with
    | .scalar _ s => s.text
    | _ => "?"
  { p with path := p.path ++ [name], node := value }

/-- Reads the entries of a mapping in order: a known field once, any other without a look at its
value. Gives what was read and the names that were seen. -/
def entries {σ : Type} (p : Place) (known : List String)
    (set : σ → String → Place → Except Problem σ) (record : σ) (seen : List String) :
    List (Node × Node) → Except Problem (σ × List String)
  | [] => .ok (record, seen)
  | (key, value) :: rest => do
    let name ← p.fieldName key
    if known.contains name then
      if seen.contains name then throw (p.misfit s!"duplicate field `{name}`")
      let record ← set record name (p.field key value)
      p.entries known set record (name :: seen) rest
    else if value.isWhole then p.entries known set record seen rest
    else throw .malformed

/-- Reads a mapping with named fields. A value that is not written counts as a mapping without
fields. -/
def record {σ : Type} (p : Place) (expected : String) (known required : List String) (start : σ)
    (set : σ → String → Place → Except Problem σ) : Except Problem σ := do
  let found ← match p.target with
    | .mapping _ found => .ok found
    | .scalar _ s => if s.isMissing then .ok [] else .error (p.mismatch expected)
    | _ => .error (p.mismatch expected)
  let (record, seen) ← p.entries known set start [] found
  match required.find? (!seen.contains ·) with
  | some name => throw (p.misfit s!"missing field `{name}`")
  | none => return record

end Place

def read {α : Type} (text : String) (root : Place → Except Problem α) : Except Problem α := do
  let document := Document.ofText text
  let value ← root { document, node := document.root }
  if document.complete then return value else throw .malformed

end PerWorker.Yaml
