import PerWorker.Config

/-!
Configurations as JSON values. An object holds the fields by name, an array in their order.
-/
namespace PerWorker.Config

private def option {α : Type} (f : α → Json) (value : Option α) : Json := (value.map f).getD .null

private def number (n : UInt64) : Json := .nat n.toNat

def toJson (c : Config) : Json :=
  .obj [("runner", .obj
    [("env", .str c.env),
      ("logs", option (fun (logs : Logs) => .obj [("level", option .str logs.level)]) c.logs),
      ("runtime", option (fun (r : Runtime) => .obj [("workers", number r.workers)]) c.runtime),
      ("pipeline", option (fun (p : Pipeline) => .obj
        [("name", option .str p.name), ("elements", option number p.elements),
          ("bundle_size", option number p.bundleSize),
          ("release_after_bundle", .bool p.releaseAfterBundle),
          ("fail_every", number p.failEvery), ("prefix", option .str p.tag)]) c.pipeline),
      ("shutdown", option (fun (s : Shutdown) => .obj
        [("graceful_timeout", option (fun d => .str d.text) s.gracefulTimeout)]) c.shutdown)])]

/-- The fields of a value: the members of an object, each name once, or the items of an array as far
as there are names. -/
private def fields? (names : List String) : Json → Option (List (String × Json))
  | .obj members => if (members.map (·.1)).Nodup then some members else none
  | .arr items => if items.length ≤ names.length then some (names.zip items) else none
  | _ => none

private def text? : Json → Option String
  | .str s => some s
  | _ => none

private def word? : Json → Option UInt64
  | .int (.ofNat n) => if n < UInt64.size then some (UInt64.ofNat n) else none
  | _ => none

private def bool? : Json → Option Bool
  | .bool b => some b
  | _ => none

private def optional? {α : Type} (read? : Json → Option α) : Json → Option (Option α)
  | .null => some none
  | value => (read? value).map some

/-- A field that may be missing from an object, but not from an array. -/
private def loose? {α : Type} (value : Json) (found : List (String × Json)) (name : String)
    (read? : Json → Option α) : Option (Option α) :=
  match found.lookup name, value with
  | some field, _ => optional? read? field
  | none, .obj _ => some none
  | none, _ => none

private def preset? {α : Type} (found : List (String × Json)) (name : String) (preset : α)
    (read? : Json → Option α) : Option α :=
  match found.lookup name with
  | some field => read? field
  | none => some preset

private def logs? (value : Json) : Option Logs := do
  let found ← fields? ["level"] value
  return { level := ← loose? value found "level" text? }

private def runtime? (value : Json) : Option Runtime := do
  let found ← fields? ["workers"] value
  return { workers := ← (found.lookup "workers").bind word? }

private def pipeline? (value : Json) : Option Pipeline := do
  let names := ["name", "elements", "bundle_size", "release_after_bundle", "fail_every", "prefix"]
  let found ← fields? names value
  return {
    name := ← loose? value found "name" text?
    elements := ← loose? value found "elements" word?
    bundleSize := ← loose? value found "bundle_size" word?
    releaseAfterBundle := ← preset? found "release_after_bundle" false bool?
    failEvery := ← preset? found "fail_every" 0 word?
    tag := ← loose? value found "prefix" text? }

private def duration? (value : Json) : Option Duration := (text? value).bind Duration.parse?

private def shutdown? (value : Json) : Option Shutdown := do
  let found ← fields? ["graceful_timeout"] value
  return { gracefulTimeout := ← preset? found "graceful_timeout" none (optional? duration?) }

private def settings? (value : Json) : Option Config := do
  let found ← fields? ["env", "logs", "runtime", "pipeline", "shutdown"] value
  return {
    env := ← (found.lookup "env").bind text?
    logs := ← loose? value found "logs" logs?
    runtime := ← loose? value found "runtime" runtime?
    pipeline := ← loose? value found "pipeline" pipeline?
    shutdown := ← loose? value found "shutdown" shutdown? }

def ofJson? (value : Json) : Option Config := do
  let found ← fields? ["runner"] value
  (found.lookup "runner").bind settings?

end PerWorker.Config
