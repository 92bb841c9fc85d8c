import PerWorker.Config
import PerWorker.Yaml.Place

/-!
Configurations read from YAML texts.
-/
namespace PerWorker.Config

inductive ParseError where
  | yaml (problem : Yaml.Problem)
  | zeroBundleSize
  deriving Repr, DecidableEq, Inhabited

def ParseError.message : ParseError → String
  | .yaml problem => problem.message
  | .zeroBundleSize => "pipeline.bundle_size must be positive"

open Yaml (Place Problem)

private def readLogs (p : Place) : Except Problem Logs :=
  p.record "struct Logs" ["level"] [] {} fun logs _ p => do
    return { logs with level := ← p.optional Place.text }

private def readRuntime (p : Place) : Except Problem Runtime :=
  p.record "struct Runtime" ["workers"] ["workers"] { workers := 0 } fun _ _ p => do
    return { workers := ← p.word "usize" }

private def readPipeline (p : Place) : Except Problem Pipeline :=
  let known := ["name", "elements", "bundle_size", "release_after_bundle", "fail_every", "prefix"]
  p.record "struct Pipeline" known [] {} fun pipeline name p => do
    match name with
    | "name" => return { pipeline with name := ← p.optional Place.text }
    | "elements" => return { pipeline with elements := ← p.optional (Place.word · "u64") }
    | "bundle_size" => return { pipeline with bundleSize := ← p.optional (Place.word · "u64") }
    | "release_after_bundle" => return { pipeline with releaseAfterBundle := ← p.bool }
    | "fail_every" => return { pipeline with failEvery := ← p.word "u64" }
    | _ => return { pipeline with tag := ← p.optional Place.text }

private def readShutdown (p : Place) : Except Problem Shutdown :=
  p.record "struct Shutdown" ["graceful_timeout"] [] {} fun _ _ p => do
    return { gracefulTimeout := ← p.optional Place.duration }

private def readSettings (p : Place) : Except Problem Config :=
  let known := ["env", "logs", "runtime", "pipeline", "shutdown"]
  p.record "struct RunnerBox" known ["env"] { env := "" } fun config name p => do
    match name with
    | "env" => return { config with env := ← p.text }
    | "logs" => return { config with logs := ← p.optional readLogs }
    | "runtime" => return { config with runtime := ← p.optional readRuntime }
    | "pipeline" => return { config with pipeline := ← p.optional readPipeline }
    | _ => return { config with shutdown := ← p.optional readShutdown }

private def readRoot (p : Place) : Except Problem Config :=
  p.record "struct Runner" ["runner"] ["runner"] { env := "" } fun _ _ p => readSettings p

def parse (text : String) : Except ParseError Config := do
  let config ← (Yaml.read text readRoot).mapError .yaml
  if config.pipeline.any (·.bundleSize = some 0) then throw .zeroBundleSize
  return config

end PerWorker.Config
