import PerWorker.Duration
import PerWorker.Json

/-!
The configuration of the program, and the settings that follow from it: what is left out has a
default.
-/
namespace PerWorker

namespace Config

structure Logs where
  level : Option String := none
  deriving Repr, DecidableEq, Inhabited

structure Runtime where
  /-- The number of worker tasks; zero stands for one per core. -/
  workers : UInt64
  deriving Repr, DecidableEq, Inhabited

structure Pipeline where
  name : Option String := none
  elements : Option UInt64 := none
  bundleSize : Option UInt64 := none
  /-- Gives a worker's copy back after every bundle and not only at the end. -/
  releaseAfterBundle : Bool := false
  /-- Rejects every n-th element; zero rejects none. -/
  failEvery : UInt64 := 0
  /-- Put in front of each element. -/
  tag : Option String := none
  deriving Repr, DecidableEq, Inhabited

structure Shutdown where
  gracefulTimeout : Option Duration := none
  deriving Repr, DecidableEq, Inhabited

end Config

structure Config where
  env : String
  logs : Option Config.Logs := none
  runtime : Option Config.Runtime := none
  pipeline : Option Config.Pipeline := none
  shutdown : Option Config.Shutdown := none
  deriving Repr, DecidableEq, Inhabited

namespace Config

def isProd (c : Config) : Bool := c.env = "prod"

def isTest (c : Config) : Bool := c.env = "test"

def level? (c : Config) : Option String := c.logs.bind (·.level)

/-- The number of worker tasks, if it does not depend on the machine. -/
def fixedWorkers? (c : Config) : Option Nat :=
  match c.runtime with
  | some { workers } => if workers = 0 then none else some workers.toNat
  | none => none

def workers (c : Config) (cores : Nat) : Nat := c.fixedWorkers?.getD cores

def pipelineName (c : Config) : String := (c.pipeline.bind (·.name)).getD "pipeline"

def elements (c : Config) : UInt64 := (c.pipeline.bind (·.elements)).getD 100000

/-- The number of elements in a bundle. Zero counts as left out. -/
def bundleSize (c : Config) : UInt64 :=
  ((c.pipeline.bind (·.bundleSize)).filter (0 < ·)).getD 1000

def releaseAfterBundle (c : Config) : Bool := c.pipeline.any (·.releaseAfterBundle)

def failEvery (c : Config) : UInt64 := (c.pipeline.map (·.failEvery)).getD 0

def tag (c : Config) : String := (c.pipeline.bind (·.tag)).getD ""

def gracefulTimeout (c : Config) : Duration :=
  (c.shutdown.bind (·.gracefulTimeout)).getD (.ofSeconds 30)

def defaults : Config :=
  { env := "dev", logs := some { level := some "info" }, runtime := some { workers := 0 } }

def trial : Config where
  env := "test"
  logs := some { level := some "debug" }
  runtime := some { workers := 4 }
  pipeline := some
    { name := some "test-pipeline", elements := some 10000, bundleSize := some 100,
      tag := some "el-" }
  shutdown := some { gracefulTimeout := some (.ofSeconds 5) }

theorem bundleSize_pos (c : Config) : 0 < c.bundleSize := by
  unfold bundleSize
  cases c.pipeline.bind (·.bundleSize) with
  | none => decide
  | some n => by_cases h : 0 < n <;> simp [Option.filter, h]

end Config
end PerWorker
