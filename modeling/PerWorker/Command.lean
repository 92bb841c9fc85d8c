import PerWorker.Command.Request
import PerWorker.Config.Load
import PerWorker.Log.Filter
import PerWorker.Session.Schedule

/-!
The command: it reads its arguments, loads the configuration, sets the filter for log events up,
and runs the pipeline. A failure is told with its causes and gives an exit code.
-/
namespace PerWorker.Command

def candidates : List String := ["cfg/fnlife.cfg.local.yaml", "cfg/fnlife.cfg.yaml"]

def builtIn : String := "<defaults>"

def versionText : String := "fnlife 0.1.0"

def usage : String :=
  "Runs a demo pipeline over per-worker function copies\n\n"
    ++ "Usage: fnlife [OPTIONS]\n\n"
    ++ "Options:\n"
    ++ "  -c, --cfg <FILE>  Custom config file path\n"
    ++ "  -h, --help        Print help\n"
    ++ "  -V, --version     Print version\n"

/-- The lines that tell of a failure. Several causes are numbered. -/
def complaint (fault : Fault) : List String :=
  let error := "Error: " ++ fault.message
  match fault.causes with
  | [] => [error]
  | [cause] => [error, "", "Caused by:", "    " ++ cause]
  | causes =>
    [error, "", "Caused by:"] ++ causes.mapIdx fun i cause => "    " ++ toString i ++ ": " ++ cause

def loadConfig (look : String → Found) (path : Option String) :
    Except Config.LoadError (Config × String) :=
  match path with
  | some path => do
    let config ← (Config.load look path).mapError (.custom path)
    return (config, path)
  | none => do
    let found ← Config.loadFirst look candidates
    return found.getD (.defaults, builtIn)

/-- The filter for log events and warnings about it. What the environment says counts if it is
right; otherwise the level of the configuration does. -/
def filter (c : Config) (environment : Option String) : LogFilter × List String :=
  match environment.bind LogFilter.parse? with
  | some filter => (filter, [])
  | none => LogFilter.parseLossy (c.level?.getD "info")

def copyFailure (e : CloneError) : Fault := e.fault.context "worker function cannot be copied"

structure Surroundings where
  look : String → Found
  /-- The filter that the environment asks for. -/
  environment : Option String
  cores : Nat
  /-- An interrupt arrives once a message holds this text. -/
  interruptAfter : Option String := none

/-- What the command leaves: its exit code, what it says on standard output besides log events, what
it complains of, and the log events that passed the filter. -/
structure Report where
  code : Nat
  output : String := ""
  complaints : List String := []
  logs : List LogEvent := []
  deriving Inhabited

def runConfig (w : Surroundings) (c : Config) (source : String) : Report :=
  let (filter, warnings) := filter c w.environment
  let loaded := LogEvent.configLoaded source
  match Session.start c w.cores with
  | .error e =>
    { code := 1, complaints := warnings ++ complaint (copyFailure e)
      logs := [loaded].filter filter.passes }
  | .ok session =>
    match session.complete filter.passes w.interruptAfter [loaded] with
    | none => { code := 1, complaints := warnings }
    | some (exit, logs) =>
      match exit.fault? with
      | none => { code := 0, complaints := warnings, logs }
      | some fault => { code := 1, complaints := warnings ++ complaint fault, logs }

def run (w : Surroundings) (args : List String) : Report :=
  match Request.ofArguments args with
  | .help => { code := 0, output := usage }
  | .version => { code := 0, output := versionText ++ "\n" }
  | .misuse => { code := 2 }
  | .run path =>
    match loadConfig w.look path with
    | .error e => { code := 1, complaints := complaint e.fault }
    | .ok (c, source) => runConfig w c source

end PerWorker.Command
