import PerWorker.Command

/-!
The program. It finds out what surrounds it, runs the command, and shows log events as they come.
-/
namespace PerWorker.Command

def fileError : IO.Error → FileError
  | .inappropriateType .. => .notADirectory
  | _ => .notFound

def lookUp (path : String) : IO Found := do
  try
    let found ← IO.FS.realPath path
    let text ←
      if ← found.isDir then pure (.error FileError.isADirectory)
      else FileTree.text <$> .file <$> IO.FS.readBinFile found
    return { absolute := .ok found.toString, text }
  catch e => return { absolute := .error (fileError e), text := .error (fileError e) }

def surroundings (path : Option String) : IO Surroundings := do
  let found ← (path.elim candidates ([·])).mapM fun path => return (path, ← lookUp path)
  let nothing : Found := { absolute := .error .notFound, text := .error .notFound }
  let processors ←
    try
      let lines ← IO.FS.lines "/proc/cpuinfo"
      pure (lines.toList.filter (·.startsWith "processor")).length
    catch _ => pure 1
  return {
    look := fun path => (found.lookup path).getD nothing
    environment := ← IO.getEnv "RUST_LOG"
    cores := max processors 1 }

/-- The line that shows a log event: a record where programs read it, a text where people do. -/
def line (forPrograms : Bool) (event : LogEvent) : String :=
  let details : Json := match event.toJson with
    | .obj (_ :: members) => .obj members
    | other => other
  if forPrograms then
    (Json.obj [("level", .str event.level.text), ("fields", details),
      ("target", .str event.target)]).render
  else event.level.text ++ " " ++ event.target ++ ": " ++ event.message ++ " " ++ details.render

def emit (filter : LogFilter) (forPrograms : Bool) (events : List LogEvent) : IO Unit := do
  for event in events do
    if filter.passes event then IO.println (line forPrograms event)

partial def drive (filter : LogFilter) (forPrograms : Bool) (s : Session) : IO (Option Exit) := do
  match s.exit?, s.next? with
  | some exit, _ => return some exit
  | none, some (.pass n) =>
    IO.sleep (n / 1000000).toUInt32
    match s.step (.pass n) with
    | some (s, _) => drive filter forPrograms s
    | none => return none
  | none, some move =>
    match s.step move with
    | some (s, events) =>
      emit filter forPrograms events
      drive filter forPrograms s
    | none => return none
  | none, none => return none

def fail (lines : List String) : IO UInt32 := do
  for text in lines do IO.eprintln text
  return 1

def perform (path : Option String) : IO UInt32 := do
  let w ← surroundings path
  match loadConfig w.look path with
  | .error e => fail (complaint e.fault)
  | .ok (c, source) =>
    let (filter, warnings) := Command.filter c w.environment
    for text in warnings do IO.eprintln text
    emit filter c.isProd [.configLoaded source]
    match Session.start c w.cores with
    | .error e => fail (complaint (copyFailure e))
    | .ok session =>
      match (← drive filter c.isProd session).bind Exit.fault? with
      | some fault => fail (complaint fault)
      | none => return 0

end PerWorker.Command

open PerWorker.Command in
def main (args : List String) : IO UInt32 := do
  match Request.ofArguments args with
  | .help =>
    IO.print usage
    return 0
  | .version =>
    IO.println versionText
    return 0
  | .misuse =>
    IO.eprint usage
    return 2
  | .run path => perform path
