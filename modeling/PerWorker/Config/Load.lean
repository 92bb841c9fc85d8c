import PerWorker.Config.Parse
import PerWorker.Fault
import PerWorker.FileTree
import PerWorker.Text.Quoted

/-!
Configurations loaded from files. A file that is asked for has to be there and be right; of several
candidates the first one that exists counts, and a fault in it is not passed over.
-/
namespace PerWorker.Config

inductive LoadError where
  | unresolved (path : String) (cause : FileError)
  | unreadable (path : String) (cause : FileError)
  | unparsed (path : String) (cause : ParseError)
  /-- The first candidate that exists is at fault. -/
  | candidate (path : String) (cause : LoadError)
  /-- The file that was asked for is at fault. -/
  | custom (path : String) (cause : LoadError)
  deriving Repr, DecidableEq, Inhabited

namespace LoadError

def fault : LoadError → Fault
  | .unresolved path cause =>
    { message := "failed to resolve absolute config filepath: " ++ Text.quoted path
      causes := [cause.message] }
  | .unreadable path cause =>
    { message := "read config yaml file " ++ Text.quoted path, causes := [cause.message] }
  | .unparsed path cause =>
    { message := "unmarshal yaml from " ++ Text.quoted path, causes := [cause.message] }
  | .candidate path cause => cause.fault.context ("failed to load config from " ++ Text.quoted path)
  | .custom path cause =>
    cause.fault.context ("failed to load custom config from " ++ Text.quoted path)

/-- The fault in the text of the file, if that is what is wrong. -/
def parseError? : LoadError → Option ParseError
  | .unparsed _ cause => some cause
  | .candidate _ cause | .custom _ cause => cause.parseError?
  | .unresolved .. | .unreadable .. => none

end LoadError

def load (look : String → Found) (path : String) : Except LoadError Config := do
  let found := look path
  let absolute ← found.absolute.mapError (.unresolved path)
  let text ← found.text.mapError (.unreadable absolute)
  (parse text).mapError (.unparsed absolute)

def loadFirst (look : String → Found) :
    List String → Except LoadError (Option (Config × String))
  | [] => .ok none
  | path :: rest =>
    match (look path).absolute with
    | .error _ => loadFirst look rest
    | .ok _ => do
      let config ← (load look path).mapError (.candidate path)
      return some (config, path)

end PerWorker.Config
