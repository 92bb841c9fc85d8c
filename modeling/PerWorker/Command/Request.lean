/-!
What the arguments of the command ask for. Arguments are read from the left; the first one that
asks for help or the version, or that cannot be understood, settles the matter.
-/
namespace PerWorker.Command

inductive Request where
  /-- Runs the pipeline, configured by a file if one is named. -/
  | run (path : Option String)
  | version
  | help
  | misuse
  deriving Repr, DecidableEq, Inhabited

namespace Request

/-- Whether an argument can be the value of the option before it. A lone hyphen can. -/
def isValue (arg : String) : Bool := arg = "-" || !arg.startsWith "-"

def attached (arg option : String) : String :=
  String.ofList (arg.toList.drop option.length)

/-- Reads the arguments after those that named `path`. A file is named at most once, and not by an
empty name. -/
def read (path : Option String) : List String → Request
  | [] => .run path
  | "--" :: rest => if rest.isEmpty then .run path else .misuse
  | "--cfg" :: value :: rest | "-c" :: value :: rest =>
    if path.isSome || value.isEmpty || !isValue value then .misuse else read (some value) rest
  | arg :: rest =>
    let name (value : String) : Request :=
      if path.isSome || value.isEmpty then .misuse else read (some value) rest
    if arg = "--version" || arg.startsWith "-V" then .version
    else if arg = "--help" || arg.startsWith "-h" then .help
    else if arg.startsWith "--cfg=" then name (attached arg "--cfg=")
    else if arg.startsWith "-c=" then name (attached arg "-c=")
    else if arg.startsWith "-c" then name (attached arg "-c")
    else .misuse

def ofArguments (args : List String) : Request := read none args

end Request
end PerWorker.Command
