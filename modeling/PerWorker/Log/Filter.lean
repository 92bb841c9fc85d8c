import PerWorker.Log
import PerWorker.Text.Blank

/-!
Filters for log events. A filter is a list of directives, separated by commas: a level for all
events, a target that lets everything through which belongs to it, or a target with a level. Of the
directives that apply to an event the most specific one decides, and an event to which none applies
does not pass.
-/
namespace PerWorker

/-- The part of the program that an event belongs to. Parts are nested, outermost first. -/
def LogEvent.target : LogEvent → String
  | .setup .. | .cloneFailed .. | .setupFailed .. | .teardown .. | .teardownFailed ..
  | .releaseAllFailed .. | .processFailed .. | .teardownAfterFailure .. =>
    "fnlife::lifecycle::manager"
  | .stats .. => "fnlife::lifecycle::telemetry"
  | .drainFailed .. | .drained .. => "fnlife::lifecycle::drain"
  | .sessionClosed .. => "fnlife::runner::enricher"
  | .runStarted .. | .bundleFailed .. | .runFinished .. | .runAbandoned .. =>
    "fnlife::runner::runner"
  | .shutdownStarted .. | .shutdownSucceeded | .shutdownTimedOut .. => "fnlife::shutdown"
  | .shutdownFailed .. | .abandonedTeardownFailed .. | .configLoaded .. | .runComplete .. =>
    "fnlife"

def LogEvent.fieldNames (event : LogEvent) : List String :=
  ["message", "component"] ++ event.kindFields.map (·.1) ++ event.detailFields.map (·.1)

/-- The least severe level that passes, or none if nothing does. -/
abbrev Threshold := Option LogLevel

namespace Threshold

def parse? (text : String) : Option Threshold :=
  let digits := if text.startsWith "+" then text.toList.drop 1 else text.toList
  if !digits.isEmpty && digits.all Char.isDigit then
    match digits.foldl (fun n c => n * 10 + (c.toNat - '0'.toNat)) 0 with
    | 0 => some none
    | 1 => some (some .error)
    | 2 => some (some .warn)
    | 3 => some (some .info)
    | 4 => some (some .debug)
    | 5 => some (some .trace)
    | _ => none
  else
    match String.ofList (text.toList.map Char.toLower) with
    | "off" => some none
    | "error" => some (some .error)
    | "warn" => some (some .warn)
    | "info" => some (some .info)
    | "debug" => some (some .debug)
    | "trace" => some (some .trace)
    | _ => none

def allows (threshold : Threshold) (level : LogLevel) : Bool :=
  threshold.any (·.rank ≤ level.rank)

end Threshold

inductive Directive where
  /-- Applies to the events of a target, or to all, and if a field is named, to those that have
  it. -/
  | static (target field : Option String) (threshold : Threshold)
  /-- Applies inside of spans; no event is in one. -/
  | scoped
  deriving Repr, DecidableEq, Inhabited

inductive DirectiveError where
  | malformed
  | level
  deriving Repr, DecidableEq, Inhabited

def DirectiveError.message : DirectiveError → String
  | .malformed => "invalid filter directive"
  | .level =>
    "error parsing level filter: expected one of \"off\", \"error\", \"warn\", \"info\", "
      ++ "\"debug\", \"trace\", or a number 0-5"

namespace Directive

private def threshold (text : List Char) : Except DirectiveError Threshold :=
  if text.isEmpty then .ok (some .trace)
  else (Threshold.parse? (String.ofList text)).elim (.error .level) .ok

private def isInner (c : Char) : Bool := c ≠ '[' && c ≠ '='

private def startsName (c : Char) : Bool :=
  c.isAlphanum || c = '-' || c = ':' || c = '_' || 127 < c.toNat && !Text.isBlank c

/-- What stands between brackets: the name of a span, and a field in braces. -/
private def bracketed (target : Option String) (rest : List Char) :
    Except DirectiveError Directive := do
  let name := rest.takeWhile fun c => c ≠ ']' && c ≠ '\x7b'
  let (field, rest) ← match rest.drop name.length with
    | ']' :: rest => pure (none, rest)
    | '\x7b' :: rest =>
      let field := rest.takeWhile (· ≠ '\x7d')
      match rest.drop field.length with
      | '\x7d' :: ']' :: rest => if field.isEmpty then throw .malformed else pure (some field, rest)
      | _ => throw .malformed
    | _ => throw .malformed
  let threshold ← match rest with
    | [] => pure (some .trace)
    | '=' :: level => threshold level
    | _ => throw .malformed
  match field with
  | some field =>
    if name.isEmpty && !field.contains '=' then
      return .static target (some (String.ofList field)) threshold
    else return .scoped
  | none => return .scoped

/-- Reads a directive. Blanks around it do not count where its parts are told apart, but remain in
them. -/
def parse (text : String) : Except DirectiveError Directive := do
  let chars := text.toList
  let inner := ((chars.dropWhile Text.isBlank).reverse.dropWhile Text.isBlank).reverse
  let name := inner.takeWhile isInner
  match inner with
  | [] => throw .malformed
  | '[' :: rest => bracketed none rest
  | c :: _ =>
    if !startsName c then throw .malformed
    else
      match inner.drop name.length with
      | [] =>
        match Threshold.parse? text with
        | some threshold => return .static none none threshold
        | none => return .static (some text) none (some .trace)
      | mark :: rest =>
        let target := some (String.ofList (chars.take name.length))
        if mark = '[' then bracketed target rest
        else return .static target none (← threshold (chars.drop (name.length + 1)))

def applies (d : Directive) (event : LogEvent) : Bool :=
  match d with
  | .static target field _ =>
    (target.all fun t => event.target.startsWith t) && field.all (event.fieldNames.contains ·)
  | .scoped => false

/-- Whether the first directive gives way to the second where both apply. -/
def yields : Directive → Directive → Bool
  | .static target field _, .static target' field' _ =>
    let size (t : Option String) := (t.map (·.utf8ByteSize + 1)).getD 0
    if size target ≠ size target' then size target < size target'
    else
      match field, field' with
      | some f, some f' => f ≤ f'
      | some _, none => false
      | none, _ => true
  | .scoped, _ => true
  | .static .., .scoped => false

end Directive

abbrev LogFilter := List Directive

namespace LogFilter

def ofDirectives (directives : List Directive) : LogFilter :=
  if directives.isEmpty then [.static none none (some .error)] else directives

private def parts (text : String) : List String := (text.splitOn ",").filter (· ≠ "")

def parse? (text : String) : Option LogFilter :=
  ((parts text).mapM fun part => (Directive.parse part).toOption).map ofDirectives

/-- Reads a filter and passes over directives that are wrong; each of them gives a warning. -/
def parseLossy (text : String) : LogFilter × List String :=
  let read := (parts text).map fun part => (part, Directive.parse part)
  (ofDirectives (read.filterMap (·.2.toOption)),
    read.filterMap fun
      | (part, .error e) => some ("ignoring `" ++ part ++ "`: " ++ e.message)
      | (_, .ok _) => none)

/-- The directive that decides about an event. Later directives replace equal ones. -/
def deciding? (filter : LogFilter) (event : LogEvent) : Option Directive :=
  (filter.filter (·.applies event)).foldl
    (fun best d =>
      match best with
      | some b => if b.yields d then some d else best
      | none => some d)
    none

def passes (filter : LogFilter) (event : LogEvent) : Bool :=
  match filter.deciding? event with
  | some (.static _ _ threshold) => threshold.allows event.level
  | _ => false

end LogFilter
end PerWorker
