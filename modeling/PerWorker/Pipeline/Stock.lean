import PerWorker.Enricher
import PerWorker.Lifecycle.Step

/-!
A manager of enrichers at work. Whenever a call runs foreign code, that code is known: the template
draws a copy, setup and teardown open and close the copy's session, and a body does what it is given
as. So each thread with a call under way has one next step.
-/
namespace PerWorker.Pipeline

/-- What a body does to an enricher, with the number of bytes it puts out. -/
abbrev Body := Enricher → Except Enricher.Refusal Nat × Enricher

/-- Managers of enrichers, the one at work, and the template that all copies are drawn from. -/
structure Stock where
  system : System Enricher Nat
  manager : Nat := 0
  template : Template Enricher

namespace Stock

def mainThread : Nat := 0

def runThread : Nat := 1

def firstPoolThread : Nat := 2

/-- A manager with nothing registered, and the two threads that are always there. -/
def start (name : String) (prototype : Enricher) : Except CloneError Stock :=
  prototype.template.map fun template => { system := (System.start [name]).addThread, template }

def name (s : Stock) : String := s.system.name s.manager

/-- Puts a new manager of the same name to work. -/
def renew (s : Stock) : Stock :=
  { s with
    system := { s.system with managers := s.system.managers.push { name := s.name } }
    manager := s.system.managers.size }

def act (s : Stock) (t : Nat) (action : Action Enricher Nat) :
    Option (Stock × List (Event Nat)) :=
  match s.system.step t action with
  | some (system, events) => some ({ s with system }, events)
  | none => none

def call (s : Stock) (t : Nat) (call : Call) : Option (Stock × List (Event Nat)) :=
  s.act t (.call call)

/-- Ends the hook or body that a thread runs and leaves the copy with that value. -/
def conclude (s : Stock) (t : Nat) (value : Enricher) (result : Except Enricher.Refusal Nat) :
    Option (Stock × List (Event Nat)) :=
  match s.system.step t (.assign value) with
  | some (system, _) => Stock.act { s with system } t (.finish (result.mapError (·.fault)))
  | none => none

/-- Runs a hook or a body on an enricher. A closed session is logged. -/
def perform (s : Stock) (t : Nat) (hook : Hook) (e : Enricher) (body : Body) :
    Option (Stock × List (Event Nat)) :=
  match hook with
  | .setup =>
    match e.setup with
    | .ok opened => s.conclude t opened (.ok 0)
    | .error refusal => s.conclude t e (.error refusal)
  | .teardown =>
    match e.teardown with
    | .ok (processed, closed) =>
      match s.conclude t closed (.ok 0) with
      | some (s, events) => some (s, .logged (.sessionClosed processed) :: events)
      | none => none
    | .error refusal => s.conclude t e (.error refusal)
  | .body =>
    let (result, e) := body e
    s.conclude t e result

def draw (s : Stock) (t : Nat) : Option (Stock × List (Event Nat)) :=
  let (drawn, template) := s.template.replicate
  Stock.act { s with template } t (.drawn drawn)

def step (s : Stock) (t : Nat) (body : Body) : Option (Stock × List (Event Nat)) :=
  match s.system.stack t with
  | [] => none
  | frame :: _ =>
    match frame.hook? with
    | some (hook, c) =>
      match (s.system.copies[c]?).map (·.value) with
      | some e => s.perform t hook e body
      | none => none
    | none => if frame.isDrawing then s.draw t else s.act t .advance

def reply? (events : List (Event Nat)) : Option (Reply Nat) :=
  events.findSome? fun
    | .returned reply => some reply
    | _ => none

def logs (events : List (Event Nat)) : List LogEvent :=
  events.filterMap fun
    | .logged e => some e
    | _ => none

/-- More steps than a call takes that nobody gets in the way of, for each copy that it tears
down. -/
def callLimit : Nat := 100

/-- Takes the steps of the call that a thread has under way, up to its answer. Nothing if the call
cannot go on by itself. -/
def finishCall (s : Stock) (t : Nat) (body : Body) (logged : List LogEvent) :
    Nat → Option (Stock × List LogEvent × Reply Nat)
  | 0 => none
  | steps + 1 =>
    match s.step t body with
    | none => none
    | some (s, events) =>
      match reply? events with
      | some reply => some (s, logged ++ logs events, reply)
      | none => s.finishCall t body (logged ++ logs events) steps

/-- Makes a call on an idle thread and waits for the answer. -/
def ask (s : Stock) (t : Nat) (call : Call) (body : Body) :
    Option (Stock × List LogEvent × Reply Nat) :=
  let limit := callLimit * (s.system.copies.size + 2)
  match s.call t call with
  | some (s, events) => s.finishCall t body (logs events) limit
  | none => none

end Stock
end PerWorker.Pipeline
