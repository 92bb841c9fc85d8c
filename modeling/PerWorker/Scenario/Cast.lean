import PerWorker.Scenario.World

/-!
Who takes part in a scripted run: the managers with their templates and the deeds of their setups,
and the main thread with its steps.
-/
namespace PerWorker.Scenario

/-- How the copies of a scripted function are made. -/
inductive Copying where
  | cloned
  /-- Written and read back. -/
  | written
  /-- By a factory: each entry refuses or panics, or clones the prototype as every call past the
  end does. -/
  | planned (plan : List (Option (Draw Unit)))
  deriving Repr, Inhabited

structure Member where
  name : String
  template : Template Performer
  setups : List Deed := []

namespace Member

/-- The manager of a scripted function. It goes by the last of its names. -/
def scripted (names : List String) (copying : Copying) (prototype : Scripted) (setups : List Deed) :
    Member :=
  let template : Template Performer := match copying with
    | .cloned => .clone (.scripted prototype)
    | .written => .clone (.scripted prototype.written)
    | .planned plan =>
      .factory
        (plan.map fun
          | some (.refused e) => .refused e
          | some (.panicked message) => .panicked message
          | _ => .copy (.scripted prototype))
        (.copy (.scripted prototype))
  { name := (names.getLast?).getD "scripted", template, setups }

/-- The manager of an enricher, which is copied through its text. -/
def enricher (name : String) (prototype : Enricher) : Except CloneError Member :=
  (Template.ofCodec performerCodec (.enricher prototype)).map fun template => { name, template }
where
  performerCodec : Codec Performer :=
    { encode := fun
        | .enricher e => Enricher.codec.encode e
        | .scripted _ => .error "not an enricher"
      decode := fun reads text => (Enricher.codec.decode reads text).map .enricher }

end Member

namespace World

def mainThread : ThreadName := { number := 0, label := "main" }

def start (display : Display) (members : List Member) (steps : List Step) : World :=
  { machine := System.start (members.map (·.name))
    display
    templates := (members.map (·.template)).toArray
    plans := (members.map (·.setups)).toArray
    attempts := (members.map fun _ => 0).toArray
    threads := #[{ name := mainThread, stack := [{ tasks := steps.map .step }] }] }

/-- More steps than any scenario takes. -/
def stepLimit : Nat := 1000000000

def transcript (w : World) : Json :=
  let results := ((w.threads[0]?).bind (·.ended)).getD []
  .arr (results.map (StepResult.toJson w.display))

end World
end PerWorker.Scenario
