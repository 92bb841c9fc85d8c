/-!
Failures as values. A fault is a message with the messages of its causes below it, outermost
first; the failures that the library itself knows have types of their own and turn into faults.
-/
namespace PerWorker

/-- A failure and the chain of failures that led to it. -/
structure Fault where
  message : String
  causes : List String := []
  deriving Repr, DecidableEq, Inhabited

namespace Fault

/-- The fault whose messages, outermost first, are those of the list. -/
def ofChain : List String → Fault
  | [] => { message := "" }
  | message :: causes => { message, causes }

def messages (fault : Fault) : List String := fault.message :: fault.causes

def context (fault : Fault) (attempted : String) : Fault :=
  { message := attempted, causes := fault.messages }

end Fault
end PerWorker
