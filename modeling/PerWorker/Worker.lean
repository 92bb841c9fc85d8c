/-!
Identities of workers. A worker is known by a name, or it is a thread; a name never denotes a
thread.
-/
namespace PerWorker

/-- A thread that calls into the library. Threads are told apart by number; `label` is what is
shown for one. -/
structure ThreadName where
  number : Nat
  label : String
  deriving Repr, DecidableEq, Inhabited

inductive WorkerId where
  | named (name : String)
  | thread (name : ThreadName)
  deriving Repr, DecidableEq, Inhabited

namespace WorkerId

def text : WorkerId → String
  | .named n => "worker " ++ n
  | .thread t => "thread " ++ t.label

end WorkerId
end PerWorker
