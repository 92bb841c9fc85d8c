import PerWorker.Lifecycle.System
import PerWorker.Template

/-!
The atomic steps of managers. A thread whose innermost call stands at an internal point advances by
one access to shared state: a look at a map, taking or giving back a lock, a store, a count, a log
event. A thread that runs foreign code (a template, a hook, a body) or no call at all acts on its
own: it makes a call, changes the copy it runs on, or lets the code end. A step says what could be
observed of it, and an interleaving is any sequence of steps.
-/
namespace PerWorker

inductive Action (F V : Type) where
  /-- The innermost call takes its next internal step. -/
  | advance
  /-- Foreign code, or the idle thread, makes a call. -/
  | call (call : Call)
  /-- The template that runs yields a copy or refuses. -/
  | drawn (draw : Draw F)
  /-- The hook or body that runs changes its copy. -/
  | assign (value : F)
  /-- The hook or body that runs returns; only a body's value is used. -/
  | finish (result : Except Fault V)
  /-- The hook or body that runs panics. -/
  | panic (message : String)

namespace Frame

variable {F V : Type}

def hook? : Frame F V → Option (Hook × Nat)
  | .get _ _ (.settingUp _ c) => some (.setup, c)
  | .release _ _ (.tearingDown c) => some (.teardown, c)
  | .use (.running c) | .processBody _ _ (.running c) => some (.body, c)
  | _ => none

def isDrawing : Frame F V → Bool
  | .get _ _ (.replicating _) => true
  | _ => false

/-- Whether foreign code runs, so that the call goes on only when that code says so. -/
def isForeign (frame : Frame F V) : Bool := frame.isDrawing || frame.hook?.isSome

end Frame

namespace System

variable {F V : Type}

/-- The frames on which the drain of one manager goes on with the workers that are left. -/
def nextRelease (m : Nat) (pending : List WorkerId) (errors : List LifecycleError)
    (below : List (Frame F V)) : Option (List (Frame F V)) :=
  match pending with
  | w :: rest => some (.release m w .unregister :: .releaseAll m rest errors :: below)
  | [] => if errors.isEmpty then none else some (.releaseAllLog m errors :: below)

/-- The frames on which the drain of several managers goes on. -/
def nextDrain (pending : List Nat) (drained : Nat) (errors : List LifecycleError)
    (below : List (Frame F V)) : List (Frame F V) :=
  match pending with
  | m :: rest => .survey m .releaseAll 0 [] :: .drain m rest drained errors :: below
  | [] => .drainLogDone drained errors :: below

/-- Gives an answer to the call below. A call that waits for it goes on or answers in turn; a panic
passes through every call; foreign code and the idle thread receive the answer. -/
def resume (reply : Reply V) : List (Frame F V) → List (Frame F V) × List (Event V)
  | .processGet m w :: below =>
    match reply with
    | .handle c => (.processBody m w (.claim c) :: below, [])
    | other => resume other below
  | .processRelease m w fault :: below =>
    match reply with
    | .failed e => (.processLogTeardown m w fault e :: below, [])
    | .panicked message => resume (.panicked message) below
    | _ => resume (.fault fault) below
  | .releaseAll m pending errors :: below =>
    match reply with
    | .panicked message => resume (.panicked message) below
    | .failed e =>
      (nextRelease m pending (errors ++ [e]) below).elim
        (resume (.errors (errors ++ [e])) below) (·, [])
    | _ => (nextRelease m pending errors below).elim (resume (.errors errors) below) (·, [])
  | .drain m pending drained errors :: below =>
    match reply with
    | .errors [] => (nextDrain pending (drained + 1) errors below, [])
    | .errors failed => (.drainLogFailure m pending drained errors failed :: below, [])
    | other => resume other below
  | frames => (frames, [.returned reply])

def answer (s : System F V) (t : Nat) (reply : Reply V) (below : List (Frame F V))
    (events : List (Event V) := []) : System F V × List (Event V) :=
  let (frames, more) := resume reply below
  (s.setStack t frames, events ++ more)

/-- Moves the innermost call of a thread to another point. -/
def goto (s : System F V) (t : Nat) (frames : List (Frame F V)) (events : List (Event V) := []) :
    System F V × List (Event V) :=
  (s.setStack t frames, events)

def firstFrames (call : Call) (below : List (Frame F V)) : List (Frame F V) :=
  match call with
  | .get m w => .get m w .look :: below
  | .peek m w => .peek m w .look :: below
  | .release m w => .release m w .unregister :: below
  | .releaseAll m => .survey m .releaseAll 0 [] :: below
  | .drain ms => nextDrain ms 0 [] below
  | .process m w => .get m w .look :: .processGet m w :: below
  | .use c => .use (.claim c) :: below
  | .contains m w => .contains m w :: below
  | .workers m => .survey m .workers 0 [] :: below
  | .len m => .survey m .len 0 [] :: below
  | .isEmpty m => .survey m .isEmpty 0 [] :: below
  | .counters m => .load m Counter.all {} none :: below
  | .logStats m => .survey m .stats 0 [] :: below

def advanceGet (s : System F V) (t m : Nat) (w : WorkerId) (point : GetPoint F)
    (below : List (Frame F V)) : Option (System F V × List (Event V)) :=
  let at_ (point : GetPoint F) : List (Frame F V) := .get m w point :: below
  match point with
  | .look =>
    match s.slot? m w with
    | some i => some (s.goto t (at_ (.enter i)))
    | none => some (s.goto t (at_ .register))
  | .register =>
    match s.slot? m w with
    | some i => some (s.goto t (at_ (.enter i)))
    | none =>
      let i := s.slots.size
      let s := { s with slots := s.slots.push { manager := m, worker := w } }
      some ((s.mapManager m (·.insert w i)).goto t (at_ (.enter i)))
  | .enter i =>
    match s.enterSlot? i t with
    | none => none
    | some (s, .live c) => some (s.goto t (at_ (.leave i (.found c))))
    | some (s, .retired) => some (s.goto t (at_ (.leave i .again)))
    | some (s, .vacant) => some (s.goto t (at_ (.replicating i)) [.drawing m])
  | .replicating _ => none
  | .countCloneFailure i e =>
    some ((s.bump m .cloneFailures).goto t (at_ (.logCloneFailure i e)))
  | .logCloneFailure i e =>
    some (s.goto t (at_ (.retire i (.clone (s.name m) w e)))
      [.logged (.cloneFailed (s.name m) w e.message)])
  | .countCopy i f => some ((s.bump m .copies).goto t (at_ (.number i f)))
  | .number i f =>
    let c := s.copies.size
    let s := { s with copies := s.copies.push { manager := m, worker := w, value := f } }
    some (s.goto t (at_ (.settingUp i c)) [.hookStarted .setup c])
  | .settingUp _ _ => none
  | .countSetupFailure i c fault =>
    some ((s.bump m .setupFailures).goto t (at_ (.logSetupFailure i c fault)))
  | .logSetupFailure i c fault =>
    some (s.goto t (at_ (.retire i (.setup (s.name m) w (c + 1) fault)))
      [.logged (.setupFailed (s.name m) w (c + 1) fault.message)])
  | .countSetup i c => some ((s.bump m .setups).goto t (at_ (.logSetup i c)))
  | .logSetup i c =>
    some (s.goto t (at_ (.publish i c)) [.logged (.setup (s.name m) w (c + 1))])
  | .publish i c =>
    some ((s.mapSlot i ({ · with state := .live c })).goto t (at_ (.leave i (.found c))))
  | .retire i e =>
    some ((s.mapSlot i ({ · with state := .retired })).goto t (at_ (.leave i (.failed e))))
  | .leave i departure =>
    let s := s.leaveSlot i
    match departure with
    | .found c => some (s.answer t (.handle c) below)
    | .failed e => some (s.goto t (at_ (.prune i (some e))))
    | .again => some (s.goto t (at_ (.prune i none)))
    | .unwinding message => some (s.answer t (.panicked message) below)
  | .prune i e =>
    let s := s.mapManager m (·.eraseSlot w i)
    match e with
    | some e => some (s.answer t (.failed e) below)
    | none => some (s.goto t (at_ .look))

def advancePeek (s : System F V) (t m : Nat) (w : WorkerId) (point : PeekPoint)
    (below : List (Frame F V)) : Option (System F V × List (Event V)) :=
  match point with
  | .look =>
    match s.slot? m w with
    | some i => some (s.goto t (.peek m w (.enter i) :: below))
    | none => some (s.answer t (.peeked none) below)
  | .enter i =>
    match s.enterSlot? i t with
    | none => none
    | some (s, .live c) => some (s.goto t (.peek m w (.leave i (some c)) :: below))
    | some (s, _) => some (s.goto t (.peek m w (.leave i none) :: below))
  | .leave i found => some ((s.leaveSlot i).answer t (.peeked found) below)

def advanceRelease (s : System F V) (t m : Nat) (w : WorkerId) (point : ReleasePoint)
    (below : List (Frame F V)) : Option (System F V × List (Event V)) :=
  let at_ (point : ReleasePoint) : List (Frame F V) := .release m w point :: below
  match point with
  | .unregister =>
    match s.slot? m w with
    | some i => some ((s.mapManager m (·.erase w)).goto t (at_ (.enter i)))
    | none => some (s.answer t .done below)
  | .enter i =>
    match s.enterSlot? i t with
    | none => none
    | some (s, _) => some (s.goto t (at_ (.retire i)))
  | .retire i =>
    let found := match (s.slots[i]?).map (·.state) with
      | some (.live c) => some c
      | _ => none
    some ((s.mapSlot i ({ · with state := .retired })).goto t (at_ (.leave i found)))
  | .leave i found =>
    let s := s.leaveSlot i
    match found with
    | some c => some (s.goto t (at_ (.kill c)))
    | none => some (s.answer t .done below)
  | .kill c => some ((s.mapCopy c ({ · with live := false })).goto t (at_ (.claim c)))
  | .claim c =>
    match s.claimCopy? c t with
    | none => none
    | some s => some (s.goto t (at_ (.tearingDown c)) [.hookStarted .teardown c])
  | .tearingDown _ => none
  | .unwind c message => some ((s.yieldCopy c).answer t (.panicked message) below)
  | .yield c fault => some ((s.yieldCopy c).goto t (at_ (.countTeardown c fault)))
  | .countTeardown c fault =>
    let s := s.bump m .teardowns
    match fault with
    | none => some (s.goto t (at_ (.logTeardown c)))
    | some fault => some (s.goto t (at_ (.countFailure c fault)))
  | .logTeardown c =>
    some (s.answer t .done below [.logged (.teardown (s.name m) (s.copyWorker c) (c + 1))])
  | .countFailure c fault =>
    some ((s.bump m .teardownFailures).goto t (at_ (.logFailure c fault)))
  | .logFailure c fault =>
    let worker := s.copyWorker c
    some (s.answer t (.failed (.teardown (s.name m) worker (c + 1) fault)) below
      [.logged (.teardownFailed (s.name m) worker (c + 1) fault.message)])

def advanceSurvey (s : System F V) (t m : Nat) (purpose : SurveyPurpose) (shard : Nat)
    (seen : List WorkerId) (below : List (Frame F V)) : System F V × List (Event V) :=
  let seen := seen ++ s.shardWorkers m shard
  if shard + 1 < s.sharding.count then s.goto t (.survey m purpose (shard + 1) seen :: below)
  else
    match purpose with
    | .releaseAll =>
      match nextRelease m seen [] below with
      | some frames => s.goto t frames
      | none => s.answer t (.errors []) below
    | .workers => s.answer t (.workers seen) below
    | .len => s.answer t (.count seen.length) below
    | .isEmpty => s.answer t (.flag seen.isEmpty) below
    | .stats => s.goto t (.load m Counter.all {} (some seen.length) :: below)

/-- The innermost call of a thread takes its next internal step, if it has one and no lock is in
the way. -/
def advance (s : System F V) (t : Nat) : Option (System F V × List (Event V)) :=
  match s.stack t with
  | [] => none
  | frame :: below =>
    match frame with
    | .get m w point => s.advanceGet t m w point below
    | .peek m w point => s.advancePeek t m w point below
    | .release m w point => s.advanceRelease t m w point below
    | .use point =>
      match point with
      | .claim c =>
        (s.claimCopy? c t).map fun s =>
          s.goto t (.use (.running c) :: below) [.hookStarted .body c]
      | .running _ => none
      | .unwind c message => some ((s.yieldCopy c).answer t (.panicked message) below)
      | .yield c (.ok v) => some ((s.yieldCopy c).answer t (.value v) below)
      | .yield c (.error fault) => some ((s.yieldCopy c).answer t (.fault fault) below)
    | .processBody m w point =>
      match point with
      | .claim c =>
        (s.claimCopy? c t).map fun s =>
          s.goto t (.processBody m w (.running c) :: below) [.hookStarted .body c]
      | .running _ => none
      | .unwind c message => some ((s.yieldCopy c).answer t (.panicked message) below)
      | .yield c (.ok v) => some ((s.yieldCopy c).answer t (.value v) below)
      | .yield c (.error fault) =>
        some ((s.yieldCopy c).goto t (.processLogFailure m w c fault :: below))
    | .processLogFailure m w c fault =>
      some (s.goto t (.release m w .unregister :: .processRelease m w fault :: below)
        [.logged (.processFailed (s.name m) w (c + 1) fault.message)])
    | .processLogTeardown m w fault e =>
      some (s.answer t (.fault fault) below [.logged (.teardownAfterFailure (s.name m) w e)])
    | .survey m purpose shard seen => some (s.advanceSurvey t m purpose shard seen below)
    | .releaseAllLog m errors =>
      some (s.answer t (.errors errors) below
        [.logged (.releaseAllFailed (s.name m) errors.length)])
    | .drainLogFailure m pending drained errors failed =>
      some (s.goto t (nextDrain pending (drained + 1) (errors ++ failed) below)
        [.logged (.drainFailed (s.name m) failed.length)])
    | .drainLogDone drained errors =>
      some (s.answer t (.errors errors) below [.logged (.drained drained errors.length)])
    | .contains m w => some (s.answer t (.flag (s.slot? m w).isSome) below)
    | .load m left read registered =>
      match left with
      | counter :: rest =>
        let value := ((s.managers[m]?).map (·.counters.get counter)).getD 0
        some (s.goto t (.load m rest (read.set counter value) registered :: below))
      | [] =>
        match registered with
        | some n => some (s.goto t (.logStats m n read :: below))
        | none => some (s.answer t (.counters read) below)
    | .logStats m registered counters =>
      some (s.answer t .done below [.logged (.stats (s.name m) registered counters)])
    | .processGet .. | .processRelease .. | .releaseAll .. | .drain .. => none

/-- The template that runs yields a copy, refuses, or panics. -/
def draw (s : System F V) (t : Nat) (draw : Draw F) : Option (System F V × List (Event V)) :=
  match s.stack t with
  | .get m w (.replicating i) :: below =>
    match draw with
    | .copy f => some (s.goto t (.get m w (.countCopy i f) :: below))
    | .refused e => some (s.goto t (.get m w (.countCloneFailure i e) :: below))
    | .panicked message => some (s.goto t (.get m w (.leave i (.unwinding message)) :: below))
  | _ => none

def finish (s : System F V) (t : Nat) (result : Except Fault V) :
    Option (System F V × List (Event V)) :=
  let ending : Ending := match result with
    | .ok _ => .returned
    | .error _ => .failed
  let fault : Option Fault := match result with
    | .ok _ => none
    | .error fault => some fault
  match s.stack t with
  | .get m w (.settingUp i c) :: below =>
    let next := match fault with
      | none => GetPoint.countSetup i c
      | some fault => .countSetupFailure i c fault
    some (s.goto t (.get m w next :: below) [.hookEnded .setup c ending])
  | .release m w (.tearingDown c) :: below =>
    some (s.goto t (.release m w (.yield c fault) :: below) [.hookEnded .teardown c ending])
  | .use (.running c) :: below =>
    some (s.goto t (.use (.yield c result) :: below) [.hookEnded .body c ending])
  | .processBody m w (.running c) :: below =>
    some (s.goto t (.processBody m w (.yield c result) :: below) [.hookEnded .body c ending])
  | _ => none

/-- The hook or body that runs panics; the locks taken for it are given back on the way out. -/
def unwind (s : System F V) (t : Nat) (message : String) :
    Option (System F V × List (Event V)) :=
  match s.stack t with
  | .get m w (.settingUp i c) :: below =>
    some (s.goto t (.get m w (.leave i (.unwinding message)) :: below)
      [.hookEnded .setup c .panicked])
  | .release m w (.tearingDown c) :: below =>
    some (s.goto t (.release m w (.unwind c message) :: below) [.hookEnded .teardown c .panicked])
  | .use (.running c) :: below =>
    some (s.goto t (.use (.unwind c message) :: below) [.hookEnded .body c .panicked])
  | .processBody m w (.running c) :: below =>
    some (s.goto t (.processBody m w (.unwind c message) :: below)
      [.hookEnded .body c .panicked])
  | _ => none

/-- Whether a thread may act on its own: it is idle, or foreign code runs in its innermost call. -/
def isOpen (s : System F V) (t : Nat) : Bool :=
  t < s.threads.size && ((s.stack t).head?.map (·.isForeign)).getD true

/-- One atomic step of a thread. Nothing happens where the action does not apply, or where a lock
is held by another call. -/
def step (s : System F V) (t : Nat) : Action F V → Option (System F V × List (Event V))
  | .advance => s.advance t
  | .call call =>
    if s.isOpen t then some (s.goto t (firstFrames call (s.stack t)) [.called call]) else none
  | .drawn draw => s.draw t draw
  | .assign value =>
    match (s.stack t).head?.bind Frame.hook? with
    | some (_, c) => some (s.mapCopy c ({ · with value }), [])
    | none => none
  | .finish result => s.finish t result
  | .panic message => s.unwind t message

end System
end PerWorker
