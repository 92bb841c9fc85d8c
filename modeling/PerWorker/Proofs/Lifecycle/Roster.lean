import PerWorker.Lifecycle.Step
import Mathlib.Algebra.BigOperators.Group.Finset.Piecewise

/-!
What becomes of a manager that one thread has to itself, told call by call. A roster knows which
workers are registered and with which copy, if any; what foreign code does during a call is given,
panics included. Nothing in it waits, is locked or is retired.
-/
namespace PerWorker

/-- How foreign code that runs on a copy ends. Only a body's value is used. -/
inductive Outcome (V : Type) where
  | returned (value : V)
  | failed (fault : Fault)
  | panicked (message : String)
  deriving Repr, DecidableEq, Inhabited

def Outcome.action {F V : Type} : Outcome V → Action F V
  | .returned value => .finish (.ok value)
  | .failed fault => .finish (.error fault)
  | .panicked message => .panic message

/-- What foreign code does to the copies it runs on during a call: the value it leaves in a copy,
and how it ends. A call sets up one copy at most and tears down each copy once at most. -/
structure Conduct (F V : Type) where
  setup : F → F × Outcome V
  body : F → F × Outcome V
  teardown : Nat → F → F × Outcome V

def Conduct.act {F V : Type} (conduct : Conduct F V) (c : Nat) : Hook → F → F × Outcome V
  | .setup => conduct.setup
  | .body => conduct.body
  | .teardown => conduct.teardown c

def Conduct.Calm {F V : Type} (conduct : Conduct F V) : Prop :=
  ∀ c hook f message, (conduct.act c hook f).2 ≠ .panicked message

inductive Ask where
  | get (worker : WorkerId)
  | peek (worker : WorkerId)
  | process (worker : WorkerId)
  | release (worker : WorkerId)
  | releaseAll
  | contains (worker : WorkerId)
  | workers
  | len
  | isEmpty
  | counters
  deriving Repr, DecidableEq, Inhabited

def Ask.call (m : Nat) : Ask → Call
  | .get w => .get m w
  | .peek w => .peek m w
  | .process w => .process m w
  | .release w => .release m w
  | .releaseAll => .releaseAll m
  | .contains w => .contains m w
  | .workers => .workers m
  | .len => .len m
  | .isEmpty => .isEmpty m
  | .counters => .counters m

structure Errand (F V : Type) where
  ask : Ask
  conduct : Conduct F V

/-- The order in which a walk over the shards meets the workers of a map. -/
def Sharding.walk (sharding : Sharding) (workers : List WorkerId) : List WorkerId :=
  (List.range sharding.count).flatMap fun shard =>
    workers.filter fun w => (sharding.shardOf w).val = shard

/-- The registered workers of a manager in the order of registration, each with its copy and the
value of that; the workers that copies have been numbered for, by whichever manager; the counters;
and the hooks and bodies that have run. -/
structure Roster (F : Type) where
  name : String
  entries : List (WorkerId × Option (Nat × F)) := []
  made : List WorkerId := []
  counters : Counters := {}
  hooks : List (Hook × Nat) := []
  deriving Repr, DecidableEq

namespace Roster

variable {F V : Type}

def find? (r : Roster F) (w : WorkerId) : Option (Option (Nat × F)) := r.entries.lookup w

def workers (r : Roster F) : List WorkerId := r.entries.map (·.1)

def count (r : Roster F) (counter : Counter) : Roster F :=
  { r with counters := r.counters.bump counter }

def ran (r : Roster F) (hook : Hook) (c : Nat) : Roster F :=
  { r with hooks := r.hooks ++ [(hook,c)] }

def numbered (r : Roster F) : Nat := r.made.length

def number (r : Roster F) (w : WorkerId) : Roster F := { r with made := r.made ++ [w] }

def drawn (r : Roster F) (w : WorkerId) : Roster F :=
  ((r.count .copies).number w).ran .setup r.numbered

def enroll (r : Roster F) (w : WorkerId) : Roster F :=
  if (r.find? w).isSome then r else { r with entries := r.entries ++ [(w,none)] }

def put (r : Roster F) (w : WorkerId) (copy : Nat × F) : Roster F :=
  { r with entries := r.entries.map fun entry => if entry.1 = w then (w,some copy) else entry }

def remove (r : Roster F) (w : WorkerId) : Roster F :=
  { r with entries := r.entries.filter (·.1 ≠ w) }

def create (r : Roster F) (w : WorkerId) (template : Template F) (conduct : Conduct F V) :
    Except (Reply V) (Nat × F) × Roster F × Template F :=
  match template.replicate with
  | (.refused e,next) =>
    (.error (.failed (.clone r.name w e)),(r.count .cloneFailures).remove w,next)
  | (.panicked message,next) => (.error (.panicked message),r,next)
  | (.copy f,next) =>
    match conduct.setup f with
    | (f,.returned _) =>
      (.ok (r.numbered,f),((r.drawn w).count .setups).put w (r.numbered,f),next)
    | (_,.failed fault) => (.error (.failed (.setup r.name w (r.numbered + 1) fault)),
        ((r.drawn w).count .setupFailures).remove w,next)
    | (_,.panicked message) => (.error (.panicked message),r.drawn w,next)

def obtain (r : Roster F) (w : WorkerId) (template : Template F) (conduct : Conduct F V) :
    Except (Reply V) (Nat × F) × Roster F × Template F :=
  match r.find? w with
  | some (some copy) => (.ok copy,r,template)
  | _ => (r.enroll w).create w template conduct

def release (r : Roster F) (w : WorkerId) (conduct : Conduct F V) : Reply V × Roster F :=
  match r.find? w with
  | some (some (c,f)) =>
    let torn := (r.remove w).ran .teardown c
    match (conduct.teardown c f).2 with
    | .returned _ => (.done,torn.count .teardowns)
    | .failed fault =>
      (.failed (.teardown r.name w (c + 1) fault),
        (torn.count .teardowns).count .teardownFailures)
    | .panicked message => (.panicked message,torn)
  | _ => (.done,r.remove w)

def work (r : Roster F) (w : WorkerId) (copy : Nat × F) (conduct : Conduct F V) :
    Reply V × Roster F :=
  let done := conduct.body copy.2
  let left := (r.ran .body copy.1).put w (copy.1,done.1)
  match done.2 with
  | .returned v => (.value v,left)
  | .panicked message => (.panicked message,left)
  | .failed fault =>
    match left.release w conduct with
    | (.panicked message,gone) => (.panicked message,gone)
    | (_,gone) => (.fault fault,gone)

/-- Releases these workers one after the other, until a teardown hook panics. -/
def sweep (conduct : Conduct F V) :
    List WorkerId → List LifecycleError → Roster F → Reply V × Roster F
  | [], errors, r => (.errors errors,r)
  | w :: rest, errors, r =>
    match r.release w conduct with
    | (.failed e,gone) => sweep conduct rest (errors ++ [e]) gone
    | (.panicked message,gone) => (.panicked message,gone)
    | (_,gone) => sweep conduct rest errors gone

def answer (r : Roster F) (sharding : Sharding) (template : Template F) (conduct : Conduct F V) :
    Ask → Reply V × Roster F × Template F
  | .get w =>
    match r.obtain w template conduct with
    | (.ok copy,next) => (.handle copy.1,next)
    | (.error reply,next) => (reply,next)
  | .peek w => (.peeked ((r.find? w).join.map (·.1)),r,template)
  | .process w =>
    match r.obtain w template conduct with
    | (.ok copy,next,template) =>
      let (reply,left) := next.work w copy conduct
      (reply,left,template)
    | (.error reply,next) => (reply,next)
  | .release w =>
    let (reply,left) := r.release w conduct
    (reply,left,template)
  | .releaseAll =>
    let (reply,left) := sweep conduct (sharding.walk r.workers) [] r
    (reply,left,template)
  | .contains w => (.flag (r.find? w).isSome,r,template)
  | .workers => (.workers (sharding.walk r.workers),r,template)
  | .len => (.count r.workers.length,r,template)
  | .isEmpty => (.flag r.workers.isEmpty,r,template)
  | .counters => (.counters r.counters,r,template)

def converse (sharding : Sharding) :
    List (Errand F V) → Roster F → Template F → List (Reply V) × Roster F × Template F
  | [], r, template => ([],r,template)
  | errand :: rest, r, template =>
    let (reply,left,template) := r.answer sharding template errand.conduct errand.ask
    let (replies,last) := converse sharding rest left template
    (reply :: replies,last)

theorem lookup_map_snd {α β : Type} (g : α → β) (entries : List (WorkerId × α)) (w : WorkerId) :
    (entries.map fun (v,a) => (v,g a)).lookup w = (entries.lookup w).map g := by
  induction entries with
  | nil => rfl
  | cons entry rest ih =>
    obtain ⟨v,a⟩ := entry
    rw [List.map_cons,List.lookup_cons,List.lookup_cons,ih]
    cases w == v <;> rfl

theorem lookup_of_not_mem {α : Type} {entries : List (WorkerId × α)} {w : WorkerId}
    (absent : w ∉ entries.map (·.1)) : entries.lookup w = none := by
  refine List.lookup_eq_none_iff.mpr fun entry member => bne_iff_ne.mpr ?_
  rintro rfl
  exact absent (List.mem_map_of_mem member)

variable (r : Roster F) (w v : WorkerId) (copy : Nat × F) (counter : Counter) (hook : Hook)
  (c : Nat)

@[simp] theorem find?_count : (r.count counter).find? v = r.find? v := rfl

@[simp] theorem find?_ran : (r.ran hook c).find? v = r.find? v := rfl

@[simp] theorem find?_number : (r.number w).find? v = r.find? v := rfl

@[simp] theorem find?_drawn : (r.drawn w).find? v = r.find? v := rfl

@[simp] theorem workers_count : (r.count counter).workers = r.workers := rfl

@[simp] theorem workers_ran : (r.ran hook c).workers = r.workers := rfl

@[simp] theorem workers_number : (r.number w).workers = r.workers := rfl

@[simp] theorem workers_drawn : (r.drawn w).workers = r.workers := rfl

@[simp] theorem hooks_count : (r.count counter).hooks = r.hooks := rfl

@[simp] theorem hooks_put : (r.put w copy).hooks = r.hooks := rfl

@[simp] theorem hooks_remove : (r.remove w).hooks = r.hooks := rfl

@[simp] theorem made_count : (r.count counter).made = r.made := rfl

@[simp] theorem made_ran : (r.ran hook c).made = r.made := rfl

@[simp] theorem made_put : (r.put w copy).made = r.made := rfl

@[simp] theorem made_remove : (r.remove w).made = r.made := rfl

@[simp] theorem numbered_ran : (r.ran hook c).numbered = r.numbered := rfl

@[simp] theorem hooks_ran : (r.ran hook c).hooks = r.hooks ++ [(hook,c)] := rfl

@[simp] theorem hooks_drawn : (r.drawn w).hooks = r.hooks ++ [(.setup,r.numbered)] := rfl

@[simp] theorem made_drawn : (r.drawn w).made = r.made ++ [w] := rfl

@[simp] theorem numbered_drawn : (r.drawn w).numbered = r.numbered + 1 := by simp [numbered]

@[simp] theorem name_enroll : (r.enroll w).name = r.name := by
  unfold enroll
  split <;> rfl

@[simp] theorem made_enroll : (r.enroll w).made = r.made := by
  unfold enroll
  split <;> rfl

@[simp] theorem counters_enroll : (r.enroll w).counters = r.counters := by
  unfold enroll
  split <;> rfl

@[simp] theorem hooks_enroll : (r.enroll w).hooks = r.hooks := by
  unfold enroll
  split <;> rfl

@[simp] theorem numbered_enroll : (r.enroll w).numbered = r.numbered :=
  congrArg List.length (made_enroll r w)

theorem find?_isSome : (r.find? v).isSome ↔ v ∈ r.workers := by
  rw [← not_iff_not,Bool.not_eq_true,Option.isSome_eq_false_iff,Option.isNone_iff_eq_none]
  simp only [find?,workers,List.lookup_eq_none_iff,List.mem_map]
  constructor
  · rintro none ⟨entry,member,rfl⟩
    simpa using none entry member
  · intro absent entry member
    simpa using fun same => absent ⟨entry,member,same.symm⟩

theorem find?_enroll :
    (r.enroll w).find? v = if v = w then some ((r.find? w).join) else r.find? v := by
  unfold enroll
  split
  next known =>
    obtain ⟨held,found⟩ := Option.isSome_iff_exists.mp known
    split
    next same => simp [same,found]
    next => rfl
  next unknown =>
    have missing : r.entries.lookup w = none := Option.not_isSome_iff_eq_none.mp unknown
    simp only [find?,List.lookup_append]
    split
    next same => simp [same,missing]
    next other =>
      have apart : (v == w) = false := by simpa using other
      simp [List.lookup_cons,apart]

theorem find?_put : (r.put w copy).find? v =
    if v = w then (r.find? w).map fun _ => some copy else r.find? v := by
  obtain ⟨name,entries,made,counters,hooks⟩ := r
  simp only [find?,put]
  induction entries with
  | nil => simp
  | cons entry rest ih =>
    obtain ⟨u,held⟩ := entry
    by_cases own : u = w
    · subst own
      by_cases same : v = u
      · simp [same]
      · have apart : (v == u) = false := by simpa using same
        simpa [List.lookup_cons,apart,same] using ih
    · have away : (w == u) = false := by simpa using Ne.symm own
      by_cases same : v = u
      · subst same
        simp [own]
      · have apart : (v == u) = false := by simpa using same
        simpa [List.lookup_cons,own,away,apart] using ih

/-- Who is removed is not found any more, and all others are found as before. -/
theorem find?_remove : (r.remove w).find? v = if v = w then none else r.find? v := by
  obtain ⟨name,entries,made,counters,hooks⟩ := r
  simp only [find?,remove]
  induction entries with
  | nil => simp
  | cons entry rest ih =>
    obtain ⟨u,held⟩ := entry
    by_cases own : u = w
    · subst own
      rw [List.filter_cons_of_neg (by simp),ih,List.lookup_cons]
      split
      next => rfl
      next other =>
        have apart : (v == u) = false := by simpa using other
        simp [apart]
    · rw [List.filter_cons_of_pos (by simpa using own),List.lookup_cons,List.lookup_cons,ih]
      by_cases same : v = u
      · subst same
        simp [own]
      · have apart : (v == u) = false := by simpa using same
        simp [apart]

theorem not_mem_of_unknown (unknown : r.find? w = none) : ∀ entry ∈ r.entries, entry.1 ≠ w :=
  fun entry member => Ne.symm (bne_iff_ne.mp (List.lookup_eq_none_iff.mp unknown entry member))

theorem remove_of_unknown (unknown : r.find? w = none) : r.remove w = r := by
  have kept : r.entries.filter (·.1 ≠ w) = r.entries :=
    List.filter_eq_self.mpr (by simpa using not_mem_of_unknown r w unknown)
  unfold remove
  rw [kept]

theorem remove_enroll (unknown : r.find? w = none) : (r.enroll w).remove w = r := by
  have same : (r.enroll w).remove w = r.remove w := by simp [remove,enroll,unknown]
  exact same.trans (remove_of_unknown r w unknown)

theorem put_enroll (unknown : r.find? w = none) :
    (r.enroll w).put w copy = { r with entries := r.entries ++ [(w,some copy)] } := by
  have kept : r.entries.map (fun entry => if entry.1 = w then (w,some copy) else entry) =
      r.entries := by
    refine (List.map_congr_left fun entry member => ?_).trans (List.map_id r.entries)
    exact if_neg (not_mem_of_unknown r w unknown entry member)
  simp [put,enroll,unknown,kept]

theorem workers_enroll : (r.enroll w).workers =
    if (r.find? w).isSome then r.workers else r.workers ++ [w] := by
  unfold enroll
  split <;> simp [workers]

@[simp] theorem workers_put : (r.put w copy).workers = r.workers := by
  simp only [workers,put,List.map_map]
  refine List.map_congr_left fun entry _ => ?_
  by_cases own : entry.1 = w <;> simp [own]

theorem workers_remove : (r.remove w).workers = r.workers.filter (· ≠ w) := by
  simp only [workers,remove,List.filter_map]
  rfl

section

variable (r : Roster F) (w : WorkerId) (template : Template F) (conduct : Conduct F V)

inductive Created : Except (Reply V) (Nat × F) × Roster F × Template F → Prop
  | refused {e : CloneError} {next : Template F} (drew : template.replicate = (.refused e,next)) :
      Created (.error (.failed (.clone r.name w e)),(r.count .cloneFailures).remove w,next)
  | panicked {message : String} {next : Template F}
      (drew : template.replicate = (.panicked message,next)) :
      Created (.error (.panicked message),r,next)
  | setUp {f value : F} {v : V} {next : Template F} (drew : template.replicate = (.copy f,next))
      (ended : conduct.setup f = (value,.returned v)) :
      Created (.ok (r.numbered,value),((r.drawn w).count .setups).put w (r.numbered,value),next)
  | failed {f value : F} {fault : Fault} {next : Template F}
      (drew : template.replicate = (.copy f,next))
      (ended : conduct.setup f = (value,.failed fault)) :
      Created (.error (.failed (.setup r.name w (r.numbered + 1) fault)),
        ((r.drawn w).count .setupFailures).remove w,next)
  | broke {f value : F} {message : String} {next : Template F}
      (drew : template.replicate = (.copy f,next))
      (ended : conduct.setup f = (value,.panicked message)) :
      Created (.error (.panicked message),r.drawn w,next)

/-- The ways in which the making of a copy can end. -/
theorem created : Created r w template conduct (r.create w template conduct) := by
  unfold create
  split
  next drew => exact .refused drew
  next drew => exact .panicked drew
  next drew =>
    split
    next ended => exact .setUp drew ended
    next ended => exact .failed drew ended
    next ended => exact .broke drew ended

inductive Released : Reply V × Roster F → Prop
  | empty (none : (r.find? w).join = none) : Released (.done,r.remove w)
  | returned {c : Nat} {f : F} {v : V} (found : r.find? w = some (some (c,f)))
      (ended : (conduct.teardown c f).2 = .returned v) :
      Released (.done,((r.remove w).ran .teardown c).count .teardowns)
  | failed {c : Nat} {f : F} {fault : Fault} (found : r.find? w = some (some (c,f)))
      (ended : (conduct.teardown c f).2 = .failed fault) :
      Released (.failed (.teardown r.name w (c + 1) fault),
        (((r.remove w).ran .teardown c).count .teardowns).count .teardownFailures)
  | panicked {c : Nat} {f : F} {message : String} (found : r.find? w = some (some (c,f)))
      (ended : (conduct.teardown c f).2 = .panicked message) :
      Released (.panicked message,(r.remove w).ran .teardown c)

/-- The ways in which a release can end. -/
theorem released : Released r w conduct (r.release w conduct) := by
  unfold release
  split
  next c f found =>
    dsimp only
    split
    next ended => exact .returned found ended
    next ended => exact .failed found ended
    next ended => exact .panicked found ended
  next bare =>
    refine .empty ?_
    cases held : r.find? w with
    | none => rfl
    | some copy =>
      cases copy with
      | none => rfl
      | some copy => exact absurd held (bare copy.1 copy.2)

variable {r w template conduct} in
theorem obtain_of_bare (bare : (r.find? w).join = none) :
    r.obtain w template conduct = (r.enroll w).create w template conduct := by
  unfold obtain
  split
  next found => simp [found] at bare
  next => rfl

inductive Obtained : Except (Reply V) (Nat × F) × Roster F × Template F → Prop
  | held {copy : Nat × F} (found : r.find? w = some (some copy)) :
      Obtained (.ok copy,r,template)
  | made {result : Except (Reply V) (Nat × F) × Roster F × Template F}
      (bare : (r.find? w).join = none) (created : Created (r.enroll w) w template conduct result) :
      Obtained result

/-- The ways in which a lookup can end. -/
theorem obtained : Obtained r w template conduct (r.obtain w template conduct) := by
  cases bare : (r.find? w).join with
  | some copy =>
    have found : r.find? w = some (some copy) := Option.join_eq_some_iff.mp bare
    simpa only [obtain,found] using Obtained.held found
  | none =>
    rw [obtain_of_bare bare]
    exact .made bare (created _ w template conduct)

inductive Worked (copy : Nat × F) : Reply V × Roster F → Prop
  | returned {f : F} {v : V} (ended : conduct.body copy.2 = (f,.returned v)) :
      Worked copy (.value v,(r.ran .body copy.1).put w (copy.1,f))
  | panicked {f : F} {message : String} (ended : conduct.body copy.2 = (f,.panicked message)) :
      Worked copy (.panicked message,(r.ran .body copy.1).put w (copy.1,f))
  | failed {f : F} {fault : Fault} {reply : Reply V} {gone : Roster F}
      (ended : conduct.body copy.2 = (f,.failed fault))
      (released : ((r.ran .body copy.1).put w (copy.1,f)).release w conduct = (reply,gone))
      (quiet : ∀ message, reply ≠ .panicked message) : Worked copy (.fault fault,gone)
  | broke {f : F} {fault : Fault} {message : String} {gone : Roster F}
      (ended : conduct.body copy.2 = (f,.failed fault))
      (released : ((r.ran .body copy.1).put w (copy.1,f)).release w conduct =
        (.panicked message,gone)) : Worked copy (.panicked message,gone)

/-- The ways in which a body on a copy can end. -/
theorem worked (copy : Nat × F) : Worked r w conduct copy (r.work w copy conduct) := by
  unfold work
  generalize ended : conduct.body copy.2 = result
  obtain ⟨f,outcome⟩ := result
  cases outcome with
  | returned v => exact .returned ended
  | panicked message => exact .panicked ended
  | failed fault =>
    dsimp only
    generalize released : ((r.ran .body copy.1).put w (copy.1,f)).release w conduct = result
    obtain ⟨reply,gone⟩ := result
    cases reply with
    | panicked message => exact .broke ended released
    | _ => exact .failed ended released nofun

variable {r w template conduct} {after : Roster F} {next : Template F} {copy : Nat × F}
  {reply : Reply V} {v : WorkerId}

theorem find?_enrolled (bare : (r.find? w).join = none) : (r.enroll w).find? w = some none := by
  rw [find?_enroll,if_pos rfl,bare]

/-- A lookup that succeeds leaves its worker registered with the copy that it comes to. -/
theorem find?_obtain (obtains : r.obtain w template conduct = (.ok copy,after,next)) :
    after.find? w = some (some copy) := by
  have obtained := obtained r w template conduct
  rw [obtains] at obtained
  cases obtained with
  | held found => exact found
  | made bare created =>
    cases created with
    | setUp => simp [find?_put,find?_enrolled bare]

theorem find?_obtain_other (other : v ≠ w) :
    (r.obtain w template conduct).2.1.find? v = r.find? v := by
  have obtained := obtained r w template conduct
  generalize r.obtain w template conduct = result at obtained
  cases obtained with
  | held => rfl
  | made bare created => cases created <;> simp [find?_remove,find?_put,find?_enroll,other]

theorem answer_get (sharding : Sharding) : (r.answer sharding template conduct (.get w)).2 =
    (r.obtain w template conduct).2 := by
  simp only [answer]
  generalize r.obtain w template conduct = result
  obtain ⟨got,left⟩ := result
  cases got <;> rfl

theorem find?_release :
    (r.release w conduct).2.find? v = if v = w then none else r.find? v := by
  have released := released r w conduct
  generalize r.release w conduct = result at released
  cases released <;> simp [find?_remove]

theorem made_release : (r.release w conduct).2.made = r.made := by
  have released := released r w conduct
  generalize r.release w conduct = result at released
  cases released <;> rfl

theorem release_of_bare (bare : (r.find? w).join = none) :
    r.release w conduct = (.done,r.remove w) := by
  have released := released r w conduct
  generalize r.release w conduct = result at released ⊢
  cases released with
  | empty => rfl
  | returned found | failed found | panicked found => simp [found] at bare

theorem find?_work_other (other : v ≠ w) : (r.work w copy conduct).2.find? v = r.find? v := by
  have worked := worked r w conduct copy
  generalize r.work w copy conduct = result at worked
  cases worked with
  | returned | panicked => simp [find?_put,other]
  | @failed f _ _ _ _ released | @broke f _ _ _ _ released =>
    have left : (((r.ran .body copy.1).put w (copy.1,f)).release w conduct).2.find? v = _ :=
      find?_release
    rw [released] at left
    simpa [other,find?_put] using left

theorem obtain_error (obtains : r.obtain w template conduct = (.error reply,after,next)) :
    (∃ e, reply = .failed e) ∨ ∃ message, reply = .panicked message := by
  have obtained := obtained r w template conduct
  rw [obtains] at obtained
  cases obtained with
  | made bare created =>
    cases created with
    | refused | failed => exact .inl ⟨_,rfl⟩
    | panicked | broke => exact .inr ⟨_,rfl⟩

end

end Roster

/-- A walk over the shards meets each worker in the one shard that it belongs to. -/
theorem Sharding.walk_perm (sharding : Sharding) (workers : List WorkerId) :
    (sharding.walk workers).Perm workers := by
  refine List.perm_iff_count.mpr fun w => ?_
  have share (shard : Nat) :
      (workers.filter fun v => (sharding.shardOf v).val = shard).count w =
        if (sharding.shardOf w).val = shard then workers.count w else 0 := by
    split
    next own => exact List.count_filter (by simpa using own)
    next other => exact List.count_eq_zero.mpr (by simp [other])
  have total : (∑ shard ∈ Finset.range sharding.count,
      if (sharding.shardOf w).val = shard then workers.count w else 0) = workers.count w := by
    rw [Finset.sum_ite_eq,if_pos (Finset.mem_range.mpr (sharding.shardOf w).isLt)]
  rw [walk,List.count_flatMap,← total]
  exact congrArg List.sum (List.map_congr_left fun shard _ => share shard)

theorem Sharding.walk_filter (sharding : Sharding) (workers : List WorkerId)
    (keep : WorkerId → Bool) : sharding.walk (workers.filter keep) =
      (sharding.walk workers).filter keep := by
  simp [walk,List.filter_flatMap,List.filter_filter,Bool.and_comm]

end PerWorker
