import PerWorker.Proofs.Lifecycle.Records
import Mathlib.Algebra.GroupWithZero.Nat

/-!
What the log says in the name of a manager. Every transition is counted before it is logged, so that
a counter is ahead of the log by what is under way. Main statement: when no call is under way the
counters of a manager are the numbers of its events.
-/
namespace PerWorker

/-- The counters of a manager are what has been logged in its name. -/
structure Counters.Tallied (k : Counters) (logged : Transition → Nat) : Prop where
  setups : k.setups = logged .setup
  setupFailures : k.setupFailures = logged .setupFailed
  cloneFailures : k.cloneFailures = logged .cloneFailed
  teardowns : k.teardowns = logged .teardown + logged .teardownFailed
  teardownFailures : k.teardownFailures = logged .teardownFailed

section

variable {F V : Type}

def log (past : List (Entry F V)) : List LogEvent := (observed past).filterMap Event.log?

def logged (name : String) (past : List (Entry F V)) (x : Transition) : Nat :=
  ((log past).filterMap LogEvent.transition?).count (name,x)

end

def shown (name : String) (events : List LogEvent) : List Counter :=
  (events.filterMap LogEvent.transition?).flatMap fun x => if x.1 = name then x.2.counters else []

/-- What has been counted and not logged yet. -/
def GetPoint.unlogged {F : Type} : GetPoint F → List Counter
  | .logCloneFailure _ _ => [.cloneFailures]
  | .logSetupFailure _ _ _ => [.setupFailures]
  | .logSetup _ _ => [.setups]
  | _ => []

def ReleasePoint.unlogged : ReleasePoint → List Counter
  | .logTeardown _ | .countFailure _ _ => [.teardowns]
  | .logFailure _ _ => [.teardowns,.teardownFailures]
  | _ => []

def unlogging {F : Type} (m : Nat) : Reading F Counter where
  get := fun n _ point => if n = m then point.unlogged else []
  release := fun n _ point => if n = m then point.unlogged else []
  look := by simp [GetPoint.unlogged]
  unregister := by simp [ReleasePoint.unlogged]

def Counter.transitions : Counter → List Transition
  | .copies => []
  | .cloneFailures => [.cloneFailed]
  | .setups => [.setup]
  | .setupFailures => [.setupFailed]
  | .teardowns => [.teardown,.teardownFailed]
  | .teardownFailures => [.teardownFailed]

theorem count_shown (name : String) (events : List LogEvent) (k : Counter) :
    (shown name events).count k = (k.transitions.map fun x =>
      (events.filterMap LogEvent.transition?).count (name,x)).sum := by
  unfold shown
  generalize events.filterMap LogEvent.transition? = passages
  induction passages with
  | nil => cases k <;> rfl
  | cons passage rest ih =>
    obtain ⟨other,x⟩ := passage
    rw [List.flatMap_cons,List.count_append,ih]
    by_cases same : other = name
    · subst same
      cases k <;> cases x <;> simp [Counter.transitions,Transition.counters,List.count_cons] <;>
        omega
    · cases k <;> simp [Counter.transitions,same]

theorem shown_append (name : String) (events more : List LogEvent) :
    shown name (events ++ more) = shown name events ++ shown name more := by
  simp [shown]

def Record.counted (record : Record) (m : Nat) : List Counter :=
  record.counts.toList.flatMap fun x => if x.1 = m then [x.2] else []

theorem Record.get_count (record : Record) (m : Nat) (counters : Counters) (k : Counter) :
    (record.count m counters).get k = counters.get k + (record.counted m).count k := by
  unfold Record.count Record.counted
  cases record.counts with
  | none => simp
  | some x =>
    by_cases own : x.1 = m
    · by_cases same : k = x.2 <;> simp [own,same,Counters.get_bump,Ne.symm]
    · simp [own]

namespace System

variable {F V : Type} {sharding : Sharding} {names : List String} {threads : Nat}
  {past : List (Entry F V)} {initial s next : System F V} {t m n i c : Nat} {w : WorkerId}
  {a : Action F V} {frame : Frame F V} {below : List (Frame F V)} {events : List (Event V)}

theorem counted_apart (top : s.stack t = frame :: below) (away : m ∉ frame.managers)
    (named : ∀ n ∈ frame.managers, s.name n ≠ s.name m) :
    (Moment.record ⟨s,⟨t,a,events⟩⟩).counted m = [] ∧
      shown (s.name m) (Moment.record ⟨s,⟨t,a,events⟩⟩).logs.toList = [] := by
  obtain ⟨first,rest,-,here,same⟩ | ⟨outcome,same⟩ := record_cases s t a events <;> rw [same]
  · obtain ⟨rfl,rfl⟩ := List.cons.inj (top.symm.trans here)
    obtain ⟨counts,_,logs⟩ := record_within s frame
    simp only [Record.counted,shown,List.flatMap_eq_nil_iff]
    refine ⟨fun x member => if_neg ?_,fun x member => if_neg ?_⟩
    · rintro rfl
      exact away (counts x (Option.mem_toList.mp member))
    · obtain ⟨event,logged,told⟩ := List.mem_filterMap.mp member
      obtain ⟨n,about,same⟩ := logs event (Option.mem_toList.mp logged) x told
      exact same ▸ named n about
  · exact ⟨rfl,rfl⟩

/-- What a step counts it owes to the log, and what it logs it owed. -/
theorem step_owed {k : Counter} (moved : s.step t a = some (next,events)) (other : k ≠ .copies)
    (apart : ∀ frame ∈ s.stack t, ∀ n ∈ frame.managers, s.name n = s.name m → n = m) :
    ((Moment.record ⟨s,⟨t,a,events⟩⟩).counted m).count k + ((unlogging m).all s).count k =
      (shown (s.name m) (Moment.record ⟨s,⟨t,a,events⟩⟩).logs.toList).count k +
        ((unlogging m).all next).count k := by
  obtain ⟨rest,before,after,old,new,turn⟩ := step_read (unlogging m) moved
  rw [old,new,Multiset.count_add,Multiset.count_add,Multiset.coe_count,Multiset.coe_count]
  suffices turned : ((Moment.record ⟨s,⟨t,a,events⟩⟩).counted m).count k + before.count k =
      (shown (s.name m) (Moment.record ⟨s,⟨t,a,events⟩⟩).logs.toList).count k + after.count k by
    omega
  -- A frame of another manager counts and shows nothing of this one, whose name is its own.
  have foreign {n : Nat} {frame : Frame F V} {below : List (Frame F V)}
      (top : s.stack t = frame :: below) (only : frame.managers = [n]) (other : n ≠ m) :
      (Moment.record ⟨s,⟨t,a,events⟩⟩).counted m = [] ∧
        shown (s.name m) (Moment.record ⟨s,⟨t,a,events⟩⟩).logs.toList = [] := by
    refine counted_apart top (by simpa [only] using other.symm) fun v about same => other ?_
    obtain rfl := List.mem_singleton.mp (only ▸ about)
    exact apart frame (top ▸ List.mem_cons_self) v about same
  have blank (bare : (Moment.record ⟨s,⟨t,a,events⟩⟩).Bare) :
      (Moment.record ⟨s,⟨t,a,events⟩⟩).counted m = [] ∧
        shown (s.name m) (Moment.record ⟨s,⟨t,a,events⟩⟩).logs.toList = [] := by
    constructor
    · simp [Record.counted,bare.counts]
    · simp only [shown,List.filterMap_eq_nil_iff.mpr fun event member =>
        bare.logs event (Option.mem_toList.mp member),List.flatMap_nil]
  cases turn with
  | still bare => simp [blank bare]
  | got top ended bare => cases ended <;> simp [blank bare,unlogging,GetPoint.unlogged]
  | @get n v _ _ _ _ top turn =>
    by_cases own : n = m
    · subst own
      rw [record_of_top events top]
      cases turn with
      | countRefusal | logRefusal | countCopy | countFailure | logFailure | countSetup
      | logSetup =>
        simp [Record.counted,Frame.writes,Frame.record,GetPoint.record,unlogging,
          GetPoint.unlogged,shown,LogEvent.transition?,Transition.counters,other.symm]
      | _ => rfl
    · simp [foreign top rfl own,unlogging,own]
  | @release n v _ _ _ _ top turn =>
    by_cases own : n = m
    · subst own
      rw [record_of_top events top]
      cases turn with
      | succeed | fail | count =>
        simp [Record.counted,Frame.writes,Frame.record,ReleasePoint.record,unlogging,
          ReleasePoint.unlogged,shown,List.count_cons]
      | _ => rfl
    · simp [foreign top rfl own,unlogging,own]
  | @released n v _ _ _ _ top ended advances =>
    by_cases own : n = m
    · subst own
      rw [record_of_top events top,advances]
      cases ended <;>
        simp [Record.counted,Frame.writes,Frame.record,ReleasePoint.record,unlogging,
          ReleasePoint.unlogged,shown,LogEvent.transition?,Transition.counters]
    · simp [foreign top rfl own,unlogging,own]

/-- A counter is ahead of the log by what is under way. -/
theorem Interleaving.owed {k : Counter} (run : Interleaving (idle sharding names threads) past s)
    (manager : m < names.length) (other : k ≠ .copies)
    (alone : ∀ n (there : n < names.length), names[n] = names[m] → n = m)
    (known : ∀ call ∈ calls past, ∀ n ∈ call.managers, n < names.length) :
    (s.counters m).get k =
      (shown names[m] (log past)).count k + ((unlogging m).all s).count k := by
  induction run with
  | start =>
    have counters : (idle sharding names threads : System F V).counters m = {} := by
      simp [System.counters,idle,System.start,manager]
    rw [counters,all_idle]
    cases k <;> rfl
  | @step past s next t a events before moved ih =>
    rw [calls,List.filterMap_append] at known
    have earlier := (List.forall_mem_append.mp known).1
    have named := before.named manager
    have apart : ∀ frame ∈ s.stack t, ∀ n ∈ frame.managers, s.name n = s.name m → n = m := by
      intro frame member n about same
      have there := before.within (stack_idle sharding names threads) earlier t frame member n about
      exact alone n there (by rw [← before.named there,same,named])
    obtain ⟨enters,tells,_⟩ := step_recorded moved
    have owed := step_owed moved other apart
    have split : log (past ++ [⟨t,a,events⟩]) = log past ++ events.filterMap Event.log? := by
      simp [log,observed]
    rw [enters.counters m (manager.trans_eq before.managers.symm),Record.get_count,ih earlier,split,
      shown_append,List.count_append,tells.logs]
    rw [named] at owed
    omega

theorem Interleaving.tallied (run : Interleaving (idle sharding names threads) past s)
    (manager : m < names.length) (quiet : ∀ t, s.stack t = [])
    (alone : ∀ n (there : n < names.length), names[n] = names[m] → n = m)
    (known : ∀ call ∈ calls past, ∀ n ∈ call.managers, n < names.length) :
    (s.counters m).Tallied (logged names[m] past) := by
  have counted (k : Counter) (other : k ≠ .copies) :
      (s.counters m).get k = (k.transitions.map (logged names[m] past)).sum := by
    rw [run.owed manager other alone known,all_quiet _ quiet,count_shown]
    rfl
  exact ⟨counted .setups (by simp),counted .setupFailures (by simp),
    counted .cloneFailures (by simp),counted .teardowns (by simp),
    counted .teardownFailures (by simp)⟩

end System

end PerWorker
