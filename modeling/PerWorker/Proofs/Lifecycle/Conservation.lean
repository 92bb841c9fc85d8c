import PerWorker.Proofs.Lifecycle.Books
import PerWorker.Proofs.Lifecycle.Bodies
import PerWorker.Proofs.Lifecycle.Completion

/-!
What the counters of a manager say. Main statement: when no call is under way, every copy that was
counted is accounted for by a setup that was counted or a setup hook that panicked, and every setup
by a teardown, a copy that is registered, or a teardown hook that panicked.
-/
namespace PerWorker

theorem Slot.rests_iff {m : Nat} (slot : Slot) :
    slot.rests m = true ↔ slot.manager = m ∧ ∃ c, slot.state = .live c := by
  rw [Slot.rests,Bool.and_eq_true,beq_iff_eq]
  cases slot.state <;> simp

namespace Books

structure Balanced (b : Books) (mishaps : Mishap → Nat) : Prop where
  refusals : mishaps .refusal = b.counters.cloneFailures + b.due .refused
  copies : b.counters.copies =
    b.counters.setups + b.counters.setupFailures + mishaps .setupPanic + b.due .made
  setups : b.counters.setups =
    b.counters.teardowns + mishaps .teardownPanic + b.due .standing + b.resting
  failures : b.counters.teardownFailures + b.due .failed ≤ b.counters.teardowns
  unwinding : b.due .unwinding ≤ mishaps .teardownPanic

theorem Balanced.post {b next : Books} {mishaps : Mishap → Nat} {mishap : Option Mishap}
    (balanced : b.Balanced mishaps) (posting : Posting b mishap next) :
    next.Balanced fun kind => mishaps kind + if mishap = some kind then 1 else 0 := by
  cases posting with
  | still => simpa using balanced
  | _ =>
    obtain ⟨refusals,copies,setups,failures,unwinding⟩ := balanced
    constructor <;> revert refusals copies setups failures unwinding <;>
      simp only [owe,rest,count,Counters.bump,Counters.get,Counters.set,reduceCtorEq,if_true,if_false,
        Option.some.injEq,Nat.add_zero] <;> omega

end Books

namespace System

open Books Ledger

variable {F V : Type}

/-- The entries of a sequence of steps, each with the state it was taken in. -/
def moments (s : System F V) : List (Entry F V) → List (Moment F V)
  | [] => []
  | entry :: rest =>
    ⟨s,entry⟩ :: match s.step entry.thread entry.action with
      | some (next,_) => next.moments rest
      | none => []

/-- How often foreign code let calls on a manager down in some way. -/
def mishaps (initial : System F V) (past : List (Entry F V)) (m : Nat) (mishap : Mishap) : Nat :=
  (initial.moments past).countP (·.mishapOf? m = some mishap)

def isLiveSlot (s : System F V) (i : Nat) : Bool :=
  match s.state? i with
  | some (.live _) => true
  | _ => false

theorem isLiveSlot_iff {s : System F V} {i : Nat} :
    s.isLiveSlot i = true ↔ ∃ c, s.state? i = some (.live c) := by
  unfold isLiveSlot
  split <;> simp_all

/-- The number of workers of a manager that have a live copy registered. -/
def registeredCopies (s : System F V) (m : Nat) : Nat :=
  (((s.managers[m]?).map (·.slots)).getD []).countP fun entry => s.isLiveSlot entry.2

variable {sharding : Sharding} {names : List String} {threads : Nat} {past : List (Entry F V)}
  {initial s : System F V} {m : Nat}

theorem Interleaving.moments_append (run : Interleaving initial past s) (more : List (Entry F V)) :
    initial.moments (past ++ more) = initial.moments past ++ s.moments more := by
  induction run generalizing more with
  | start => rfl
  | @step past s next t a events before moved ih =>
    have last : s.moments [⟨t,a,events⟩] = [⟨s,⟨t,a,events⟩⟩] := by simp [moments,moved]
    have first : s.moments (⟨t,a,events⟩ :: more) = ⟨s,⟨t,a,events⟩⟩ :: next.moments more := by
      simp [moments,moved]
    rw [List.append_assoc,List.singleton_append,ih,first,ih,last,List.append_assoc,
      List.singleton_append]

theorem Interleaving.moments_step {next : System F V} {t : Nat} {a : Action F V}
    {events : List (Event V)} (run : Interleaving initial past s)
    (moved : s.step t a = some (next,events)) :
    initial.moments (past ++ [⟨t,a,events⟩]) = initial.moments past ++ [⟨s,⟨t,a,events⟩⟩] := by
  rw [run.moments_append]
  simp [moments,moved]

theorem Interleaving.mishaps_step {next : System F V} {t : Nat} {a : Action F V}
    {events : List (Event V)} (run : Interleaving initial past s)
    (moved : s.step t a = some (next,events)) (mishap : Mishap) :
    mishaps initial (past ++ [⟨t,a,events⟩]) m mishap = mishaps initial past m mishap +
      if Moment.mishapOf? m ⟨s,⟨t,a,events⟩⟩ = some mishap then 1 else 0 := by
  simp only [mishaps,run.moments_step moved,List.countP_append,List.countP_singleton,
    decide_eq_true_eq]

/-- At any time the counters, what is still due to them and the copies that rest in slots account
for one another. -/
theorem Interleaving.balanced (run : Interleaving (idle sharding names threads) past s)
    (manager : m < names.length) :
    (s.books m).Balanced (mishaps (idle sharding names threads) past m) := by
  induction run with
  | start =>
    have counters : (idle sharding names threads : System F V).counters m = {} := by
      simp [System.counters,idle,System.start,manager]
    have accounts : (idle sharding names threads : System F V).accounts m = [] := by
      simp [System.accounts,collect,stack_idle]
    have resting : (idle sharding names threads : System F V).resting m = 0 := by
      simp [System.resting,idle,System.start]
    have none (kind : Mishap) : mishaps (idle sharding names threads : System F V) [] m kind = 0 :=
      rfl
    constructor <;> simp [books,counters,accounts,resting,none]
  | step t a events before moved ih =>
    have size := before.managers
    have bound := manager.trans_eq size.symm
    have posted := ih.post (step_posting before.sound bound moved)
    rwa [← funext (before.mishaps_step moved)] at posted

theorem slot_of_member {found : Manager} {w : WorkerId} {i : Nat} (distinct : found.Distinct)
    (member : (w,i) ∈ found.slots) : found.slot? w = some i := by
  obtain ⟨name,slots,counters⟩ := found
  unfold Manager.Distinct at distinct
  unfold Manager.slot?
  dsimp only at *
  induction slots with
  | nil => simp at member
  | cons entry rest ih =>
    obtain ⟨v,j⟩ := entry
    obtain ⟨fresh,distinct⟩ := List.nodup_cons.mp distinct
    obtain same | later := List.mem_cons.mp member
    · cases same
      simp
    · have apart : w ≠ v := by
        rintro rfl
        exact fresh (List.mem_map.mpr ⟨_,later,rfl⟩)
      have other : (w == v) = false := by simpa using apart
      rw [List.lookup_cons,other]
      exact ih distinct later

theorem countP_range {α : Type} (p : α → Bool) (xs : List α) :
    (List.range xs.length).countP (fun i => (xs[i]?).any p) = xs.countP p := by
  induction xs with
  | nil => rfl
  | cons x xs ih =>
    simp [List.range_succ_eq_map,List.countP_cons,List.countP_map,Function.comp_def,ih]

/-- With no call under way the copies that rest in slots of a manager are those that are registered
with it. -/
theorem Interleaving.registered_eq (run : Interleaving (idle sharding names threads) past s)
    (quiet : ∀ t, s.stack t = []) (manager : m < names.length) :
    s.registeredCopies m = s.resting m := by
  have sound := run.sound
  have managers : s.managers.size = names.length := run.managers
  obtain ⟨found,there⟩ : ∃ found, s.managers[m]? = some found :=
    ⟨_,Array.getElem?_eq_getElem (manager.trans_eq managers.symm)⟩
  have distinct := run.distinct m found there
  have mapped {w : WorkerId} {i : Nat} (member : (w,i) ∈ found.slots) : s.slot? m w = some i := by
    simpa [slot?,there] using slot_of_member distinct member
  have resting : s.resting m =
      ((List.range s.slots.size).filter fun i => (s.slots[i]?).any (Slot.rests m)).length := by
    have ranged := countP_range (Slot.rests m) s.slots.toList
    simp only [Array.length_toList,Array.getElem?_toList] at ranged
    rw [System.resting,← Array.countP_toList,← ranged,List.countP_eq_length_filter]
  have registered : s.registeredCopies m =
      ((found.slots.filter fun entry => s.isLiveSlot entry.2).map Prod.snd).length := by
    simp [registeredCopies,there,List.countP_eq_length_filter]
  rw [resting,registered]
  -- Both lists have the same slots in them, and none twice.
  refine List.Perm.length_eq ((List.perm_ext_iff_of_nodup ?_ ?_).mpr fun i => ?_)
  · refine List.Nodup.map_on ?_ (distinct.of_map.filter _)
    rintro ⟨w,i⟩ first ⟨v,j⟩ second same
    obtain rfl : i = j := same
    have here := sound.homes.mapped m w i (mapped (List.mem_filter.mp first).1)
    have there := sound.homes.mapped m v i (mapped (List.mem_filter.mp second).1)
    rw [(here.unique there).2]
  · exact List.nodup_range.filter _
  · simp only [List.mem_map,List.mem_filter,List.mem_range,Option.any_eq_true]
    constructor
    · rintro ⟨⟨w,i⟩,⟨member,live⟩,rfl⟩
      obtain ⟨slot,cell,own,_⟩ := sound.homes.mapped m w i (mapped member)
      have cell : s.slots[i]? = some slot := cell
      refine ⟨(Array.getElem?_eq_some_iff.mp cell).1,slot,cell,?_⟩
      exact slot.rests_iff.mpr ⟨own,by simpa [state?,cell] using isLiveSlot_iff.mp live⟩
    · rintro ⟨bound,slot,cell,rests⟩
      obtain ⟨rfl,c,live⟩ := slot.rests_iff.mp rests
      have homed : s.ledger.Homed slot.manager slot.worker i := ⟨slot,cell,rfl,rfl⟩
      have state : s.state? i = some (.live c) := by simp [state?,cell,live]
      -- No call is under way that could have taken the slot out of the map.
      obtain inside | ⟨u,removing⟩ | retired :=
        sound.removal.reached _ _ i (run.managers ▸ manager) homed
      · have inside : s.slot? slot.manager slot.worker = some i := inside
        have member : (slot.worker,i) ∈ found.slots := by
          rw [slot?,there] at inside
          obtain ⟨left,right,split,_⟩ := List.lookup_eq_some_iff.mp inside
          simp [split]
        exact ⟨_,⟨member,isLiveSlot_iff.mpr ⟨c,state⟩⟩,rfl⟩
      · simp [Ledger.removers,threadsOf,roles_of_idle quiet] at removing
      · have retired : s.state? i = some .retired := retired
        simp [state] at retired

theorem Interleaving.mishaps_mono (run : Interleaving initial past s) (more : List (Entry F V))
    (mishap : Mishap) : mishaps initial past m mishap ≤ mishaps initial (past ++ more) m mishap := by
  rw [mishaps,mishaps,run.moments_append,List.countP_append]
  exact Nat.le_add_right ..

theorem unwinding_due {t c : Nat} {w : WorkerId} {message : String}
    (member : .release m w (.unwind c message) ∈ s.stack t) : 1 ≤ (s.books m).due .unwinding := by
  obtain ⟨first,below,top⟩ := List.exists_cons_of_ne_nil (List.ne_nil_of_mem member)
  have due : Account.unwinding ∈ s.accounts m := by
    refine List.mem_flatMap.mpr ⟨t,List.mem_range.mpr (bound_of_stack s t first below top),?_⟩
    exact List.mem_filterMap.mpr ⟨_,member,Account.to_self m (some .unwinding)⟩
  exact List.count_pos_iff.mpr due

variable {t : Nat} {span : List (Moment F V)} {reply : Reply V} {last : System F V}

theorem Answered.errors_of_calm (run : Interleaving (idle sharding names threads) past s)
    (manager : m < names.length) (answered : Answered s t (.releaseAll m) span reply last)
    (calm : mishaps (idle sharding names threads) (past ++ entries span) m .teardownPanic = 0) :
    ∃ errors, reply = .errors errors := by
  obtain ⟨before,now,frame,below,a,events,rfl,answering,sweeping⟩ := (sweep_kept run).ends answered
  cases drain_ended sweeping.shape answering with
  | empty => exact ⟨[],rfl⟩
  | clean => exact ⟨[],rfl⟩
  | logged errors => exact ⟨errors,rfl⟩
  | unwound w point pending errors message ended =>
    cases ended with
    | unwound c =>
      have reached := answering.under.run run
      have unwinding : .release m w (.unwind c message) ∈ now.stack t := by simp [answering.top]
      have due := unwinding_due unwinding
      have shown := (reached.balanced manager).unwinding
      have earlier := reached.mishaps_mono (m := m) (entries [⟨now,⟨t,a,events⟩⟩]) .teardownPanic
      simp only [entries,List.map_append,List.append_assoc] at calm earlier shown
      omega

theorem Answered.emptied (run : Interleaving (idle sharding names threads) past s)
    {errors : List LifecycleError}
    (answered : Answered s t (.releaseAll m) span (.errors errors) last)
    (closed : ∀ i slot, s.slots.size ≤ i → last.slots[i]? = some slot → slot.manager ≠ m) :
    last.registeredCopies m = 0 := by
  have reached := answered.run run
  refine List.countP_eq_zero.mpr ?_
  rintro ⟨w,i⟩ member live
  obtain ⟨found,there,inside⟩ : ∃ found, last.managers[m]? = some found ∧ (w,i) ∈ found.slots := by
    cases there : last.managers[m]? with
    | none => simp [there] at member
    | some found => exact ⟨found,rfl,by simpa [there] using member⟩
  have mapped : last.slot? m w = some i := by
    simpa [slot?,there] using slot_of_member (reached.distinct m found there) inside
  obtain ⟨slot,cell,own,_⟩ := reached.sound.homes.mapped m w i mapped
  exact closed i slot ((answered.drain run).renewed w i mapped).1 cell own

/-- The counters of a manager account for every copy and for every call that was let down. -/
structure Conserved (k : Counters) (registered : Nat) (mishaps : Mishap → Nat) : Prop where
  copies : k.copies = k.setups + k.setupFailures + mishaps .setupPanic
  setups : k.setups = k.teardowns + registered + mishaps .teardownPanic
  failures : k.teardownFailures ≤ k.teardowns
  refusals : k.cloneFailures = mishaps .refusal
  outstanding : mishaps .teardownPanic = 0 → k.outstanding = registered

theorem Interleaving.conserved (run : Interleaving (idle sharding names threads) past s)
    (quiet : ∀ t, s.stack t = []) (manager : m < names.length) :
    Conserved (s.counters m) (s.registeredCopies m)
      (mishaps (idle sharding names threads) past m) := by
  have accounts : s.accounts m = [] := List.flatMap_eq_nil_iff.mpr fun t _ => by simp [quiet]
  have due (account : Account) : (s.books m).due account = 0 := by simp [books,accounts]
  obtain ⟨refusals,copies,setups,failures,_⟩ := run.balanced manager
  simp only [due,Nat.add_zero] at refusals copies setups failures
  have resting : (s.books m).resting = s.registeredCopies m :=
    (run.registered_eq quiet manager).symm
  rw [resting] at setups
  change (s.counters m).setups = (s.counters m).teardowns + _ + _ at setups
  refine ⟨copies,by omega,failures,refusals.symm,fun calm => ?_⟩
  rw [Counters.outstanding]
  omega

/-- Exact conservation, panics included. Whenever no call is under way, whatever calls threads made
in whatever interleaving, the copies of a manager are its setups, its failed setups and the setup
hooks that panicked; its setups are its teardowns, its registered copies and the teardown hooks that
panicked; and its clone failures are the calls that its template refused. When no teardown hook
panicked and a drain during which no worker was registered was the last to return, nothing is
outstanding. -/
theorem Interleaving.counters_conserved (run : Interleaving (idle sharding names threads) past s)
    (quiet : ∀ t, s.stack t = []) (manager : m < names.length) :
    Conserved (s.counters m) (s.registeredCopies m)
        (mishaps (idle sharding names threads) past m) ∧
      ∀ before now t span reply, Interleaving (idle sharding names threads) before now →
        Answered now t (.releaseAll m) span reply s → past = before ++ entries span →
        (∀ i slot, now.slots.size ≤ i → s.slots[i]? = some slot → slot.manager ≠ m) →
        mishaps (idle sharding names threads) past m .teardownPanic = 0 →
        (s.counters m).outstanding = 0 := by
  have conserved := run.conserved quiet manager
  refine ⟨conserved,?_⟩
  rintro before now t span reply reached answered rfl closed calm
  obtain ⟨errors,rfl⟩ := answered.errors_of_calm reached manager calm
  rw [conserved.outstanding calm,answered.emptied reached closed,Int.natCast_zero]

/-- A refusal, a setup hook that panics, and a setup that another thread completes meanwhile. -/
def mixture : List (Nat × Action Nat Nat) :=
  [(0,.call (.get 0 (.named "a"))),(0,.advance),(0,.advance),(0,.advance),
    (0,.drawn (.refused (.other "full"))),(0,.advance),(0,.advance),(0,.advance),(0,.advance),
    (0,.advance),(0,.call (.get 0 (.named "a"))),(0,.advance),(0,.advance),(0,.advance),
    (0,.drawn (.copy 7)),(0,.advance),(0,.advance),(1,.call (.get 0 (.named "b"))),(1,.advance),
    (1,.advance),(1,.advance),(1,.drawn (.copy 9)),(0,.panic "boom"),(0,.advance),(1,.advance),
    (1,.advance),(1,.finish (.ok 0)),(1,.advance),(1,.advance),(1,.advance),(1,.advance)]

def mixed : System Nat Nat where
  managers := #[{
    name := "pool", slots := [(.named "a",1),(.named "b",2)]
    counters := { copies := 2, cloneFailures := 1, setups := 1 } }]
  slots := #[
    { manager := 0, worker := .named "a", state := .retired }, { manager := 0, worker := .named "a" },
    { manager := 0, worker := .named "b", state := .live 1 }]
  copies := #[
    { manager := 0, worker := .named "a", value := 7 },
    { manager := 0, worker := .named "b", value := 9 }]
  threads := #[[],[]]

/-- The slot of the first worker is vacant, and the teardown for the second fails. -/
def lastDrain : List (Nat × Action Nat Nat) :=
  [(0,.advance),(0,.advance),(0,.advance),(0,.advance),(0,.advance),(0,.advance),(0,.advance),
    (0,.advance),(0,.advance),(0,.advance),(0,.advance),
    (0,.finish (.error { message := "stuck" })),(0,.advance),(0,.advance),(0,.advance),(0,.advance)]

theorem counters_conserved_of_mixture :
    ∃ (past : List (Entry Nat Nat)) (span : List (Moment Nat Nat)) (errors : List LifecycleError)
      (last : System Nat Nat),
      Interleaving (idle .single ["pool"] 2) past mixed ∧
      Answered mixed 0 (.releaseAll 0) span (.errors errors) last ∧
      Conserved (mixed.counters 0) 1 (mishaps (idle .single ["pool"] 2) past 0) ∧
      mishaps (idle .single ["pool"] 2) past 0 .refusal = 1 ∧
      mishaps (idle .single ["pool"] 2) past 0 .setupPanic = 1 ∧
      (last.counters 0).teardownFailures = 1 ∧ (last.counters 0).outstanding = 0 := by
  obtain ⟨past,span,errors,last,followed,performed,refused,panicked,failed,slots,threads,calm⟩ :
      ∃ past span errors last, (idle .single ["pool"] 2).follow mixture = some (mixed,past) ∧
        mixed.perform 0 (.releaseAll 0) lastDrain = some (span,.errors errors,last) ∧
        mishaps (idle .single ["pool"] 2) past 0 .refusal = 1 ∧
        mishaps (idle .single ["pool"] 2) past 0 .setupPanic = 1 ∧
        (last.counters 0).teardownFailures = 1 ∧ last.slots.size = mixed.slots.size ∧
        last.threads = #[[],[]] ∧
        mishaps (idle .single ["pool"] 2) (past ++ entries span) 0 .teardownPanic = 0 :=
    ⟨_,_,_,_,rfl,rfl,rfl,rfl,rfl,rfl,rfl,rfl⟩
  have quiet {s : System Nat Nat} (none : s.threads = #[[],[]]) (t : Nat) : s.stack t = [] := by
    rw [stack,none]
    obtain _ | _ | t := t <;> rfl
  have closed (i : Nat) (slot : Slot) (fresh : mixed.slots.size ≤ i)
      (cell : last.slots[i]? = some slot) : slot.manager ≠ 0 := by
    have bound := (Array.getElem?_eq_some_iff.mp cell).1
    omega
  have run := Interleaving.start.follow followed
  have answered := Answered.perform performed
  exact ⟨past,span,errors,last,run,answered,
    (run.counters_conserved (m := 0) (quiet rfl) (by decide)).1,refused,panicked,failed,
    ((answered.run run).counters_conserved (quiet threads) (by decide)).2 past mixed 0 span _ run
      answered rfl closed calm⟩

end System
end PerWorker
