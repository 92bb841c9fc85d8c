import PerWorker.Proofs.Lifecycle.Stacks
import PerWorker.Proofs.Pipeline.Course
import PerWorker.Proofs.Pipeline.Serving

/-!
Two managers of enrichers that go by one name: an old one with what it has counted so far, and a new
one. Main statement: where each is used as the other is, a call to one can take a step just if the
call to the other can, and after it they still agree in all but those counts.
-/
namespace PerWorker

/-- What counts of a slot: not the manager that it belongs to. -/
def Slot.bare (slot : Slot) : Slot := { slot with manager := 0 }

def Copy.bare {F : Type} (copy : Copy F) : Copy F := { copy with manager := 0 }

inductive Frame.Alike {F V : Type} (old new : Nat) : Frame F V → Frame F V → Prop
  | get (w : WorkerId) (point : GetPoint F) : Alike old new (.get old w point) (.get new w point)
  | release (w : WorkerId) (point : ReleasePoint) :
      Alike old new (.release old w point) (.release new w point)
  | processGet (w : WorkerId) : Alike old new (.processGet old w) (.processGet new w)
  | processBody (w : WorkerId) (point : BodyPoint V) :
      Alike old new (.processBody old w point) (.processBody new w point)
  | processLogFailure (w : WorkerId) (c : Nat) (fault : Fault) :
      Alike old new (.processLogFailure old w c fault) (.processLogFailure new w c fault)
  | processRelease (w : WorkerId) (fault : Fault) :
      Alike old new (.processRelease old w fault) (.processRelease new w fault)
  | processLogTeardown (w : WorkerId) (fault : Fault) (e : LifecycleError) :
      Alike old new (.processLogTeardown old w fault e) (.processLogTeardown new w fault e)
  | survey (shard : Nat) (seen : List WorkerId) :
      Alike old new (.survey old .releaseAll shard seen) (.survey new .releaseAll shard seen)
  | releaseAll (pending : List WorkerId) (errors : List LifecycleError) :
      Alike old new (.releaseAll old pending errors) (.releaseAll new pending errors)
  | releaseAllLog (errors : List LifecycleError) :
      Alike old new (.releaseAllLog old errors) (.releaseAllLog new errors)
  | drain (drained : Nat) (errors : List LifecycleError) :
      Alike old new (.drain old [] drained errors) (.drain new [] drained errors)
  | drainLogFailure (drained : Nat) (errors failed : List LifecycleError) :
      Alike old new (.drainLogFailure old [] drained errors failed)
        (.drainLogFailure new [] drained errors failed)
  | drainLogDone (drained : Nat) (errors : List LifecycleError) :
      Alike old new (.drainLogDone drained errors) (.drainLogDone drained errors)

namespace Pipeline

open PerWorker.System

def Ahead (k a b : Counters) : Prop := ∀ counter, a.get counter = k.get counter + b.get counter

section

variable (old new : Nat) (k : Counters)

/-- The calls that a thread has under way with either manager. Those that read the counters are
made by the run itself, one at a time. -/
inductive Stacked (t : Nat) : List (Frame Enricher Nat) → List (Frame Enricher Nat) → Prop
  | calls {frames twins : List (Frame Enricher Nat)}
      (alike : List.Forall₂ (Frame.Alike old new) frames twins)
      (waiting : t = Stock.runThread → ∀ frame ∈ frames.tail, frame.waits = true) :
      Stacked t frames twins
  | counting (own : t = Stock.runThread) (shard : Nat) (seen : List WorkerId) :
      Stacked t [.survey old .stats shard seen] [.survey new .stats shard seen]
  | load (own : t = Stock.runThread) (left : List Counter) (a b : Counters)
      (registered : Option Nat)
      (read : ∀ counter, counter ∈ left ∨ a.get counter = k.get counter + b.get counter) :
      Stacked t [.load old left a registered] [.load new left b registered]
  | logStats (own : t = Stock.runThread) (registered : Nat) (a b : Counters) :
      Stacked t [.logStats old registered a] [.logStats new registered b]

/-- A system in which the old manager is at work, and one in which the new one is. -/
structure Twins (one other : System Enricher Nat) : Prop where
  sharding : one.sharding = other.sharding
  managers : ∃ a b, one.managers[old]? = some a ∧ other.managers[new]? = some b ∧
    a.name = b.name ∧ a.slots = b.slots ∧ Ahead k a.counters b.counters
  slots : one.slots.map Slot.bare = other.slots.map Slot.bare
  copies : one.copies.map Copy.bare = other.copies.map Copy.bare
  threads : one.threads.size = other.threads.size
  calls : ∀ t, 0 < t → Stacked old new k t (one.stack t) (other.stack t)

end

def Answers (k : Counters) (t : Nat) (reply twin : Reply Nat) : Prop :=
  reply = twin ∨ t = Stock.runThread ∧ ∃ a b, reply = .counters a ∧ twin = .counters b ∧ Ahead k a b

structure Agree (old new : Nat) (k : Counters) (t : Nat)
    (one other : System Enricher Nat × List (Event Nat)) : Prop where
  twins : Twins old new k one.1 other.1
  told : Option.Rel (Answers k t) (Stock.reply? one.2) (Stock.reply? other.2)
  idle : t = Stock.runThread → ∀ reply, Stock.reply? one.2 = some reply → one.1.stack t = []

variable {old new : Nat} {k : Counters} {A B : System Enricher Nat} {t c i : Nat} {w : WorkerId}

theorem map_modify {α : Type} {f g : α → α} (same : ∀ a, g (f a) = f (g a)) (xs : Array α)
    (i : Nat) : (xs.modify i f).map g = (xs.map g).modify i f := by
  apply Array.ext_getElem?
  intro j
  simp only [Array.getElem?_map,Array.getElem?_modify]
  split
  · cases xs[j]? <;> simp [same]
  · rfl

namespace Twins

variable (twins : Twins old new k A B)

include twins

theorem slot? (w : WorkerId) : A.slot? old w = B.slot? new w := by
  obtain ⟨a,b,here,there,-,slots,-⟩ := twins.managers
  simp [System.slot?,here,there,Manager.slot?,slots]

theorem name : A.name old = B.name new := by
  obtain ⟨a,b,here,there,name,-⟩ := twins.managers
  simp [System.name,here,there,name]

theorem shardWorkers (shard : Nat) : A.shardWorkers old shard = B.shardWorkers new shard := by
  obtain ⟨a,b,here,there,-,slots,-⟩ := twins.managers
  rw [System.shardWorkers,System.shardWorkers,here,there,twins.sharding]
  simp only [slots]

theorem slots_size : A.slots.size = B.slots.size := by
  simpa using congrArg Array.size twins.slots

theorem copies_size : A.copies.size = B.copies.size := by
  simpa using congrArg Array.size twins.copies

theorem slot_at (i : Nat) : (A.slots[i]?).map Slot.bare = (B.slots[i]?).map Slot.bare := by
  simpa using congrArg (·[i]?) twins.slots

theorem copy_at (c : Nat) : (A.copies[c]?).map Copy.bare = (B.copies[c]?).map Copy.bare := by
  simpa using congrArg (·[c]?) twins.copies

theorem state (i : Nat) : (A.slots[i]?).map (·.state) = (B.slots[i]?).map (·.state) := by
  simpa [Function.comp_def,Slot.bare] using congrArg (Option.map Slot.state) (twins.slot_at i)

theorem value (c : Nat) : (A.copies[c]?).map (·.value) = (B.copies[c]?).map (·.value) := by
  simpa [Function.comp_def,Copy.bare] using congrArg (Option.map Copy.value) (twins.copy_at c)

theorem copyWorker (c : Nat) : A.copyWorker c = B.copyWorker c := by
  have worker := congrArg (Option.map Copy.worker) (twins.copy_at c)
  simp only [Option.map_map,Function.comp_def,Copy.bare] at worker
  rw [System.copyWorker,System.copyWorker,worker]

theorem counter (counter : Counter) :
    ((A.managers[old]?).map (·.counters.get counter)).getD 0 =
      k.get counter + ((B.managers[new]?).map (·.counters.get counter)).getD 0 := by
  obtain ⟨a,b,here,there,-,-,ahead⟩ := twins.managers
  simpa [here,there] using ahead counter

theorem mapManager {f g : Manager → Manager}
    (same : ∀ a b, a.name = b.name → a.slots = b.slots → Ahead k a.counters b.counters →
      (f a).name = (g b).name ∧ (f a).slots = (g b).slots ∧
        Ahead k (f a).counters (g b).counters) :
    Twins old new k (A.mapManager old f) (B.mapManager new g) := by
  obtain ⟨a,b,here,there,name,slots,ahead⟩ := twins.managers
  refine { twins with managers := ⟨f a,g b,?_,?_,same a b name slots ahead⟩ }
  · simp [System.mapManager,Array.getElem?_modify,here]
  · simp [System.mapManager,Array.getElem?_modify,there]

theorem bump (counter : Counter) : Twins old new k (A.bump old counter) (B.bump new counter) := by
  apply twins.mapManager
  intro a b name slots ahead
  refine ⟨name,slots,fun other => ?_⟩
  simp only [Manager.bump,Counters.get_bump]
  split
  · rw [ahead counter,← ‹other = counter›,Nat.add_assoc]
  · exact ahead other

theorem insert (w : WorkerId) (i : Nat) :
    Twins old new k (A.mapManager old (·.insert w i)) (B.mapManager new (·.insert w i)) :=
  twins.mapManager fun _ _ name slots ahead => ⟨name,by simp [Manager.insert,slots],ahead⟩

theorem erase (w : WorkerId) :
    Twins old new k (A.mapManager old (·.erase w)) (B.mapManager new (·.erase w)) :=
  twins.mapManager fun _ _ name slots ahead => ⟨name,by simp [Manager.erase,slots],ahead⟩

theorem eraseSlot (w : WorkerId) (i : Nat) :
    Twins old new k (A.mapManager old (·.eraseSlot w i)) (B.mapManager new (·.eraseSlot w i)) := by
  apply twins.mapManager
  intro a b name slots ahead
  unfold Manager.eraseSlot Manager.slot?
  rw [slots]
  split
  · exact ⟨name,by simp [Manager.erase,slots],ahead⟩
  · exact ⟨name,slots,ahead⟩

theorem mapSlot (i : Nat) {f : Slot → Slot} (bare : ∀ slot, (f slot).bare = f slot.bare) :
    Twins old new k (A.mapSlot i f) (B.mapSlot i f) := by
  refine { twins with slots := ?_ }
  simp only [System.mapSlot,map_modify bare,twins.slots]

theorem mapCopy (c : Nat) {f : Copy Enricher → Copy Enricher}
    (bare : ∀ copy, (f copy).bare = f copy.bare) :
    Twins old new k (A.mapCopy c f) (B.mapCopy c f) := by
  refine { twins with copies := ?_ }
  simp only [System.mapCopy,map_modify bare,twins.copies]

theorem putState (i : Nat) (state : SlotState) :
    Twins old new k (A.mapSlot i ({ · with state })) (B.mapSlot i ({ · with state })) :=
  twins.mapSlot i fun _ => rfl

theorem leaveSlot (i : Nat) : Twins old new k (A.leaveSlot i) (B.leaveSlot i) :=
  twins.mapSlot i fun _ => rfl

theorem kill (c : Nat) :
    Twins old new k (A.mapCopy c ({ · with live := false }))
      (B.mapCopy c ({ · with live := false })) :=
  twins.mapCopy c fun _ => rfl

theorem yieldCopy (c : Nat) : Twins old new k (A.yieldCopy c) (B.yieldCopy c) :=
  twins.mapCopy c fun _ => rfl

theorem put (c : Nat) (value : Enricher) :
    Twins old new k (A.mapCopy c ({ · with value })) (B.mapCopy c ({ · with value })) :=
  twins.mapCopy c fun _ => rfl

theorem pushSlot (w : WorkerId) :
    Twins old new k { A with slots := A.slots.push { manager := old, worker := w } }
      { B with slots := B.slots.push { manager := new, worker := w } } :=
  { twins with slots := by simp [Slot.bare,twins.slots] }

theorem pushCopy (w : WorkerId) (value : Enricher) :
    Twins old new k
      { A with copies := A.copies.push { manager := old, worker := w, value := value } }
      { B with copies := B.copies.push { manager := new, worker := w, value := value } } :=
  { twins with copies := by simp [Copy.bare,twins.copies] }

/-- A slot can be entered on both sides or on neither. -/
theorem enterSlot? (i t : Nat) :
    Option.Rel (fun a b => Twins old new k a.1 b.1 ∧ a.2 = b.2)
      (A.enterSlot? i t) (B.enterSlot? i t) := by
  have same := twins.slot_at i
  unfold System.enterSlot?
  cases here : A.slots[i]? <;> cases there : B.slots[i]? <;> rw [here,there] at same
  · exact .none
  · cases same
  · cases same
  · rename_i slot twin
    have bare : slot.bare = twin.bare := Option.some_inj.mp same
    have holder : slot.holder = twin.holder := congrArg (·.holder) bare
    have state : slot.state = twin.state := congrArg (·.state) bare
    simp only [holder,state]
    split
    · exact .some ⟨twins.mapSlot i fun _ => rfl,rfl⟩
    · exact .none

/-- A copy can be claimed on both sides or on neither. -/
theorem claimCopy? (c t : Nat) :
    Option.Rel (Twins old new k) (A.claimCopy? c t) (B.claimCopy? c t) := by
  have same := twins.copy_at c
  unfold System.claimCopy?
  cases here : A.copies[c]? <;> cases there : B.copies[c]? <;> rw [here,there] at same
  · exact .none
  · cases same
  · cases same
  · rename_i copy twin
    have bare : copy.bare = twin.bare := Option.some_inj.mp same
    have holder : copy.holder = twin.holder := congrArg (·.holder) bare
    simp only [holder]
    split
    · exact .some (twins.mapCopy c fun _ => rfl)
    · exact .none

theorem setStack {fs gs : List (Frame Enricher Nat)} (stacked : Stacked old new k t fs gs) :
    Twins old new k (A.setStack t fs) (B.setStack t gs) := by
  refine { twins with threads := by simpa [System.setStack] using twins.threads, calls := ?_ }
  intro u positive
  have before := twins.calls u positive
  have bound := twins.threads
  simp only [System.stack,System.setStack,Array.getD_eq_getD_getElem?,
    Array.getElem?_setIfInBounds] at before ⊢
  split
  · subst u
    split
    · rw [if_pos (by omega)]
      exact stacked
    · rw [if_neg (by omega)]
      exact .calls .nil (by simp)
  · exact before

theorem addThread : Twins old new k A.addThread B.addThread := by
  refine { twins with threads := by simp [System.addThread,twins.threads], calls := ?_ }
  intro u positive
  rw [Run.stack_addThread,Run.stack_addThread]
  exact twins.calls u positive

end Twins

section

variable {fs gs below twin : List (Frame Enricher Nat)}

inductive Resumes (old new : Nat) (alone : Prop) : List (Frame Enricher Nat) × List (Event Nat) →
    List (Frame Enricher Nat) × List (Event Nat) → Prop
  | on {fs gs : List (Frame Enricher Nat)} (alike : List.Forall₂ (Frame.Alike old new) fs gs)
      (waiting : alone → ∀ frame ∈ fs.tail, frame.waits = true) :
      Resumes old new alone (fs,[]) (gs,[])
  | out {fs gs : List (Frame Enricher Nat)} (alike : List.Forall₂ (Frame.Alike old new) fs gs)
      (reply : Reply Nat) (idle : alone → fs = []) :
      Resumes old new alone (fs,[.returned reply]) (gs,[.returned reply])

variable {alone : Prop}

theorem nextRelease_alike (alike : List.Forall₂ (Frame.Alike old new) below twin)
    (waiting : alone → ∀ frame ∈ below, frame.waits = true) (pending : List WorkerId)
    (errors : List LifecycleError) :
    Option.Rel (fun fs gs => List.Forall₂ (Frame.Alike old new) fs gs ∧
        (alone → ∀ frame ∈ fs.tail, frame.waits = true))
      (nextRelease old pending errors below) (nextRelease new pending errors twin) := by
  cases pending with
  | nil =>
    cases errors with
    | nil => exact .none
    | cons e errors => exact .some ⟨.cons (.releaseAllLog _) alike,waiting⟩
  | cons w rest =>
    refine .some ⟨.cons (.release w _) (.cons (.releaseAll rest errors) alike),?_⟩
    simpa [Frame.waits] using waiting

theorem resume_alike (reply : Reply Nat) (alike : List.Forall₂ (Frame.Alike old new) below twin)
    (waiting : alone → ∀ frame ∈ below, frame.waits = true) :
    Resumes old new alone (resume reply below) (resume reply twin) := by
  induction alike generalizing reply with
  | nil => exact .out .nil reply fun _ => rfl
  | @cons _ _ below twin head tail ih =>
    have others (own : alone) := (List.forall_mem_cons.mp (waiting own)).2
    have next (pending : List WorkerId) (errors : List LifecycleError) :
        Resumes old new alone
          ((nextRelease old pending errors below).elim (resume (.errors errors) below) (·,[]))
          ((nextRelease new pending errors twin).elim (resume (.errors errors) twin) (·,[])) := by
      have found := nextRelease_alike tail others pending errors
      generalize nextRelease old pending errors below = one at found ⊢
      generalize nextRelease new pending errors twin = other at found ⊢
      cases found with
      | none => exact ih _ others
      | some both => exact .on both.1 both.2
    cases head with
    | processGet w =>
      cases reply with
      | handle c => exact .on (.cons (.processBody w _) tail) others
      | _ => exact ih _ others
    | processRelease w fault =>
      cases reply with
      | failed e => exact .on (.cons (.processLogTeardown w fault e) tail) others
      | _ => exact ih _ others
    | releaseAll pending errors =>
      cases reply with
      | failed e => exact next pending (errors ++ [e])
      | panicked message => exact ih _ others
      | _ => exact next pending errors
    | drain drained errors =>
      cases reply with
      | errors failed =>
        cases failed with
        | nil => exact .on (.cons (.drainLogDone _ _) tail) others
        | cons e failed => exact .on (.cons (.drainLogFailure _ _ _) tail) others
      | _ => exact ih _ others
    | _ =>
      refine .out (.cons (by constructor) tail) reply fun own => ?_
      cases (List.forall_mem_cons.mp (waiting own)).1

namespace Twins

variable (twins : Twins old new k A B)

include twins

theorem goto (stacked : Stacked old new k t fs gs) {es es' : List (Event Nat)}
    (quiet : Stock.reply? es = none) (quiet' : Stock.reply? es' = none) :
    Agree old new k t (A.goto t fs es) (B.goto t gs es') := by
  refine ⟨twins.setStack stacked,?_,fun _ reply told => ?_⟩
  · simp only [System.goto,quiet,quiet']
    exact .none
  · cases quiet.symm.trans told

theorem settle (stacked : Stacked old new k t fs gs) (idle : t = Stock.runThread → fs = [])
    {reply reply' : Reply Nat} (answers : Answers k t reply reply') {es es' : List (Event Nat)}
    (told : Stock.reply? es = some reply) (told' : Stock.reply? es' = some reply') :
    Agree old new k t (A.setStack t fs,es) (B.setStack t gs,es') := by
  refine ⟨twins.setStack stacked,?_,fun own _ _ => ?_⟩
  · rw [told,told']
    exact .some answers
  · rw [idle own]
    simp [System.stack,System.setStack]

theorem answer (reply : Reply Nat) (alike : List.Forall₂ (Frame.Alike old new) below twin)
    (waiting : t = Stock.runThread → ∀ frame ∈ below, frame.waits = true)
    {es es' : List (Event Nat)} (quiet : Stock.reply? es = none)
    (quiet' : Stock.reply? es' = none) :
    Agree old new k t (A.answer t reply below es) (B.answer t reply twin es') := by
  have resumes := resume_alike reply alike waiting
  unfold System.answer
  generalize resume reply below = one at resumes ⊢
  generalize resume reply twin = other at resumes ⊢
  cases resumes with
  | on alike waiting =>
    simpa [System.goto] using twins.goto (.calls alike waiting) quiet quiet'
  | @out fs gs alike reply idle =>
    apply twins.settle (.calls alike fun own => by simp [idle own]) idle (.inl rfl)
    · rw [reply?_append quiet]
      rfl
    · rw [reply?_append quiet']
      rfl

/-- A lookup goes the same way on both sides. -/
theorem advanceGet (point : GetPoint Enricher)
    (alike : List.Forall₂ (Frame.Alike old new) below twin)
    (waiting : t = Stock.runThread → ∀ frame ∈ below, frame.waits = true) :
    Option.Rel (Agree old new k t) (A.advanceGet t old w point below)
      (B.advanceGet t new w point twin) := by
  have at_ (point : GetPoint Enricher) :
      Stacked old new k t (.get old w point :: below) (.get new w point :: twin) :=
    .calls (.cons (.get w point) alike) waiting
  cases point with
  | look =>
    simp only [System.advanceGet,twins.slot?]
    cases B.slot? new w <;> exact .some (twins.goto (at_ _) rfl rfl)
  | register =>
    simp only [System.advanceGet,twins.slot?,twins.slots_size]
    cases B.slot? new w with
    | none => exact .some (((twins.pushSlot w).insert w _).goto (at_ _) rfl rfl)
    | some i => exact .some (twins.goto (at_ _) rfl rfl)
  | enter i =>
    have entered := twins.enterSlot? i t
    simp only [System.advanceGet]
    generalize A.enterSlot? i t = one at entered ⊢
    generalize B.enterSlot? i t = other at entered ⊢
    cases entered with
    | none => exact .none
    | @some one other both =>
      obtain ⟨one,state⟩ := one
      obtain ⟨other,state'⟩ := other
      obtain ⟨twins,rfl⟩ := both
      cases state <;> exact .some (twins.goto (at_ _) rfl rfl)
  | replicating i => exact .none
  | countCloneFailure i e => exact .some ((twins.bump _).goto (at_ _) rfl rfl)
  | logCloneFailure i e =>
    simp only [System.advanceGet,twins.name]
    exact .some (twins.goto (at_ _) rfl rfl)
  | countCopy i value => exact .some ((twins.bump _).goto (at_ _) rfl rfl)
  | number i value =>
    simp only [System.advanceGet,twins.copies_size]
    exact .some ((twins.pushCopy w value).goto (at_ _) rfl rfl)
  | settingUp i c => exact .none
  | countSetupFailure i c fault => exact .some ((twins.bump _).goto (at_ _) rfl rfl)
  | logSetupFailure i c fault =>
    simp only [System.advanceGet,twins.name]
    exact .some (twins.goto (at_ _) rfl rfl)
  | countSetup i c => exact .some ((twins.bump _).goto (at_ _) rfl rfl)
  | logSetup i c => exact .some (twins.goto (at_ _) rfl rfl)
  | publish i c => exact .some ((twins.putState i _).goto (at_ _) rfl rfl)
  | retire i e => exact .some ((twins.putState i _).goto (at_ _) rfl rfl)
  | leave i departure =>
    cases departure with
    | found c => exact .some ((twins.leaveSlot i).answer _ alike waiting rfl rfl)
    | failed e => exact .some ((twins.leaveSlot i).goto (at_ _) rfl rfl)
    | again => exact .some ((twins.leaveSlot i).goto (at_ _) rfl rfl)
    | unwinding message => exact .some ((twins.leaveSlot i).answer _ alike waiting rfl rfl)
  | prune i error =>
    cases error with
    | none => exact .some ((twins.eraseSlot w i).goto (at_ _) rfl rfl)
    | some e => exact .some ((twins.eraseSlot w i).answer _ alike waiting rfl rfl)

/-- A release goes the same way on both sides. -/
theorem advanceRelease (point : ReleasePoint)
    (alike : List.Forall₂ (Frame.Alike old new) below twin)
    (waiting : t = Stock.runThread → ∀ frame ∈ below, frame.waits = true) :
    Option.Rel (Agree old new k t) (A.advanceRelease t old w point below)
      (B.advanceRelease t new w point twin) := by
  have at_ (point : ReleasePoint) :
      Stacked old new k t (.release old w point :: below) (.release new w point :: twin) :=
    .calls (.cons (.release w point) alike) waiting
  cases point with
  | unregister =>
    simp only [System.advanceRelease,twins.slot?]
    cases B.slot? new w with
    | none => exact .some (twins.answer _ alike waiting rfl rfl)
    | some i => exact .some ((twins.erase w).goto (at_ _) rfl rfl)
  | enter i =>
    have entered := twins.enterSlot? i t
    simp only [System.advanceRelease]
    generalize A.enterSlot? i t = one at entered ⊢
    generalize B.enterSlot? i t = other at entered ⊢
    cases entered with
    | none => exact .none
    | some both => exact .some (both.1.goto (at_ _) rfl rfl)
  | retire i =>
    simp only [System.advanceRelease,twins.state]
    exact .some ((twins.putState i _).goto (at_ _) rfl rfl)
  | leave i found =>
    cases found with
    | none => exact .some ((twins.leaveSlot i).answer _ alike waiting rfl rfl)
    | some c => exact .some ((twins.leaveSlot i).goto (at_ _) rfl rfl)
  | kill c => exact .some ((twins.kill c).goto (at_ _) rfl rfl)
  | claim c =>
    have claimed := twins.claimCopy? c t
    simp only [System.advanceRelease]
    generalize A.claimCopy? c t = one at claimed ⊢
    generalize B.claimCopy? c t = other at claimed ⊢
    cases claimed with
    | none => exact .none
    | some both => exact .some (both.goto (at_ _) rfl rfl)
  | tearingDown c => exact .none
  | unwind c message =>
    exact .some ((twins.yieldCopy c).answer _ alike waiting rfl rfl)
  | yield c fault => exact .some ((twins.yieldCopy c).goto (at_ _) rfl rfl)
  | countTeardown c fault =>
    cases fault <;> exact .some ((twins.bump _).goto (at_ _) rfl rfl)
  | logTeardown c => exact .some (twins.answer _ alike waiting rfl rfl)
  | countFailure c fault => exact .some ((twins.bump _).goto (at_ _) rfl rfl)
  | logFailure c fault =>
    simp only [System.advanceRelease,twins.name,twins.copyWorker]
    exact .some (twins.answer _ alike waiting rfl rfl)

theorem advanceSurvey (shard : Nat) (seen : List WorkerId)
    (alike : List.Forall₂ (Frame.Alike old new) below twin)
    (waiting : t = Stock.runThread → ∀ frame ∈ below, frame.waits = true) :
    Agree old new k t (A.advanceSurvey t old .releaseAll shard seen below)
      (B.advanceSurvey t new .releaseAll shard seen twin) := by
  simp only [System.advanceSurvey,twins.shardWorkers,twins.sharding]
  split
  · exact twins.goto (.calls (.cons (.survey _ _) alike) waiting) rfl rfl
  · have found := nextRelease_alike alike waiting (seen ++ B.shardWorkers new shard) []
    generalize nextRelease old _ [] below = one at found ⊢
    generalize nextRelease new _ [] twin = other at found ⊢
    cases found with
    | none => exact twins.answer _ alike waiting rfl rfl
    | some both => exact twins.goto (.calls both.1 both.2) rfl rfl

theorem advanceBody (point : BodyPoint Nat)
    (alike : List.Forall₂ (Frame.Alike old new) below twin)
    (waiting : t = Stock.runThread → ∀ frame ∈ below, frame.waits = true)
    (here : A.stack t = .processBody old w point :: below)
    (there : B.stack t = .processBody new w point :: twin) :
    Option.Rel (Agree old new k t) (A.advance t) (B.advance t) := by
  have at_ (point : BodyPoint Nat) : Stacked old new k t (.processBody old w point :: below)
      (.processBody new w point :: twin) :=
    .calls (.cons (.processBody w point) alike) waiting
  unfold System.advance
  rw [here,there]
  cases point with
  | claim c =>
    have claimed := twins.claimCopy? c t
    dsimp only
    generalize A.claimCopy? c t = one at claimed ⊢
    generalize B.claimCopy? c t = other at claimed ⊢
    cases claimed with
    | none => exact .none
    | some both => exact .some (both.goto (at_ _) rfl rfl)
  | running c => exact .none
  | unwind c message => exact .some ((twins.yieldCopy c).answer _ alike waiting rfl rfl)
  | yield c result =>
    cases result with
    | ok v => exact .some ((twins.yieldCopy c).answer _ alike waiting rfl rfl)
    | error fault =>
      exact .some ((twins.yieldCopy c).goto
        (.calls (.cons (.processLogFailure w c fault) alike) waiting) rfl rfl)

theorem reading {left : List Counter} {a : Counters}
    (here : A.stack Stock.runThread = [.load old left a none]) :
    ∃ b, B.stack Stock.runThread = [.load new left b none] ∧
      ∀ counter, counter ∈ left ∨ a.get counter = k.get counter + b.get counter := by
  have calls := twins.calls Stock.runThread (by decide)
  rw [here] at calls
  generalize B.stack Stock.runThread = gs at calls ⊢
  cases calls with
  | calls alike =>
    cases alike with
    | cons head => cases head
  | load own left a b registered read => exact ⟨b,rfl,read⟩

theorem load_set {counter : Counter} {rest : List Counter} {a b : Counters}
    (read : ∀ other, other ∈ counter :: rest ∨ a.get other = k.get other + b.get other) :
    ∀ other, other ∈ rest ∨
      (a.set counter (((A.managers[old]?).map (·.counters.get counter)).getD 0)).get other =
        k.get other +
          (b.set counter (((B.managers[new]?).map (·.counters.get counter)).getD 0)).get other := by
  intro other
  rw [Counters.get_set,Counters.get_set]
  split
  · subst other
    exact .inr (twins.counter counter)
  · rename_i different
    exact (read other).imp_left fun member => (List.mem_cons.mp member).resolve_left different

/-- The counters are read one by one; each differs by what the old manager had counted before. -/
theorem load (own : t = Stock.runThread) (left : List Counter) (a b : Counters)
    (registered : Option Nat)
    (read : ∀ counter, counter ∈ left ∨ a.get counter = k.get counter + b.get counter)
    (here : A.stack t = [.load old left a registered])
    (there : B.stack t = [.load new left b registered]) :
    Option.Rel (Agree old new k t) (A.advance t) (B.advance t) := by
  unfold System.advance
  rw [here,there]
  cases left with
  | nil =>
    cases registered with
    | none =>
      have ahead : Ahead k a b := fun counter => (read counter).resolve_left List.not_mem_nil
      exact .some (twins.settle (.calls .nil (by simp)) (fun _ => rfl)
        (.inr ⟨own,a,b,rfl,rfl,ahead⟩) rfl rfl)
    | some n => exact .some (twins.goto (.logStats own n a b) rfl rfl)
  | cons counter rest =>
    exact .some (twins.goto (.load own rest _ _ registered (twins.load_set read)) rfl rfl)

/-- A call goes the same way on both sides, with the same answer but for counts. -/
theorem advance (positive : 0 < t) :
    Option.Rel (Agree old new k t) (A.advance t) (B.advance t) := by
  have calls := twins.calls t positive
  generalize here : A.stack t = fs at calls
  generalize there : B.stack t = gs at calls
  cases calls with
  | calls alike waiting =>
    unfold System.advance
    rw [here,there]
    cases alike with
    | nil => exact .none
    | cons head tail =>
      cases head with
      | processBody w point =>
        have body := twins.advanceBody point tail waiting here there
        unfold System.advance at body
        rwa [here,there] at body
      | get w point => exact twins.advanceGet point tail waiting
      | release w point => exact twins.advanceRelease point tail waiting
      | processLogFailure w c fault =>
        refine .some (twins.goto (.calls (.cons (.release w _)
          (.cons (.processRelease w fault) tail)) ?_) rfl rfl)
        simpa [Frame.waits] using waiting
      | processLogTeardown w fault e => exact .some (twins.answer _ tail waiting rfl rfl)
      | survey shard seen => exact .some (twins.advanceSurvey shard seen tail waiting)
      | releaseAllLog errors => exact .some (twins.answer _ tail waiting rfl rfl)
      | drainLogFailure drained errors failed =>
        exact .some (twins.goto (.calls (.cons (.drainLogDone _ _) tail) waiting) rfl rfl)
      | drainLogDone drained errors => exact .some (twins.answer _ tail waiting rfl rfl)
      | processGet | processRelease | releaseAll | drain => exact .none
  | counting own shard seen =>
    unfold System.advance
    rw [here,there]
    simp only [System.advanceSurvey,twins.shardWorkers,twins.sharding]
    split
    · exact .some (twins.goto (.counting own _ _) rfl rfl)
    · refine .some (twins.goto (.load own _ _ _ _ fun counter => .inl ?_) rfl rfl)
      cases counter <;> decide
  | load own left a b registered read => exact twins.load own left a b registered read here there
  | logStats own registered a b =>
    unfold System.advance
    rw [here,there]
    exact .some (twins.settle (.calls .nil (by simp)) (fun _ => rfl) (.inl rfl) rfl rfl)

theorem draw (positive : 0 < t) (drawn : Draw Enricher) :
    Option.Rel (Agree old new k t) (A.draw t drawn) (B.draw t drawn) := by
  have calls := twins.calls t positive
  unfold System.draw
  generalize A.stack t = fs at calls ⊢
  generalize B.stack t = gs at calls ⊢
  cases calls with
  | calls alike waiting =>
    cases alike with
    | nil => exact .none
    | cons head tail =>
      cases head with
      | get w point =>
        have at_ (point : GetPoint Enricher) := Stacked.calls (k := k) (t := t)
          (.cons (Frame.Alike.get w point) tail) waiting
        cases point with
        | replicating i => cases drawn <;> exact .some (twins.goto (at_ _) rfl rfl)
        | _ => exact .none
      | _ => exact .none
  | _ => exact .none

theorem finish (positive : 0 < t) (result : Except Fault Nat) :
    Option.Rel (Agree old new k t) (A.finish t result) (B.finish t result) := by
  have calls := twins.calls t positive
  unfold System.finish
  generalize A.stack t = fs at calls ⊢
  generalize B.stack t = gs at calls ⊢
  cases calls with
  | calls alike waiting =>
    cases alike with
    | nil => exact .none
    | cons head tail =>
      cases head with
      | get w point =>
        have at_ (point : GetPoint Enricher) := Stacked.calls (k := k) (t := t)
          (.cons (Frame.Alike.get w point) tail) waiting
        cases point with
        | settingUp i c => cases result <;> exact .some (twins.goto (at_ _) rfl rfl)
        | _ => exact .none
      | release w point =>
        have at_ (point : ReleasePoint) := Stacked.calls (k := k) (t := t)
          (.cons (Frame.Alike.release w point) tail) waiting
        cases point with
        | tearingDown c => exact .some (twins.goto (at_ _) rfl rfl)
        | _ => exact .none
      | processBody w point =>
        have at_ (point : BodyPoint Nat) := Stacked.calls (k := k) (t := t)
          (.cons (Frame.Alike.processBody w point) tail) waiting
        cases point with
        | running c => exact .some (twins.goto (at_ _) rfl rfl)
        | _ => exact .none
      | _ => exact .none
  | _ => exact .none

/-- Both innermost calls run the same foreign code, if any. -/
theorem hook (positive : 0 < t) :
    (A.stack t).head?.bind Frame.hook? = (B.stack t).head?.bind Frame.hook? ∧
      (A.stack t).head?.map Frame.isDrawing = (B.stack t).head?.map Frame.isDrawing := by
  have calls := twins.calls t positive
  generalize A.stack t = fs at calls ⊢
  generalize B.stack t = gs at calls ⊢
  cases calls with
  | calls alike waiting =>
    cases alike with
    | nil => exact ⟨rfl,rfl⟩
    | cons head tail =>
      cases head with
      | get w point => cases point <;> exact ⟨rfl,rfl⟩
      | release w point => cases point <;> exact ⟨rfl,rfl⟩
      | processBody w point => cases point <;> exact ⟨rfl,rfl⟩
      | _ => exact ⟨rfl,rfl⟩
  | _ => exact ⟨rfl,rfl⟩

theorem assign (positive : 0 < t) (value : Enricher) :
    Option.Rel (fun one other => Twins old new k one.1 other.1)
      (A.step t (.assign value)) (B.step t (.assign value)) := by
  simp only [System.step,(twins.hook positive).1]
  cases (B.stack t).head?.bind Frame.hook? with
  | none => exact .none
  | some running => exact .some (twins.put running.2 value)

theorem isOpen (positive : 0 < t) : A.isOpen t = B.isOpen t := by
  obtain ⟨hook,drawing⟩ := twins.hook positive
  unfold System.isOpen
  rw [twins.threads]
  generalize A.stack t = fs at hook drawing ⊢
  generalize B.stack t = gs at hook drawing ⊢
  cases fs <;> cases gs <;> simp_all [Frame.isForeign]

theorem call (positive : 0 < t) (away : t ≠ Stock.runThread) {called called' : Call}
    (first : ∀ below twin : List (Frame Enricher Nat),
      List.Forall₂ (Frame.Alike old new) below twin →
        List.Forall₂ (Frame.Alike old new) (firstFrames called below) (firstFrames called' twin)) :
    Option.Rel (Agree old new k t) (A.step t (.call called)) (B.step t (.call called')) := by
  simp only [System.step,twins.isOpen positive]
  split
  · have calls := twins.calls t positive
    generalize A.stack t = fs at calls ⊢
    generalize B.stack t = gs at calls ⊢
    cases calls with
    | calls alike waiting =>
      exact .some (twins.goto (.calls (first _ _ alike) fun own => absurd own away) rfl rfl)
    | counting own | load own | logStats own => exact absurd own away
  · exact .none

theorem enter {called called' : Call} (idle : A.stack Stock.runThread = [])
    (first : Stacked old new k Stock.runThread (firstFrames called []) (firstFrames called' [])) :
    Option.Rel (Agree old new k Stock.runThread) (A.step Stock.runThread (.call called))
      (B.step Stock.runThread (.call called')) := by
  have calls := twins.calls Stock.runThread (by decide)
  rw [idle] at calls
  have idle' : B.stack Stock.runThread = [] := by
    generalize B.stack Stock.runThread = gs at calls ⊢
    cases calls with
    | calls alike waiting => exact List.forall₂_nil_left_iff.mp alike
  simp only [System.step,twins.isOpen (t := Stock.runThread) (by decide),idle,idle']
  split
  · exact .some (twins.goto first rfl rfl)
  · exact .none

end Twins
end
end Pipeline
end PerWorker
