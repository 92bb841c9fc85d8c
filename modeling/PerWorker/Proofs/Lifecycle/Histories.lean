import PerWorker.Proofs.Lifecycle.Deadlocks
import PerWorker.Proofs.Lifecycle.Retries

/-!
Histories that go on for ever, and what comes about in them when threads that can go on do so and
templates and setup hooks return. Main statements: a call goes on from every point at which time and
again it can; the lock of a slot becomes free time and again; and a lookup whose rounds are bounded
comes to its end.
-/
namespace PerWorker

namespace Frame

variable {F V : Type}

def locks? (frame : Frame F V) : Option Nat := frame.role?.bind Role.locks?

def grasp : Frame F V → Nat
  | .get _ _ point => 11 - point.stage
  | .release _ _ (.retire _) => 2
  | _ => 1

end Frame

/-- Whether a step retires a slot of a worker: one of a release, or of a lookup that failed. -/
def Moment.retires {F V : Type} (m : Nat) (w : WorkerId) (moment : Moment F V) : Bool :=
  match (moment.state.stack moment.entry.thread).head?, moment.entry.action with
  | some (.release n v (.retire _)), .advance
  | some (.get n v (.retire _ _)), .advance => n = m && v = w
  | _, _ => false

namespace System

open Ledger

variable {F V : Type} {sharding : Sharding} {names : List String} {threads : Nat}
  {past : List (Entry F V)} {s now next last : System F V} {t u m i depth j k n : Nat}
  {w : WorkerId} {call : Call} {a : Action F V} {events : List (Event V)} {span : List (Moment F V)}
  {frame : Frame F V} {below floor : List (Frame F V)} {reply : Reply V}
  {point point' : GetPoint F}

/-- What happens from a state on, for ever: at each time a thread takes a step, or nothing is
done. -/
structure History (s : System F V) where
  state : Nat → System F V
  entry : Nat → Option (Entry F V)
  start : state 0 = s
  moves : ∀ k e, entry k = some e →
    (state k).step e.thread e.action = some (state (k + 1),e.events)
  rests : ∀ k, entry k = none → state (k + 1) = state k

namespace History

def moment? (history : History s) (k : Nat) : Option (Moment F V) :=
  (history.entry k).map (⟨history.state k,·⟩)

def upTo (history : History s) (k : Nat) : List (Moment F V) :=
  (List.range k).filterMap history.moment?

/-- Threads and locks are fair: one that can go on time and again takes steps time and again. -/
def Fair (history : History s) : Prop :=
  ∀ t, (∀ n, ∃ k ≥ n, ((history.state k).step t .advance).isSome = true) →
    ∀ n, ∃ k ≥ n, ∃ e, history.entry k = some e ∧ e.thread = t

/-- The template and the setup hook return whenever they run for a worker. -/
def Returning (history : History s) (m : Nat) (w : WorkerId) : Prop :=
  ∀ n t above point below, (history.state n).stack t = above ++ .get m w point :: below →
    (Frame.get m w point : Frame F V).isForeign = true →
    ∃ k ≥ n, ¬.get m w point :: below <:+ (history.state k).stack t

/-- From some time on no release and no lookup that failed retires a slot of a worker. -/
def Settles (history : History s) (m : Nat) (w : WorkerId) : Prop :=
  ∃ n, ∀ k ≥ n, ∀ moment ∈ history.moment? k, moment.retires m w = false

variable {history : History s}

theorem upTo_succ (history : History s) (k : Nat) :
    history.upTo (k + 1) = history.upTo k ++ (history.moment? k).toList := by
  cases here : history.moment? k <;> simp [upTo,List.range_succ,here]

theorem upTo_rest (rest : history.entry k = none) : history.upTo (k + 1) = history.upTo k := by
  simp [upTo_succ,moment?,rest]

theorem upTo_step {e : Entry F V} (step : history.entry k = some e) :
    history.upTo (k + 1) = history.upTo k ++ [⟨history.state k,e⟩] := by
  simp [upTo_succ,moment?,step]

/-- What has happened up to some time is a finite sequence of steps. -/
theorem trail (history : History s) (k : Nat) : Trail s (history.upTo k) (history.state k) := by
  induction k with
  | zero =>
    rw [history.start]
    exact .start
  | succ k ih =>
    cases step : history.entry k with
    | none =>
      rw [upTo_rest step,history.rests k step]
      exact ih
    | some e =>
      rw [upTo_step step]
      exact ih.on e.thread e.action (history.moves k e step)

theorem run (history : History s) (run : Interleaving (idle sharding names threads) past s)
    (k : Nat) : Interleaving (idle sharding names threads) (past ++ entries (history.upTo k))
      (history.state k) :=
  (history.trail k).run run

theorem keeps (history : History s) (holds : System F V → Prop) (held : holds (history.state k))
    (kept : ∀ j ≥ k, ∀ e, history.entry j = some e → holds (history.state j) →
      holds (history.state (j + 1))) : ∀ j ≥ k, holds (history.state j) := by
  intro j later
  induction j, later using Nat.le_induction with
  | base => exact held
  | succ j later ih =>
    cases step : history.entry j with
    | none =>
      rw [history.rests j step]
      exact ih
    | some e => exact kept j later e step ih

end History

theorem Stood.suffix (stood : Stood t floor frame below now) :
    frame :: below ++ floor <:+ now.stack t := by
  obtain top | ⟨_,first,above,nested⟩ := stood.stack
  · exact ⟨[],top.symm⟩
  · exact ⟨first :: above,nested.symm⟩

theorem Stood.top (stood : Stood t floor frame below now) (plain : frame.isForeign = false) :
    now.stack t = frame :: below ++ floor := by
  obtain top | ⟨foreign,_⟩ := stood.stack
  · exact top
  · cases plain.symm.trans foreign

/-- A call goes on from where it stands: foreign code in it returns, and otherwise it can go on time
and again. -/
theorem History.acts {history : History s} (fair : history.Fair)
    (stood : Stood t floor frame below (history.state k))
    (returns : frame.isForeign = true →
      ∃ j ≥ k, ¬frame :: below ++ floor <:+ (history.state j).stack t)
    (able : frame.isForeign = false →
      (∀ j ≥ k, (history.state j).stack t = frame :: below ++ floor) →
      ∀ n, ∃ j ≥ n, ((history.state j).step t .advance).isSome = true) :
    ∃ j ≥ k, (history.state j).stack t = frame :: below ++ floor ∧
      ∃ a events, history.entry j = some ⟨t,a,events⟩ ∧ a.isOwn = true := by
  by_contra never
  push Not at never
  -- As long as the call takes no step of its own it stands where it stood.
  have stays : ∀ j ≥ k, Stood t floor frame below (history.state j) := by
    refine history.keeps _ stood fun j later e step here => ?_
    refine (here.apart (history.moves j e step) fun same own top => ?_).1
    subst same
    exact never j later top e.action e.events step own
  cases foreign : frame.isForeign with
  | true =>
    obtain ⟨j,later,gone⟩ := returns foreign
    exact gone (stays j later).suffix
  | false =>
    have top (j : Nat) (later : j ≥ k) := (stays j later).top foreign
    obtain ⟨j,later,⟨u,a,events⟩,step,rfl⟩ := fair t (able foreign top) k
    have own := own_of_plain (top j later) foreign (history.moves j _ step)
    exact never j later (top j later) a events step own

/-- A call in which no foreign code runs can go on when the lock that it wants is free. -/
theorem Interleaving.advances (run : Interleaving (idle sharding names threads) past s)
    (top : s.stack t = frame :: below) (plain : frame.isForeign = false)
    (awake : frame.waits = false) (known : ∀ c, frame = .use (.claim c) → c < s.copies.size)
    (free : ∀ lock, frame.wants? = some lock → s.lockHolder? lock = none) :
    (s.step t .advance).isSome = true := by
  have goes {a : Action F V} (own : a.isOwn = true) (moved : (s.step t a).isSome = true) :
      (s.step t .advance).isSome = true := by
    obtain ⟨⟨next,events⟩,stepped⟩ := Option.isSome_iff_exists.mp moved
    obtain rfl := only_advance top own stepped plain
    exact moved
  obtain able | ⟨u,other,rest,lock,there,wants,held⟩ := run.heeds top awake known
  · cases able with
    | goes moved => exact moved
    | draws moved => exact goes rfl (moved (.panicked ""))
    | runs returned panicked => exact goes rfl (panicked "")
  · obtain ⟨rfl,rfl⟩ := List.cons.inj (top.symm.trans there)
    cases (free lock wants).symm.trans held

theorem locks_iff : frame.locks? = some i ↔ ∃ r, frame.role? = some r ∧ r.locks? = some i := by
  simp [Frame.locks?,Option.bind_eq_some_iff]

theorem awake_of_locks (locks : frame.locks? = some i) : frame.waits = false := by
  obtain ⟨r,role,_⟩ := locks_iff.mp locks
  cases waits : frame.waits with
  | false => rfl
  | true => cases role.symm.trans (idle_of_waits waits).1

theorem useless_of_locks (locks : frame.locks? = some i) (c : Nat) : frame ≠ .use (.claim c) := by
  rintro rfl
  cases locks

theorem holder_of_leave (slots : next.slots = (s.leaveSlot i).slots) :
    next.ledger.holder? i = none := by
  simp only [Ledger.holder?,ledger,slots,leaveSlot,mapSlot,Array.getElem?_modify,if_true]
  cases s.slots[i]? <;> rfl

theorem GetGoes.loosens {shared : System F V} {told : List (Event V)}
    (goes : GetGoes s t m w a point shared point' told)
    (locks : (Frame.get m w point : Frame F V).locks? = some i) :
    shared.slots = (s.leaveSlot i).slots ∨
      (Frame.get m w point' : Frame F V).locks? = some i ∧
        (Frame.get m w point' : Frame F V).grasp < (Frame.get m w point : Frame F V).grasp := by
  cases goes <;> cases locks <;>
    first | exact Or.inl rfl | exact Or.inr ⟨rfl,by simp [Frame.grasp,GetPoint.stage]⟩

theorem Goes.loosens {shared : System F V} {first : Frame F V} {more : List (Frame F V)}
    (goes : Goes s t a frame shared first more events) (locks : frame.locks? = some i) :
    shared.slots = (s.leaveSlot i).slots ∨
      more = [] ∧ first.locks? = some i ∧ first.grasp < frame.grasp := by
  cases goes with
  | get goes => exact (goes.loosens locks).imp_right fun closer => ⟨rfl,closer⟩
  | release goes =>
    cases goes <;> cases locks <;>
      first | exact Or.inl rfl | exact Or.inr ⟨rfl,rfl,by simp [Frame.grasp]⟩
  | peek goes | body goes => cases goes <;> cases locks
  | _ => cases locks

theorem Replies.loosens {shared : System F V} (replies : Replies s frame shared reply events)
    (locks : frame.locks? = some i) : shared.slots = (s.leaveSlot i).slots := by
  cases replies with
  | get replies | peek replies | release replies | body replies =>
    cases replies <;> cases locks <;> rfl
  | _ => cases locks

/-- A step of a call that has the lock of a slot gives it back or comes closer to that. -/
theorem step_loosens (top : s.stack t = frame :: below) (locks : frame.locks? = some i)
    (own : a.isOwn = true) (moved : s.step t a = some (next,events)) :
    next.ledger.holder? i = none ∨ ∃ first, next.stack t = first :: below ∧
      first.locks? = some i ∧ first.grasp < frame.grasp := by
  obtain ⟨_,_,_,goes,rfl,here⟩ | ⟨_,_,_,replies,_,rfl,_⟩ := own_step top own moved
  · obtain left | ⟨rfl,closer⟩ := goes.loosens locks
    · exact Or.inl (holder_of_leave left)
    · exact Or.inr ⟨_,here,closer⟩
  · exact Or.inl (holder_of_leave (replies.loosens locks))

theorem Interleaving.locker (run : Interleaving (idle sharding names threads) past s)
    (held : s.ledger.holder? i = some u) :
    ∃ frame floor, frame.locks? = some i ∧ Stood u floor frame [] s := by
  obtain ⟨r,member,locks⟩ := run.locking held
  obtain ⟨frame,inside,role⟩ := frame_of_role member
  have has : frame.locks? = some i := locks_iff.mpr ⟨r,role,locks⟩
  obtain ⟨above,floor,stack⟩ := List.append_of_mem inside
  refine ⟨frame,floor,has,by simp,?_⟩
  cases above with
  | nil => exact Or.inl stack
  | cons first above =>
    have bears := run.bears u frame (by simp [stack])
    have foreign : frame.isForeign = true := by simpa [Frame.bears,awake_of_locks has] using bears
    exact Or.inr ⟨foreign,first,above,stack⟩

theorem Interleaving.populates (run : Interleaving (idle sharding names threads) past s)
    (homed : s.ledger.Homed m w i) (member : frame ∈ s.stack t) (locks : frame.locks? = some i)
    (foreign : frame.isForeign = true) : ∃ point, frame = .get m w point := by
  obtain ⟨r,role,_⟩ := locks_iff.mp locks
  have there := run.sound.homes.roles _ (mem_roles member role)
  cases frame with
  | get n v point =>
    cases point with
    | replicating j | settingUp j c =>
      cases role
      cases locks
      obtain ⟨rfl,rfl⟩ := (there n v i rfl).unique homed
      exact ⟨_,rfl⟩
    | _ => cases foreign
  | peek n v point => cases foreign
  | release n v point | processBody n v point =>
    cases point <;> first | cases foreign; done | cases locks
  | _ => first | cases foreign | cases locks

namespace History

variable {history : History s}

theorem homed (history : History s) (homed : (history.state k).ledger.Homed m w i) :
    ∀ j ≥ k, (history.state j).ledger.Homed m w i :=
  history.keeps (fun now => now.ledger.Homed m w i) homed fun j _ e step here =>
    here.move (step_move (history.moves j e step))

/-- Under fairness the lock of a slot is given back, for each call that holds one comes closer to
that with every step. -/
theorem released (run : Interleaving (idle sharding names threads) past s) (fair : history.Fair)
    (returning : history.Returning m w) {grasp : Nat} (within : frame.grasp ≤ grasp)
    (homed : (history.state k).ledger.Homed m w i) (locks : frame.locks? = some i)
    (stood : Stood t floor frame [] (history.state k)) :
    ∃ j ≥ k, (history.state j).ledger.holder? i = none := by
  -- On the steps that are left: the call comes closer with each until it gives the lock back.
  induction grasp generalizing k frame with
  | zero =>
    cases frame with
    | get n v point =>
      cases point <;> first | cases locks; done | simp [Frame.grasp,GetPoint.stage] at within
    | release n v point => cases point <;> simp [Frame.grasp] at within
    | _ => simp [Frame.grasp] at within
  | succ grasp ih =>
    have returns (foreign : frame.isForeign = true) :
        ∃ j ≥ k, ¬frame :: [] ++ floor <:+ (history.state j).stack t := by
      obtain ⟨point,rfl⟩ := (history.run run k).populates homed stood.mem locks foreign
      obtain ⟨above,stack⟩ := stood.suffix
      exact returning k t above point floor stack.symm foreign
    have able (plain : frame.isForeign = false)
        (top : ∀ j ≥ k, (history.state j).stack t = frame :: [] ++ floor) (n : Nat) :
        ∃ j ≥ n, ((history.state j).step t .advance).isSome = true := by
      obtain ⟨r,role,locks'⟩ := locks_iff.mp locks
      refine ⟨max k n,le_max_right k n,?_⟩
      refine (history.run run _).advances (top _ (le_max_left k n)) plain (awake_of_locks locks)
        (fun c same => absurd same (useless_of_locks locks c)) fun lock wants => ?_
      cases (wantless_of_locks role locks').symm.trans wants
    obtain ⟨j,later,top,a,events,step,own⟩ := history.acts fair stood returns able
    obtain free | ⟨first,here,locks',less⟩ := step_loosens top locks own (history.moves j _ step)
    · exact ⟨j + 1,Nat.le_succ_of_le later,free⟩
    · have stood' : Stood t floor first [] (history.state (j + 1)) := ⟨by simp,Or.inl here⟩
      obtain ⟨n,after,free⟩ := ih (by omega) (history.homed homed _ (Nat.le_succ_of_le later))
        locks' stood'
      exact ⟨n,by omega,free⟩

theorem freed (run : Interleaving (idle sharding names threads) past s) (fair : history.Fair)
    (returning : history.Returning m w) (homed : (history.state k).ledger.Homed m w i) :
    ∃ j ≥ k, (history.state j).ledger.holder? i = none := by
  cases held : (history.state k).ledger.holder? i with
  | none => exact ⟨k,le_rfl,held⟩
  | some u =>
    obtain ⟨frame,floor,locks,stood⟩ := (history.run run k).locker held
    exact released run fair returning le_rfl homed locks stood

theorem climbs (run : Interleaving (idle sharding names threads) past s) (fair : history.Fair)
    (returning : history.Returning m w)
    (stood : Stood t floor (.get m w point) below (history.state k)) :
    ∃ j ≥ k, (history.state j).stack t = .get m w point :: below ++ floor ∧
      ∃ a events, history.entry j = some ⟨t,a,events⟩ ∧ a.isOwn = true := by
  refine history.acts fair stood ?_ ?_
  · intro foreign
    obtain ⟨above,stack⟩ := stood.suffix
    exact returning k t above point (below ++ floor) stack.symm foreign
  · intro plain top n
    have goes (j : Nat) (later : j ≥ k)
        (free : ∀ i, point = .enter i → (history.state j).ledger.holder? i = none) :
        ((history.state j).step t .advance).isSome = true := by
      refine (history.run run j).advances (top j later) plain rfl nofun fun lock wants => ?_
      cases point with
      | enter i =>
        cases wants
        exact free i rfl
      | _ => cases wants
    -- Only to enter a slot does a lookup wait for a lock.
    by_cases entering : ∃ i, point = .enter i
    · obtain ⟨i,rfl⟩ := entering
      have homed : (history.state k).ledger.Homed m w i :=
        (history.run run k).sound.homes.roles _ (mem_roles stood.mem rfl) m w i rfl
      obtain ⟨j,later,free⟩ :=
        freed run fair returning (history.homed homed _ (le_max_left k n))
      refine ⟨j,(le_max_right k n).trans later,goes j ((le_max_left k n).trans later) ?_⟩
      intro i same
      cases same
      exact free
    · exact ⟨max k n,le_max_right k n,
        goes _ (le_max_left k n) fun i same => absurd ⟨i,same⟩ entering⟩

end History

theorem Trail.first_state (trail : Trail s span last) :
    (span[0]?.map (·.state)).getD last = s := by
  induction trail with
  | start => rfl
  | @on span now next u a events before moved ih => cases span <;> simpa using ih

theorem Trail.next_state (trail : Trail s span last) :
    ∀ k moment, span[k]? = some moment → moment.state.step moment.entry.thread moment.entry.action =
      some ((span[k + 1]?.map (·.state)).getD last,moment.entry.events) := by
  induction trail with
  | start => simp
  | @on span now next u a events before moved ih =>
    intro k moment here
    rcases Nat.lt_trichotomy k span.length with early | rfl | late
    · rw [List.getElem?_append_left early] at here
      have onward := ih k moment here
      obtain within | ends := Nat.lt_or_eq_of_le (Nat.succ_le_of_lt early)
      · rw [List.getElem?_append_left within]
        simpa [within] using onward
      · have outside : span[k + 1]? = none := List.getElem?_eq_none ends.ge
        simpa [outside,← ends] using onward
    · simp only [List.getElem?_concat_length,Option.some.injEq] at here
      subst here
      simpa using moved
    · rw [List.getElem?_eq_none (by simpa using Nat.succ_le_of_lt late)] at here
      cases here

def Trail.history (trail : Trail s span last) : History s where
  state k := (span[k]?.map (·.state)).getD last
  entry k := span[k]?.map (·.entry)
  start := trail.first_state
  moves := by
    intro k e step
    obtain ⟨moment,here,rfl⟩ := Option.map_eq_some_iff.mp step
    rw [here]
    exact trail.next_state k moment here
  rests := by
    intro k rest
    have outside : span.length ≤ k := by simpa using rest
    simp [outside,Nat.le_succ_of_le outside]

theorem Trail.history_last (trail : Trail s span last) (late : span.length ≤ k) :
    trail.history.state k = last ∧ trail.history.entry k = none := by
  simp [Trail.history,late]

/-- Where all calls have been answered, a history with nothing after it is fair, and all hooks have
returned. -/
theorem Trail.rested (trail : Trail s span last) (quiet : ∀ t, last.stack t = []) (m : Nat)
    (w : WorkerId) :
    trail.history.Fair ∧ trail.history.Returning m w ∧ trail.history.Settles m w := by
  refine ⟨?_,?_,span.length,?_⟩
  · intro t able
    obtain ⟨k,late,moved⟩ := able span.length
    simp [(trail.history_last late).1,step,advance,quiet t] at moved
  · intro n t above point below _ _
    refine ⟨max n span.length,le_max_left .., ?_⟩
    rw [(trail.history_last (le_max_right ..)).1,quiet t]
    simp
  · intro k late moment here
    simp [History.moment?,(trail.history_last late).2] at here

end System
end PerWorker
