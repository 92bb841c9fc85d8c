import PerWorker.Proofs.Lifecycle.Progress
import PerWorker.Proofs.Lifecycle.Sequels

/-!
Linearizability of the calls on one manager. A session is followed from its end: where no call is
under way nothing is left, and each step before gives a sequel for what is left from there on. The
sequel at the start is an order of all operations that a plain map explains.
-/
namespace PerWorker
open Ledger

theorem Serial.explains {V : Type} {name : String} {m : Nat} {torn : Nat → Option Fault → Prop}
    {copies : WorkerId → Option Nat} {deeds : List (Deed V)} {used : List Nat}
    (serial : Serial name m torn copies deeds) (once : (deeds.filterMap Deed.made).Nodup)
    (unused : ∀ c ∈ deeds.filterMap Deed.made, c ∉ used) :
    Register.Explains name m torn ⟨copies,used⟩ (deeds.map Deed.op) := by
  induction serial generalizing used with
  | nil copies => exact .done _
  | @cons copies x rest w entry effect after ih =>
    obtain ⟨⟨t,call,reply,called,returned⟩,made⟩ := x
    change Entails name m torn w (copies w) call reply made entry at effect
    generalize registered : copies w = old at effect
    have unchanged {entry : Option Nat} (same : copies w = entry) :
        Function.update copies w entry = copies := by
      rw [← same,Function.update_eq_self]
    cases effect with
    | found c =>
      rw [unchanged registered] at ih
      exact .next (.found registered) (ih once unused)
    | made c =>
      obtain ⟨absent,nodup⟩ := List.nodup_cons.mp once
      refine .next (.made registered (unused c List.mem_cons_self)) (ih nodup ?_)
      intro d later listed
      obtain rfl | old := List.mem_cons.mp listed
      · exact absent later
      · exact unused d (List.mem_cons_of_mem _ later) old
    | cloneFailed e =>
      rw [unchanged registered] at ih
      exact .next (.cloneFailed registered) (ih once unused)
    | setupFailed n fault =>
      rw [unchanged registered] at ih
      exact .next (.setupFailed registered) (ih once unused)
    | peeked =>
      rw [unchanged registered] at ih
      exact .next (registered ▸ .peeked) (ih once unused)
    | removed c fault ended => exact .next (.removed registered ended) (ih once unused)
    | absent =>
      rw [unchanged registered] at ih
      exact .next (.absent registered) (ih once unused)

theorem completed_returned {F V : Type} (entries : List (Entry F V)) (n : Nat)
    (begun : Nat → Option (Call × Nat)) :
    ∀ x ∈ completed begun (talks n entries), n ≤ x.returned := by
  have stamped : ∀ y ∈ talks n entries, n ≤ y.1 := by
    induction entries generalizing n with
    | nil => simp [talks]
    | cons entry rest ih =>
      intro y member
      obtain own | later := List.mem_append.mp member
      · obtain ⟨talk,_,rfl⟩ := List.mem_map.mp own
        exact le_rfl
      · exact Nat.le_of_succ_le (ih (n + 1) y later)
  generalize talks n entries = stamps at stamped
  induction stamps generalizing begun with
  | nil => simp [completed]
  | cons y rest ih =>
    obtain ⟨k,t,talk⟩ := y
    have rest' := fun y member => stamped y (List.mem_cons_of_mem _ member)
    cases talk with
    | called call => exact ih _ rest'
    | returned reply =>
      intro x member
      obtain own | later := List.mem_append.mp member
      · obtain ⟨⟨call,called⟩,_,rfl⟩ := List.mem_map.mp own
        exact stamped _ List.mem_cons_self
      · exact ih _ rest' x later

namespace Ledger

variable {l next : Ledger} {notes : List Note} {m i c : Nat} {w : WorkerId}

theorem Homed.move (homed : l.Homed m w i) (move : Move l notes next) : next.Homed m w i := by
  obtain ⟨t,before,after,notes,shared,rest,split,shift⟩ := move
  have kept : shared.Homed m w i := homed.shift shift
  exact kept

theorem Bound.move (bound : l.Bound c m w) (move : Move l notes next) : next.Bound c m w := by
  obtain ⟨t,before,after,notes,shared,rest,split,shift⟩ := move
  have kept : shared.Bound c m w := bound.shift shift
  exact kept

theorem Fresh.back (fresh : next.Fresh c) (move : Move l notes next) : l.Fresh c := by
  obtain ⟨t,before,after,notes,shared,rest,split,shift⟩ := move
  obtain unborn | ⟨x,member,m,w,fosters⟩ := fresh
  · exact Or.inl (shift.bonds.trans unborn)
  · obtain own | other := Multiset.mem_add.mp member
    · obtain ⟨r,chosen,rfl⟩ := mem_tagged.mp own
      obtain ⟨q,played,same⟩ | ⟨unborn,_⟩ := shift.fosters chosen fosters
      · exact Or.inr ⟨_,mem_of_split split played,m,w,same⟩
      · exact Or.inl unborn
    · exact Or.inr ⟨x,by simp [split,other],m,w,fosters⟩

theorem not_fresh_of_live (custody : Custody notes l) (bonded : Bonded l)
    (live : l.state? i = some (.live c)) : ¬l.Fresh c := by
  rintro (unborn | ⟨⟨t,r⟩,member,m,w,fosters⟩)
  · obtain ⟨m,w,⟨bond,entry,_⟩,_⟩ := bonded.live i c live
    exact absurd (Array.getElem?_eq_some_iff.mp entry).1 (Nat.not_lt.mpr unborn)
  · obtain ⟨place,placed,apart⟩ : ∃ place, r.place? t c = some place ∧ place ≠ .resting i := by
      cases r with
      | settingUp n v j d =>
        cases fosters
        exact ⟨.settingUp t j,by simp [Role.place?],by simp⟩
      | ready n v j d =>
        cases fosters
        exact ⟨.ready t j,by simp [Role.place?],by simp⟩
      | _ => cases fosters
    have here : place ∈ l.places c := place_of_role member placed
    rw [custody.resting live] at here
    exact apart (Multiset.mem_singleton.mp here)

end Ledger

namespace System

variable {F V : Type} {sharding : Sharding} {names : List String} {threads : Nat} {m n : Nat}
  {name : String} {torn : Nat → Option Fault → Prop} {before entries past : List (Entry F V)}
  {s last : System F V}

theorem Interleaving.ready (run : Interleaving (idle sharding names threads) before s)
    (present : m < names.length) (named : s.name m = name) : s.Ready name m :=
  ⟨run.sound,run.bonded,run.managers ▸ present,named⟩

theorem completed_step {l next : Ledger} {t u : Nat}
    {stands stands' : Nat → Stand V} {begun : Nat → Option (Call × Nat)} {said : Option (Talk V)}
    {rest : List (Nat × Nat × Talk V)} {calls : List Call}
    (advance : Advance name m torn l next (stands t) (stands' t) said)
    (begins : Begun stands begun n)
    (left : ((completed (sinceTalk begun n t said) rest).filter (·.thread = u)).map Operation.call =
      (sinceTalk begun n t said u).toList.map Prod.fst ++ calls) :
    ((completed begun (said.toList.map (n,t,·) ++ rest)).filter (·.thread = u)).map Operation.call =
      (begun u).toList.map Prod.fst ++
        ((if t = u then said.toList.filterMap Talk.call? else []) ++ calls) := by
  have begin := begins t
  generalize stands t = stand at advance begin
  generalize stands' t = stand' at advance
  by_cases own : t = u
  · subst own
    cases advance with
    | begin call =>
      have none : begun t = none := begin
      simpa [completed,sinceTalk,none,Talk.call?] using left
    | skip | fail | answer =>
      obtain ⟨called,_,began⟩ := begin
      simpa [completed,sinceTalk,began,Talk.call?,List.filterMap_cons] using left
    | wait | register | settle | detach | restart | carry => simpa [sinceTalk] using left
  · cases advance with
    | begin call => simpa [completed,sinceTalk,own,Ne.symm own] using left
    | skip | fail | answer =>
      obtain ⟨called,_,began⟩ := begin
      simpa [completed,sinceTalk,began,own,Ne.symm own] using left
    | wait | register | settle | detach | restart | carry => simpa [sinceTalk,own] using left

/-- Where no call is under way there is nothing to be put in order. -/
theorem Interleaving.rest (run : Interleaving (idle sharding names threads) before s)
    (present : m < names.length) (complete : ∀ t, s.stack t = [])
    (begun : Nat → Option (Call × Nat)) :
    Nonempty (Sequel name m torn s.ledger (s.stand name) begun []) := by
  have idle (t : Nat) : s.stand name t = .idle := by simp only [stand,complete]
  refine ⟨{ order := [], pending := [], due := 0, all := rfl, serial := .nil _, cells := ?_
            waits := by simp, owed := by simp, owes := by simp [idle], single := by simp
            timely := .nil, queued := .nil, fresh := by simp, once := .nil }⟩
  intro w i homed unmapped
  obtain mapped | ⟨u,removing⟩ | retired :=
    run.sound.removal.reached m w i (run.managers ▸ present) homed
  · exact absurd mapped unmapped
  · simp [Ledger.removers,threadsOf,roles_of_idle complete] at removing
  · rw [retired]
    exact .nil

theorem Session.sequel (session : Session m s entries last) (complete : ∀ t, last.stack t = [])
    (run : Interleaving (idle sharding names threads) before s) (present : m < names.length)
    (named : s.name m = name) (orderly : ∀ t, s.Orderly name m t)
    (begun : Nat → Option (Call × Nat)) (begins : Begun (s.stand name) begun n)
    (ended : ∀ entry ∈ entries, ∀ c ending result, entry.action = .finish result →
      .hookEnded .teardown c ending ∈ entry.events → torn c (failure? result)) :
    Nonempty (Sequel name m torn s.ledger (s.stand name) begun (completed begun (talks n entries))) ∧
      ∀ u, ((completed begun (talks n entries)).filter (·.thread = u)).map Operation.call =
        (begun u).toList.map Prod.fst ++ callsOf u entries := by
  -- The session gives what is left, the run before it what is known of the state.
  induction session generalizing before begun n with
  | done s =>
    refine ⟨run.rest present complete begun,fun u => ?_⟩
    have none := begins u
    simp only [stand,complete] at none
    simp [talks,completed,callsOf,none]
  | @step s next last rest t a events moved allowed after ih =>
    have run' := run.step t a events moved
    have move := step_move moved
    have progress : Progress name m torn s next t events :=
      step_progress (run.ready present named)
        (fun i c live => not_fresh_of_live run'.custody run'.bonded live) (orderly t) allowed
        (fun c ending result => ended _ List.mem_cons_self c ending result) moved
    obtain ⟨said,told,advance⟩ := progress.advance
    have others (u : Nat) (other : u ≠ t) : next.stand name u = s.stand name u := by
      simp only [stand,progress.others u other]
    have orderly' (u : Nat) : next.Orderly name m u := by
      by_cases own : u = t
      · exact own ▸ progress.orderly
      · obtain idle | ⟨frame,top,fits⟩ := orderly u
        · exact Or.inl ((progress.others u own).trans idle)
        · exact Or.inr ⟨frame,(progress.others u own).trans top,
            fits.mono fun c w bound => bound.move move⟩
    obtain ⟨⟨sequel⟩,calls⟩ := ih complete run' (progress.named.trans named) orderly' _
      (advance.begins others begins) fun entry member => ended entry (List.mem_cons_of_mem _ member)
    have continued := advance.sequel others begins sequel
      (fun y member => completed_returned rest (n + 1) _ y member) (fun c fresh => fresh.back move)
      (fun w i homed => homed.move move) run.sound.homes.mapped
    rw [talks,told]
    refine ⟨continued,fun u => ?_⟩
    refine (completed_step advance begins (calls u)).trans ?_
    congr 1
    by_cases own : t = u <;> simp [callsOf,own,told]

/-- The operations of every complete session with a manager can be put in one sequence that keeps
what returned before what was called later, and in which every call answers as a plain map does. -/
theorem Session.linearizable (session : Session m (idle sharding names threads) past s)
    (present : m < names.length) (complete : ∀ t, s.stack t = []) :
    (∀ t, ((operations past).filter (·.thread = t)).map Operation.call = callsOf t past) ∧
    ∃ order : List (Operation V), order.Perm (operations past) ∧
      order.Pairwise Operation.MayPrecede ∧
      Register.Explains names[m] m (TornDown past) ⟨fun _ => none,[]⟩ order := by
  have unused (t : Nat) : (idle sharding names threads : System F V).stack t = [] := by
    by_cases bound : t < threads <;> simp [stack,idle,bound]
  have idle (t : Nat) : (idle sharding names threads : System F V).stand names[m] t = .idle := by
    simp only [stand,unused]
  have named : (System.idle sharding names threads : System F V).name m = names[m] := by
    simp [name,System.idle,start,present]
  have begins : Begun ((System.idle sharding names threads : System F V).stand names[m])
      (fun _ => none) 0 := by
    intro t
    rw [idle]
  have ended (entry : Entry F V) (member : entry ∈ past) (c : Nat) (ending : Ending)
      (result : Except Fault V) (acted : entry.action = .finish result)
      (told : .hookEnded .teardown c ending ∈ entry.events) : TornDown past c (failure? result) :=
    ⟨entry,member,⟨ending,told⟩,result,acted,rfl⟩
  obtain ⟨⟨sequel⟩,calls⟩ :=
    session.sequel complete .start present named (fun t => Or.inl (unused t)) _ begins ended
  -- All threads were idle in the beginning, so that no operation was under way by then.
  have pending : sequel.pending = [] := by
    apply List.eq_nil_iff_forall_not_mem.mpr
    intro x member
    obtain ⟨_,waiting,_⟩ := sequel.waits x member
    rw [idle] at waiting
    cases waiting
  have due : sequel.due = 0 := by
    apply Multiset.eq_zero_of_forall_notMem
    intro x member
    obtain ⟨debt,owing,_⟩ := sequel.owed x member
    rw [idle] at owing
    cases owing
  have all := sequel.all
  have once := sequel.once
  rw [pending,List.map_nil,List.append_nil] at all once
  rw [due,add_zero] at all
  refine ⟨calls,sequel.order.map Deed.op,Multiset.coe_eq_coe.mp all,?_,?_⟩
  · exact List.pairwise_map.mpr sequel.timely
  · have view : (System.idle sharding names threads : System F V).ledger.view m = fun _ => none := by
      rw [ledger_idle]
      rfl
    exact (view ▸ sequel.serial).explains once (by simp)

def handover : List (Nat × Action Nat Nat) :=
  [(0,.call (.get 0 (.named "a"))),(0,.advance),(0,.advance),(0,.advance),
    (1,.call (.release 0 (.named "a"))),(1,.advance),(0,.drawn (.copy 7)),(0,.advance),(0,.advance),
    (0,.finish (.ok 0)),(0,.advance),(0,.advance),(0,.advance),(0,.advance),(1,.advance),(1,.advance),
    (1,.advance),(1,.advance),(1,.advance),(1,.finish (.error { message := "stuck" })),(1,.advance),
    (1,.advance),(1,.advance),(1,.advance)]

theorem linearizable_of_handover :
    ∃ (past : List (Entry Nat Nat)) (s : System Nat Nat),
      Session 0 (idle .single ["pool"] 2) past s ∧ (∀ t, s.stack t = []) ∧
      operations past = [⟨0,.get 0 (.named "a"),.handle 0,0,13⟩,
        ⟨1,.release 0 (.named "a"),.failed (.teardown "pool" (.named "a") 1 { message := "stuck" }),4,23⟩] ∧
      ∃ order : List (Operation Nat), order.Perm (operations past) ∧
        order.Pairwise Operation.MayPrecede ∧
        Register.Explains "pool" 0 (TornDown past) ⟨fun _ => none,[]⟩ order := by
  obtain ⟨⟨s,past⟩,conversed⟩ :
      ∃ reached, (idle .single ["pool"] 2).converse 0 handover = some reached := ⟨_,rfl⟩
  have session := Session.of_converse conversed
  have complete (t : Nat) : s.stack t = [] := by
    have threads : s.threads = #[[],[]] := by
      cases conversed
      rfl
    match t with
    | 0 | 1 | t + 2 => simp [stack,threads]
  refine ⟨past,s,session,complete,?_,(session.linearizable Nat.one_pos complete).2⟩
  cases conversed
  rfl

end System

end PerWorker
