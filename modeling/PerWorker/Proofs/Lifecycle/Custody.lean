import PerWorker.Proofs.Lifecycle.Removal

/-!
What becomes of a copy. It is set up by one call, then kept in one place after the other until one
call claims it for teardown, and its hook history tells which of these it is. Main statements: in
every interleaving each hook runs on a copy at most once and teardown only after a setup that
succeeded, and no call hands out a copy or runs a body on it before that.
-/
namespace PerWorker

inductive Location where
  | settingUp (thread slot : Nat)
  /-- Set up by a thread that has not put it into its slot yet. -/
  | ready (thread slot : Nat)
  | resting (slot : Nat)
  /-- Taken out of its slot by a thread that has not started to tear it down. -/
  | taken (thread : Nat)
  | tearingDown (thread : Nat)
  deriving Repr, DecidableEq

inductive Phase where
  | settingUp
  | held
  | tearingDown
  deriving Repr, DecidableEq

def Location.phase : Location → Phase
  | .settingUp _ _ => .settingUp
  | .ready _ _ | .resting _ | .taken _ => .held
  | .tearingDown _ => .tearingDown

def Role.place? (t c : Nat) : Role → Option Location
  | .settingUp _ _ i d => if d = c then some (.settingUp t i) else none
  | .ready _ _ i d => if d = c then some (.ready t i) else none
  | .withdrawn _ _ _ (some d) | .taken d => if d = c then some (.taken t) else none
  | .tearingDown d => if d = c then some (.tearingDown t) else none
  | _ => none

def Role.shows? : Role → Option Nat
  | .leaving _ _ _ found => found
  | .serving c => some c
  | _ => none

namespace Ledger

def resting? (l : Ledger) (c i : Nat) : Option Location :=
  if l.state? i = some (.live c) then some (.resting i) else none

def slotPlaces (l : Ledger) (c : Nat) : Multiset Location :=
  ∑ i ∈ Finset.range l.slots.size, ↑(l.resting? c i).toList

def places (l : Ledger) (c : Nat) : Multiset Location :=
  l.roles.filterMap (fun x => x.2.place? x.1 c) + l.slotPlaces c

def phases (l : Ledger) (c : Nat) : Multiset Phase := (l.places c).map Location.phase

end Ledger

/-- The hook histories that a copy can have, each with the phases it is in at that point. -/
inductive Lifeline : List Beat → Multiset Phase → Prop
  | unborn : Lifeline [] 0
  | settingUp : Lifeline [.began .setup] {.settingUp}
  | discarded (ending : Ending) (failed : ending ≠ .returned) :
      Lifeline [.began .setup,.ended .setup ending] 0
  | held : Lifeline [.began .setup,.ended .setup .returned] {.held}
  | tearingDown :
      Lifeline [.began .setup,.ended .setup .returned,.began .teardown] {.tearingDown}
  | gone (ending : Ending) :
      Lifeline [.began .setup,.ended .setup .returned,.began .teardown,.ended .teardown ending] 0

inductive Passage (p q : Multiset Phase) : List Beat → Prop
  | kept (same : q = p) : Passage p q []
  | born (new : q = .settingUp ::ₘ p) : Passage p q [.began .setup]
  | succeeded (rest : Multiset Phase) (old : p = .settingUp ::ₘ rest) (new : q = .held ::ₘ rest) :
      Passage p q [.ended .setup .returned]
  | failed (ending : Ending) (failed : ending ≠ .returned) (old : p = .settingUp ::ₘ q) :
      Passage p q [.ended .setup ending]
  | claimed (rest : Multiset Phase) (old : p = .held ::ₘ rest) (new : q = .tearingDown ::ₘ rest) :
      Passage p q [.began .teardown]
  | finished (ending : Ending) (old : p = .tearingDown ::ₘ q) :
      Passage p q [.ended .teardown ending]

theorem Passage.add {p q : Multiset Phase} {beats : List Beat} (passage : Passage p q beats)
    (rest : Multiset Phase) : Passage (p + rest) (q + rest) beats := by
  cases passage with
  | kept same => exact .kept (by rw [same])
  | born new => exact .born (by rw [new,Multiset.cons_add])
  | succeeded r old new =>
    exact .succeeded (r + rest) (by rw [old,Multiset.cons_add]) (by rw [new,Multiset.cons_add])
  | failed ending failed old => exact .failed ending failed (by rw [old,Multiset.cons_add])
  | claimed r old new =>
    exact .claimed (r + rest) (by rw [old,Multiset.cons_add]) (by rw [new,Multiset.cons_add])
  | finished ending old => exact .finished ending (by rw [old,Multiset.cons_add])

theorem Lifeline.pass {history beats : List Beat} {p q : Multiset Phase}
    (line : Lifeline history p) (passage : Passage p q beats)
    (fresh : beats = [.began .setup] → history = []) : Lifeline (history ++ beats) q := by
  have alone {a b : Phase} {rest : Multiset Phase} (same : ({a} : Multiset Phase) = b ::ₘ rest) :
      a = b ∧ rest = 0 := by
    obtain ⟨rfl,rfl⟩ := (Multiset.singleton_eq_cons_iff ..).mp same
    exact ⟨rfl,rfl⟩
  cases passage with
  | kept same => simpa [same] using line
  | born new =>
    obtain rfl := fresh rfl
    cases line
    exact new ▸ .settingUp
  | succeeded rest old new =>
    cases line with
    | settingUp =>
      obtain ⟨_,rfl⟩ := alone old
      exact new ▸ .held
    | held | tearingDown => simp at old
    | unborn | discarded | gone => simp at old
  | failed ending failed old =>
    cases line with
    | settingUp =>
      obtain ⟨_,rfl⟩ := alone old
      exact .discarded ending failed
    | held | tearingDown => simp at old
    | unborn | discarded | gone => simp at old
  | claimed rest old new =>
    cases line with
    | held =>
      obtain ⟨_,rfl⟩ := alone old
      exact new ▸ .tearingDown
    | settingUp | tearingDown => simp at old
    | unborn | discarded | gone => simp at old
  | finished ending old =>
    cases line with
    | tearingDown =>
      obtain ⟨_,rfl⟩ := alone old
      exact .gone ending
    | settingUp | held => simp at old
    | unborn | discarded | gone => simp at old

theorem Passage.of_zero {q : Multiset Phase} {beats : List Beat} (passage : Passage 0 q beats) :
    beats = [] ∨ beats = [.began .setup] := by
  cases passage with
  | kept => exact Or.inl rfl
  | born => exact Or.inr rfl
  | succeeded rest old => simp at old
  | failed ending failed old => simp at old
  | claimed rest old => simp at old
  | finished ending old => simp at old

theorem Lifeline.of_nil {p : Multiset Phase} (line : Lifeline [] p) : p = 0 := by
  cases line
  rfl

theorem Lifeline.of_held {history : List Beat} {p : Multiset Phase} (line : Lifeline history p)
    (held : .held ∈ p) : history = [.began .setup,.ended .setup .returned] := by
  cases line <;> simp_all

theorem Lifeline.held_of {history : List Beat} {p : Multiset Phase} (line : Lifeline history p)
    (setUp : history = [.began .setup,.ended .setup .returned]) : p = {.held} := by
  cases line <;> simp_all

/-- A copy sees its setup hook once, and its teardown hook once at most and only after a setup that
returned. -/
theorem Lifeline.shape {history : List Beat} {p : Multiset Phase} (line : Lifeline history p) :
    (∃ ending, ending ≠ .returned ∧ history = [.began .setup,.ended .setup ending]) ∨
      ∃ ending, history <+:
        [.began .setup,.ended .setup .returned,.began .teardown,.ended .teardown ending] := by
  cases line with
  | discarded ending failed => exact Or.inl ⟨ending,failed,rfl⟩
  | gone ending => exact Or.inr ⟨ending,List.prefix_rfl⟩
  | unborn | settingUp | held | tearingDown => exact Or.inr ⟨.returned,by simp⟩

theorem Lifeline.teardown_after {before after : List Beat} {p : Multiset Phase}
    (line : Lifeline (before ++ .began .teardown :: after) p) :
    .ended .setup .returned ∈ before := by
  generalize told : before ++ .began .teardown :: after = history at line
  obtain _ | ⟨first,_ | ⟨second,rest⟩⟩ := before <;> cases line <;> simp_all

theorem beats_append (c : Nat) (notes more : List Note) :
    beats c (notes ++ more) = beats c notes ++ beats c more :=
  List.filterMap_append

theorem beats_beat (c d : Nat) (beat : Beat) :
    beats c [.beat d beat] = if d = c then [beat] else [] := by
  by_cases same : d = c <;> simp [beats,Note.beatOf?,same]

theorem Passage.of_beat {p q : Multiset Phase} {c d : Nat} {beat : Beat}
    (own : d = c → Passage p q [beat]) (other : d ≠ c → q = p) :
    Passage p q (beats c [.beat d beat]) := by
  rw [beats_beat]
  split
  next same => exact own same
  next apart => exact .kept (other apart)

theorem mem_of_beats {c : Nat} {beat : Beat} {notes : List Note} (member : beat ∈ beats c notes) :
    .beat c beat ∈ notes := by
  obtain ⟨n,present,told⟩ := List.mem_filterMap.mp member
  cases n with
  | beat d b =>
    simp only [Note.beatOf?] at told
    split at told
    next same =>
      obtain rfl := Option.some.inj told
      exact same ▸ present
    next => contradiction
  | handed | spoiled => cases told

theorem beats_of_mem {c : Nat} {beat : Beat} {notes : List Note} (noted : .beat c beat ∈ notes) :
    beat ∈ beats c notes :=
  List.mem_filterMap.mpr ⟨_,noted,by simp [Note.beatOf?]⟩

namespace Ledger

variable {l next : Ledger} {t m i c : Nat} {w : WorkerId} {before after : Option Role}
  {notes more : List Note} {rest : Multiset (Nat × Role)}

theorem places_split (split : l.roles = tagged t before + rest) :
    l.places c = ↑(before.bind (·.place? t c)).toList + rest.filterMap (fun x => x.2.place? x.1 c) +
      l.slotPlaces c := by
  rw [places,split,Multiset.filterMap_add]
  congr 2
  cases before with
  | none => rfl
  | some r => cases place : r.place? t c <;> simp [tagged,place,← Multiset.cons_zero]

theorem slotPlaces_same (size : next.slots.size = l.slots.size)
    (same : ∀ i, next.resting? c i = l.resting? c i) : next.slotPlaces c = l.slotPlaces c := by
  rw [slotPlaces,slotPlaces,size,funext same]

theorem slotPlaces_add {place : Location} (size : next.slots.size = l.slots.size)
    (bound : i < l.slots.size) (absent : l.resting? c i = none)
    (present : next.resting? c i = some place)
    (others : ∀ j, j ≠ i → next.resting? c j = l.resting? c j) :
    next.slotPlaces c = place ::ₘ l.slotPlaces c := by
  have member : i ∈ Finset.range l.slots.size := Finset.mem_range.mpr bound
  have kept : ∀ j ∈ (Finset.range l.slots.size).erase i,
      (↑(next.resting? c j).toList : Multiset Location) = ↑(l.resting? c j).toList := by
    intro j erased
    rw [others j (Finset.ne_of_mem_erase erased)]
  rw [slotPlaces,slotPlaces,size,← Finset.add_sum_erase _ _ member,
    ← Finset.add_sum_erase _ _ member,Finset.sum_congr rfl kept,absent,present]
  simp

theorem resting_lock (l : Ledger) (holder : Option Nat) (c i j : Nat) :
    (l.mapSlot i ({ · with holder })).resting? c j = l.resting? c j := by
  simp [resting?]

theorem resting_set (l : Ledger) (state : SlotState) (c i : Nat) {j : Nat} (other : j ≠ i) :
    (l.mapSlot i ({ · with state })).resting? c j = l.resting? c j := by
  simp [resting?,state_set,Ne.symm other]

def ownPlaces (t c : Nat) (role : Option Role) : Multiset Location :=
  ↑(role.bind (·.place? t c)).toList

theorem state_live (l : Ledger) (i c : Nat) :
    (∃ slot, l.slots[i]? = some slot ∧ slot.state = .live c) ↔ l.state? i = some (.live c) := by
  simp [state?]

theorem slotPlaces_register (l : Ledger) (slot : Slot) (vacant : slot.state = .vacant) (c : Nat)
    (old : next.slots = l.slots.push slot) : next.slotPlaces c = l.slotPlaces c := by
  have kept : ∀ i ∈ Finset.range l.slots.size,
      (↑(next.resting? c i).toList : Multiset Location) = ↑(l.resting? c i).toList := by
    intro i member
    have here : i ≠ l.slots.size := (Finset.mem_range.mp member).ne
    have same : next.state? i = l.state? i := by simp only [state?,old,slots_push,if_neg here]
    simp only [resting?,same]
  have last : next.resting? c l.slots.size = none := by
    simp [resting?,state?,old,vacant]
  rw [slotPlaces,slotPlaces,old,Array.size_push,Finset.sum_range_succ,Finset.sum_congr rfl kept,last]
  simp

theorem slotPlaces_publish (vacant : l.state? i = some .vacant) (c d : Nat) :
    (l.mapSlot i ({ · with state := .live d })).slotPlaces c =
      ↑(if d = c then [Location.resting i] else []) + l.slotPlaces c := by
  have absent : l.resting? c i = none := by simp [resting?,vacant]
  have size : (l.mapSlot i ({ · with state := .live d })).slots.size = l.slots.size := by
    simp [mapSlot]
  by_cases same : d = c
  · subst same
    have present : (l.mapSlot i ({ · with state := .live d })).resting? d i = some (.resting i) := by
      simp [resting?,state_set,vacant]
    rw [slotPlaces_add size (lt_of_state vacant) absent present
      fun j other => resting_set l _ d i other]
    simp
  · rw [slotPlaces_same size]
    · simp [same]
    · intro j
      by_cases here : j = i
      · subst here
        simp [resting?,state_set,vacant,same]
      · exact resting_set l _ c i here

theorem slotPlaces_retire (l : Ledger) (i c : Nat) :
    l.slotPlaces c = ↑(l.resting? c i).toList +
      (l.mapSlot i ({ · with state := .retired })).slotPlaces c := by
  have absent : (l.mapSlot i ({ · with state := .retired })).resting? c i = none := by
    cases held : l.state? i <;> simp [resting?,state_set,held]
  have size : (l.mapSlot i ({ · with state := .retired })).slots.size = l.slots.size := by
    simp [mapSlot]
  have others (j : Nat) (other : j ≠ i) := resting_set l .retired c i other
  cases held : l.resting? c i with
  | none =>
    rw [slotPlaces_same size]
    · simp
    · intro j
      by_cases here : j = i
      · rw [here,absent,held]
      · exact others j here
  | some place =>
    have bound : i < l.slots.size := by
      by_contra outside
      simp [resting?,state?,Array.getElem?_eq_none (Nat.le_of_not_lt outside)] at held
    rw [slotPlaces_add size.symm (size ▸ bound) absent held fun j other => (others j other).symm]
    simp

theorem resting_eq {place : Location} (rests : l.resting? c i = some place) :
    place = .resting i := by
  unfold resting? at rests
  split at rests <;> cases rests
  rfl

theorem withdrawn_place {found : Option Nat}
    (taken : found = some c ↔ l.state? i = some (.live c)) :
    (Role.withdrawn m w i found).place? t c = (l.resting? c i).map fun _ => .taken t := by
  by_cases here : l.state? i = some (.live c)
  · simp [Role.place?,taken.mpr here,resting?,here]
  · cases found with
    | none => simp [Role.place?,resting?,here]
    | some d =>
      have other : d ≠ c := fun same => here (taken.mp (congrArg some same))
      simp [Role.place?,resting?,here,other]

/-- What a shift does to the places of a copy fits the hooks that begin or end with it. -/
theorem Shift.passage (shift : Shift l t before after notes next) (guarded : Guarded l)
    (split : l.roles = tagged t before + rest) (c : Nat) :
    Passage ((ownPlaces t c before + l.slotPlaces c).map Location.phase)
      ((ownPlaces t c after + next.slotPlaces c).map Location.phase) (beats c notes) := by
  have vacant {r j} (played : before = some r) (fills : r.fills? = some j) :
      l.state? j = some .vacant := by
    refine guarded.fills (t,r) ?_ j fills
    rw [split,played]
    simp
  have lock (i : Nat) (holder : Option Nat) :
      (l.mapSlot i ({ · with holder })).slotPlaces c = l.slotPlaces c :=
    slotPlaces_same (by simp [mapSlot]) fun j => resting_lock l holder c i j
  cases shift with
  | stay | look | glance | detach | serve | spoil => exact .kept rfl
  | kill => exact .kept rfl
  | register =>
    refine .kept ?_
    split <;> rw [slotPlaces_register l _ rfl c rfl] <;> rfl
  | prune =>
    refine .kept ?_
    split <;> rfl
  | occupy | meet | miss | inspect | depart | grasp =>
    refine .kept ?_
    rw [lock]
    rfl
  | leave served told =>
    have quiet : beats c notes = [] := by
      apply List.filterMap_eq_nil_iff.mpr
      intro n member
      obtain ⟨d,_,rfl⟩ := told n member
      rfl
    rw [quiet,lock]
    refine .kept ?_
    cases after with
    | none => rfl
    | some r => obtain ⟨d,_,rfl⟩ := served r rfl; rfl
  | @carry m w i found =>
    refine .kept ?_
    rw [lock]
    cases found <;> rfl
  | @publish m w i d =>
    refine .kept ?_
    rw [slotPlaces_publish (vacant rfl rfl)]
    by_cases same : d = c <;> simp [ownPlaces,Role.place?,same,Location.phase]
  | @abandon m w i =>
    have absent : l.resting? c i = none := by simp [resting?,vacant rfl rfl]
    refine .kept ?_
    rw [slotPlaces_retire l i c,absent]
    simp [ownPlaces,Role.place?]
  | @withdraw m w i found live =>
    refine .kept ?_
    rw [slotPlaces_retire l i c,ownPlaces,ownPlaces,Option.bind_some,Option.bind_some,
      withdrawn_place ((live c).trans (state_live l i c))]
    cases here : l.resting? c i with
    | none => simp [Role.place?]
    | some place =>
      obtain rfl : place = .resting i := resting_eq here
      simp [Role.place?,Location.phase]
  | @number m w i =>
    refine .of_beat (fun new => .born ?_) fun other => ?_
    · simp [ownPlaces,Role.place?,new,Location.phase]
      rfl
    · simp [ownPlaces,Role.place?,other]
      rfl
  | setUp =>
    refine .of_beat (fun same => ?_) fun other => by simp [ownPlaces,Role.place?,other]
    exact .succeeded ((l.slotPlaces c).map Location.phase)
      (by simp [ownPlaces,Role.place?,same,Location.phase])
      (by simp [ownPlaces,Role.place?,same,Location.phase])
  | discard =>
    refine .of_beat (fun same => ?_) fun other => by simp [ownPlaces,Role.place?,other]
    exact .failed .failed (by simp) (by simp [ownPlaces,Role.place?,same,Location.phase])
  | unwind =>
    refine .of_beat (fun same => ?_) fun other => by simp [ownPlaces,Role.place?,other]
    exact .failed .panicked (by simp) (by simp [ownPlaces,Role.place?,same,Location.phase])
  | tearDown =>
    refine .of_beat (fun same => ?_) fun other => by simp [ownPlaces,Role.place?,other]
    exact .claimed ((l.slotPlaces c).map Location.phase)
      (by simp [ownPlaces,Role.place?,same,Location.phase])
      (by simp [ownPlaces,Role.place?,same,Location.phase])
  | @tornDown d ending =>
    refine .of_beat (fun same => ?_) fun other => by simp [ownPlaces,Role.place?,other]
    exact .finished ending (by simp [ownPlaces,Role.place?,same,Location.phase])

theorem Shift.born (shift : Shift l t before after notes next)
    (born : beats c notes = [.began .setup]) : c = l.bonds.size ∧ next.bonds.size = c + 1 := by
  cases shift with
  | number =>
    rw [beats_beat] at born
    split at born
    next same => exact ⟨same.symm,by simp [same]⟩
    next => contradiction
  | setUp | discard | unwind | tearDown | tornDown =>
    rw [beats_beat] at born
    split at born <;> simp at born
  | leave served told =>
    have member : Beat.began .setup ∈ beats c notes := by simp [born]
    obtain ⟨d,_,same⟩ := told _ (mem_of_beats member)
    cases same
  | _ => simp [beats,List.filterMap_cons,Note.beatOf?] at born

theorem Shift.bonds (shift : Shift l t before after notes next) :
    l.bonds.size ≤ next.bonds.size := by
  cases shift with
  | register | prune => split <;> exact le_rfl
  | number => simp
  | kill => simp
  | _ => exact le_rfl

theorem Shift.shows {r : Role} (shift : Shift l t before after notes next) (member : r ∈ after)
    (shows : r.shows? = some c) :
    (∃ q ∈ before, q.shows? = some c) ∨ (∃ i, l.state? i = some (.live c)) ∨
      ∃ m w i, before = some (.ready m w i c) := by
  cases shift with
  | stay => exact Or.inl ⟨r,member,shows⟩
  | @meet m w i slot d cell free live =>
    cases member
    obtain rfl := Option.some.inj shows
    exact Or.inr (Or.inl ⟨i,by simp [state?,cell,live]⟩)
  | @inspect m w i slot found cell free seen =>
    cases member
    exact Or.inr (Or.inl ⟨i,by simp [state?,cell,seen c shows]⟩)
  | publish =>
    cases member
    obtain rfl := Option.some.inj shows
    exact Or.inr (Or.inr ⟨_,_,_,rfl⟩)
  | leave served told =>
    obtain ⟨d,found,rfl⟩ := served r member
    exact Or.inl ⟨_,rfl,found.trans shows⟩
  | carry =>
    obtain ⟨d,_,rfl⟩ := Option.map_eq_some_iff.mp member
    cases shows
  | _ => cases member <;> cases shows

/-- A copy is handed out only by a call that was about to show it. -/
theorem Shift.handed (shift : Shift l t before after notes next) (told : .handed c ∈ notes) :
    ∃ q ∈ before, q.shows? = some c := by
  cases shift with
  | leave served told' =>
    obtain ⟨d,found,same⟩ := told' _ told
    cases same
    exact ⟨_,rfl,found⟩
  | _ => simp at told

theorem place_of_role {r : Role} {place : Location} (member : (t,r) ∈ l.roles)
    (placed : r.place? t c = some place) : place ∈ l.places c :=
  Multiset.mem_add.mpr (Or.inl ((Multiset.mem_filterMap _ _).mpr ⟨_,member,placed⟩))

theorem resting_of_live (live : l.state? i = some (.live c)) : .resting i ∈ l.places c := by
  refine Multiset.mem_add.mpr (Or.inr (Multiset.mem_sum.mpr ⟨i,?_,?_⟩))
  · exact Finset.mem_range.mpr (lt_of_state live)
  · simp [resting?,live]

theorem taken_of_role (taken : (t,Role.taken c) ∈ l.roles) : .taken t ∈ l.places c :=
  place_of_role taken (by simp [Role.place?])

theorem held_of_live (live : l.state? i = some (.live c)) : .held ∈ l.phases c :=
  Multiset.mem_map.mpr ⟨.resting i,resting_of_live live,rfl⟩

theorem held_of_ready (ready : (t,Role.ready m w i c) ∈ l.roles) : .held ∈ l.phases c :=
  Multiset.mem_map.mpr ⟨.ready t i,place_of_role ready (by simp [Role.place?]),rfl⟩

theorem held_of_taken (taken : (t,Role.taken c) ∈ l.roles) : .held ∈ l.phases c :=
  Multiset.mem_map.mpr ⟨.taken t,taken_of_role taken,rfl⟩

/-- The history of every copy agrees with where the copy is, and a copy is shown to callers only
after its setup succeeded. -/
structure Custody (notes : List Note) (l : Ledger) : Prop where
  lines : ∀ c, Lifeline (beats c notes) (l.phases c)
  unborn : ∀ c, l.bonds.size ≤ c → beats c notes = []
  shown : ∀ x ∈ l.roles, ∀ c, x.2.shows? = some c → .beat c (.ended .setup .returned) ∈ notes
  handed : ∀ earlier c later, notes = earlier ++ .handed c :: later →
    .beat c (.ended .setup .returned) ∈ earlier

/-- What a copy's hooks have been through agrees with where the copy is, and every move keeps
that. -/
theorem Custody.move (custody : Custody notes l) (guarded : Guarded l)
    (move : Move l more next) : Custody (notes ++ more) next := by
  obtain ⟨t,before,after,more,shared,rest,split,shift⟩ := move
  have played {q} (own : q ∈ before) : (t,q) ∈ l.roles := mem_of_split split own
  have setUp {c} (held : .held ∈ l.phases c) : .beat c (.ended .setup .returned) ∈ notes :=
    mem_of_beats (by simp [(custody.lines c).of_held held])
  -- The places that other threads give a copy are the same before and after.
  have passage (c : Nat) : Passage (l.phases c)
      (phases { shared with roles := tagged t after + rest } c) (beats c more) := by
    have passage := (shift.passage guarded split c).add
      ((rest.filterMap fun x => x.2.place? x.1 c).map Location.phase)
    have split' : roles { shared with roles := tagged t after + rest } = tagged t after + rest := rfl
    rw [phases,phases,places_split split,places_split split']
    simp only [Multiset.map_add] at passage ⊢
    rw [add_right_comm,add_right_comm _ _ (Multiset.map _ (slotPlaces _ c))]
    exact passage
  refine ⟨?_,?_,?_,?_⟩
  · intro c
    rw [beats_append]
    refine (custody.lines c).pass (passage c) fun born => custody.unborn c ?_
    exact (shift.born born).1.ge
  · intro c bound
    change shared.bonds.size ≤ c at bound
    have old := custody.unborn c (shift.bonds.trans bound)
    have none := old ▸ custody.lines c
    obtain quiet | born := (none.of_nil ▸ passage c).of_zero
    · rw [beats_append,old,quiet,List.append_nil]
    · have size := (shift.born born).2
      omega
  · intro x member c shows
    apply List.mem_append_left
    obtain own | other := Multiset.mem_add.mp member
    · obtain ⟨r,chosen,rfl⟩ := mem_tagged.mp own
      obtain ⟨q,had,showed⟩ | ⟨i,live⟩ | ⟨m,w,i,ready⟩ := shift.shows chosen shows
      · exact custody.shown _ (played had) c showed
      · exact setUp (held_of_live live)
      · exact setUp (held_of_ready (played ready))
    · exact custody.shown x (by simp [split,other]) c shows
  · intro earlier c later told
    obtain ⟨middle,rfl,rfl⟩ | ⟨middle,rfl,same⟩ := List.append_eq_append_iff.mp told
    · obtain ⟨q,had,showed⟩ := shift.handed (c := c) (by simp)
      exact List.mem_append_left _ (custody.shown _ (played had) c showed)
    · cases middle with
      | nil =>
        obtain ⟨q,had,showed⟩ := shift.handed (same ▸ List.mem_cons_self)
        simpa using custody.shown _ (played had) c showed
      | cons first middle =>
        obtain ⟨rfl,_⟩ := List.cons.inj same
        exact custody.handed _ c middle rfl

theorem Custody.born (custody : Custody notes l) (held : .held ∈ l.phases c) :
    c < l.bonds.size := by
  by_contra unborn
  have history := (custody.lines c).of_held held
  simp [custody.unborn c (Nat.not_lt.mp unborn)] at history

/-- A copy that rests in a slot is nowhere else. -/
theorem Custody.resting (custody : Custody notes l) (live : l.state? i = some (.live c)) :
    l.places c = {.resting i} := by
  have line := custody.lines c
  have held : l.phases c = {.held} := line.held_of (line.of_held (held_of_live live))
  obtain ⟨place,only,_⟩ := Multiset.map_eq_singleton.mp held
  have here : .resting i ∈ l.places c := resting_of_live live
  rw [only] at here ⊢
  rw [Multiset.mem_singleton.mp here]

theorem Custody.empty (managers : Nat) : Custody [] (.empty managers) where
  lines := fun c => by
    have nowhere : (Ledger.empty managers).phases c = 0 := by
      simp [phases,places,slotPlaces,Ledger.empty]
    rw [nowhere]
    exact .unborn
  unborn := fun _ _ => rfl
  shown := by simp [Ledger.empty]
  handed := by simp

end Ledger

def BodyPoint.copy {V : Type} : BodyPoint V → Nat
  | .claim c | .running c | .unwind c _ | .yield c _ => c

/-- The setup and teardown hooks of a copy among what could be observed. -/
def hookHistory {V : Type} (c : Nat) (events : List (Event V)) : List Beat :=
  beats c (events.filterMap Event.note?)

section

variable {F V : Type} {past : List (Entry F V)} {n : Note}

theorem notes_filter (past : List (Entry F V)) :
    (notes past).filter (· ≠ .spoiled) = (observed past).filterMap Event.note? := by
  induction past with
  | nil => rfl
  | cons entry past ih =>
    have unspoiled (event : Event V) : Option.all (· ≠ .spoiled) event.note? := by
      unfold Event.note?
      split <;> simp
    have acted (action : Action F V) : (action.note?.toList).filter (· ≠ .spoiled) = [] := by
      unfold Action.note?
      split <;> rfl
    have told : (entry.events.filterMap Event.note?).filter (· ≠ .spoiled) =
        entry.events.filterMap Event.note? := by
      apply List.filter_eq_self.mpr
      intro n member
      obtain ⟨event,_,noted⟩ := List.mem_filterMap.mp member
      simpa [noted] using unspoiled event
    simp only [notes,observed,List.flatMap_cons,List.filter_append,List.filterMap_append] at ih ⊢
    rw [ih,Entry.notes,List.filter_append,acted,told,List.nil_append]

theorem notes_concat (past : List (Entry F V)) (entry : Entry F V) :
    notes (past ++ [entry]) = notes past ++ entry.notes := by
  simp [notes]

theorem beats_unspoiled (c : Nat) (notes : List Note) :
    beats c (notes.filter (· ≠ .spoiled)) = beats c notes := by
  induction notes with
  | nil => rfl
  | cons n notes ih => cases n <;> simp_all [beats,Note.beatOf?,List.filterMap_cons]

theorem hookHistory_observed (c : Nat) (past : List (Entry F V)) :
    hookHistory c (observed past) = beats c (notes past) := by
  rw [hookHistory,← notes_filter,beats_unspoiled]

theorem notes_of_observed {left right : List (Event V)} {event : Event V}
    (told : observed past = left ++ event :: right) (noted : event.note? = some n) :
    ∃ earlier later, notes past = earlier ++ n :: later ∧
      earlier.filter (· ≠ .spoiled) = left.filterMap Event.note? := by
  have split := notes_filter past
  rw [told,List.filterMap_append,List.filterMap_cons_some noted] at split
  obtain ⟨earlier,tail,all,before,behind⟩ := List.filter_eq_append_iff.mp split
  obtain ⟨skipped,later,rfl,dropped,_,_⟩ := List.filter_eq_cons_iff.mp behind
  refine ⟨earlier ++ skipped,later,by simp [all],?_⟩
  rw [List.filter_append,before,List.filter_eq_nil_iff.mpr dropped,List.append_nil]

theorem ended_of_noted {c : Nat} {ending : Ending} {events : List (Event V)} {notes : List Note}
    (same : notes.filter (· ≠ .spoiled) = events.filterMap Event.note?)
    (noted : .beat c (.ended .setup ending) ∈ notes) : .hookEnded .setup c ending ∈ events := by
  replace noted := same ▸ List.mem_filter.mpr ⟨noted,by simp⟩
  obtain ⟨event,member,told⟩ := List.mem_filterMap.mp noted
  unfold Event.note? at told
  split at told <;> cases told
  exact member

end

namespace System

variable {F V : Type} {sharding : Sharding} {names : List String} {threads : Nat}
  {past : List (Entry F V)} {s : System F V}

theorem Interleaving.custody (run : Interleaving (idle sharding names threads) past s) :
    s.ledger.Custody (notes past) := by
  refine run.induct_sound (fun notes l => l.Custody notes) (.empty names.length) ?_
  intro before l more next sound custody move
  exact custody.move sound.guarded move

theorem mem_roles {t : Nat} {frame : Frame F V} {r : Role} (member : frame ∈ s.stack t)
    (role : frame.role? = some r) : (t,r) ∈ s.roles := by
  have bound : t < s.threads.size := by
    obtain ⟨first,below,top⟩ := List.exists_cons_of_ne_nil (List.ne_nil_of_mem member)
    exact bound_of_stack s t first below top
  refine Multiset.mem_sum.mpr ⟨t,Finset.mem_range.mpr bound,?_⟩
  simp only [stackRoles,Multiset.mem_coe,List.mem_map,List.mem_filterMap]
  exact ⟨r,⟨frame,member,role⟩,rfl⟩

/-- In every interleaving of whatever calls any number of threads make, however templates, hooks
and bodies end: a copy is set up once, and only when that succeeded is it torn down, once. No call
answers with a copy and no body runs on it before its setup has succeeded. -/
theorem Interleaving.hooks_once (run : Interleaving (idle sharding names threads) past s) :
    (∀ c, (∃ ending, ending ≠ .returned ∧
        hookHistory c (observed past) = [.began .setup,.ended .setup ending]) ∨
      ∃ ending, hookHistory c (observed past) <+:
        [.began .setup,.ended .setup .returned,.began .teardown,.ended .teardown ending]) ∧
    (∀ earlier c later, observed past = earlier ++ .hookStarted .teardown c :: later →
      .hookEnded .setup c .returned ∈ earlier) ∧
    (∀ earlier reply later c, observed past = earlier ++ .returned reply :: later →
      reply.handed? = some c → .hookEnded .setup c .returned ∈ earlier) ∧
    ∀ t m w point, .processBody m w point ∈ s.stack t →
      .hookEnded .setup point.copy .returned ∈ observed past := by
  have custody := run.custody
  refine ⟨?_,?_,?_,?_⟩
  · intro c
    rw [hookHistory_observed]
    exact (custody.lines c).shape
  · intro earlier c later told
    obtain ⟨before,after,all,same⟩ := notes_of_observed told rfl
    have line := custody.lines c
    have here : beats c (.beat c (.began .teardown) :: after) = .began .teardown :: beats c after := by
      simp [beats,Note.beatOf?]
    rw [all,beats_append,here] at line
    exact ended_of_noted same (mem_of_beats line.teardown_after)
  · intro earlier reply later c told handed
    obtain ⟨before,after,all,same⟩ :=
      notes_of_observed told (n := .handed c) (by rw [note_returned,handed]; rfl)
    exact ended_of_noted same (custody.handed before c after all)
  · intro t m w point member
    have role : (Frame.processBody m w point : Frame F V).role? = some (.serving point.copy) := by
      cases point <;> rfl
    exact ended_of_noted (notes_filter past) (custody.shown _ (mem_roles member role) _ rfl)

def roundTrip : List (Nat × Action Nat Nat) :=
  [(0,.call (.get 0 (.named "a"))),(0,.advance),(0,.advance),(0,.advance),(0,.drawn (.copy 7)),
    (0,.advance),(0,.advance),(0,.finish (.ok 0)),(0,.advance),(0,.advance),(0,.advance),
    (0,.advance),(0,.call (.release 0 (.named "a"))),(0,.advance),(0,.advance),(0,.advance),
    (0,.advance),(0,.advance),(0,.advance),(0,.finish (.error { message := "stuck" })),(0,.advance),
    (0,.advance),(0,.advance),(0,.advance)]

theorem hooks_once_of_roundTrip :
    ∃ (past : List (Entry Nat Nat)) (s : System Nat Nat),
      Interleaving (idle .single ["pool"] 1) past s ∧
      hookHistory 0 (observed past) =
        [.began .setup,.ended .setup .returned,.began .teardown,.ended .teardown .failed] ∧
      ∀ c, (∃ ending, ending ≠ .returned ∧
        hookHistory c (observed past) = [.began .setup,.ended .setup ending]) ∨
      ∃ ending, hookHistory c (observed past) <+:
        [.began .setup,.ended .setup .returned,.began .teardown,.ended .teardown ending] := by
  obtain ⟨⟨s,past⟩,followed⟩ : ∃ reached, (idle .single ["pool"] 1).follow roundTrip = some reached :=
    ⟨_,rfl⟩
  have run := Interleaving.start.follow followed
  refine ⟨past,s,run,?_,run.hooks_once.1⟩
  cases followed
  rfl

end System
end PerWorker
