import PerWorker.Proofs.Lifecycle.Drawings
import PerWorker.Proofs.Lifecycle.Generations
import PerWorker.Proofs.Lifecycle.Linearization

/-!
Lookups of one worker that race. From a state in which the worker is not registered and no lookup of
it has come to a slot, as long as nothing goes wrong and no release takes the worker out, one slot is
made for the worker, one copy for the slot, and every lookup comes to that copy. Main statement: no
superfluous copies, over a whole run, in one lookup, and in a race.
-/
namespace PerWorker

def GetPoint.isSmooth {F : Type} : GetPoint F → Bool
  | .look | .register | .enter _ | .replicating _ | .countCopy _ _ | .number _ _ | .settingUp _ _
  | .countSetup _ _ | .logSetup _ _ | .publish _ _ | .leave _ (.found _) => true
  | _ => false

/-- Whether foreign code lets a lookup of the worker down. -/
def Moment.fails {F V : Type} (m : Nat) (w : WorkerId) (moment : Moment F V) : Bool :=
  match (moment.state.stack moment.entry.thread).head?, moment.entry.action with
  | some (.get n v (.replicating _)), .drawn (.refused _)
  | some (.get n v (.replicating _)), .drawn (.panicked _)
  | some (.get n v (.settingUp _ _)), .finish (.error _)
  | some (.get n v (.settingUp _ _)), .panic _ => n = m && v = w
  | _, _ => false

namespace Ledger

variable {l next : Ledger} {t m i c d : Nat} {w : WorkerId} {before after : Option Role}
  {notes : List Note}

theorem Shift.bound_back (shift : Shift l t before after notes next)
    (bound : next.Bound c m w) : l.Bound c m w ∨ ∃ i, after = some (.settingUp m w i c) := by
  cases shift with
  | register | prune => split at bound <;> exact Or.inl bound
  | @number n v i =>
    obtain ⟨bond,entry,rfl,rfl⟩ := bound
    by_cases new : c = l.bonds.size
    · subst new
      obtain rfl : _ = bond := by simpa using entry
      exact Or.inr ⟨i,rfl⟩
    · exact Or.inl ⟨bond,by simpa [Array.getElem?_push,new] using entry,rfl,rfl⟩
  | @kill d =>
    obtain ⟨bond,entry,own⟩ := bound
    by_cases here : d = c
    · obtain ⟨old,found,rfl⟩ : ∃ old, l.bonds[c]? = some old ∧ { old with live := false } = bond := by
        simpa [Array.getElem?_modify,here] using entry
      exact Or.inl ⟨old,found,own⟩
    · exact Or.inl ⟨bond,by simpa [Array.getElem?_modify,here] using entry,own⟩
  | _ => exact Or.inl bound

theorem Move.bound_back (move : Move l notes next) (bound : next.Bound c m w) :
    l.Bound c m w ∨ ∃ t i, (t,Role.settingUp m w i c) ∈ next.roles := by
  obtain ⟨t,before,after,notes,shared,rest,split,shift⟩ := move
  obtain old | ⟨i,new⟩ := shift.bound_back bound
  · exact Or.inl old
  · exact Or.inr ⟨t,i,Multiset.mem_add.mpr (Or.inl (mem_tagged.mpr ⟨_,new,rfl⟩))⟩

theorem Move.mapped_anew (move : Move l notes next) (mapped : next.mapped m w = some i) :
    l.mapped m w = some i ∨ l.slots.size ≤ i ∧ next.state? i = some .vacant := by
  obtain ⟨t,before,after,notes,shared,rest,split,shift⟩ := move
  obtain old | ⟨new,_⟩ := shift.mapped mapped
  · exact Or.inl old
  · exact (shift.mapped_anew mapped).imp_right fun anew => ⟨new.ge,anew.2⟩

theorem Move.live_on (move : Move l notes next) (sound : Sound l) (mapped : l.mapped m w = some i)
    (live : l.state? i = some (.live c)) : next.state? i = some (.live c) := by
  obtain ⟨t,before,after,notes,shared,rest,split,shift⟩ := move
  obtain still | ⟨n,v,was,_⟩ := shift.live_on sound.guarded split live
  · exact still
  · have none := sound.removal.apart m w i mapped
    rw [removers_eq split,was] at none
    simp [Role.detaches?] at none

theorem fills_of_brings {r : Role} (brings : r.brings? = some (i,c)) : r.fills? = some i := by
  cases r <;> cases brings <;> rfl

/-- A slot keeps one copy at most. -/
theorem Keeps.unique (sound : Sound l) (keeps : l.Keeps i c) (other : l.Keeps i d) : c = d := by
  have filled {x : Nat × Role} {e f : Nat} (member : x ∈ l.roles) (brings : x.2.brings? = some (i,e))
      (live : l.state? i = some (.live f)) : False := by
    have vacant := sound.guarded.fills x member i (fills_of_brings brings)
    cases vacant.symm.trans live
  obtain live | ⟨⟨u,r⟩,member,brings⟩ := keeps
  · obtain live' | ⟨x,member',brings'⟩ := other
    · cases live.symm.trans live'
      rfl
    · exact (filled member' brings' live).elim
  · obtain live' | ⟨x,member',brings'⟩ := other
    · exact (filled member brings live').elim
    · obtain ⟨rest,split⟩ := Multiset.exists_cons_of_mem member
      have parts : l.roles = tagged u (some r) + rest := by simp [split]
      obtain rfl | elsewhere := Multiset.mem_cons.mp (split ▸ member')
      · cases brings.symm.trans brings'
        rfl
      · exact absurd (Role.locks_of_brings brings')
          (sound.locked.alone parts (Role.locks_of_brings brings) elsewhere)

theorem Keeps.lt (homes : Homes l) (keeps : l.Keeps i c) : i < l.slots.size := by
  obtain live | ⟨⟨u,r⟩,member,brings⟩ := keeps
  · exact lt_of_state live
  · cases r with
    | settingUp n v | ready n v =>
      cases brings
      exact (homes.roles _ member n v i rfl).lt
    | _ => cases brings

theorem Keeps.bound (bonded : Bonded l) (homes : Homes l) (keeps : l.Keeps i c)
    (homed : l.Homed m w i) : l.Bound c m w := by
  obtain live | ⟨⟨u,r⟩,member,brings⟩ := keeps
  · obtain ⟨n,v,bound,there⟩ := bonded.live i c live
    obtain ⟨rfl,rfl⟩ := there.unique homed
    exact bound
  · cases r with
    | settingUp n v | ready n v =>
      cases brings
      obtain ⟨rfl,rfl⟩ := (homes.roles _ member n v i rfl).unique homed
      exact bonded.fostered _ member c n v rfl
    | _ => cases brings

end Ledger

namespace System

open Ledger

variable {F V : Type} {sharding : Sharding} {names : List String} {threads : Nat}
  {past more : List (Entry F V)} {s now next last : System F V} {t u m i c made : Nat}
  {w : WorkerId} {a : Action F V} {events : List (Event V)} {below : List (Frame F V)}
  {point point' : GetPoint F} {span : List (Moment F V)} {reply : Reply V}

/-- A race for the copy of a worker, with the steps that are taken in it. -/
structure Race (s : System F V) (m : Nat) (w : WorkerId) (more : List (Entry F V))
    (last : System F V) : Prop where
  run : Interleaving s more last
  unregistered : s.slot? m w = none
  unsought : ∀ t point, .get m w point ∈ s.stack t → point.slot? = none
  unremoved : removals s more m w = []
  smooth : ∀ moment ∈ s.moments more, moment.fails m w = false

structure Racing (made m : Nat) (w : WorkerId) (now : System F V) : Prop where
  sought : ∀ t point i, .get m w point ∈ now.stack t → point.slot? = some i →
    now.slot? m w = some i
  smooth : ∀ t point, .get m w point ∈ now.stack t → point.isSmooth = true
  usable : ∀ i, now.slot? m w = some i → now.ledger.state? i ≠ some .retired
  kept : ∀ c, made ≤ c → now.ledger.Bound c m w →
    ∃ i, now.slot? m w = some i ∧ now.ledger.Keeps i c
  fresh : ∀ i c, now.slot? m w = some i → now.ledger.Keeps i c → made ≤ c

theorem Interleaving.trans {initial : System F V} (run : Interleaving initial past s)
    (onward : Interleaving s more last) : Interleaving initial (past ++ more) last := by
  induction onward with
  | start => simpa using run
  | step t a events before moved ih =>
    rw [← List.append_assoc]
    exact ih.step t a events moved

theorem register_maps (top : s.stack t = .get m w .register :: below)
    (missing : s.slot? m w = none) (present : m < s.ledger.managers)
    (moved : s.step t .advance = some (next,events)) : next.slot? m w = some s.slots.size := by
  simp only [step,advance,top,advanceGet,missing] at moved
  have mapped := slot?_insert { s with slots := s.slots.push { manager := m, worker := w } } m w
    s.slots.size missing
  replace present : m < s.managers.size := present
  obtain ⟨rfl,_⟩ := Prod.mk.inj (Option.some.inj moved)
  refine (congrFun (congrFun mapped m) w).trans ?_
  simp [present]

theorem Racing.mapped (racing : Racing made m w now) (sound : now.ledger.Sound)
    (moved : now.step t a = some (next,events))
    (unremoved : Moment.removed? m w ⟨now,⟨t,a,events⟩⟩ = none) (mapped : now.slot? m w = some i) :
    next.slot? m w = some i := by
  obtain kept | retired | removed := step_unmaps sound moved mapped
  · exact kept
  · exact absurd retired (racing.usable i mapped)
  · cases unremoved.symm.trans removed

/-- A lookup that goes on in a race stays on the mapped slot. -/
theorem Racing.turn (racing : Racing made m w now) (sound : now.ledger.Sound)
    (present : m < now.ledger.managers) (moved : now.step t a = some (next,events))
    (unremoved : Moment.removed? m w ⟨now,⟨t,a,events⟩⟩ = none)
    (calm : Moment.fails m w ⟨now,⟨t,a,events⟩⟩ = false)
    (top : now.stack t = .get m w point :: below) (turn : GetTurn now m w a point point') :
    point'.isSmooth = true ∧ ∀ i, point'.slot? = some i → next.slot? m w = some i := by
  have member : .get m w point ∈ now.stack t := top ▸ List.mem_cons_self
  have smooth := racing.smooth t point member
  have stays {i : Nat} (same : point.slot? = some i) : next.slot? m w = some i :=
    racing.mapped sound moved unremoved (racing.sought t point i member same)
  cases turn with
  | seen i mapped | beaten i mapped =>
    refine ⟨rfl,fun j same => ?_⟩
    cases same
    exact racing.mapped sound moved unremoved mapped
  | unseen => exact ⟨rfl,by simp [GetPoint.slot?]⟩
  | register missing =>
    refine ⟨rfl,fun j same => ?_⟩
    cases same
    exact register_maps top missing present moved
  | miss i retired => exact absurd retired (racing.usable i (racing.sought t _ i member rfl))
  | meet | occupy | copy | countCopy | number | setUp | countSetup | logSetup | publish =>
    exact ⟨rfl,fun j same => stays same⟩
  | refuse | spoil | fail | panic => simp [Moment.fails,top] at calm
  | countRefusal | logRefusal | countFailure | logFailure | retire | failed | again | restart =>
    cases smooth

theorem get_frames {u : Nat} (moved : now.step t a = some (next,events))
    (member : .get m w point ∈ next.stack u) : .get m w point ∈ now.stack u ∨ point = .look ∨
      ∃ point' below, now.stack t = .get m w point' :: below ∧ GetTurn now m w a point' point := by
  obtain old | starts | ⟨rfl,top,below,more,here,onward⟩ := step_frames moved member
  · exact Or.inl old
  · cases point <;> first | exact Or.inr (Or.inl rfl) | cases starts
  · cases onward with
    | get turn => exact Or.inr (Or.inr ⟨_,below,here,turn⟩)

theorem smooth_of_role {frame : Frame F V} (role : frame.role? = some (.departing m w i)) :
    ∃ point, frame = .get m w point ∧ point.isSmooth = false := by
  cases frame with
  | get n v point =>
    cases point with
    | leave j departure => cases departure <;> cases role <;> exact ⟨_,rfl,rfl⟩
    | _ => cases role
  | peek n v point => cases point <;> cases role
  | release n v point => cases point <;> cases role
  | processBody n v point => cases point <;> cases role
  | _ => cases role

theorem frame_of_settingUp {frame : Frame F V} (role : frame.role? = some (.settingUp m w i c)) :
    frame = .get m w (.settingUp i c) := by
  cases frame with
  | get n v point =>
    cases point with
    | leave j departure => cases departure <;> cases role
    | _ => cases role <;> rfl
  | peek n v point => cases point <;> cases role
  | release n v point => cases point <;> cases role
  | processBody n v point => cases point <;> cases role
  | _ => cases role

/-- What the slot of a worker keeps it goes on keeping while nothing goes wrong. -/
theorem keeps_on (sound : now.ledger.Sound) (moved : now.step t a = some (next,events))
    (mapped : now.slot? m w = some i) (keeps : now.ledger.Keeps i c)
    (calm : Moment.fails m w ⟨now,⟨t,a,events⟩⟩ = false) : next.ledger.Keeps i c := by
  have move := step_move moved
  obtain live | ⟨⟨u,r⟩,member,brings⟩ := keeps
  · exact Or.inl (move.live_on sound mapped live)
  cases r with
  | ready n v =>
    cases brings
    obtain live | still := ready_on sound member move
    · exact Or.inl live
    · exact Or.inr ⟨_,still,rfl⟩
  | settingUp n v =>
    cases brings
    obtain ⟨rfl,rfl⟩ :=
      (sound.homes.roles _ member n v i rfl).unique (sound.homes.mapped m w i mapped)
    obtain ⟨frame,present,role⟩ := frame_of_role member
    obtain rfl := frame_of_settingUp role
    obtain still | ⟨rfl,own,below,top⟩ := step_stays moved present rfl
    · exact Or.inr ⟨_,mem_roles still rfl,rfl⟩
    obtain ⟨point,turn,here⟩ | ⟨reply,ended,_⟩ := get_points top own moved
    · cases turn with
      | setUp => exact Or.inr ⟨_,mem_roles (here ▸ List.mem_cons_self) rfl,rfl⟩
      | fail | panic => simp [Moment.fails,top] at calm
    · cases ended
  | _ => cases brings

/-- As long as nobody removes the worker and no lookup fails, all who race for its copy come to one
slot. -/
theorem Racing.onward (racing : Racing made m w now) (sound : now.ledger.Sound)
    (present : m < now.ledger.managers) (less : made ≤ now.copies.size)
    (moved : now.step t a = some (next,events))
    (unremoved : Moment.removed? m w ⟨now,⟨t,a,events⟩⟩ = none)
    (calm : Moment.fails m w ⟨now,⟨t,a,events⟩⟩ = false) : Racing made m w next := by
  have move := step_move moved
  have sound' := sound.move move
  have stays {i : Nat} (mapped : now.slot? m w = some i) : next.slot? m w = some i :=
    racing.mapped sound moved unremoved mapped
  have sought (u : Nat) (point : GetPoint F) (i : Nat) (member : .get m w point ∈ next.stack u)
      (same : point.slot? = some i) : next.slot? m w = some i := by
    obtain old | rfl | ⟨point',below,top,turn⟩ := get_frames moved member
    · exact stays (racing.sought u point i old same)
    · cases same
    · exact (racing.turn sound present moved unremoved calm top turn).2 i same
  have smooth (u : Nat) (point : GetPoint F) (member : .get m w point ∈ next.stack u) :
      point.isSmooth = true := by
    obtain old | rfl | ⟨point',below,top,turn⟩ := get_frames moved member
    · exact racing.smooth u point old
    · rfl
    · exact (racing.turn sound present moved unremoved calm top turn).1
  refine ⟨sought,smooth,?_,?_,?_⟩
  · intro i mapped retired
    obtain old | ⟨_,vacant⟩ := move.mapped_anew mapped
    · -- Whoever has retired the slot has met a failure, which no call for the worker has.
      obtain ⟨u,n,v,_,departing⟩ := move.retires sound old (racing.usable i old) retired
      obtain ⟨rfl,rfl⟩ :=
        (sound'.homes.roles _ departing n v i rfl).unique (sound'.homes.mapped m w i mapped)
      obtain ⟨frame,member,role⟩ := frame_of_role departing
      obtain ⟨point,rfl,rough⟩ := smooth_of_role role
      cases rough.symm.trans (smooth u point member)
    · cases vacant.symm.trans retired
  · intro c new bound
    obtain old | ⟨u,i,setting⟩ := move.bound_back bound
    · obtain ⟨i,mapped,keeps⟩ := racing.kept c new old
      exact ⟨i,stays mapped,keeps_on sound moved mapped keeps calm⟩
    · obtain ⟨frame,member,role⟩ := frame_of_role setting
      obtain rfl := frame_of_settingUp role
      exact ⟨i,sought u _ i member rfl,Or.inr ⟨_,setting,rfl⟩⟩
  · intro i c mapped keeps
    obtain old | new := keeps.back move
    · obtain before | ⟨later,_⟩ := move.mapped_anew mapped
      · exact racing.fresh i c before old
      · exact absurd (old.lt sound.homes) (Nat.not_lt.mpr later)
    · exact less.trans (by simpa [ledger] using new)

theorem Race.start (race : Race s m w more last) :
    Racing s.copies.size m w s where
  sought := by
    intro t point i member same
    cases same.symm.trans (race.unsought t point member)
  smooth := by
    intro t point member
    have none := race.unsought t point member
    cases point <;> first | rfl | cases none
  usable := by simp [race.unregistered]
  kept := by
    rintro c new ⟨bond,entry,_⟩
    have old := (Array.getElem?_eq_some_iff.mp entry).1
    simp only [ledger,Array.size_map] at old
    omega
  fresh := by simp [race.unregistered]

theorem Interleaving.grows {initial : System F V} (run : Interleaving initial past s) :
    initial.copies.size ≤ s.copies.size := by
  induction run with
  | start => exact le_rfl
  | step t a events before moved ih => exact ih.trans (step_grows moved).2

theorem Race.racing (run : Interleaving (idle sharding names threads) past s)
    (present : m < names.length) (race : Race s m w more last) :
    Racing s.copies.size m w last := by
  have start := race.start
  obtain ⟨onward,_,_,unremoved,smooth⟩ := race
  induction onward with
  | start => exact start
  | @step more now next t a events before moved ih =>
    rw [before.removals_step moved] at unremoved
    rw [before.moments_append] at smooth
    obtain ⟨earlier,still⟩ := List.append_eq_nil_iff.mp unremoved
    have reached := run.trans before
    have held := ih earlier fun moment member => smooth moment (List.mem_append_left _ member)
    refine held.onward reached.sound (present.trans_eq reached.managers.symm) before.grows moved ?_ ?_
    · simpa using still
    · exact smooth _ (List.mem_append_right _ (by simp [moments,moved]))

/-- A copy that was made for a worker since a state. -/
def Makes (s last : System F V) (m : Nat) (w : WorkerId) (c : Nat) : Prop :=
  s.copies.size ≤ c ∧ ∃ copy, last.copies[c]? = some copy ∧ copy.manager = m ∧ copy.worker = w

theorem makes_iff : Makes s last m w c ↔ s.copies.size ≤ c ∧ last.ledger.Bound c m w := by
  simp [Makes,Bound,ledger,Copy.bond]

theorem Race.unique {d : Nat} (run : Interleaving (idle sharding names threads) past s)
    (present : m < names.length) (race : Race s m w more last) (first : Makes s last m w c)
    (second : Makes s last m w d) : c = d := by
  have racing := race.racing run present
  have reached := run.trans race.run
  obtain ⟨new,bound⟩ := makes_iff.mp first
  obtain ⟨new',bound'⟩ := makes_iff.mp second
  obtain ⟨i,mapped,keeps⟩ := racing.kept c new bound
  obtain ⟨j,mapped',keeps'⟩ := racing.kept d new' bound'
  cases mapped.symm.trans mapped'
  exact keeps.unique reached.sound keeps'

theorem Race.earlier {later : List (Entry F V)} (race : Race s m w (more ++ later) last)
    (run : Interleaving s more now) : Race s m w more now where
  run
  unregistered := race.unregistered
  unsought := race.unsought
  unremoved := by
    have none := race.unremoved
    rw [removals,run.moments_append,List.filterMap_append] at none
    exact (List.append_eq_nil_iff.mp none).1
  smooth := by
    intro moment member
    refine race.smooth moment ?_
    rw [run.moments_append]
    exact List.mem_append_left _ member

theorem Interleaving.bound_on (run : Interleaving s more last) (bound : s.ledger.Bound c m w) :
    last.ledger.Bound c m w := by
  induction run with
  | start => exact bound
  | step t a events before moved ih => exact ih.move (step_move moved)

theorem Race.looked_up {before after : List (Entry F V)} {first found : System F V}
    (run : Interleaving (idle sharding names threads) past s) (present : m < names.length)
    (race : Race s m w (before ++ entries span ++ after) last)
    (ahead : Interleaving s before first) (answered : Answered first t (.get m w) span reply found)
    (rest : Interleaving found after last) : ∃ c, reply = .handle c ∧ Makes s last m w c := by
  obtain ⟨most,now,frame,below,a,events,rfl,answering,point,rfl,rfl,_⟩ :=
    lookup_searches.get.ends answered
  have reached := answering.under.run ahead
  have parts : before ++ entries (most ++ [⟨now,⟨t,a,events⟩⟩]) ++ after =
      (before ++ entries most) ++ (⟨t,a,events⟩ :: after) := by simp [entries]
  have racing := Race.racing run present (Race.earlier (parts ▸ race) reached)
  obtain ⟨point',_,there⟩ | ⟨outcome,ended,answers⟩ :=
    get_points answering.top answering.own answering.moved
  · exact absurd answering.back (parts_above there)
  obtain rfl := ((answers.returned answering.under.stands).2 reply).mp answering.told
  have member : .get m w point ∈ now.stack t := answering.top ▸ List.mem_cons_self
  have smooth := racing.smooth t point member
  cases ended with
  | unwound | failed => cases smooth
  | found i c =>
    have whole := run.trans reached
    have mapped := racing.sought t _ i member rfl
    have keeps : now.ledger.Keeps i c := Or.inl (whole.found _ (mem_roles member rfl) m w i c rfl)
    have bound := keeps.bound whole.bonded whole.sound.homes (whole.sound.homes.mapped m w i mapped)
    have later := (bound.move (step_move answering.moved))
    exact ⟨c,rfl,makes_iff.mpr ⟨racing.fresh i c mapped keeps,rest.bound_on later⟩⟩

/-- No superfluous copies: setups of a worker that succeed outnumber the removals of its entry by at
most one; a call runs the template for its lookup only for a copy of its own or when the lookup
fails; and lookups that race for an unregistered worker all come to the one copy that is made. -/
theorem Interleaving.no_superfluous_copies
    (run : Interleaving (idle sharding names threads) past s) (present : m < names.length)
    (w : WorkerId) :
    (setUps (idle sharding names threads) past m w).length ≤
        (removals (idle sharding names threads) past m w).length + 1 ∧
      (∀ t call span reply last, call = .get m w ∨ call = .process m w →
        Answered s t call span reply last → ∃ outcome,
          outcomes t (s.stack t).length span = [outcome] ∧
          Economical outcome (drawings t (s.stack t).length span)
            (numbered t (s.stack t).length span) ∧ (call = .get m w → outcome = reply)) ∧
      (∀ more last, Race s m w more last → ∀ c d, Makes s last m w c → Makes s last m w d → c = d) ∧
      ∀ before span after t reply first found last,
        Race s m w (before ++ entries span ++ after) last → Interleaving s before first →
        Answered first t (.get m w) span reply found → Interleaving found after last →
        ∃ c, reply = .handle c ∧ Makes s last m w c := by
  refine ⟨(run.generations present).length_le,?_,?_,?_⟩
  · intro t call span reply last looks answered
    obtain ⟨outcome,⟨ended,economical⟩,same⟩ := answered.looked_up looks
    exact ⟨outcome,ended,economical,same⟩
  · exact fun more last race c d => race.unique run present
  · intro before span after t reply first found last race ahead answered rest
    exact race.looked_up run present ahead answered rest

/-- Up to where the template runs for one of two threads that look up the same worker. -/
def drawingFirst : List (Nat × Action Nat Nat) :=
  [(0,.call (.get 0 (.named "a"))),(0,.advance),(0,.advance),(0,.advance)]

/-- The other thread comes to the slot meanwhile and waits for its lock. -/
def racingSecond : List (Nat × Action Nat Nat) :=
  [(1,.advance),(0,.drawn (.copy 7)),(0,.advance),(0,.advance),(0,.finish (.ok 0)),(0,.advance),
    (0,.advance),(0,.advance),(0,.advance),(1,.advance)]

theorem no_superfluous_copies_of_race :
    ∃ (before after : List (Entry Nat Nat)) (first last : System Nat Nat)
      (span : List (Moment Nat Nat)) (reply : Reply Nat),
      Interleaving (idle .single ["pool"] 2) before first ∧
      Answered first 1 (.get 0 (.named "a")) span reply last ∧
      Race (idle .single ["pool"] 2) 0 (.named "a") (before ++ entries span ++ after) last ∧
      setUps (idle .single ["pool"] 2) (before ++ entries span ++ after) 0 (.named "a") = [0] ∧
      ∃ c, reply = .handle c ∧ Makes (idle .single ["pool"] 2) last 0 (.named "a") c := by
  obtain ⟨⟨first,before⟩,followed⟩ :
      ∃ reached, (idle .single ["pool"] 2).follow drawingFirst = some reached := ⟨_,rfl⟩
  have ahead := Interleaving.start.follow followed
  obtain ⟨span,reply,last,performed⟩ : ∃ span reply last,
      first.perform 1 (.get 0 (.named "a")) racingSecond = some (span,reply,last) := by
    cases followed
    exact ⟨_,_,_,rfl⟩
  have answered := Answered.perform performed
  have whole : Interleaving (idle .single ["pool"] 2) (before ++ entries span ++ []) last := by
    simpa using answered.run ahead
  have calm : ((idle .single ["pool"] 2 : System Nat Nat).moments (before ++ entries span ++ [])).all
      (fun moment => !moment.fails 0 (.named "a")) = true := by
    cases followed
    cases performed
    rfl
  have told : removals (idle .single ["pool"] 2) (before ++ entries span ++ []) 0 (.named "a") = [] ∧
      setUps (idle .single ["pool"] 2) (before ++ entries span ++ []) 0 (.named "a") = [0] := by
    cases followed
    cases performed
    exact ⟨rfl,rfl⟩
  have race : Race (idle .single ["pool"] 2) 0 (.named "a") (before ++ entries span ++ []) last :=
    ⟨whole,rfl,by simp [stack_idle],told.1,by simpa using calm⟩
  have fresh : Interleaving (idle .single ["pool"] 2) [] (idle .single ["pool"] 2 : System Nat Nat) :=
    .start
  have shared := (fresh.no_superfluous_copies (by decide) (.named "a")).2.2.2 before span [] 1 reply
    first last last race ahead answered .start
  exact ⟨before,[],first,last,span,reply,ahead,answered,race,told.2,shared⟩

end System
end PerWorker
