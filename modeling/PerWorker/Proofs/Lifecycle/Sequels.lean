import PerWorker.Proofs.Lifecycle.Stands

/-!
Orders of operations, found from the end of a session back to its start. A call that has its effect
on a slot still mapped comes first of all that is left. One that has it on a slot unmapped before
cannot: it is kept pending until the step that unmapped the slot, and all that is pending on the
slot goes there, which is where the plain map loses the copy. Main statement: a sequel to the state
after an advance gives one to the state before it.
-/
namespace PerWorker

structure Deed (V : Type) where
  op : Operation V
  made : Option Nat

/-- One operation does not have to come after another that is placed behind it. -/
def Operation.MayPrecede {V : Type} (x y : Operation V) : Prop := ¬ y.returned < x.called

section

variable {V : Type} (name : String) (m : Nat) (torn : Nat → Option Fault → Prop)

/-- A sequence of operations on one worker that leaves it without a copy. -/
inductive Cell (w : WorkerId) : Option Nat → List (Deed V) → Prop
  | nil : Cell w none []
  | cons {entry entry' : Option Nat} {x : Deed V} {rest : List (Deed V)}
      (effect : Entails name m torn w entry x.op.call x.op.reply x.made entry')
      (after : Cell w entry' rest) : Cell w entry (x :: rest)

inductive Serial : (WorkerId → Option Nat) → List (Deed V) → Prop
  | nil (copies : WorkerId → Option Nat) : Serial copies []
  | cons {copies : WorkerId → Option Nat} {x : Deed V} {rest : List (Deed V)} (w : WorkerId)
      (entry : Option Nat)
      (effect : Entails name m torn w (copies w) x.op.call x.op.reply x.made entry)
      (after : Serial (Function.update copies w entry) rest) : Serial copies (x :: rest)

variable {name m torn}

theorem Cell.prepend {w : WorkerId} {entry : Option Nat} {deeds rest : List (Deed V)}
    (cell : Cell name m torn w entry deeds) {copies : WorkerId → Option Nat}
    (after : Serial name m torn (Function.update copies w none) rest) :
    Serial name m torn (Function.update copies w entry) (deeds ++ rest) := by
  induction cell with
  | nil => exact after
  | @cons entry entry' x tail effect _ ih =>
    refine .cons w entry' ?_ ?_
    · rw [Function.update_self]
      exact effect
    · rw [Function.update_idem]
      exact ih

end

namespace Ledger

def view (l : Ledger) (m : Nat) (w : WorkerId) : Option Nat :=
  (l.mapped m w).bind fun i => held (l.state? i)

theorem view_settle {l next : Ledger} {m i : Nat} (maps : next.mapped = l.mapped)
    (states : ∀ j, j ≠ i → next.state? j = l.state? j) (w : WorkerId) :
    next.view m w = if l.mapped m w = some i then held (next.state? i) else l.view m w := by
  unfold view
  rw [maps]
  split
  next here => rw [here,Option.bind_some]
  next elsewhere =>
    cases found : l.mapped m w with
    | none => rfl
    | some j =>
      have other : j ≠ i := by
        rintro rfl
        exact elsewhere found
      rw [Option.bind_some,Option.bind_some,states j other]

/-- The plain map sees at once what happens to a slot that is mapped. -/
theorem view_settle_here {l next : Ledger} {m i : Nat} {w : WorkerId} (maps : next.mapped = l.mapped)
    (states : ∀ j, j ≠ i → next.state? j = l.state? j) (mapped : l.mapped m w = some i)
    (only : ∀ v, l.mapped m v = some i → v = w) :
    Function.update (l.view m) w (held (next.state? i)) = next.view m := by
  funext v
  rw [view_settle maps states v]
  by_cases own : v = w
  · subst own
    rw [Function.update_self,if_pos mapped]
  · rw [Function.update_of_ne own,if_neg fun found => own (only v found)]

theorem view_settle_away {l next : Ledger} {m i : Nat} (maps : next.mapped = l.mapped)
    (states : ∀ j, j ≠ i → next.state? j = l.state? j) (unmapped : ∀ v, l.mapped m v ≠ some i) :
    next.view m = l.view m := by
  funext v
  rw [view_settle maps states v,if_neg (unmapped v)]

theorem Unmaps.view_gone {l next : Ledger} {m : Nat} {w : WorkerId} (unmaps : l.Unmaps m w next) :
    next.view m w = none := by
  simp [view,unmaps.1]

theorem Unmaps.view {l next : Ledger} {m i : Nat} {w : WorkerId} (unmaps : l.Unmaps m w next)
    (mapped : l.mapped m w = some i) :
    l.view m = Function.update (next.view m) w (held (l.state? i)) := by
  funext v
  by_cases own : v = w
  · subst own
    rw [Function.update_self,Ledger.view,mapped,Option.bind_some]
  · rw [Function.update_of_ne own]
    simp only [Ledger.view,unmaps.1,unmaps.2,own,and_false,if_false]

end Ledger

/-- What threads have begun agrees with where they stand, and lies before step `n`. -/
def Begun {V : Type} (stands : Nat → Stand V) (begun : Nat → Option (Call × Nat)) (n : Nat) : Prop :=
  ∀ t, match stands t with
    | .idle => begun t = none
    | .waiting call _ | .owing call _ => ∃ called, called < n ∧ begun t = some (call,called)

section

variable {V : Type} {stands : Nat → Stand V} {begun : Nat → Option (Call × Nat)} {n t : Nat}
  {call : Call}

theorem Begun.of_waiting {slot : Option Nat} (begins : Begun stands begun n)
    (here : stands t = .waiting call slot) :
    ∃ called, called < n ∧ begun t = some (call,called) := by
  have begin := begins t
  rwa [here] at begin

theorem Begun.of_owing {debt : Debt V} (begins : Begun stands begun n)
    (here : stands t = .owing call debt) :
    ∃ called, called < n ∧ begun t = some (call,called) := by
  have begin := begins t
  rwa [here] at begin

end

/-- An order of the operations that are completed from some state on. Those that have their effect
on a slot after it was unmapped are pending until one goes back to the step that unmaps it; those
that have had their effect are due to be answered. -/
structure Sequel {V : Type} (name : String) (m : Nat) (torn : Nat → Option Fault → Prop) (l : Ledger)
    (stands : Nat → Stand V) (begun : Nat → Option (Call × Nat)) (ops : List (Operation V)) where
  order : List (Deed V)
  pending : List (Nat × Deed V)
  due : Multiset (Operation V)
  all : (↑((order ++ pending.map Prod.snd).map Deed.op) : Multiset (Operation V)) + due = ↑ops
  serial : Serial name m torn (l.view m) order
  cells : ∀ w i, l.Homed m w i → l.mapped m w ≠ some i →
    Cell name m torn w (held (l.state? i)) ((pending.filter (·.1 = i)).map Prod.snd)
  waits : ∀ x ∈ pending, (∀ k v, l.mapped k v ≠ some x.1) ∧
    stands x.2.op.thread = .waiting x.2.op.call (some x.1) ∧
    begun x.2.op.thread = some (x.2.op.call,x.2.op.called)
  owed : ∀ x ∈ due, ∃ debt, stands x.thread = .owing x.call debt ∧ debt.Met name torn x.reply ∧
    begun x.thread = some (x.call,x.called)
  owes : ∀ t call debt, stands t = .owing call debt → ∃ x ∈ due, x.thread = t
  single : (due.map Operation.thread).Nodup
  timely : order.Pairwise fun x y => x.op.MayPrecede y.op
  queued : pending.Pairwise fun x y => x.2.op.MayPrecede y.2.op
  fresh : ∀ c ∈ (order ++ pending.map Prod.snd).filterMap Deed.made, l.Fresh c
  once : ((order ++ pending.map Prod.snd).filterMap Deed.made).Nodup

namespace Sequel

variable {V : Type} {name : String} {m t n i : Nat} {w : WorkerId}
  {torn : Nat → Option Fault → Prop} {l next : Ledger} {stands stands' : Nat → Stand V}
  {begun begun' : Nat → Option (Call × Nat)} {call : Call} {ops : List (Operation V)}
  {debt debt' : Debt V}

theorem alike (sequel : Sequel name m torn next stands begun ops) (same : l.Alike next)
    (fresh : ∀ c, next.Fresh c → l.Fresh c) (homes : ∀ w i, l.Homed m w i → next.Homed m w i) :
    Nonempty (Sequel name m torn l stands begun ops) := by
  obtain ⟨maps,states⟩ := same
  have view : next.view m = l.view m := by
    funext w
    simp only [Ledger.view,maps,states]
  refine ⟨{ sequel with serial := view ▸ sequel.serial, cells := ?_, waits := ?_, fresh := ?_ }⟩
  · intro w i homed unmapped
    rw [← states]
    exact sequel.cells w i (homes w i homed) (by rwa [maps])
  · intro x member
    rw [← maps]
    exact sequel.waits x member
  · intro c made
    exact fresh c (sequel.fresh c made)

theorem pending_away (sequel : Sequel name m torn l stands' begun' ops)
    (after : ∀ call i, stands' t ≠ .waiting call i) {x : Nat × Deed V}
    (member : x ∈ sequel.pending) : x.2.op.thread ≠ t := by
  obtain ⟨_,waiting,_⟩ := sequel.waits x member
  exact fun own => after _ _ (own ▸ waiting)

theorem due_away (sequel : Sequel name m torn l stands' begun' ops)
    (after : ∀ call debt, stands' t ≠ .owing call debt) {x : Operation V}
    (member : x ∈ sequel.due) : x.thread ≠ t := by
  obtain ⟨debt,owing,_⟩ := sequel.owed x member
  exact fun own => after _ _ (own ▸ owing)

theorem restand (sequel : Sequel name m torn l stands' begun' ops)
    (others : ∀ u, u ≠ t → stands' u = stands u ∧ begun' u = begun u)
    (waits : ∀ call i, stands' t = .waiting call (some i) →
      stands t = stands' t ∧ begun t = begun' t ∨ ∃ k v, l.mapped k v = some i)
    (owes : ∀ call debt, stands t ≠ .owing call debt)
    (owed : ∀ call debt, stands' t ≠ .owing call debt) :
    Nonempty (Sequel name m torn l stands begun ops) := by
  refine ⟨{ sequel with waits := ?_, owed := ?_, owes := ?_ }⟩
  · intro x member
    obtain ⟨unmapped,waiting,began⟩ := sequel.waits x member
    refine ⟨unmapped,?_⟩
    by_cases own : x.2.op.thread = t
    · rw [own] at waiting began ⊢
      obtain ⟨stand,since⟩ | ⟨k,v,mapped⟩ := waits _ _ waiting
      · exact ⟨stand.trans waiting,since.trans began⟩
      · exact absurd mapped (unmapped k v)
    · obtain ⟨stand,since⟩ := others _ own
      exact ⟨stand.symm.trans waiting,since.symm.trans began⟩
  · intro x member
    obtain ⟨debt,owing,met,began⟩ := sequel.owed x member
    obtain ⟨stand,since⟩ := others _ (sequel.due_away owed member)
    exact ⟨debt,stand.symm.trans owing,met,since.symm.trans began⟩
  · intro u call debt owing
    have other : u ≠ t := fun own => owes _ _ (own ▸ owing)
    exact sequel.owes u call debt ((others u other).1.trans owing)

theorem carry (sequel : Sequel name m torn l stands' begun ops)
    (others : ∀ u, u ≠ t → stands' u = stands u) (before : stands t = .owing call debt)
    (after : stands' t = .owing call debt')
    (kept : ∀ reply, debt'.Met name torn reply → debt.Met name torn reply) :
    Nonempty (Sequel name m torn l stands begun ops) := by
  refine ⟨{ sequel with waits := ?_, owed := ?_, owes := ?_ }⟩
  · intro x member
    obtain ⟨unmapped,waiting,began⟩ := sequel.waits x member
    have other := sequel.pending_away (t := t) (by simp [after]) member
    exact ⟨unmapped,(others _ other) ▸ waiting,began⟩
  · intro x member
    obtain ⟨given,owing,met,began⟩ := sequel.owed x member
    by_cases own : x.thread = t
    · rw [own,after] at owing
      cases owing
      exact ⟨debt,own ▸ before,kept _ met,began⟩
    · exact ⟨given,(others _ own) ▸ owing,met,began⟩
  · intro u call' given owing
    by_cases own : u = t
    · exact own ▸ sequel.owes t call debt' after
    · exact sequel.owes u call' given ((others u own).trans owing)

/-- A call that is about to be answered is due, and has still to be placed among the others. -/
theorem answer {reply : Reply V} {called : Nat}
    (sequel : Sequel name m torn l stands' (Function.update begun t none) ops)
    (others : ∀ u, u ≠ t → stands' u = stands u) (before : stands t = .owing call (.reply reply))
    (after : stands' t = .idle) (began : begun t = some (call,called)) :
    Nonempty (Sequel name m torn l stands begun (⟨t,call,reply,called,n⟩ :: ops)) := by
  have since {u} (other : u ≠ t) : Function.update begun t none u = begun u :=
    Function.update_of_ne other ..
  have away {x} (member : x ∈ sequel.due) : x.thread ≠ t := sequel.due_away (by simp [after]) member
  refine ⟨{ sequel with
    due := ⟨t,call,reply,called,n⟩ ::ₘ sequel.due
    all := ?_, waits := ?_, owed := ?_, owes := ?_, single := ?_ }⟩
  · rw [Multiset.add_cons,sequel.all,Multiset.cons_coe]
  · intro x member
    obtain ⟨unmapped,waiting,started⟩ := sequel.waits x member
    have other := sequel.pending_away (t := t) (by simp [after]) member
    exact ⟨unmapped,(others _ other) ▸ waiting,(since other) ▸ started⟩
  · intro x member
    obtain rfl | old := Multiset.mem_cons.mp member
    · exact ⟨.reply reply,before,rfl,began⟩
    · obtain ⟨debt,owing,met,started⟩ := sequel.owed x old
      exact ⟨debt,(others _ (away old)) ▸ owing,met,(since (away old)) ▸ started⟩
  · intro u call' debt owing
    by_cases own : u = t
    · exact ⟨_,Multiset.mem_cons_self ..,own.symm⟩
    · obtain ⟨x,member,thread⟩ := sequel.owes u call' debt ((others u own).trans owing)
      exact ⟨x,Multiset.mem_cons_of_mem member,thread⟩
  · rw [Multiset.map_cons]
    refine Multiset.nodup_cons.mpr ⟨?_,sequel.single⟩
    intro listed
    obtain ⟨x,member,thread⟩ := Multiset.mem_map.mp listed
    exact away member thread

/-- A worker's first registration changes nothing that a caller could tell, so that the order stands
as it is. -/
theorem register (sequel : Sequel name m torn next stands begun ops) (missing : l.mapped m w = none)
    (maps : ∀ k v, next.mapped k v = if k = m ∧ v = w then some l.slots.size else l.mapped k v)
    (states : ∀ i, next.state? i = if i = l.slots.size then some .vacant else l.state? i)
    (fresh : ∀ c, next.Fresh c → l.Fresh c) (homes : ∀ w i, l.Homed m w i → next.Homed m w i)
    (mapped : ∀ v i, l.mapped m v = some i → l.Homed m v i) :
    Nonempty (Sequel name m torn l stands begun ops) := by
  have kept {v i} (homed : l.Homed m v i) : next.state? i = l.state? i := by
    rw [states,if_neg homed.lt.ne]
  have view : next.view m = l.view m := by
    funext v
    unfold Ledger.view
    rw [maps]
    split
    next own =>
      obtain ⟨_,rfl⟩ := own
      rw [missing,Option.bind_some,states,if_pos rfl]
      rfl
    next =>
      cases found : l.mapped m v with
      | none => rfl
      | some i => rw [Option.bind_some,Option.bind_some,kept (mapped v i found)]
  refine ⟨{ sequel with serial := view ▸ sequel.serial, cells := ?_, waits := ?_, fresh := ?_ }⟩
  · intro v i homed unmapped
    rw [← kept homed]
    refine sequel.cells v i (homes v i homed) ?_
    rw [maps]
    split
    next => exact fun new => homed.lt.ne (Option.some.inj new).symm
    next => exact unmapped
  · intro x member
    obtain ⟨unmapped,rest⟩ := sequel.waits x member
    refine ⟨?_,rest⟩
    intro k v found
    refine unmapped k v ?_
    rw [maps,if_neg]
    · exact found
    · rintro ⟨rfl,rfl⟩
      simp [missing] at found
  · intro c made
    exact fresh c (sequel.fresh c made)

theorem returned_ge (sequel : Sequel name m torn l stands begun ops)
    (later : ∀ y ∈ ops, n ≤ y.returned) {x : Deed V}
    (member : x ∈ sequel.order ++ sequel.pending.map Prod.snd) : n ≤ x.op.returned := by
  apply later
  rw [← Multiset.mem_coe,← sequel.all]
  exact Multiset.mem_add.mpr (Or.inl (List.mem_map_of_mem member))

theorem begun_first (sequel : Sequel name m torn next stands' begun' ops)
    (later : ∀ y ∈ ops, n ≤ y.returned) (begins : Begun stands begun n) {x : Operation V}
    (waiting : ∃ slot, stands x.thread = .waiting x.call slot)
    (began : begun x.thread = some (x.call,x.called)) {y : Deed V}
    (member : y ∈ sequel.order ++ sequel.pending.map Prod.snd) : x.MayPrecede y.op := by
  have ended := sequel.returned_ge later member
  obtain ⟨slot,stand⟩ := waiting
  obtain ⟨called,earlier,known⟩ := begins.of_waiting stand
  rw [began] at known
  cases known
  unfold Operation.MayPrecede
  omega

theorem front_perm (i : Nat) (order : List (Deed V)) (pending : List (Nat × Deed V)) :
    ((pending.filter (·.1 = i)).map Prod.snd ++ order ++
      (pending.filter (·.1 ≠ i)).map Prod.snd).Perm (order ++ pending.map Prod.snd) := by
  have parts := (List.filter_append_perm (fun x : Nat × Deed V => x.1 = i) pending).map Prod.snd
  rw [List.map_append] at parts
  refine (List.Perm.append_right _ List.perm_append_comm).trans ?_
  rw [List.append_assoc]
  refine List.Perm.append_left _ ?_
  simpa using parts

theorem filter_away {j : Nat} (other : j ≠ i) (pending : List (Nat × Deed V)) :
    (pending.filter (·.1 ≠ i)).filter (·.1 = j) = pending.filter (·.1 = j) := by
  rw [List.filter_filter]
  apply List.filter_congr
  intro x _
  by_cases here : x.1 = j <;> simp [here,other]

/-- The operations pending on a slot go where it is unmapped. -/
theorem unmap (sequel : Sequel name m torn next stands begun ops) (mapped : l.mapped m w = some i)
    (unmaps : l.Unmaps m w next) (homed : l.Homed m w i) (later : ∀ y ∈ ops, n ≤ y.returned)
    (begins : Begun stands begun n)
    (fresh : ∀ c, next.Fresh c → l.Fresh c) (homes : ∀ w i, l.Homed m w i → next.Homed m w i) :
    Nonempty (Sequel name m torn l stands begun ops) := by
  have same := front_perm i sequel.order sequel.pending
  -- After this step the slot is unmapped, so what is pending on it leaves its worker without a copy.
  have moved := sequel.cells w i (homes w i homed) (by simp [unmaps.1])
  rw [unmaps.2] at moved
  have cleared : next.view m = Function.update (next.view m) w none :=
    (unmaps.view_gone ▸ Function.update_eq_self w (next.view m)).symm
  refine ⟨{ sequel with
    order := (sequel.pending.filter (·.1 = i)).map Prod.snd ++ sequel.order
    pending := sequel.pending.filter (·.1 ≠ i)
    all := ?_, serial := ?_, cells := ?_, waits := ?_, timely := ?_, queued := ?_, fresh := ?_
    once := ?_ }⟩
  · rw [← sequel.all]
    congr 1
    exact Multiset.coe_eq_coe.mpr (same.map Deed.op)
  · rw [unmaps.view mapped]
    exact moved.prepend (cleared ▸ sequel.serial)
  · intro v j own unmapped
    have other : j ≠ i := by
      rintro rfl
      obtain ⟨_,rfl⟩ := own.unique homed
      exact unmapped mapped
    rw [filter_away other,← unmaps.2]
    refine sequel.cells v j (homes v j own) ?_
    rw [unmaps.1]
    split
    next => simp
    next => exact unmapped
  · intro x member
    obtain ⟨pending,other⟩ := List.mem_filter.mp member
    obtain ⟨unmapped,waiting⟩ := sequel.waits x pending
    refine ⟨?_,waiting⟩
    intro k v found
    by_cases own : k = m ∧ v = w
    · obtain ⟨rfl,rfl⟩ := own
      rw [mapped] at found
      simp [Option.some.inj found] at other
    · exact unmapped k v (by rw [unmaps.1,if_neg own,found])
  · refine List.pairwise_append.mpr ⟨?_,sequel.timely,?_⟩
    · exact List.pairwise_map.mpr (sequel.queued.filter _)
    · intro x earlier y later'
      obtain ⟨z,pending,rfl⟩ := List.mem_map.mp earlier
      obtain ⟨_,waiting,began⟩ := sequel.waits z (List.mem_of_mem_filter pending)
      exact sequel.begun_first later begins ⟨_,waiting⟩ began (List.mem_append_left _ later')
  · exact sequel.queued.filter _
  · intro c made
    exact fresh c (sequel.fresh c ((same.filterMap Deed.made).mem_iff.mp made))
  · exact ((same.filterMap Deed.made).nodup_iff).mpr sequel.once

theorem due_split (sequel : Sequel name m torn next stands' begun ops)
    (others : ∀ u, u ≠ t → stands' u = stands u) (owing : stands' t = .owing call debt)
    (before : ∀ call debt, stands t ≠ .owing call debt) :
    ∃ x rest, sequel.due = x ::ₘ rest ∧ x.thread = t ∧ x.call = call ∧
      debt.Met name torn x.reply ∧ begun t = some (call,x.called) ∧
      (∀ y ∈ rest, ∃ debt, stands y.thread = .owing y.call debt ∧ debt.Met name torn y.reply ∧
        begun y.thread = some (y.call,y.called)) ∧
      (∀ u call debt, stands u = .owing call debt → ∃ y ∈ rest, y.thread = u) ∧
      (rest.map Operation.thread).Nodup := by
  obtain ⟨x,member,rfl⟩ := sequel.owes t call debt owing
  obtain ⟨rest,split⟩ := Multiset.exists_cons_of_mem member
  obtain ⟨given,known,met,began⟩ := sequel.owed x member
  rw [owing] at known
  obtain ⟨rfl,rfl⟩ := Stand.owing.inj known
  have single := sequel.single
  rw [split,Multiset.map_cons] at single
  obtain ⟨absent,nodup⟩ := Multiset.nodup_cons.mp single
  have away {y} (listed : y ∈ rest) : y.thread ≠ x.thread := by
    intro same
    exact absent (same ▸ Multiset.mem_map_of_mem _ listed)
  refine ⟨x,rest,split,rfl,rfl,met,began,?_,?_,nodup⟩
  · intro y listed
    obtain ⟨debt,owing,met,began⟩ := sequel.owed y (split ▸ Multiset.mem_cons_of_mem listed)
    exact ⟨debt,(others _ (away listed)) ▸ owing,met,began⟩
  · intro u call debt owing
    have other : u ≠ x.thread := fun own => before call debt (own ▸ owing)
    obtain ⟨y,listed,thread⟩ := sequel.owes u call debt ((others u other).trans owing)
    rw [split] at listed
    obtain rfl | old := Multiset.mem_cons.mp listed
    · exact absurd thread.symm other
    · exact ⟨y,old,thread⟩

theorem waits_away (sequel : Sequel name m torn next stands' begun ops)
    (others : ∀ u, u ≠ t → stands' u = stands u) (after : ∀ call i, stands' t ≠ .waiting call i)
    {x : Nat × Deed V} (member : x ∈ sequel.pending) :
    (∀ k v, next.mapped k v ≠ some x.1) ∧ stands x.2.op.thread = .waiting x.2.op.call (some x.1) ∧
      begun x.2.op.thread = some (x.2.op.call,x.2.op.called) := by
  obtain ⟨unmapped,waiting,began⟩ := sequel.waits x member
  have other := sequel.pending_away after member
  exact ⟨unmapped,(others _ other) ▸ waiting,began⟩

theorem made_first {y : Deed V} (sequel : Sequel name m torn next stands' begun ops)
    (fresh : ∀ c, next.Fresh c → l.Fresh c)
    (made : ∀ c, y.made = some c → l.Fresh c ∧ ¬next.Fresh c) :
    (∀ c ∈ (y :: (sequel.order ++ sequel.pending.map Prod.snd)).filterMap Deed.made, l.Fresh c) ∧
      ((y :: (sequel.order ++ sequel.pending.map Prod.snd)).filterMap Deed.made).Nodup := by
  cases own : y.made with
  | none =>
    rw [List.filterMap_cons_none own]
    exact ⟨fun c member => fresh c (sequel.fresh c member),sequel.once⟩
  | some d =>
    rw [List.filterMap_cons_some own]
    refine ⟨?_,List.nodup_cons.mpr ⟨?_,sequel.once⟩⟩
    · intro c member
      obtain rfl | later := List.mem_cons.mp member
      · exact (made _ own).1
      · exact fresh c (sequel.fresh c later)
    · exact fun later => (made d own).2 (sequel.fresh d later)

structure Leads (sequel : Sequel name m torn next stands' begun ops) (l : Ledger)
    (stands : Nat → Stand V) (y : Deed V) (rest : Multiset (Operation V)) : Prop where
  all : (↑((y :: (sequel.order ++ sequel.pending.map Prod.snd)).map Deed.op) :
    Multiset (Operation V)) + rest = ↑ops
  first : ∀ z ∈ sequel.order ++ sequel.pending.map Prod.snd, y.op.MayPrecede z.op
  began : begun y.op.thread = some (y.op.call,y.op.called)
  waits : ∀ x ∈ sequel.pending, (∀ k v, next.mapped k v ≠ some x.1) ∧
    stands x.2.op.thread = .waiting x.2.op.call (some x.1) ∧
    begun x.2.op.thread = some (x.2.op.call,x.2.op.called)
  owed : ∀ x ∈ rest, ∃ debt, stands x.thread = .owing x.call debt ∧ debt.Met name torn x.reply ∧
    begun x.thread = some (x.call,x.called)
  owes : ∀ t call debt, stands t = .owing call debt → ∃ x ∈ rest, x.thread = t
  single : (rest.map Operation.thread).Nodup
  fresh : ∀ c ∈ (y :: (sequel.order ++ sequel.pending.map Prod.snd)).filterMap Deed.made, l.Fresh c
  once : ((y :: (sequel.order ++ sequel.pending.map Prod.snd)).filterMap Deed.made).Nodup

theorem leads {made : Option Nat} (sequel : Sequel name m torn next stands' begun ops)
    (others : ∀ u, u ≠ t → stands' u = stands u) (before : stands t = .waiting call (some i))
    (after : stands' t = .owing call debt) (making : ∀ c, made = some c → l.Fresh c ∧ ¬next.Fresh c)
    (later : ∀ y ∈ ops, n ≤ y.returned) (begins : Begun stands begun n)
    (fresh : ∀ c, next.Fresh c → l.Fresh c) :
    ∃ x rest, sequel.Leads l stands ⟨x,made⟩ rest ∧ x.thread = t ∧ x.call = call ∧
      debt.Met name torn x.reply := by
  obtain ⟨x,rest,split,rfl,rfl,met,began,owed,owes,single⟩ :=
    sequel.due_split others after (by simp [before])
  obtain ⟨isFresh,once⟩ := sequel.made_first (y := ⟨x,made⟩) fresh making
  refine ⟨x,rest,⟨?_,?_,began,?_,owed,owes,single,isFresh,once⟩,rfl,rfl,met⟩
  · rw [← sequel.all,split,List.map_cons,← Multiset.cons_coe,Multiset.cons_add,Multiset.add_cons]
  · exact fun z member => sequel.begun_first later begins ⟨_,before⟩ began member
  · exact fun z member => sequel.waits_away others (by simp [after]) member

variable {sequel : Sequel name m torn next stands' begun ops} {y : Deed V}
  {due : Multiset (Operation V)}

/-- On a slot that is mapped, it comes first in the order. -/
theorem Leads.front (leads : sequel.Leads l stands y due) (maps : next.mapped = l.mapped)
    (states : ∀ j, j ≠ i → next.state? j = l.state? j)
    (effect : Entails name m torn w (held (l.state? i)) y.op.call y.op.reply y.made
      (held (next.state? i)))
    (homed : l.Homed m w i) (mapped : l.mapped m w = some i)
    (homes : ∀ w i, l.Homed m w i → next.Homed m w i)
    (mappedHomed : ∀ k v i, l.mapped k v = some i → l.Homed k v i) :
    Nonempty (Sequel name m torn l stands begun ops) := by
  have only (v : WorkerId) (found : l.mapped m v = some i) : v = w :=
    ((mappedHomed m v i found).unique homed).2
  have here : l.view m w = held (l.state? i) := by simp [Ledger.view,mapped]
  refine ⟨{ sequel with
    order := y :: sequel.order
    due := due
    all := leads.all, serial := ?_, cells := ?_, waits := ?_, owed := leads.owed
    owes := leads.owes, single := leads.single, timely := ?_, fresh := leads.fresh
    once := leads.once }⟩
  · refine .cons w (held (next.state? i)) ?_ ?_
    · rw [here]
      exact effect
    · rw [Ledger.view_settle_here maps states mapped only]
      exact sequel.serial
  · intro v j own unmapped
    have other : j ≠ i := by
      rintro rfl
      obtain ⟨_,rfl⟩ := own.unique homed
      exact unmapped mapped
    rw [← states j other]
    exact sequel.cells v j (homes v j own) (maps ▸ unmapped)
  · intro z member
    exact maps ▸ leads.waits z member
  · refine List.pairwise_cons.mpr ⟨?_,sequel.timely⟩
    intro z member
    exact leads.first z (List.mem_append_left _ member)

/-- On a slot that has been unmapped, it comes first of all that is pending: the plain map sees only
what is left of the slot at the step that unmapped it. -/
theorem Leads.behind (leads : sequel.Leads l stands y due) (maps : next.mapped = l.mapped)
    (states : ∀ j, j ≠ i → next.state? j = l.state? j)
    (effect : Entails name m torn w (held (l.state? i)) y.op.call y.op.reply y.made
      (held (next.state? i)))
    (homed : l.Homed m w i) (unmapped : l.mapped m w ≠ some i)
    (before : stands y.op.thread = .waiting y.op.call (some i))
    (homes : ∀ w i, l.Homed m w i → next.Homed m w i)
    (mappedHomed : ∀ k v i, l.mapped k v = some i → l.Homed k v i) :
    Nonempty (Sequel name m torn l stands begun ops) := by
  have nowhere (k : Nat) (v : WorkerId) : l.mapped k v ≠ some i := by
    intro found
    obtain ⟨rfl,rfl⟩ := (mappedHomed k v i found).unique homed
    exact unmapped found
  have view := Ledger.view_settle_away maps states (nowhere m)
  have moved : (sequel.order ++ ((i,y) :: sequel.pending).map Prod.snd).Perm
      (y :: (sequel.order ++ sequel.pending.map Prod.snd)) := List.perm_middle
  refine ⟨{ sequel with
    pending := (i,y) :: sequel.pending
    due := due
    all := ?_, serial := view ▸ sequel.serial, cells := ?_, waits := ?_, owed := leads.owed
    owes := leads.owes, single := leads.single, queued := ?_, fresh := ?_, once := ?_ }⟩
  · rw [← leads.all]
    congr 1
    exact Multiset.coe_eq_coe.mpr (moved.map Deed.op)
  · intro v j own unmapped
    have cell := sequel.cells v j (homes v j own) (maps ▸ unmapped)
    by_cases here : j = i
    · subst here
      obtain ⟨_,rfl⟩ := own.unique homed
      rw [List.filter_cons_of_pos (by simp)]
      exact .cons effect cell
    · rw [List.filter_cons_of_neg (by simpa using Ne.symm here),← states j here]
      exact cell
  · intro z member
    obtain rfl | old := List.mem_cons.mp member
    · exact ⟨nowhere,before,leads.began⟩
    · exact maps ▸ leads.waits z old
  · refine List.pairwise_cons.mpr ⟨?_,sequel.queued⟩
    intro z member
    exact leads.first _ (List.mem_append_right _ (List.mem_map_of_mem member))
  · intro c member
    exact leads.fresh c ((moved.filterMap Deed.made).mem_iff.mp member)
  · exact ((moved.filterMap Deed.made).nodup_iff).mpr leads.once

/-- A call that has its effect on a slot comes first of all that is left, or first of all that is
pending if the slot has been unmapped. -/
theorem settle {made : Option Nat} (sequel : Sequel name m torn next stands' begun ops)
    (others : ∀ u, u ≠ t → stands' u = stands u) (before : stands t = .waiting call (some i))
    (after : stands' t = .owing call debt) (maps : next.mapped = l.mapped)
    (states : ∀ j, j ≠ i → next.state? j = l.state? j)
    (effect : ∀ reply, debt.Met name torn reply →
      Entails name m torn w (held (l.state? i)) call reply made (held (next.state? i)))
    (homed : l.Homed m w i) (making : ∀ c, made = some c → l.Fresh c ∧ ¬next.Fresh c)
    (later : ∀ y ∈ ops, n ≤ y.returned) (begins : Begun stands begun n)
    (fresh : ∀ c, next.Fresh c → l.Fresh c) (homes : ∀ w i, l.Homed m w i → next.Homed m w i)
    (mappedHomed : ∀ k v i, l.mapped k v = some i → l.Homed k v i) :
    Nonempty (Sequel name m torn l stands begun ops) := by
  obtain ⟨x,due,leads,rfl,rfl,met⟩ :=
    sequel.leads others before after making later begins fresh
  by_cases mapped : l.mapped m w = some i
  · exact leads.front maps states (effect x.reply met) homed mapped homes mappedHomed
  · exact leads.behind maps states (effect x.reply met) homed mapped before homes mappedHomed

theorem skip {reply : Reply V} {called : Nat}
    (sequel : Sequel name m torn l stands' (Function.update begun t none) ops)
    (others : ∀ u, u ≠ t → stands' u = stands u) (before : stands t = .waiting call none)
    (after : stands' t = .idle) (missing : l.mapped m w = none)
    (effect : Entails name m torn w none call reply none none)
    (earlier : called < n) (later : ∀ y ∈ ops, n ≤ y.returned) :
    Nonempty (Sequel name m torn l stands begun (⟨t,call,reply,called,n⟩ :: ops)) := by
  have since {u} (other : u ≠ t) : Function.update begun t none u = begun u :=
    Function.update_of_ne other ..
  refine ⟨{ sequel with
    order := ⟨⟨t,call,reply,called,n⟩,none⟩ :: sequel.order
    all := ?_, serial := ?_, waits := ?_, owed := ?_, owes := ?_, timely := ?_ }⟩
  · rw [List.cons_append,List.map_cons,← Multiset.cons_coe,Multiset.cons_add,sequel.all,
      Multiset.cons_coe]
  · have here : l.view m w = none := by simp [Ledger.view,missing]
    refine .cons w none (here ▸ effect) ?_
    rw [← here,Function.update_eq_self]
    exact sequel.serial
  · intro x member
    obtain ⟨unmapped,waiting,began⟩ := sequel.waits x member
    have other := sequel.pending_away (t := t) (by simp [after]) member
    exact ⟨unmapped,(others _ other) ▸ waiting,(since other) ▸ began⟩
  · intro x member
    obtain ⟨debt,owing,met,began⟩ := sequel.owed x member
    have other := sequel.due_away (t := t) (by simp [after]) member
    exact ⟨debt,(others _ other) ▸ owing,met,(since other) ▸ began⟩
  · intro u call' debt owing
    have other : u ≠ t := by
      rintro rfl
      rw [before] at owing
      cases owing
    exact sequel.owes u call' debt ((others u other).trans owing)
  · refine List.pairwise_cons.mpr ⟨?_,sequel.timely⟩
    intro x member
    have ended := sequel.returned_ge later (List.mem_append_left _ member)
    unfold Operation.MayPrecede
    change ¬x.op.returned < called
    omega

end Sequel

section

variable {V : Type} {name : String} {m t n : Nat} {torn : Nat → Option Fault → Prop}
  {l next : Ledger} {stands stands' : Nat → Stand V} {begun : Nat → Option (Call × Nat)}
  {said : Option (Talk V)} {rest : List (Nat × Nat × Talk V)}

def sinceTalk (begun : Nat → Option (Call × Nat)) (n t : Nat) :
    Option (Talk V) → Nat → Option (Call × Nat)
  | none => begun
  | some (.called call) => Function.update begun t (some (call,n))
  | some (.returned _) => Function.update begun t none

theorem Advance.begins (advance : Advance name m torn l next (stands t) (stands' t) said)
    (others : ∀ u, u ≠ t → stands' u = stands u) (begins : Begun stands begun n) :
    Begun stands' (sinceTalk begun n t said) (n + 1) := by
  intro u
  by_cases own : u = t
  · subst own
    have begin := begins u
    generalize stands u = stand at advance begin
    generalize stands' u = stand' at advance
    cases advance with
    | begin call => exact ⟨n,Nat.lt_succ_self n,Function.update_self ..⟩
    | skip | fail | answer => exact Function.update_self ..
    | wait | register | settle | detach | restart | carry =>
      obtain ⟨called,before,known⟩ := begin
      exact ⟨called,Nat.lt_succ_of_lt before,known⟩
  · have begin := begins u
    have since : sinceTalk begun n t said u = begun u := by
      unfold sinceTalk
      split <;> simp [own]
    rw [others u own,since]
    cases stand : stands u with
    | idle => simpa [stand] using begin
    | waiting | owing =>
      rw [stand] at begin
      obtain ⟨called,before,known⟩ := begin
      exact ⟨called,Nat.lt_succ_of_lt before,known⟩

theorem Advance.sequel (advance : Advance name m torn l next (stands t) (stands' t) said)
    (others : ∀ u, u ≠ t → stands' u = stands u) (begins : Begun stands begun n)
    (sequel : Sequel name m torn next stands' (sinceTalk begun n t said)
      (completed (sinceTalk begun n t said) rest))
    (later : ∀ y ∈ completed (sinceTalk begun n t said) rest, n < y.returned)
    (fresh : ∀ c, next.Fresh c → l.Fresh c) (homes : ∀ w i, l.Homed m w i → next.Homed m w i)
    (mapped : ∀ k v i, l.mapped k v = some i → l.Homed k v i) :
    Nonempty (Sequel name m torn l stands begun
      (completed begun (said.toList.map (n,t,·) ++ rest))) := by
  have begins' := advance.begins others begins
  have since (begun' : Nat → Option (Call × Nat)) (same : ∀ u, u ≠ t → begun' u = begun u) (u : Nat)
      (other : u ≠ t) : stands' u = stands u ∧ begun' u = begun u := ⟨others u other,same u other⟩
  generalize before : stands t = stand at advance
  generalize after : stands' t = stand' at advance
  cases advance with
  | begin call same =>
    obtain ⟨here⟩ := sequel.alike same fresh homes
    exact here.restand (t := t) (since _ fun u other => Function.update_of_ne other ..)
      (by simp [after]) (by simp [before]) (by simp [after])
  | wait call i j same known =>
    obtain ⟨here⟩ := sequel.alike same fresh homes
    refine here.restand (t := t) (since _ fun _ _ => rfl) ?_ (by simp [before]) (by simp [after])
    intro call' k waiting
    rw [after] at waiting
    obtain ⟨rfl,rfl⟩ := Stand.waiting.inj waiting
    obtain rfl | found := known k rfl
    · exact Or.inl ⟨before.trans after.symm,rfl⟩
    · exact Or.inr found
  | register call w missing maps states =>
    have here : Nonempty (Sequel name m torn next stands begun (completed begun rest)) := by
      refine sequel.restand (t := t) (since _ fun _ _ => rfl) ?_ (by simp [before]) (by simp [after])
      intro call' k waiting
      rw [after] at waiting
      obtain ⟨rfl,new⟩ := Stand.waiting.inj waiting
      exact Or.inr ⟨m,w,by rw [maps,if_pos ⟨rfl,rfl⟩,new]⟩
    obtain ⟨here⟩ := here
    exact here.register missing maps states fresh homes (mapped m)
  | settle call w i debt made maps states effect homed making =>
    exact sequel.settle others before after maps states effect homed making
      (fun y member => (later y member).le) begins fresh homes mapped
  | skip call w reply missing same effect =>
    obtain ⟨called,earlier,began⟩ := begins.of_waiting before
    obtain ⟨here⟩ := sequel.alike same fresh homes
    have skipped := here.skip others before after missing effect earlier
      (fun y member => (later y member).le)
    simpa [completed,sinceTalk,began] using skipped
  | detach call w i found unmaps =>
    obtain ⟨here⟩ := sequel.unmap found unmaps (mapped m w i found)
      (fun y member => later y member) begins' fresh homes
    refine here.restand (t := t) (since _ fun _ _ => rfl) ?_ (by simp [before]) (by simp [after])
    intro call' k waiting
    rw [after] at waiting
    obtain ⟨rfl,same⟩ := Stand.waiting.inj waiting
    exact Or.inr ⟨m,w,found.trans same⟩
  | restart call w i found unmaps =>
    obtain ⟨here⟩ := sequel.unmap found unmaps (mapped m w i found)
      (fun y member => later y member) begins' fresh homes
    exact here.restand (t := t) (since _ fun _ _ => rfl) (by simp [after]) (by simp [before])
      (by simp [after])
  | fail call w i reply found unmaps =>
    obtain ⟨called,earlier,began⟩ := begins.of_owing before
    obtain ⟨there⟩ := sequel.answer (n := n) others before after began
    have unmapped := there.unmap (n := n) found unmaps (mapped m w i found)
      (by simpa using fun y member => (later y member).le) begins fresh homes
    simpa [completed,sinceTalk,began] using unmapped
  | carry call debt debt' same kept =>
    obtain ⟨here⟩ := sequel.alike same fresh homes
    exact here.carry others before after kept
  | answer call reply same =>
    obtain ⟨called,earlier,began⟩ := begins.of_owing before
    obtain ⟨here⟩ := sequel.alike same fresh homes
    have answered := here.answer (n := n) others before after began
    simpa [completed,sinceTalk,began] using answered

end

end PerWorker
