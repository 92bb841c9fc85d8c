import PerWorker.Proofs.Lifecycle.Keeping
import PerWorker.Proofs.Lifecycle.Bodies

/-!
Which copy a failed `process` discards. It releases its worker as any release does, so that it takes
out whatever slot the worker has by then. Main statement: it tears down the copy that its body ran
on just when that copy is still in the worker's slot at that step, and otherwise the copy that has
come in its place, if there is one.
-/
namespace PerWorker

namespace Ledger

variable {l next : Ledger} {t m i c : Nat} {w : WorkerId} {notes : List Note}

def Settled (l : Ledger) (c : Nat) : Prop :=
  c < l.bonds.size ∧ ∀ x ∈ l.roles, ∀ i, x.2.brings? ≠ some (i,c)

theorem Settled.move (settled : l.Settled c) (move : Move l notes next) : next.Settled c := by
  obtain ⟨made,idle⟩ := settled
  have bonds := move.grows.2
  obtain ⟨t,before,after,notes,shared,rest,split,shift⟩ := move
  refine ⟨made.trans_le bonds,?_⟩
  intro x member i brings
  obtain own | other := Multiset.mem_add.mp member
  · obtain ⟨r,chosen,rfl⟩ := mem_tagged.mp own
    obtain ⟨q,had,same⟩ | new := shift.brings_back chosen brings
    · exact idle _ (mem_of_split split had) i same
    · omega
  · exact idle x (by simp [split,other]) i brings

theorem settled_of_live (custody : Custody notes l) (live : l.state? i = some (.live c)) :
    l.Settled c := by
  refine ⟨custody.born (held_of_live live),?_⟩
  intro x member j brings
  obtain ⟨t,r⟩ := x
  obtain ⟨other,placed,apart⟩ : ∃ other, r.place? t c = some other ∧ other ≠ .resting i := by
    cases r with
    | settingUp n v k d =>
      cases brings
      exact ⟨.settingUp t j,by simp [Role.place?],by simp⟩
    | ready n v k d =>
      cases brings
      exact ⟨.ready t j,by simp [Role.place?],by simp⟩
    | _ => cases brings
  have here : other ∈ l.places c := place_of_role member placed
  rw [custody.resting live] at here
  exact apart (Multiset.mem_singleton.mp here)

end Ledger

namespace Frame

variable {F V : Type}

def serves? : Frame F V → Option Nat
  | .processBody _ _ point => some point.copy
  | .processLogFailure _ _ c _ => some c
  | _ => none

def hasServed : Frame F V → Bool
  | .get .. => false
  | _ => true

def hasFailed : Frame F V → Bool
  | .get .. | .processBody .. => false
  | _ => true

end Frame

/-- The copy on which the call runs its body. -/
def Moment.body? {F V : Type} (t depth : Nat) (moment : Moment F V) : Option Nat :=
  match moment.acting? t depth with
  | some (.processBody _ _ point) => some point.copy
  | _ => none

namespace System

open Ledger

variable {F V : Type} {sharding : Sharding} {names : List String} {threads : Nat}
  {past : List (Entry F V)} {s now next last : System F V} {t u m b depth : Nat} {w : WorkerId}
  {a : Action F V} {events : List (Event V)} {span : List (Moment F V)}
  {frame : Frame F V} {below : List (Frame F V)} {moment : Moment F V} {reply : Reply V}

theorem process_account_kept (run : Interleaving (idle sharding names threads) past s) :
    Kept s t (.process m w) fun span frame below now => Processing m w frame below ∧
      Accounted past t (s.stack t).length span frame.releases? now where
  made := by
    intro next frame below moved opening stood
    cases opening
    refine ⟨.look .look,?_,?_,by simp [Frame.releases?],by simp [Frame.releases?]⟩
    · intro q member v i c held
      obtain rfl := List.mem_singleton.mp member
      simp [Moment.detached?,Moment.acting?,Action.isOwn] at held
    · intro v c fault torn
      simp [teardowns,Moment.torn?,Moment.acting?,Action.isOwn] at torn
  aside := by
    rintro span now frame below u a next events under ⟨shape,accounted⟩ moved stood silent
    exact ⟨shape,accounted.aside (under.run run).sound moved stood.mem silent⟩
  onward := by
    rintro span now frame below a next events frame' below' under ⟨shape,accounted⟩ moved own top
      here acting stood
    cases process_onward shape under.stands top own moved here with
    | look | serve | run | fail =>
      refine ⟨by constructor,accounted.rest ?_ ?_ ?_ ?_⟩ <;>
        simp [Moment.detached?,Moment.torn?,acting,Frame.releases?]
    | discard c fault =>
      refine ⟨.release _ fault,accounted.rest ?_ ?_ ?_ ?_⟩ <;>
        simp [Moment.detached?,Moment.torn?,acting,Frame.releases?,ReleasePoint.slot?,
          ReleasePoint.takes?]
    | release point point' fault turn =>
      exact ⟨.release point' fault,
        accounted.turn (under.run run).sound moved turn top acting stood.mem⟩
    | report point fault e ended =>
      refine ⟨.failed fault e,accounted.ended ended (by simp) acting ?_⟩
      simp [Frame.releases?]

/-- How far a `process` has come that runs its body on that copy: what it has tried to take out of
the map and torn down. -/
structure Discarding (t depth m : Nat) (w : WorkerId) (b : Nat) (span : List (Moment F V))
    (frame : Frame F V) (below : List (Frame F V)) (now : System F V) : Prop where
  shape : Processing m w frame below
  unserved : frame.hasServed = false → ∀ q ∈ span, q.body? t depth = none
  bodies : ∀ q ∈ span, ∀ c, q.body? t depth = some c → c = b
  serves : ∀ c, frame.serves? = some c → c = b
  settled : frame.hasServed = true → now.ledger.Settled b
  ran : frame.hasFailed = true → ∃ q ∈ span, q.body? t depth = some b
  untried : frame.hasUnmapped = false → attempts t depth span = []
  tried : frame.hasUnmapped = true → ∃ q ∈ span, q.state.ledger.Settled b ∧
    attempts t depth span = [(w,q.state.slot? m w)] ∧
      ∀ p ∈ span, p.attempt? t depth ≠ none → p = q
  torn : ((teardowns t depth span).map Prod.fst ++ frame.due).Sublist
    ((attempts t depth span).map Prod.fst)

/-- A step that does not take the worker out of the map. -/
theorem Discarding.carry {frame' : Frame F V} {below' : List (Frame F V)}
    (discarding : Discarding t depth m w b span frame below now)
    (shape : Processing m w frame' below') (moved : now.step u a = some (next,events))
    (attempt : Moment.attempt? t depth ⟨now,⟨u,a,events⟩⟩ = none)
    (body : ∀ c, Moment.body? t depth ⟨now,⟨u,a,events⟩⟩ = some c →
      frame.hasServed = true ∧ c = b)
    (serves : ∀ c, frame'.serves? = some c → c = b) (served : frame'.hasServed = frame.hasServed)
    (failed : frame'.hasFailed = frame.hasFailed ∨
      Moment.body? t depth ⟨now,⟨u,a,events⟩⟩ = some b)
    (unmapped : frame'.hasUnmapped = frame.hasUnmapped)
    (torn : ((teardowns t depth (span ++ [⟨now,⟨u,a,events⟩⟩])).map Prod.fst ++ frame'.due).Sublist
      ((attempts t depth span).map Prod.fst)) :
    Discarding t depth m w b (span ++ [⟨now,⟨u,a,events⟩⟩]) frame' below' next := by
  have tries : attempts t depth (span ++ [⟨now,⟨u,a,events⟩⟩]) = attempts t depth span := by
    simp [attempts_append,attempt]
  refine ⟨shape,?_,?_,serves,?_,?_,?_,?_,tries ▸ torn⟩
  · intro unserved q member
    rw [served] at unserved
    obtain old | new := List.mem_append.mp member
    · exact discarding.unserved unserved q old
    · obtain rfl := List.mem_singleton.mp new
      refine Option.eq_none_iff_forall_ne_some.mpr fun c here => ?_
      simp [unserved] at body
      exact body c here
  · intro q member c here
    obtain old | new := List.mem_append.mp member
    · exact discarding.bodies q old c here
    · obtain rfl := List.mem_singleton.mp new
      exact (body c here).2
  · intro has
    exact (discarding.settled (served ▸ has)).move (step_move moved)
  · intro has
    obtain same | here := failed
    · obtain ⟨q,member,ran⟩ := discarding.ran (same ▸ has)
      exact ⟨q,List.mem_append_left _ member,ran⟩
    · exact ⟨_,List.mem_append_right _ List.mem_cons_self,here⟩
  · intro mapped
    rw [tries]
    exact discarding.untried (unmapped ▸ mapped)
  · intro has
    obtain ⟨q,member,settled,all,only⟩ := discarding.tried (unmapped ▸ has)
    refine ⟨q,List.mem_append_left _ member,settled,tries.trans all,?_⟩
    intro p among tried
    obtain old | new := List.mem_append.mp among
    · exact only p old tried
    · obtain rfl := List.mem_singleton.mp new
      exact absurd attempt tried

theorem Discarding.serve {i c : Nat} (run : Interleaving (idle sharding names threads) past now)
    (discarding : Discarding t depth m w b span (.get m w (.leave i (.found c)))
      [.processGet m w] now)
    (moved : now.step t a = some (next,events))
    (member : .get m w (.leave i (.found c)) ∈ now.stack t)
    (acting : Moment.acting? t depth ⟨now,⟨t,a,events⟩⟩ = some (.get m w (.leave i (.found c)))) :
    Discarding t depth m w c (span ++ [⟨now,⟨t,a,events⟩⟩]) (.processBody m w (.claim c)) []
      next := by
  have live : now.ledger.state? i = some (.live c) := run.found _ (mem_roles member rfl) m w i c rfl
  have settled := (settled_of_live run.custody live).move (step_move moved)
  have unserved := discarding.unserved rfl
  have untried := discarding.untried rfl
  have body : ∀ q ∈ span ++ [⟨now,⟨t,a,events⟩⟩], q.body? t depth = none := by
    intro q among
    obtain old | new := List.mem_append.mp among
    · exact unserved q old
    · obtain rfl := List.mem_singleton.mp new
      simp [Moment.body?,acting]
  refine ⟨.body _,by simp [Frame.hasServed],?_,?_,fun _ => settled,by simp [Frame.hasFailed],?_,
    by simp [Frame.hasUnmapped],?_⟩
  · intro q among d here
    simp [body q among] at here
  · intro d here
    exact (Option.some.inj here).symm
  · intro _
    simp [attempts_append,untried,Moment.attempt?,acting]
  · simpa [attempts_append,teardowns_append,Moment.attempt?,Moment.torn?,acting,Frame.due]
      using discarding.torn

/-- The one step with which the call takes its worker out of the map. -/
theorem Discarding.unregister {fault : Fault} {frame' : Frame F V} {below' : List (Frame F V)}
    (discarding : Discarding t depth m w b span (.release m w .unregister)
      [.processRelease m w fault] now) (shape : Processing m w frame' below')
    (moved : now.step t a = some (next,events))
    (acting : Moment.acting? t depth ⟨now,⟨t,a,events⟩⟩ = some (.release m w .unregister))
    (serves : frame'.serves? = none) (unmapped : frame'.hasUnmapped = true)
    (due : frame'.due.Sublist [w]) :
    Discarding t depth m w b (span ++ [⟨now,⟨t,a,events⟩⟩]) frame' below' next := by
  have untried := discarding.untried rfl
  have untorn : teardowns t depth span = [] := by
    have torn := discarding.torn
    simpa [untried,Frame.due,ReleasePoint.isDue] using torn
  have tries : attempts t depth (span ++ [⟨now,⟨t,a,events⟩⟩]) = [(w,now.slot? m w)] := by
    simp [attempts_append,untried,Moment.attempt?,acting]
  have body : Moment.body? t depth ⟨now,⟨t,a,events⟩⟩ = none := by simp [Moment.body?,acting]
  have served : frame'.hasServed = true := by
    cases shape with
    | look => cases unmapped
    | _ => rfl
  refine ⟨shape,by simp [served],?_,by simp [serves],?_,?_,by simp [unmapped],?_,?_⟩
  · intro q member c here
    obtain old | new := List.mem_append.mp member
    · exact discarding.bodies q old c here
    · obtain rfl := List.mem_singleton.mp new
      simp [body] at here
  · exact fun _ => (discarding.settled rfl).move (step_move moved)
  · intro _
    obtain ⟨q,member,here⟩ := discarding.ran rfl
    exact ⟨q,List.mem_append_left _ member,here⟩
  · intro _
    refine ⟨_,List.mem_append_right _ List.mem_cons_self,discarding.settled rfl,tries,?_⟩
    intro p among tried
    obtain old | new := List.mem_append.mp among
    · exact absurd (List.filterMap_eq_nil_iff.mp untried p old) tried
    · exact List.mem_singleton.mp new
  · rw [tries]
    simpa [teardowns_append,untorn,Moment.torn?,acting] using due

theorem Discarding.turn {point point' : ReleasePoint} {fault : Fault}
    (discarding : Discarding t depth m w b span (.release m w point)
      [.processRelease m w fault] now) (moved : now.step t a = some (next,events))
    (turn : ReleaseTurn now m w a point point')
    (acting : Moment.acting? t depth ⟨now,⟨t,a,events⟩⟩ = some (.release m w point)) :
    Discarding t depth m w b (span ++ [⟨now,⟨t,a,events⟩⟩]) (.release m w point')
      [.processRelease m w fault] next := by
  have silent : Moment.body? t depth ⟨now,⟨t,a,events⟩⟩ = none := by simp [Moment.body?,acting]
  cases turn with
  | unregister i mapped =>
    exact discarding.unregister (.release _ fault) moved acting rfl rfl
      (by simp [Frame.due,ReleasePoint.isDue])
  | _ =>
    have torn := discarding.torn
    refine discarding.carry (.release _ fault) moved ?_ ?_ ?_ rfl (Or.inl rfl) rfl ?_
    · simp [Moment.attempt?,acting]
    · simp [silent]
    · simp [Frame.serves?]
    · simpa [teardowns_append,Moment.torn?,acting,Frame.due,ReleasePoint.isDue] using torn

theorem Discarding.start (here : Moment.acting? t depth moment = none) (b : Nat) :
    Discarding t depth m w b [moment] (.get m w .look) [.processGet m w] next := by
  refine ⟨.look .look,?_,?_,by simp [Frame.serves?],by simp [Frame.hasServed],
    by simp [Frame.hasFailed],?_,by simp [Frame.hasUnmapped],?_⟩
  · simp [Moment.body?,here]
  · simp [Moment.body?,here]
  · simp [attempts,Moment.attempt?,here]
  · simp [attempts,teardowns,Moment.torn?,here,Frame.due]

theorem Discarding.aside (discarding : Discarding t depth m w b span frame below now)
    (moved : now.step u a = some (next,events))
    (silent : Moment.acting? t depth ⟨now,⟨u,a,events⟩⟩ = none) :
    Discarding t depth m w b (span ++ [⟨now,⟨u,a,events⟩⟩]) frame below next := by
  have torn : Moment.torn? t depth ⟨now,⟨u,a,events⟩⟩ = none := by simp [Moment.torn?,silent]
  refine discarding.carry discarding.shape moved ?_ ?_ discarding.serves rfl (Or.inl rfl) rfl ?_
  · simp [Moment.attempt?,silent]
  · simp [Moment.body?,silent]
  · simpa [teardowns_append,torn] using discarding.torn

theorem Discarding.onward {frame' : Frame F V} {below' : List (Frame F V)}
    (run : Interleaving (idle sharding names threads) past now)
    (discarding : Discarding t depth m w b span frame below now)
    (moved : now.step t a = some (next,events)) (member : frame ∈ now.stack t)
    (acting : Moment.acting? t depth ⟨now,⟨t,a,events⟩⟩ = some frame)
    (turn : ProcessTurn now m w a frame below frame' below') :
    ∃ b, Discarding t depth m w b (span ++ [⟨now,⟨t,a,events⟩⟩]) frame' below' next := by
  have torn := discarding.torn
  have serves := discarding.serves
  cases turn with
  | look point point' known =>
    refine ⟨b,discarding.carry (.look point') moved ?_ ?_ ?_ rfl (Or.inl rfl) rfl ?_⟩
    · simp [Moment.attempt?,acting]
    · simp [Moment.body?,acting]
    · simp [Frame.serves?]
    · simpa [teardowns_append,Moment.torn?,acting,Frame.due] using torn
  | serve i c => exact ⟨c,discarding.serve run moved member acting⟩
  | run point point' same =>
    have mine : point.copy = b := serves point.copy rfl
    refine ⟨b,discarding.carry (.body point') moved ?_ ?_ ?_ rfl (Or.inl rfl) rfl ?_⟩
    · simp [Moment.attempt?,acting]
    · simp [Moment.body?,acting,Frame.hasServed,mine]
    · simp [Frame.serves?,same,mine]
    · simpa [teardowns_append,Moment.torn?,acting,Frame.due] using torn
  | fail c fault =>
    have mine : c = b := serves c rfl
    refine ⟨b,discarding.carry (.failing c fault) moved ?_ ?_ ?_ rfl (Or.inr ?_) rfl ?_⟩
    · simp [Moment.attempt?,acting]
    · simp [Moment.body?,acting,Frame.hasServed,BodyPoint.copy,mine]
    · simp [Frame.serves?,mine]
    · simp [Moment.body?,acting,BodyPoint.copy,mine]
    · simpa [teardowns_append,Moment.torn?,acting,Frame.due] using torn
  | discard c fault =>
    refine ⟨b,discarding.carry (.release _ fault) moved ?_ ?_ ?_ rfl (Or.inl rfl) rfl ?_⟩
    · simp [Moment.attempt?,acting]
    · simp [Moment.body?,acting]
    · simp [Frame.serves?]
    · simpa [teardowns_append,Moment.torn?,acting,Frame.due,ReleasePoint.isDue] using torn
  | release point point' fault turn => exact ⟨b,discarding.turn moved turn acting⟩
  | report point fault e ended =>
    cases ended
    refine ⟨b,discarding.carry (.failed fault _) moved ?_ ?_ ?_ rfl (Or.inl rfl) rfl ?_⟩
    · simp [Moment.attempt?,acting]
    · simp [Moment.body?,acting]
    · simp [Frame.serves?]
    · simpa [teardowns_append,Moment.torn?,acting,Frame.due,ReleasePoint.isDue] using torn

theorem discard_kept (run : Interleaving (idle sharding names threads) past s) :
    Kept s t (.process m w) fun span frame below now =>
      ∃ b, Discarding t (s.stack t).length m w b span frame below now where
  made := by
    intro next frame below moved opening stood
    cases opening
    exact ⟨0,.start (by simp [Moment.acting?,Action.isOwn]) 0⟩
  aside := by
    rintro span now frame below u a next events under ⟨b,discarding⟩ moved stood silent
    exact ⟨b,discarding.aside moved silent⟩
  onward := by
    rintro span now frame below a next events frame' below' under ⟨b,discarding⟩ moved own top here
      acting stood
    have member : frame ∈ now.stack t := by
      rw [top]
      exact List.mem_cons_self
    exact discarding.onward (under.run run) moved member acting
      (process_onward discarding.shape under.stands top own moved here)

/-- What a failed `process` has done in the end, as if it had nothing to do but to answer. -/
theorem Answered.discarding {fault : Fault}
    (run : Interleaving (idle sharding names threads) past s)
    (answered : Answered s t (.process m w) span (.fault fault) last) :
    ∃ b e, Discarding t (s.stack t).length m w b span (.processLogTeardown m w fault e) [] last := by
  obtain ⟨before,now,frame,below,a,events,rfl,answering,b,discarding⟩ :=
    (discard_kept run).ends answered
  have moved := answering.moved
  have acting := answering.acting
  have torn := discarding.torn
  refine ⟨b,?_⟩
  cases process_ended discarding.shape answering with
  | unserved point _ faultless => exact absurd rfl (faultless fault)
  | served point _ faultless => exact absurd rfl (faultless fault)
  | discarded point _ ended =>
    cases ended with
    | absent missing =>
      exact ⟨default,discarding.unregister (.failed fault _) moved acting rfl rfl
        (by simp [Frame.due])⟩
    | empty | done =>
      refine ⟨default,discarding.carry (.failed fault _) moved ?_ ?_ ?_ rfl (Or.inl rfl) rfl ?_⟩
      · simp [Moment.attempt?,acting]
      · simp [Moment.body?,acting]
      · simp [Frame.serves?]
      · refine List.Sublist.trans ?_ torn
        simp [teardowns_append,Moment.torn?,acting,Frame.due]
  | reported _ e =>
    refine ⟨e,discarding.carry (.failed fault e) moved ?_ ?_ ?_ rfl (Or.inl rfl) rfl ?_⟩
    · simp [Moment.attempt?,acting]
    · simp [Moment.body?,acting]
    · simp [Frame.serves?]
    · simpa [teardowns_append,Moment.torn?,acting,Frame.due] using torn

theorem Answered.account {fault : Fault} (run : Interleaving (idle sharding names threads) past s)
    (answered : Answered s t (.process m w) span (.fault fault) last) :
    Accounted past t (s.stack t).length span none last := by
  obtain ⟨before,now,frame,below,a,events,rfl,answering,shape,accounted⟩ :=
    (process_account_kept run).ends answered
  have acting := answering.acting
  cases process_ended shape answering with
  | unserved point _ faultless => exact absurd rfl (faultless fault)
  | served point _ faultless => exact absurd rfl (faultless fault)
  | discarded point _ ended => exact accounted.ended ended (by simp) acting (by simp)
  | reported =>
    refine accounted.rest ?_ ?_ ?_ (by simp)
    · simp [Moment.detached?,acting]
    · simp [Moment.torn?,acting]
    · simp [Frame.releases?]

/-- What a failed `process` does about its worker, whose copy `b` its body ran on: at `q` it takes
out of the map the slot that the worker has then. -/
structure Disposal (s : System F V) (t m : Nat) (w : WorkerId) (span : List (Moment F V)) (b : Nat)
    (q : Moment F V) : Prop where
  ran : ∃ p ∈ span, p.body? t (s.stack t).length = some b
  only : ∀ p ∈ span, ∀ c, p.body? t (s.stack t).length = some c → c = b
  member : q ∈ span
  tried : q.attempt? t (s.stack t).length = some (w,q.state.slot? m w)
  once : attempts t (s.stack t).length span = [(w,q.state.slot? m w)]
  few : (teardowns t (s.stack t).length span).length ≤ 1
  removed : ∀ v c fault, (v,c,fault) ∈ teardowns t (s.stack t).length span → v = w ∧
    ∃ i, q.state.slot? m w = some i ∧ (q.state.ledger.Keeps i c ∨ q.state.copies.size ≤ c)
  live : ∀ i c, q.state.slot? m w = some i → q.state.state? i = some (.live c) →
    ∃ fault, teardowns t (s.stack t).length span = [(w,c,fault)]
  own : (∃ fault, (w,b,fault) ∈ teardowns t (s.stack t).length span) ↔
    ∃ i, q.state.slot? m w = some i ∧ q.state.state? i = some (.live b)

/-- A `process` whose body failed takes its worker out of the map once, and tears down at most one
copy: the one that is in the worker's slot at that step, or comes into that slot before it is
retired. This is the copy on which the body ran just when that copy is still in the slot. -/
theorem Interleaving.discards_exact {fault : Fault}
    (run : Interleaving (idle sharding names threads) past s)
    (answered : Answered s t (.process m w) span (.fault fault) last) :
    ∃ b q, Disposal s t m w span b q := by
  obtain ⟨b,e,discarding⟩ := answered.discarding run
  have accounted := answered.account run
  obtain ⟨q,member,settled,all,single⟩ := discarding.tried rfl
  have tried : q.attempt? t (s.stack t).length = some (w,q.state.slot? m w) := by
    have among : (w,q.state.slot? m w) ∈ attempts t (s.stack t).length span := by simp [all]
    obtain ⟨p,old,tried⟩ := List.mem_filterMap.mp among
    obtain rfl := single p old (by simp [tried])
    exact tried
  have torn := discarding.torn
  have done : (Frame.processLogTeardown m w fault e : Frame F V).due = [] := rfl
  rw [all,done,List.append_nil] at torn
  have few : (teardowns t (s.stack t).length span).length ≤ 1 := by simpa using torn.length_le
  have removed (v : WorkerId) (c : Nat) (fault : Option Fault)
      (ended : (v,c,fault) ∈ teardowns t (s.stack t).length span) : v = w ∧
      ∃ i, q.state.slot? m w = some i ∧ (q.state.ledger.Keeps i c ∨ q.state.copies.size ≤ c) := by
    obtain ⟨p,old,i,took,kept⟩ := accounted.traced v c fault ended
    obtain rfl := single p old (by simp [took])
    obtain ⟨rfl,mapped⟩ : w = v ∧ p.state.slot? m w = some i := by simpa [tried] using took
    exact ⟨rfl,i,mapped,kept⟩
  have live (i c : Nat) (mapped : q.state.slot? m w = some i)
      (live : q.state.state? i = some (.live c)) :
      ∃ fault, teardowns t (s.stack t).length span = [(w,c,fault)] := by
    obtain ⟨fault,ended⟩ := answered.trail.tears run accounted member (mapped ▸ tried) live
    obtain ⟨x,all⟩ := List.length_eq_one_iff.mp (le_antisymm few (List.length_pos_of_mem ended))
    rw [all] at ended ⊢
    exact ⟨fault,by rw [List.mem_singleton.mp ended]⟩
  -- The copy of the body was handed out before `q`. So the slot taken out at `q` cannot come to keep
  -- it later: either it holds it at `q`, or the call never tears it down.
  refine ⟨b,q,discarding.ran rfl,discarding.bodies,member,tried,all,few,removed,live,?_,?_⟩
  · rintro ⟨fault,ended⟩
    obtain ⟨_,i,mapped,kept | new⟩ := removed w b fault ended
    · obtain here | ⟨x,role,brings⟩ := kept
      · exact ⟨i,mapped,here⟩
      · exact absurd brings (settled.2 x role i)
    · have made := settled.1
      simp only [ledger,Array.size_map] at made
      omega
  · rintro ⟨i,mapped,here⟩
    obtain ⟨fault,ended⟩ := live i b mapped here
    exact ⟨fault,by simp [ended]⟩

def broken : Fault := { message := "broken" }

def beginBody : List (Nat × Action Nat Nat) :=
  [(0,.advance),(0,.advance),(0,.advance),(0,.drawn (.copy 7)),(0,.advance),(0,.advance),
    (0,.finish (.ok 0)),(0,.advance),(0,.advance),(0,.advance),(0,.advance),(0,.advance)]

def failBody : List (Nat × Action Nat Nat) :=
  [(0,.finish (.error broken)),(0,.advance),(0,.advance),(0,.advance),(0,.advance),(0,.advance),
    (0,.advance),(0,.advance),(0,.advance),(0,.finish (.ok 0)),(0,.advance),(0,.advance)]

/-- One thread releases the worker, up to the lock of the copy, and another gets it a new copy. -/
def replaceCopy : List (Nat × Action Nat Nat) :=
  [(1,.call (.release 0 (.named "a"))),(1,.advance),(1,.advance),(1,.advance),(1,.advance),
    (1,.advance),(2,.call (.get 0 (.named "a"))),(2,.advance),(2,.advance),(2,.advance),
    (2,.drawn (.copy 7)),(2,.advance),(2,.advance),(2,.finish (.ok 0)),(2,.advance),(2,.advance),
    (2,.advance),(2,.advance)]

theorem discards_exact_of_failBody :
    ∃ (span : List (Moment Nat Nat)) (last : System Nat Nat) (b : Nat) (q : Moment Nat Nat),
      Answered (idle .single ["pool"] 1) 0 (.process 0 (.named "a")) span (.fault broken) last ∧
      Disposal (idle .single ["pool"] 1) 0 0 (.named "a") span b q ∧
      teardowns 0 0 span = [(.named "a",0,none)] := by
  obtain ⟨span,last,performed,torn⟩ : ∃ span last,
      (idle .single ["pool"] 1).perform 0 (.process 0 (.named "a")) (beginBody ++ failBody) =
        some (span,.fault broken,last) ∧ teardowns 0 0 span = [(.named "a",0,none)] :=
    ⟨_,_,rfl,rfl⟩
  have answered := Answered.perform performed
  obtain ⟨b,q,disposal⟩ := Interleaving.start.discards_exact answered
  exact ⟨span,last,b,q,answered,disposal,torn⟩

/-- The body runs on one copy and the call tears down another, which has taken its place. -/
theorem discard_of_other :
    ∃ (span : List (Moment Nat Nat)) (last : System Nat Nat),
      Answered (idle .single ["pool"] 3) 0 (.process 0 (.named "a")) span (.fault broken) last ∧
      span.filterMap (·.body? 0 0) = [0,0,0] ∧ teardowns 0 0 span = [(.named "a",1,none)] := by
  obtain ⟨span,last,performed,bodies,torn⟩ : ∃ span last,
      (idle .single ["pool"] 3).perform 0 (.process 0 (.named "a"))
        (beginBody ++ replaceCopy ++ failBody) = some (span,.fault broken,last) ∧
      span.filterMap (·.body? 0 0) = [0,0,0] ∧ teardowns 0 0 span = [(.named "a",1,none)] :=
    ⟨_,_,rfl,rfl,rfl⟩
  exact ⟨span,last,.perform performed,bodies,torn⟩

end System
end PerWorker
