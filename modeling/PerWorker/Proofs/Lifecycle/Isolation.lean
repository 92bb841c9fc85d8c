import PerWorker.Proofs.Enricher.Copies
import PerWorker.Proofs.Lifecycle.Sweeps

/-!
What one worker sees of the others. Copies that are made for it are told apart by how many were made
for it before, so that they keep their names when the copies of others are left out. Main statement:
a worker gets the same answers and has the same copies if the calls for all other workers are left
out, as long as the template yields the same value each time and hooks look at nothing else.
-/
namespace PerWorker

open Relation (ReflTransGen)

def Template.Steady {F : Type} (template : Template F) (f : F) : Prop :=
  ∀ n, template.replicates n = List.replicate n (.copy f)

/-- A template that clones a prototype, or one that reads its text back, with the value that comes
of that. -/
inductive Template.Of {F : Type} (prototype : F) : Template F → F → Prop
  | clone : Of prototype (.clone prototype) prototype
  | serialized {codec : Codec F} {template : Template F} {text : String} {f : F}
      (made : Template.ofCodec codec prototype = .ok template)
      (stateless : ∀ reads text, codec.decode reads text = codec.decode 0 text)
      (written : codec.encode prototype = .ok text) (read : codec.decode 0 text = .ok f) :
      Of prototype template f

theorem Template.Steady.replicate {F : Type} {template : Template F} {f : F}
    (steady : template.Steady f) :
    ∃ next, template.replicate = (.copy f,next) ∧ next.Steady f := by
  generalize drew : template.replicate = result
  obtain ⟨draw,next⟩ := result
  have turns (n : Nat) : draw :: next.replicates n = .copy f :: List.replicate n (.copy f) := by
    rw [← List.replicate_succ,← steady (n + 1),replicates,drew]
  obtain ⟨rfl,_⟩ := List.cons.inj (turns 0)
  exact ⟨next,rfl,fun n => (List.cons.inj (turns n)).2⟩

theorem Template.Of.steady {F : Type} {prototype f : F} {template : Template F}
    (source : Template.Of prototype template f) : template.Steady f := by
  intro n
  cases source with
  | clone => exact replicates_clone prototype n
  | @serialized codec _ text f made stateless written read =>
    have same (reads : Nat) :
        (Template.serialized codec text reads).replicates n = List.replicate n (.copy f) := by
      induction n generalizing reads with
      | zero => rfl
      | succ n ih =>
        simp [replicates,Template.replicate,stateless reads,read,ih,List.replicate_succ]
    have template' : template = .serialized codec text 1 := by
      simp only [ofCodec,written,read,Except.mapError,bind,Except.bind,pure,Except.pure] at made
      exact (Except.ok.inj made).symm
    exact template' ▸ same 1

/-- The hooks of a manager, which see nothing but the copy they run on. -/
structure Hooks (F V : Type) where
  setup : F → F × Outcome V
  teardown : F → F × Outcome V

structure Conduct.Follows {F V : Type} (hooks : Hooks F V) (conduct : Conduct F V) : Prop where
  calm : conduct.Calm
  setup : conduct.setup = hooks.setup
  teardown : ∀ c, conduct.teardown c = hooks.teardown

def Ask.worker? : Ask → Option WorkerId
  | .get w | .peek w | .process w | .release w | .contains w => some w
  | _ => none

def Ask.concerns (w : WorkerId) (ask : Ask) : Bool :=
  ask.worker? = some w ∨ ask = .releaseAll

def answersTo {F V : Type} (w : WorkerId) (errands : List (Errand F V))
    (replies : List (Reply V)) : List (Reply V) :=
  (errands.zip replies).filterMap fun (errand,reply) =>
    if errand.ask.worker? = some w then some reply else none

theorem answersTo_cons {F V : Type} (w : WorkerId) (errand : Errand F V)
    (errands : List (Errand F V)) (reply : Reply V) (replies : List (Reply V)) :
    answersTo w (errand :: errands) (reply :: replies) =
      if errand.ask.worker? = some w then reply :: answersTo w errands replies
      else answersTo w errands replies := by
  rw [answersTo,List.zip_cons_cons,List.filterMap_cons]
  by_cases own : errand.ask.worker? = some w <;> simp [own,answersTo]

/-- The same failure with copies numbered in another way. The number shown is one more. -/
def LifecycleError.renumber (number : Nat → Nat) : LifecycleError → LifecycleError
  | .clone name w source => .clone name w source
  | .setup name w id source => .setup name w (number (id - 1) + 1) source
  | .teardown name w id source => .teardown name w (number (id - 1) + 1) source

def Reply.renumber {V : Type} (number : Nat → Nat) : Reply V → Reply V
  | .handle c => .handle (number c)
  | .peeked found => .peeked (found.map number)
  | .failed e => .failed (e.renumber number)
  | .errors es => .errors (es.map (·.renumber number))
  | reply => reply

theorem Reply.handed?_renumber {V : Type} (number : Nat → Nat) (reply : Reply V) :
    (reply.renumber number).handed? = reply.handed?.map number := by
  cases reply with
  | peeked found => cases found <;> rfl
  | _ => rfl

/-- How many copies were made for a worker before that one. -/
def rank (w : WorkerId) (made : List WorkerId) (c : Nat) : Nat := (made.take c).count w

theorem rank_older {w : WorkerId} {made all : List WorkerId} {c : Nat} (older : made <+: all)
    (bound : c ≤ made.length) : rank w all c = rank w made c := by
  obtain ⟨more,rfl⟩ := older
  rw [rank,rank,List.take_append_of_le_length bound]

theorem rank_injective {w : WorkerId} {made : List WorkerId} {c d : Nat}
    (first : made[c]? = some w) (second : made[d]? = some w)
    (same : rank w made c = rank w made d) : c = d := by
  have later {c d : Nat} (own : made[c]? = some w) (before : c < d) :
      rank w made c < rank w made d := by
    obtain ⟨bound,own⟩ := List.getElem?_eq_some_iff.mp own
    have taken : made.take (c + 1) = made.take c ++ [w] := by
      rw [List.take_succ_eq_append_getElem bound,own]
    have grown : (made.take (c + 1)).count w ≤ (made.take d).count w :=
      (List.take_prefix_take_left before).sublist.count_le w
    rw [taken,List.count_append] at grown
    simp only [List.count_singleton_self] at grown
    exact grown
  obtain less | same' | more := lt_trichotomy c d
  · exact absurd same (later first less).ne
  · exact same'
  · exact absurd same (later second more).ne'

namespace Roster

variable {F V : Type} {whole part after : Roster F} {w v : WorkerId} {c : Nat} {f fresh : F}
  {template template' : Template F} {conduct : Conduct F V} {hooks : Hooks F V}
  {sharding : Sharding} {copy : Nat × F} {ask : Ask}

/-- The second roster tells of one worker what the first one tells of it among others. -/
structure Echo (w : WorkerId) (whole part : Roster F) : Prop where
  name : part.name = whole.name
  made : part.made = whole.made.filter (· = w)
  held : part.find? w =
    (whole.find? w).map (Option.map fun copy => (rank w whole.made copy.1,copy.2))

theorem Echo.numbered (echo : Echo w whole part) {all : List WorkerId}
    (older : whole.made <+: all) : part.numbered = rank w all whole.numbered := by
  rw [rank_older older (Nat.le_refl whole.numbered),rank,Roster.numbered,Roster.numbered,
    echo.made,List.take_length,List.count_eq_length_filter]
  rfl

theorem Echo.join (echo : Echo w whole part) (bare : (whole.find? w).join = none) :
    (part.find? w).join = none := by
  rw [echo.held]
  cases held : whole.find? w with
  | none => rfl
  | some found => simp_all

theorem Echo.found (echo : Echo w whole part) (held : whole.find? w = some (some copy)) :
    part.find? w = some (some (rank w whole.made copy.1,copy.2)) := by
  rw [echo.held,held]
  rfl

theorem Echo.count (echo : Echo w whole part) (counter : Counter) :
    Echo w (whole.count counter) (part.count counter) :=
  ⟨echo.name,echo.made,echo.held⟩

theorem Echo.ran (echo : Echo w whole part) (hook : Hook) (c d : Nat) :
    Echo w (whole.ran hook c) (part.ran hook d) :=
  ⟨echo.name,echo.made,echo.held⟩

theorem Echo.enroll (echo : Echo w whole part) : Echo w (whole.enroll w) (part.enroll w) where
  name := by rw [name_enroll,name_enroll,echo.name]
  made := by rw [made_enroll,made_enroll,echo.made]
  held := by
    rw [find?_enroll,find?_enroll,if_pos rfl,if_pos rfl,made_enroll,echo.held]
    cases whole.find? w <;> rfl

theorem Echo.drawn (echo : Echo w whole part) (bare : (whole.find? w).join = none) :
    Echo w (whole.drawn w) (part.drawn w) where
  name := echo.name
  made := by simp [echo.made]
  held := by
    rw [find?_drawn,find?_drawn,echo.held]
    cases held : whole.find? w with
    | none => rfl
    | some found => simp_all

theorem Echo.put (echo : Echo w whole part) (c : Nat) (f : F) :
    Echo w (whole.put w (c,f)) (part.put w (rank w whole.made c,f)) where
  name := echo.name
  made := echo.made
  held := by
    rw [find?_put,find?_put,if_pos rfl,if_pos rfl,echo.held,made_put]
    cases whole.find? w <;> rfl

theorem Echo.remove (echo : Echo w whole part) : Echo w (whole.remove w) (part.remove w) where
  name := echo.name
  made := echo.made
  held := by simp [find?_remove]

theorem Orderly.within (orderly : Orderly whole) (held : whole.find? w = some (some copy)) :
    copy.1 ≤ whole.made.length :=
  (List.getElem?_eq_some_iff.mp (orderly.housed w copy.1 copy.2 held).1).1.le

def renumbered (number : Nat → Nat) :
    Except (Reply V) (Nat × F) → Except (Reply V) (Nat × F)
  | .ok copy => .ok (number copy.1,copy.2)
  | .error reply => .error (reply.renumber number)

/-- Two results that differ in the numbers of copies, and what they leave of the two rosters.
Numbers are the same under whatever is made later. -/
structure Twin {α : Type} (number : (Nat → Nat) → α → α) (w : WorkerId)
    (first second : α × Roster F) : Prop where
  told : ∀ all, first.2.made <+: all → second.1 = number (rank w all) first.1
  echo : Echo w first.2 second.2

/-- A copy that is made among others is made alike when its worker is on its own. -/
theorem Echo.create (echo : Echo w whole part) (bare : whole.find? w = some none)
    (follows : conduct.Follows hooks) (steady : template.Steady fresh)
    (steady' : template'.Steady fresh) :
    let (got,left,_) := whole.create w template conduct
    let (got',left',_) := part.create w template' conduct
    Twin renumbered w (got,left) (got',left') := by
  obtain ⟨next,drew,_⟩ := steady.replicate
  obtain ⟨next',drew',_⟩ := steady'.replicate
  have drawn := echo.drawn (by simp [bare])
  have numbered {all : List WorkerId} (older : whole.made ++ [w] <+: all) :
      part.numbered = rank w all whole.numbered :=
    echo.numbered ((List.prefix_append _ _).trans older)
  have quiet (message : String) : (conduct.setup fresh).2 ≠ .panicked message :=
    follows.calm 0 .setup fresh message
  unfold Roster.create
  rw [drew,drew']
  dsimp only
  generalize conduct.setup fresh = result at quiet ⊢
  obtain ⟨value,outcome⟩ := result
  cases outcome with
  | returned v =>
    refine ⟨fun all older => congrArg (fun n => Except.ok (n,value)) (numbered older),?_⟩
    have put := (drawn.count .setups).put whole.numbered value
    have same : rank w ((whole.drawn w).count .setups).made whole.numbered = part.numbered :=
      (numbered List.prefix_rfl).symm
    rw [same] at put
    exact put
  | failed fault =>
    refine ⟨fun all older => ?_,(drawn.count .setupFailures).remove⟩
    simp only [renumbered,Reply.renumber,LifecycleError.renumber,Nat.add_sub_cancel,echo.name,
      numbered older]
  | panicked message => exact absurd rfl (quiet message)

/-- A lookup tells the same of its worker whether there are others or not, but for the number of the
copy. -/
theorem Echo.obtain (echo : Echo w whole part) (orderly : whole.Orderly)
    (follows : conduct.Follows hooks) (steady : template.Steady fresh)
    (steady' : template'.Steady fresh) :
    let (got,left,_) := whole.obtain w template conduct
    let (got',left',_) := part.obtain w template' conduct
    Twin renumbered w (got,left) (got',left') := by
  cases bare : (whole.find? w).join with
  | some copy =>
    have held : whole.find? w = some (some copy) := Option.join_eq_some_iff.mp bare
    simp only [Roster.obtain,held,echo.found held]
    refine ⟨fun all older => ?_,echo⟩
    rw [renumbered,rank_older older (orderly.within held)]
  | none =>
    rw [obtain_of_bare bare,obtain_of_bare (echo.join bare)]
    exact echo.enroll.create (find?_enrolled bare) follows steady steady'

theorem Echo.release (echo : Echo w whole part) (orderly : whole.Orderly)
    (follows : conduct.Follows hooks) :
    Twin Reply.renumber w (whole.release w conduct) (part.release w conduct) := by
  cases bare : (whole.find? w).join with
  | none =>
    rw [release_of_bare bare,release_of_bare (echo.join bare)]
    exact ⟨fun _ _ => rfl,echo.remove⟩
  | some copy =>
    have held : whole.find? w = some (some copy) := Option.join_eq_some_iff.mp bare
    have torn := (echo.remove.ran .teardown copy.1 (rank w whole.made copy.1)).count .teardowns
    have quiet (message : String) : (hooks.teardown copy.2).2 ≠ .panicked message := by
      rw [← follows.teardown copy.1]
      exact follows.calm copy.1 .teardown copy.2 message
    simp only [Roster.release,held,echo.found held,follows.teardown]
    cases ended : (hooks.teardown copy.2).2 with
    | returned v => exact ⟨fun _ _ => rfl,torn⟩
    | failed fault =>
      refine ⟨fun all older => ?_,torn.count .teardownFailures⟩
      have same : rank w all copy.1 = rank w whole.made copy.1 :=
        rank_older older (orderly.within held)
      simp only [Reply.renumber,LifecycleError.renumber,Nat.add_sub_cancel,echo.name,same]
    | panicked message => exact absurd ended (quiet message)

theorem Echo.work (echo : Echo w whole part) (orderly : whole.Orderly)
    (follows : conduct.Follows hooks) (held : whole.find? w = some (some copy)) :
    Twin Reply.renumber w (whole.work w copy conduct)
      (part.work w (rank w whole.made copy.1,copy.2) conduct) := by
  have quiet (message : String) : (conduct.body copy.2).2 ≠ .panicked message :=
    follows.calm copy.1 .body copy.2 message
  generalize ended : conduct.body copy.2 = result at quiet
  obtain ⟨value,outcome⟩ := result
  have left := (echo.ran .body copy.1 (rank w whole.made copy.1)).put copy.1 value
  cases outcome with
  | returned v =>
    simp only [Roster.work,ended]
    exact ⟨fun _ _ => rfl,left⟩
  | failed fault =>
    have alone : part.work w (rank w whole.made copy.1,copy.2) conduct = _ :=
      work_failed follows.calm ended
    rw [work_failed follows.calm ended,alone]
    exact ⟨fun _ _ => rfl,(left.release (orderly.change (.serve value held)) follows).echo⟩
  | panicked message => exact absurd rfl (quiet message)

theorem find?_releaseAll (nodup : whole.workers.Nodup) (calm : conduct.Calm) :
    (sweep conduct (sharding.walk whole.workers) [] whole).2.find? w = none := by
  have perm := sharding.walk_perm whole.workers
  rw [(swept_calm (perm.nodup_iff.mpr nodup) calm []).find?]
  split
  next => rfl
  next absent =>
    have unknown : ¬(whole.find? w).isSome := fun known =>
      absent (perm.mem_iff.mpr ((find?_isSome whole w).mp known))
    exact Option.not_isSome_iff_eq_none.mp unknown

theorem made_releaseAll (nodup : whole.workers.Nodup) (calm : conduct.Calm) :
    (sweep conduct (sharding.walk whole.workers) [] whole).2.made = whole.made :=
  (swept_calm ((sharding.walk_perm whole.workers).nodup_iff.mpr nodup) calm []).made

theorem Echo.releaseAll (echo : Echo w whole part) (nodup : whole.workers.Nodup)
    (nodup' : part.workers.Nodup) (calm : conduct.Calm) :
    Echo w (sweep conduct (sharding.walk whole.workers) [] whole).2
      (sweep conduct (sharding.walk part.workers) [] part).2 where
  name := by
    rw [name_changes (sweep_changes _ _),name_changes (sweep_changes _ _),echo.name]
  made := by rw [made_releaseAll nodup calm,made_releaseAll nodup' calm,echo.made]
  held := by
    rw [find?_releaseAll nodup calm,find?_releaseAll nodup' calm]
    rfl

/-- A call for a worker gets the same answer when others have no calls. -/
theorem Echo.answer (echo : Echo w whole part) (orderly : whole.Orderly)
    (follows : conduct.Follows hooks) (steady : template.Steady fresh)
    (steady' : template'.Steady fresh) (own : ask.worker? = some w) :
    let (reply,left,_) := whole.answer sharding template conduct ask
    let (reply',left',_) := part.answer sharding template' conduct ask
    Twin Reply.renumber w (reply,left) (reply',left') := by
  have obtains := echo.obtain orderly follows steady steady'
  cases ask with
  | get v =>
    cases own
    simp only [Roster.answer]
    generalize whole.obtain w template conduct = result at obtains ⊢
    generalize part.obtain w template' conduct = result' at obtains ⊢
    obtain ⟨got,left,next⟩ := result
    obtain ⟨got',left',next'⟩ := result'
    obtain ⟨told,echo⟩ := obtains
    obtain rfl := told left.made List.prefix_rfl
    cases got with
    | ok copy =>
      refine ⟨fun all older => ?_,echo⟩
      obtain ⟨same,_⟩ := Prod.mk.inj (Except.ok.inj (told all older))
      exact congrArg Reply.handle same
    | error reply => exact ⟨fun all older => Except.error.inj (told all older),echo⟩
  | process v =>
    cases own
    have after : Orderly (whole.obtain w template conduct).2.1 := orderly.changes obtain_changes
    simp only [Roster.answer]
    generalize obtained : whole.obtain w template conduct = result at obtains after ⊢
    generalize part.obtain w template' conduct = result' at obtains ⊢
    obtain ⟨got,left,next⟩ := result
    obtain ⟨got',left',next'⟩ := result'
    obtain ⟨told,echo⟩ := obtains
    obtain rfl := told left.made List.prefix_rfl
    cases got with
    | ok copy => exact echo.work after follows (find?_obtain obtained)
    | error reply => exact ⟨fun all older => Except.error.inj (told all older),echo⟩
  | release v =>
    cases own
    exact echo.release orderly follows
  | peek v =>
    cases own
    refine ⟨fun all older => ?_,echo⟩
    cases held : whole.find? w with
    | none => simp [Reply.renumber,echo.held,held]
    | some found =>
      cases found with
      | none => simp [Reply.renumber,echo.held,held]
      | some copy =>
        have same := rank_older (w := w) older (orderly.within held)
        simp [Reply.renumber,echo.held,held,same]
  | contains v =>
    cases own
    refine ⟨fun all older => ?_,echo⟩
    simp only [echo.held,Option.isSome_map]
    rfl
  | _ => cases own

theorem made_work : (whole.work w copy conduct).2.made = whole.made := by
  have worked := worked whole w conduct copy
  generalize whole.work w copy conduct = result at worked
  cases worked with
  | returned | panicked => rfl
  | @failed f _ _ _ _ released | @broke f _ _ _ _ released =>
    have left : (((whole.ran .body copy.1).put w (copy.1,f)).release w conduct).2.made = _ :=
      made_release
    rwa [released] at left

structure Aside (w : WorkerId) (r after : Roster F) : Prop where
  find? : after.find? w = r.find? w
  made : after.made.filter (· = w) = r.made.filter (· = w)

theorem aside_obtain (other : w ≠ v) : Aside w whole (whole.obtain v template conduct).2.1 where
  find? := find?_obtain_other other
  made := by
    have obtained := obtained whole v template conduct
    generalize whole.obtain v template conduct = result at obtained
    cases obtained with
    | held => rfl
    | made bare created => cases created <;> simp [Ne.symm other]

theorem aside_answer (other : ask.concerns w = false) :
    Aside w whole (whole.answer sharding template conduct ask).2.1 := by
  cases ask with
  | get v =>
    have apart : w ≠ v := by simpa [Ask.concerns,Ask.worker?,eq_comm] using other
    rw [answer_get]
    exact aside_obtain apart
  | process v =>
    have apart : w ≠ v := by simpa [Ask.concerns,Ask.worker?,eq_comm] using other
    have aside : Aside w whole (whole.obtain v template conduct).2.1 := aside_obtain apart
    simp only [Roster.answer]
    generalize whole.obtain v template conduct = result at aside ⊢
    obtain ⟨got,left,next⟩ := result
    cases got with
    | ok copy =>
      exact ⟨(find?_work_other apart).trans aside.find?,
        (congrArg _ made_work).trans aside.made⟩
    | error reply => exact aside
  | release v =>
    have apart : w ≠ v := by simpa [Ask.concerns,Ask.worker?,eq_comm] using other
    have left : (whole.release v conduct).2.find? w = whole.find? w := by
      rw [find?_release,if_neg apart]
    exact ⟨left,congrArg _ made_release⟩
  | releaseAll => cases other
  | _ => exact ⟨rfl,rfl⟩

/-- A call that does not concern a worker leaves what belongs to it alone. -/
theorem Echo.apart (echo : Echo w whole part) (orderly : whole.Orderly)
    (other : ask.concerns w = false) :
    Echo w (whole.answer sharding template conduct ask).2.1 part := by
  have changes : ReflTransGen Change whole (whole.answer sharding template conduct ask).2.1 :=
    answer_changes ask
  have aside : Aside w whole (whole.answer sharding template conduct ask).2.1 :=
    aside_answer other
  refine ⟨echo.name.trans (name_changes changes).symm,echo.made.trans aside.made.symm,?_⟩
  rw [echo.held,aside.find?]
  cases held : whole.find? w with
  | none => rfl
  | some found =>
    cases found with
    | none => rfl
    | some copy =>
      simp only [Option.map_some,rank_older (made_changes changes) (orderly.within held)]

theorem steady_obtain (steady : template.Steady fresh) :
    (whole.obtain v template conduct).2.2.Steady fresh := by
  obtain ⟨last,drew,steady'⟩ := steady.replicate
  have obtained := obtained whole v template conduct
  generalize whole.obtain v template conduct = result at obtained
  cases obtained with
  | held => exact steady
  | made bare created =>
    cases created with
    | refused drew' | panicked drew' => cases drew.symm.trans drew'
    | setUp drew' | failed drew' | broke drew' =>
      cases drew.symm.trans drew'
      exact steady'

theorem steady_answer (steady : template.Steady fresh) :
    (whole.answer sharding template conduct ask).2.2.Steady fresh := by
  cases ask with
  | get v =>
    rw [answer_get]
    exact steady_obtain steady
  | process v =>
    have obtained : (whole.obtain v template conduct).2.2.Steady fresh := steady_obtain steady
    simp only [Roster.answer]
    generalize whole.obtain v template conduct = result at obtained ⊢
    obtain ⟨got,left,next⟩ := result
    cases got <;> exact obtained
  | _ => exact steady

/-- A conversation tells of a worker what is told by those of its calls that concern it. -/
theorem Echo.converse {errands : List (Errand F V)} (echo : Echo w whole part)
    (orderly : whole.Orderly) (nodup : whole.workers.Nodup) (nodup' : part.workers.Nodup)
    (follows : ∀ errand ∈ errands, errand.conduct.Follows hooks)
    (steady : template.Steady fresh) (steady' : template'.Steady fresh) :
    let few := errands.filter (·.ask.concerns w)
    let done := Roster.converse sharding errands whole template
    let done' := Roster.converse sharding few part template'
    Twin (fun number => List.map (Reply.renumber number)) w
      (answersTo w errands done.1,done.2.1) (answersTo w few done'.1,done'.2.1) := by
  induction errands generalizing whole part template template' with
  | nil => exact ⟨fun _ _ => rfl,echo⟩
  | cons errand rest ih =>
    have first := follows errand List.mem_cons_self
    have follows := fun errand member => follows errand (List.mem_cons_of_mem _ member)
    have changes : ReflTransGen Change whole
        (whole.answer sharding template errand.conduct errand.ask).2.1 := answer_changes _
    have changes' : ReflTransGen Change part
        (part.answer sharding template' errand.conduct errand.ask).2.1 := answer_changes _
    have orderly' := orderly.changes changes
    have kept := nodup_changes nodup changes
    have kept' := nodup_changes nodup' changes'
    have left : (whole.answer sharding template errand.conduct errand.ask).2.2.Steady fresh :=
      steady_answer steady
    have left' : (part.answer sharding template' errand.conduct errand.ask).2.2.Steady fresh :=
      steady_answer steady'
    dsimp only
    cases concerned : errand.ask.concerns w with
    | false =>
      have foreign : errand.ask.worker? ≠ some w := by
        intro own
        simp [Ask.concerns,own] at concerned
      rw [List.filter_cons_of_neg (by simp [concerned])]
      simp only [Roster.converse,answersTo_cons,if_neg foreign]
      exact ih (echo.apart orderly concerned) orderly' kept nodup' follows left steady'
    | true =>
      simp only [List.filter_cons,concerned,if_true,Roster.converse,answersTo_cons]
      -- A release of all workers concerns the worker, but its answer is not the worker's.
      by_cases told : errand.ask.worker? = some w
      · obtain ⟨same,echo⟩ : Twin Reply.renumber w (_,_) (_,_) :=
          echo.answer orderly first steady steady' told
        obtain ⟨others,ended⟩ := ih echo orderly' kept kept' follows left left'
        rw [if_pos told,if_pos told]
        refine ⟨fun all older => ?_,ended⟩
        have later (r : Roster F) (template : Template F) :
            r.made <+: (Roster.converse sharding rest r template).2.1.made :=
          made_changes (converse_changes rest)
        exact congrArg₂ List.cons (same all ((later _ _).trans older)) (others all older)
      · rw [if_neg told,if_neg told]
        have drains : errand.ask = .releaseAll := by simpa [Ask.concerns,told] using concerned
        refine ih ?_ orderly' kept kept' follows left left'
        rw [drains]
        exact echo.releaseAll nodup nodup' first.calm

theorem handed?_release : (whole.release w conduct).1.handed? = none := by
  have released := released whole w conduct
  generalize whole.release w conduct = result at released
  cases released <;> rfl

theorem handed?_work : (whole.work w copy conduct).1.handed? = none := by
  have worked := worked whole w conduct copy
  generalize whole.work w copy conduct = result at worked
  cases worked <;> rfl

theorem steady_converse {errands : List (Errand F V)} (steady : template.Steady fresh) :
    (Roster.converse sharding errands whole template).2.2.Steady fresh := by
  induction errands generalizing whole template with
  | nil => exact steady
  | cons errand rest ih => exact ih (steady_answer steady)

theorem obtain_starts (steady : template.Steady fresh) (bare : (whole.find? w).join = none)
    (held : (whole.obtain w template conduct).2.1.find? w = some (some (c,f))) :
    (whole.obtain w template conduct).1 = .ok (c,f) ∧ f = (conduct.setup fresh).1 := by
  obtain ⟨next,drew,_⟩ := steady.replicate
  have empty := find?_enrolled bare
  have obtained := obtained whole w template conduct
  generalize whole.obtain w template conduct = result at obtained held ⊢
  cases obtained with
  | held found => simp [found] at bare
  | made bare created =>
    cases created with
    | refused | failed => simp [find?_remove] at held
    | panicked | broke => simp [empty] at held
    | setUp drew' ended =>
      cases drew.symm.trans drew'
      obtain ⟨rfl,rfl⟩ : (whole.enroll w).numbered = c ∧ _ = f := by
        simpa [find?_put,empty] using held
      exact ⟨rfl,(congrArg (·.1) ended).symm⟩

theorem work_keeps (held : (whole.work w copy conduct).2.find? w = some (some (c,f))) :
    f = (conduct.body copy.2).1 := by
  have left {value : F} (held : ((whole.ran .body copy.1).put w (copy.1,value)).find? w =
      some (some (c,f))) : f = value := by
    rw [find?_put,if_pos rfl] at held
    obtain ⟨_,_,same⟩ := Option.map_eq_some_iff.mp held
    cases same
    rfl
  have worked := worked whole w conduct copy
  generalize whole.work w copy conduct = result at worked held
  cases worked with
  | returned ended | panicked ended => exact (left held).trans (congrArg (·.1) ended).symm
  | @failed value _ _ _ _ released | @broke value _ _ _ _ released =>
    have gone : (((whole.ran .body copy.1).put w (copy.1,value)).release w conduct).2.find? w =
        none := by
      rw [find?_release,if_pos rfl]
    rw [released] at gone
    cases gone.symm.trans held

theorem handed_answer {reply : Reply V} {next : Template F}
    (answered : whole.answer sharding template conduct ask = (reply,after,next))
    (own : ask.worker? = some w) (handed : reply.handed? = some c) :
    ∃ f, after.find? w = some (some (c,f)) := by
  cases ask with
  | get v =>
    cases own
    simp only [Roster.answer] at answered
    generalize obtained : whole.obtain w template conduct = result at answered
    obtain ⟨got,left,last⟩ := result
    cases got with
    | ok copy =>
      cases answered
      cases handed
      exact ⟨copy.2,find?_obtain obtained⟩
    | error reply =>
      cases answered
      obtain ⟨e,rfl⟩ | ⟨message,rfl⟩ := obtain_error obtained <;> cases handed
  | peek v =>
    cases own
    cases answered
    cases held : (whole.find? w).join with
    | none => simp [held,Reply.handed?] at handed
    | some copy =>
      obtain rfl : copy.1 = c := by simpa [held,Reply.handed?] using handed
      exact ⟨copy.2,Option.join_eq_some_iff.mp held⟩
  | process v =>
    simp only [Roster.answer] at answered
    generalize obtained : whole.obtain v template conduct = result at answered
    obtain ⟨got,left,last⟩ := result
    cases got with
    | ok copy =>
      cases answered
      cases handed?_work.symm.trans handed
    | error reply =>
      cases answered
      obtain ⟨e,rfl⟩ | ⟨message,rfl⟩ := obtain_error obtained <;> cases handed
  | release v =>
    cases answered
    cases handed?_release.symm.trans handed
  | contains v => cases answered; cases handed
  | _ => cases own

theorem handed_converse {errands : List (Errand F V)} {reply : Reply V} (orderly : whole.Orderly)
    (told : reply ∈ answersTo w errands (Roster.converse sharding errands whole template).1)
    (handed : reply.handed? = some c) :
    let last := (Roster.converse sharding errands whole template).2.1
    Traced w c last ∧ last.made[c]? = some w := by
  induction errands generalizing whole template with
  | nil => cases told
  | cons errand rest ih =>
    have changes : ReflTransGen Change whole
        (whole.answer sharding template errand.conduct errand.ask).2.1 := answer_changes _
    have orderly' := orderly.changes changes
    simp only [Roster.converse,answersTo_cons] at told ⊢
    generalize answered : whole.answer sharding template errand.conduct errand.ask = result
      at orderly' told ⊢
    obtain ⟨first,left,next⟩ := result
    have later : ReflTransGen Change left (Roster.converse sharding rest left next).2.1 :=
      converse_changes rest
    split at told
    next own =>
      obtain rfl | told := List.mem_cons.mp told
      · obtain ⟨f,held⟩ := handed_answer answered own handed
        have made := (orderly'.housed w c f held).1
        obtain ⟨more,grown⟩ := made_changes later
        refine ⟨Traced.changes (.inl ⟨f,held⟩) later,?_⟩
        rw [← grown,List.getElem?_append_left (List.getElem?_eq_some_iff.mp made).1,made]
      · exact ih orderly' told
    next => exact ih orderly' told

end Roster
namespace Supply

open Roster (Echo Orderly Traced)

variable {F V : Type} {sharding : Sharding} {names : List String} {threads t m c d : Nat}
  {w : WorkerId} {hooks : Hooks F V} {fresh : F} {errands : List (Errand F V)}
  {replies replies' : List (Reply V)} {p p' last last' : Supply F V}

/-- What a thread was told of a worker, and what is left of that, is the same in both supplies but
for the numbers of copies. -/
structure Isolated (m : Nat) (w : WorkerId) (told told' : List (Reply V)) (p p' : Supply F V)
    (number : Nat → Nat) : Prop where
  answers : told' = told.map (Reply.renumber number)
  held : (p'.roster m).find? w =
    ((p.roster m).find? w).map (Option.map fun copy => (number copy.1,copy.2))
  own : ∀ reply ∈ told, ∀ c, reply.handed? = some c → (p.roster m).made[c]? = some w
  apart : ∀ c d, (p.roster m).made[c]? = some w → (p.roster m).made[d]? = some w →
    number c = number d → c = d
  live : ∀ reply ∈ told, ∀ c, reply.handed? = some c →
    p'.system.isLive (number c) = p.system.isLive c

/-- A worker without a copy gets one that starts from that value, set up by the hooks. -/
structure Starts (hooks : Hooks F V) (fresh : F) (t m : Nat) (p : Supply F V) : Prop where
  get : ∀ {w conduct reply next c f}, conduct.Follows hooks →
    ((p.roster m).find? w).join = none → p.Calls t m (.get w) conduct reply next →
    (next.roster m).find? w = some (some (c,f)) → f = (hooks.setup fresh).1
  process : ∀ {w conduct reply next c f}, conduct.Follows hooks →
    ((p.roster m).find? w).join = none → p.Calls t m (.process w) conduct reply next →
    (next.roster m).find? w = some (some (c,f)) → f = (conduct.body (hooks.setup fresh).1).1

theorem Alone.handed {reply : Reply V} (alone : Alone sharding t m p)
    (conversed : p.Converses t m errands replies p')
    (told : reply ∈ answersTo w errands replies) (handed : reply.handed? = some c) :
    Traced w c (p'.roster m) ∧ (p'.roster m).made[c]? = some w := by
  obtain ⟨done,_⟩ := alone.settles conversed
  have member : reply ∈ answersTo w errands
      (Roster.converse sharding errands (p.roster m) p.template).1 := by
    rwa [done]
  have traced := Roster.handed_converse alone.orderly member handed
  rwa [done] at traced

theorem Alone.live_echo (alone : Alone sharding t m p) (alone' : Alone sharding t m p')
    (echo : Echo w (p.roster m) (p'.roster m)) (traced : Traced w c (p.roster m))
    (made : (p.roster m).made[c]? = some w)
    (traced' : Traced w (rank w (p.roster m).made c) (p'.roster m)) :
    p'.system.isLive (rank w (p.roster m).made c) = p.system.isLive c := by
  rw [Bool.eq_iff_iff,alone'.live_iff traced',alone.live_iff traced]
  constructor
  · rintro ⟨f,held⟩
    rw [echo.held] at held
    obtain ⟨found,whole,held⟩ := Option.map_eq_some_iff.mp held
    obtain ⟨copy,rfl,same⟩ := Option.map_eq_some_iff.mp held
    obtain ⟨same,_⟩ := Prod.mk.inj same
    have own := (alone.orderly.housed w copy.1 copy.2 whole).1
    obtain rfl := rank_injective own made same
    exact ⟨copy.2,whole⟩
  · rintro ⟨f,held⟩
    exact ⟨f,echo.found held⟩

/-- A worker without a copy gets one that comes from the template and is set up. -/
theorem Alone.starts (alone : Alone sharding t m p) (steady : p.template.Steady fresh) :
    Starts hooks fresh t m p where
  get := by
    intro w conduct reply next c f follows bare calls held
    obtain ⟨answered,_⟩ := alone.answered calls
    have left : ((p.roster m).obtain w p.template conduct).2.1 = next.roster m := by
      rw [← Roster.answer_get sharding,answered]
    rw [← left] at held
    rw [← follows.setup]
    exact (Roster.obtain_starts steady bare held).2
  process := by
    intro w conduct reply next c f follows bare calls held
    obtain ⟨answered,_⟩ := alone.answered calls
    have starts {c : Nat} {f : F} (held : ((p.roster m).obtain w p.template conduct).2.1.find? w =
        some (some (c,f))) := Roster.obtain_starts steady bare held
    rw [← follows.setup]
    simp only [Roster.answer] at answered
    generalize obtained : (p.roster m).obtain w p.template conduct = result at answered starts
    obtain ⟨got,left,last⟩ := result
    cases got with
    | error reply =>
      have same : left = next.roster m := (Prod.mk.inj (Prod.mk.inj answered).2).1
      cases (starts (same ▸ held)).1
    | ok copy =>
      have same : (left.work w copy conduct).2 = next.roster m :=
        (Prod.mk.inj (Prod.mk.inj answered).2).1
      have fresh := (starts (Roster.find?_obtain obtained)).2
      rw [← fresh]
      exact Roster.work_keeps (same ▸ held)

/-- Conversations that differ in the calls for other workers keep a worker apart from these. -/
theorem Alone.isolated (alone : Alone sharding t m p) (alone' : Alone sharding t m p')
    (echo : Echo w (p.roster m) (p'.roster m)) (steady : p.template.Steady fresh)
    (steady' : p'.template.Steady fresh)
    (follows : ∀ errand ∈ errands, errand.conduct.Follows hooks)
    (conversed : p.Converses t m errands replies last)
    (conversed' : p'.Converses t m (errands.filter (·.ask.concerns w)) replies' last') :
    Isolated m w (answersTo w errands replies)
      (answersTo w (errands.filter (·.ask.concerns w)) replies') last last'
      (rank w (last.roster m).made) := by
  obtain ⟨done,ended⟩ := alone.settles conversed
  obtain ⟨done',ended'⟩ := alone'.settles conversed'
  obtain ⟨answers,echo⟩ := echo.converse alone.orderly alone.poised.shows.nodup
    alone'.poised.shows.nodup follows steady steady'
  rw [done,done'] at answers echo
  have told := answers _ List.prefix_rfl
  refine ⟨told,echo.held,fun reply member c gave => (alone.handed conversed member gave).2,
    fun c d => rank_injective,fun reply member c gave => ?_⟩
  obtain ⟨traced,made⟩ := alone.handed conversed member gave
  have given : (reply.renumber (rank w (last.roster m).made)).handed? =
      some (rank w (last.roster m).made c) := by
    rw [Reply.handed?_renumber,gave]
    rfl
  have member' := List.mem_map_of_mem (f := Reply.renumber (rank w (last.roster m).made)) member
  rw [← told] at member'
  exact ended.live_echo ended' echo traced made (alone'.handed conversed' member' given).1

/-- Workers do not interfere. Leave out of a conversation all calls for other workers than one: it
is told the same, call by call, and left with the same, but for the numbers of copies. Each copy
starts from the value that the template has of the prototype. -/
theorem workers_isolated (sharding : Sharding) (names : List String) (threads t m : Nat)
    (room : t < threads) (present : m < names.length) (prototype fresh : F)
    (template : Template F) (source : Template.Of prototype template fresh) (hooks : Hooks F V)
    (w : WorkerId) (errands : List (Errand F V))
    (follows : ∀ errand ∈ errands, errand.conduct.Follows hooks) :
    let few := errands.filter (·.ask.concerns w)
    ∃ replies p replies' p',
      (Supply.fresh sharding names threads template).Converses t m errands replies p ∧
      (Supply.fresh sharding names threads template).Converses t m few replies' p' ∧
      (∃ number, Isolated m w (answersTo w errands replies) (answersTo w few replies') p p'
        number) ∧
      Starts hooks fresh t m p := by
  intro few
  have start := alone_fresh (V := V) sharding template room present
  have empty := roster_fresh (V := V) sharding template room present
  have steady : (Supply.fresh sharding names threads template : Supply F V).template.Steady fresh :=
    source.steady
  generalize (Supply.fresh sharding names threads template : Supply F V) = p at start empty steady ⊢
  have same : Echo w (p.roster m) (p.roster m) := by
    rw [empty]
    exact ⟨rfl,rfl,rfl⟩
  obtain ⟨replies,last,conversed⟩ := start.converses errands
  obtain ⟨replies',last',conversed'⟩ := start.converses few
  have isolated := start.isolated start same steady steady follows conversed conversed'
  obtain ⟨done,alone⟩ := start.settles conversed
  have left : (Roster.converse sharding errands (p.roster m) p.template).2.2.Steady fresh :=
    Roster.steady_converse steady
  rw [done] at left
  exact ⟨replies,last,replies',last',conversed,conversed',⟨_,isolated⟩,alone.starts left⟩

def enricherHooks : Hooks Enricher Nat where
  setup e :=
    match e.setup with
    | .ok e => (e,.returned 0)
    | .error refusal => (e,.failed refusal.fault)
  teardown e :=
    match e.teardown with
    | .ok (processed,e) => (e,.returned processed)
    | .error refusal => (e,.failed refusal.fault)

def tagging (element : UInt64) : Conduct Enricher Nat where
  setup := enricherHooks.setup
  body e :=
    match e.process element with
    | .ok (size,e) => (e,.returned size)
    | .error refusal => (e,.failed refusal.fault)
  teardown _ := enricherHooks.teardown

theorem follows_tagging (element : UInt64) : (tagging element).Follows enricherHooks where
  calm := by
    rintro c (_ | _ | _) f message <;> simp only [Conduct.act,tagging,enricherHooks] <;> split <;>
      nofun
  setup := rfl
  teardown _ := rfl

def veteran : Enricher := { tag := "x", failEvery := 3, session := some 4, scratch := "x9" }

def shift : List (Errand Enricher Nat) :=
  [⟨.get (.named "a"),tagging 0⟩,⟨.process (.named "b"),tagging 6⟩,
    ⟨.process (.named "a"),tagging 6⟩,⟨.releaseAll,tagging 0⟩,⟨.release (.named "b"),tagging 0⟩,
    ⟨.process (.named "a"),tagging 7⟩]

def ownShift : List (Errand Enricher Nat) :=
  [⟨.get (.named "a"),tagging 0⟩,⟨.process (.named "a"),tagging 6⟩,⟨.releaseAll,tagging 0⟩,
    ⟨.process (.named "a"),tagging 7⟩]

theorem workers_isolated_of_shift :
    ∃ replies p replies' p',
      (Supply.fresh .single ["pool"] 1 (.serialized Enricher.codec veteran.encode 1)).Converses
        0 0 shift replies p ∧
      (Supply.fresh .single ["pool"] 1 (.serialized Enricher.codec veteran.encode 1)).Converses
        0 0 ownShift replies' p' ∧
      (∃ number, Isolated 0 (.named "a") (answersTo (.named "a") shift replies)
        (answersTo (.named "a") ownShift replies') p p' number) ∧
      Starts enricherHooks { tag := "x", failEvery := 3 } 0 0 p := by
  have room : 0 < 1 := by decide
  have present : 0 < ["pool"].length := by decide
  have read : Enricher.codec.decode 0 veteran.encode = .ok veteran.closed := by
    simp only [Enricher.codec,Enricher.decode_encode]
  have follows : ∀ errand ∈ shift, errand.conduct.Follows enricherHooks := by
    simp [shift,follows_tagging]
  have source : Template.Of veteran (.serialized Enricher.codec veteran.encode 1)
      veteran.closed := .serialized (Enricher.template_eq veteran) (fun _ _ => rfl) rfl read
  exact workers_isolated .single ["pool"] 1 0 0 room present veteran veteran.closed
    (.serialized Enricher.codec veteran.encode 1) source enricherHooks (.named "a") shift follows

end Supply
end PerWorker
