import PerWorker.Proofs.Lifecycle.Conversations

/-!
A directory does naively what a manager is for: it maps workers to copies and keeps the next number
and the counts, and it has no slots, no vacancies and no shards. Main statement: to one thread, as
long as nothing panics, a manager answers as the directory does and holds what the directory holds.
-/
namespace PerWorker

/-- The copy of each worker with its value, the number of the next copy, and the counts. -/
structure Directory (F : Type) where
  copies : List (WorkerId × Nat × F) := []
  next : Nat := 0
  counts : Counters := {}
  deriving Repr, DecidableEq

namespace Directory

variable {F V : Type}

def find? (g : Directory F) (w : WorkerId) : Option (Nat × F) := g.copies.lookup w

def workers (g : Directory F) : List WorkerId := g.copies.map (·.1)

def count (g : Directory F) (counter : Counter) : Directory F :=
  { g with counts := g.counts.bump counter }

def drawn (g : Directory F) : Directory F := { g.count .copies with next := g.next + 1 }

def add (g : Directory F) (w : WorkerId) (copy : Nat × F) : Directory F :=
  { g with copies := g.copies ++ [(w,copy)] }

def put (g : Directory F) (w : WorkerId) (copy : Nat × F) : Directory F :=
  { g with copies := g.copies.map fun entry => if entry.1 = w then (w,copy) else entry }

def remove (g : Directory F) (w : WorkerId) : Directory F :=
  { g with copies := g.copies.filter (·.1 ≠ w) }

/-- The copy of a worker, made and set up on first use. Where that fails, only the counts and the
next number tell of it. -/
def obtain (g : Directory F) (name : String) (w : WorkerId) (template : Template F)
    (conduct : Conduct F V) : Except (Reply V) (Nat × F) × Directory F × Template F :=
  match g.find? w with
  | some copy => (.ok copy,g,template)
  | none =>
    match template.replicate with
    | (.refused e,rest) => (.error (.failed (.clone name w e)),g.count .cloneFailures,rest)
    | (.panicked message,rest) => (.error (.panicked message),g,rest)
    | (.copy f,rest) =>
      match conduct.setup f with
      | (f,.returned _) => (.ok (g.next,f),(g.drawn.count .setups).add w (g.next,f),rest)
      | (_,.failed fault) =>
        (.error (.failed (.setup name w (g.next + 1) fault)),g.drawn.count .setupFailures,rest)
      | (_,.panicked message) => (.error (.panicked message),g.drawn,rest)

/-- A worker is forgotten, whatever its teardown says. -/
def release (g : Directory F) (name : String) (w : WorkerId) (conduct : Conduct F V) :
    Reply V × Directory F :=
  match g.find? w with
  | none => (.done,g)
  | some (c,f) =>
    let torn := (g.remove w).count .teardowns
    match (conduct.teardown c f).2 with
    | .returned _ => (.done,torn)
    | .failed fault => (.failed (.teardown name w (c + 1) fault),torn.count .teardownFailures)
    | .panicked message => (.panicked message,torn)

/-- A body runs on the copy of a worker. If it fails the worker is forgotten, and its failure is the
answer whatever the teardown says. -/
def work (g : Directory F) (name : String) (w : WorkerId) (copy : Nat × F)
    (conduct : Conduct F V) : Reply V × Directory F :=
  match conduct.body copy.2 with
  | (f,.returned v) => (.value v,g.put w (copy.1,f))
  | (f,.failed fault) => (.fault fault,((g.put w (copy.1,f)).release name w conduct).2)
  | (f,.panicked message) => (.panicked message,g.put w (copy.1,f))

def failure? (g : Directory F) (name : String) (conduct : Conduct F V) (w : WorkerId) :
    Option LifecycleError :=
  match g.find? w with
  | none => none
  | some (c,f) =>
    match (conduct.teardown c f).2 with
    | .failed fault => some (.teardown name w (c + 1) fault)
    | _ => none

def forget (g : Directory F) (name : String) (conduct : Conduct F V) (ws : List WorkerId) :
    Directory F where
  copies := g.copies.filter (·.1 ∉ ws)
  next := g.next
  counts := { g.counts with
    teardowns := g.counts.teardowns + ws.length
    teardownFailures :=
      g.counts.teardownFailures + (ws.filterMap (g.failure? name conduct)).length }

def answer (g : Directory F) (name : String) (template : Template F) (conduct : Conduct F V) :
    Ask → Reply V × Directory F × Template F
  | .get w =>
    match g.obtain name w template conduct with
    | (.ok copy,next) => (.handle copy.1,next)
    | (.error reply,next) => (reply,next)
  | .peek w => (.peeked ((g.find? w).map (·.1)),g,template)
  | .process w =>
    match g.obtain name w template conduct with
    | (.error reply,next) => (reply,next)
    | (.ok copy,known,template) =>
      let (reply,left) := known.work name w copy conduct
      (reply,left,template)
  | .release w =>
    let (reply,left) := g.release name w conduct
    (reply,left,template)
  | .releaseAll =>
    (.errors (g.workers.filterMap (g.failure? name conduct)),g.forget name conduct g.workers,
      template)
  | .contains w => (.flag (g.find? w).isSome,g,template)
  | .workers => (.workers g.workers,g,template)
  | .len => (.count g.copies.length,g,template)
  | .isEmpty => (.flag g.copies.isEmpty,g,template)
  | .counters => (.counters g.counts,g,template)

def converse (name : String) :
    List (Errand F V) → Directory F → Template F → List (Reply V) × Directory F
  | [], g, _ => ([],g)
  | errand :: rest, g, template =>
    let (reply,left,template) := g.answer name template errand.conduct errand.ask
    let (replies,last) := converse name rest left template
    (reply :: replies,last)

end Directory

/-- A request for a copy is granted or refused. -/
def Template.Calm {F : Type} : Template F → Prop
  | .clone _ | .serialized .. => True
  | .factory plan lastResort => ∀ draw ∈ lastResort :: plan, ∀ message, draw ≠ .panicked message

/-- Answers that differ at most in the order of workers or of errors. -/
inductive Reply.Agrees {V : Type} : Reply V → Reply V → Prop
  | same (reply) : Agrees reply reply
  | workers {ws vs : List WorkerId} (perm : ws.Perm vs) : Agrees (.workers ws) (.workers vs)
  | errors {es ds : List LifecycleError} (perm : es.Perm ds) : Agrees (.errors es) (.errors ds)

theorem Template.Calm.replicate {F : Type} {template next : Template F} {draw : Draw F}
    (calm : template.Calm) (drew : template.replicate = (draw,next)) :
    next.Calm ∧ ∀ message, draw ≠ .panicked message := by
  cases template with
  | clone prototype =>
    cases drew
    exact ⟨trivial,by simp⟩
  | serialized codec text reads =>
    simp only [Template.replicate] at drew
    cases drew
    refine ⟨trivial,fun message => ?_⟩
    split <;> simp
  | factory plan lastResort =>
    cases plan with
    | nil =>
      cases drew
      exact ⟨calm,calm _ List.mem_cons_self⟩
    | cons first rest =>
      cases drew
      refine ⟨fun draw member => calm draw ?_,calm draw (by simp)⟩
      simp only [List.mem_cons] at member ⊢
      tauto

namespace Directory

variable {F V : Type} {g : Directory F} {name : String} {w : WorkerId} {conduct : Conduct F V}

theorem find?_of_mem (member : w ∈ g.workers) : ∃ copy, g.find? w = some copy := by
  refine Option.isSome_iff_exists.mp (Option.isSome_iff_ne_none.mpr fun missing => ?_)
  obtain ⟨entry,inside,rfl⟩ := List.mem_map.mp member
  simpa using List.lookup_eq_none_iff.mp missing entry inside

theorem find?_forget {ws : List WorkerId} {v : WorkerId} (other : v ∉ ws) :
    (g.forget name conduct ws).find? v = g.find? v := by
  simp only [find?,forget]
  induction g.copies with
  | nil => rfl
  | cons entry rest ih =>
    obtain ⟨u,copy⟩ := entry
    by_cases inside : u ∈ ws
    · have apart : (v == u) = false := by
        simpa using fun same : v = u => other (same ▸ inside)
      rw [List.filter_cons_of_neg (by simpa using inside),ih,List.lookup_cons,apart]
    · rw [List.filter_cons_of_pos (by simpa using inside),List.lookup_cons,List.lookup_cons,ih]

theorem failures_forget {ws : List WorkerId} (once : w ∉ ws) :
    ws.filterMap ((g.forget name conduct [w]).failure? name conduct) =
      ws.filterMap (g.failure? name conduct) := by
  refine List.filterMap_congr fun v member => ?_
  have other : v ∉ [w] := by
    simpa using fun same : v = w => once (same ▸ member)
  simp only [failure?,find?_forget other]

theorem forget_forget {ws : List WorkerId} (once : w ∉ ws) :
    (g.forget name conduct [w]).forget name conduct ws = g.forget name conduct (w :: ws) := by
  have kept : (g.copies.filter (·.1 ∉ [w])).filter (·.1 ∉ ws) =
      g.copies.filter (·.1 ∉ w :: ws) := by
    rw [List.filter_filter]
    refine List.filter_congr fun entry _ => ?_
    by_cases own : entry.1 = w <;> simp [own]
  have failures : ((w :: ws).filterMap (g.failure? name conduct)).length =
      ([w].filterMap (g.failure? name conduct)).length +
        (ws.filterMap (g.failure? name conduct)).length := by
    rw [← List.length_append,← List.filterMap_append,List.singleton_append]
  rw [forget,failures_forget once]
  simp only [forget,kept,failures,List.length_cons,List.length_nil,Directory.mk.injEq,
    Counters.mk.injEq,true_and]
  omega

theorem release_eq {copy : Nat × F} (calm : conduct.Calm) (found : g.find? w = some copy) :
    g.release name w conduct = ((g.failure? name conduct w).elim .done .failed,
      g.forget name conduct [w]) := by
  obtain ⟨c,f⟩ := copy
  have never : ∀ message, (conduct.teardown c f).2 ≠ .panicked message := calm c .teardown f
  simp only [release,found,failure?,forget,List.filterMap_cons,List.filterMap_nil]
  cases ended : (conduct.teardown c f).2 with
  | returned v => simp [remove,count,Counters.bump,Counters.set,Counters.get]
  | failed fault => simp [remove,count,Counters.bump,Counters.set,Counters.get]
  | panicked message => exact absurd ended (never message)

end Directory

namespace Roster

variable {F V : Type} {r after : Roster F} {g : Directory F} {w : WorkerId} {copy : Nat × F}
  {template next : Template F} {conduct : Conduct F V} {reply : Reply V}

/-- A roster on which every registered worker has a copy, and a directory that holds the same. -/
structure Mirrors (r : Roster F) (g : Directory F) : Prop where
  entries : r.entries = g.copies.map fun (w,copy) => (w,some copy)
  nodup : g.workers.Nodup
  numbered : r.numbered = g.next
  counters : r.counters = g.counts

theorem Mirrors.find? (mirrors : r.Mirrors g) (w : WorkerId) :
    r.find? w = (g.find? w).map some := by
  rw [Roster.find?,mirrors.entries]
  exact lookup_map_snd some g.copies w

theorem Mirrors.workers (mirrors : r.Mirrors g) : r.workers = g.workers := by
  simp [Roster.workers,Directory.workers,mirrors.entries,Function.comp_def]

theorem Mirrors.count (mirrors : r.Mirrors g) (counter : Counter) :
    (r.count counter).Mirrors (g.count counter) :=
  { mirrors with counters := congrArg (·.bump counter) mirrors.counters }

theorem Mirrors.drawn (mirrors : r.Mirrors g) (w : WorkerId) : (r.drawn w).Mirrors g.drawn where
  entries := mirrors.entries
  nodup := mirrors.nodup
  numbered := by
    simp [Roster.drawn,Roster.ran,number,Roster.count,Roster.numbered,Directory.drawn,
      ← mirrors.numbered]
  counters := congrArg (·.bump .copies) mirrors.counters

theorem Mirrors.add (mirrors : r.Mirrors g) (missing : g.find? w = none) (copy : Nat × F) :
    { r with entries := r.entries ++ [(w,some copy)] }.Mirrors (g.add w copy) where
  entries := by simp [mirrors.entries,Directory.add]
  nodup := by
    have absent : w ∉ g.workers := fun member => by
      obtain ⟨entry,inside,rfl⟩ := List.mem_map.mp member
      simpa using List.lookup_eq_none_iff.mp missing entry inside
    have grown : (g.add w copy).workers = g.workers ++ [w] := by
      simp [Directory.workers,Directory.add]
    rw [grown]
    exact mirrors.nodup.append (List.nodup_singleton w) (by simpa using absent)
  numbered := mirrors.numbered
  counters := mirrors.counters

theorem Mirrors.put (mirrors : r.Mirrors g) (w : WorkerId) (copy : Nat × F) :
    (r.put w copy).Mirrors (g.put w copy) where
  entries := by
    simp only [Roster.put,Directory.put,mirrors.entries,List.map_map]
    refine List.map_congr_left fun entry _ => ?_
    by_cases own : entry.1 = w <;> simp [own]
  nodup := by
    have same : (g.put w copy).workers = g.workers := by
      simp only [Directory.workers,Directory.put,List.map_map]
      refine List.map_congr_left fun entry _ => ?_
      by_cases own : entry.1 = w <;> simp [own]
    rw [same]
    exact mirrors.nodup
  numbered := mirrors.numbered
  counters := mirrors.counters

theorem Mirrors.remove (mirrors : r.Mirrors g) (w : WorkerId) :
    (r.remove w).Mirrors (g.remove w) where
  entries := by
    simp only [Roster.remove,mirrors.entries,List.filter_map]
    rfl
  nodup := mirrors.nodup.sublist (List.filter_sublist.map _)
  numbered := mirrors.numbered
  counters := mirrors.counters

/-- A lookup comes to the same on a roster and on the directory that mirrors it. -/
theorem Mirrors.obtain (mirrors : r.Mirrors g) (calm : conduct.Calm) (quiet : template.Calm)
    (w : WorkerId) : ∃ result after g' next, r.obtain w template conduct = (result,after,next) ∧
      g.obtain r.name w template conduct = (result,g',next) ∧ after.Mirrors g' ∧
      after.name = r.name ∧ next.Calm := by
  have found := mirrors.find? w
  cases held : g.find? w with
  | some copy =>
    rw [held] at found
    refine ⟨.ok copy,r,g,template,?_,?_,mirrors,rfl,quiet⟩
    · simp only [Roster.obtain,found,Option.map_some]
    · simp only [Directory.obtain,held]
  | none =>
    have unknown : r.find? w = none := by rw [found,held,Option.map_none]
    have name : (r.enroll w).name = r.name := name_enroll r w
    have made : (r.enroll w).numbered = g.next := (numbered_enroll r w).trans mirrors.numbered
    have kept := remove_enroll r w unknown
    rw [obtain_of_bare (by simp [unknown])]
    have created := created (r.enroll w) w template conduct
    generalize (r.enroll w).create w template conduct = result at created
    cases created with
    | @refused e next drew =>
      refine ⟨_,_,g.count .cloneFailures,next,rfl,?_,?_,?_,(quiet.replicate drew).1⟩
      · simp only [Directory.obtain,held,drew,name]
      · have same : ((r.enroll w).count .cloneFailures).remove w = r.count .cloneFailures :=
          congrArg (·.count .cloneFailures) kept
        exact same ▸ mirrors.count .cloneFailures
      · exact name
    | panicked drew => exact absurd rfl ((quiet.replicate drew).2 _)
    | @setUp f value v next drew ended =>
      refine ⟨_,_,(g.drawn.count .setups).add w (g.next,value),next,rfl,?_,?_,name,
        (quiet.replicate drew).1⟩
      · simp only [Directory.obtain,held,drew,ended,made]
      · have same : (((r.enroll w).drawn w).count .setups).put w ((r.enroll w).numbered,value) =
            (Roster.drawn { r with entries := r.entries ++ [(w,some (g.next,value))] } w).count
              .setups := by
          rw [made,← put_enroll r w (g.next,value) unknown]
          rfl
        exact same ▸ ((mirrors.add held (g.next,value)).drawn w).count .setups
    | @failed f value fault next drew ended =>
      refine ⟨_,_,g.drawn.count .setupFailures,next,rfl,?_,?_,name,(quiet.replicate drew).1⟩
      · simp only [Directory.obtain,held,drew,ended,made,name]
      · have same : (((r.enroll w).drawn w).count .setupFailures).remove w =
            (r.drawn w).count .setupFailures :=
          congrArg (fun r => (Roster.drawn r w).count .setupFailures) kept
        exact same ▸ (mirrors.drawn w).count .setupFailures
    | broke drew ended => exact absurd (congrArg Prod.snd ended) (calm 0 .setup _ _)

theorem Mirrors.ran (mirrors : r.Mirrors g) (hook : Hook) (c : Nat) : (r.ran hook c).Mirrors g :=
  { mirrors with }

theorem Mirrors.release (mirrors : r.Mirrors g) (calm : conduct.Calm) (w : WorkerId) :
    ∃ reply after g', r.release w conduct = (reply,after) ∧
      g.release r.name w conduct = (reply,g') ∧ after.Mirrors g' ∧ after.name = r.name ∧
      ∀ message, reply ≠ .panicked message := by
  have known {c : Nat} {f : F} (found : r.find? w = some (some (c,f))) :
      g.find? w = some (c,f) := by
    have same := mirrors.find? w
    rw [found] at same
    cases held : g.find? w <;> simp_all
  have released := released r w conduct
  generalize r.release w conduct = result at released
  cases released with
  | empty none =>
    have missing : g.find? w = .none := by
      rw [mirrors.find? w] at none
      cases held : g.find? w <;> simp_all
    have unknown : r.find? w = .none := by rw [mirrors.find? w,missing,Option.map_none]
    refine ⟨_,_,g,rfl,?_,?_,rfl,nofun⟩
    · simp only [Directory.release,missing]
    · exact (remove_of_unknown r w unknown).symm ▸ mirrors
  | @returned c f v found ended =>
    refine ⟨_,_,(g.remove w).count .teardowns,rfl,?_,?_,rfl,nofun⟩
    · simp only [Directory.release,known found,ended]
    · exact ((mirrors.remove w).ran .teardown c).count .teardowns
  | @failed c f fault found ended =>
    refine ⟨_,_,((g.remove w).count .teardowns).count .teardownFailures,rfl,?_,?_,rfl,nofun⟩
    · simp only [Directory.release,known found,ended]
    · exact (((mirrors.remove w).ran .teardown c).count .teardowns).count .teardownFailures
  | panicked found ended => exact absurd ended (calm _ .teardown _ _)

theorem Mirrors.work (mirrors : r.Mirrors g) (calm : conduct.Calm) (w : WorkerId)
    (copy : Nat × F) : ∃ reply after g', r.work w copy conduct = (reply,after) ∧
      g.work r.name w copy conduct = (reply,g') ∧ after.Mirrors g' ∧ after.name = r.name := by
  have left := (mirrors.ran .body copy.1).put w (copy.1,(conduct.body copy.2).1)
  have never := calm copy.1 .body copy.2
  unfold Roster.work Directory.work
  change ∀ message, (conduct.body copy.2).2 ≠ .panicked message at never
  generalize conduct.body copy.2 = result at left never ⊢
  obtain ⟨f,outcome⟩ := result
  cases outcome with
  | returned v => exact ⟨_,_,_,rfl,rfl,left,rfl⟩
  | failed fault =>
    obtain ⟨reply,after,g',released,forgotten,same,name,quiet⟩ := left.release calm w
    refine ⟨.fault fault,after,g',?_,?_,same,name⟩
    · cases reply <;> simp_all
    · exact congrArg (fun result => (Reply.fault fault,result.2)) forgotten
  | panicked message => exact absurd rfl (never message)

/-- Workers are released one by one; what that comes to does not depend on their order. -/
theorem Mirrors.sweep {ws : List WorkerId} (mirrors : r.Mirrors g) (calm : conduct.Calm)
    (nodup : ws.Nodup) (known : ∀ w ∈ ws, w ∈ g.workers) (errors : List LifecycleError) :
    ∃ after, Roster.sweep conduct ws errors r =
        (.errors (errors ++ ws.filterMap (g.failure? r.name conduct)),after) ∧
      after.Mirrors (g.forget r.name conduct ws) ∧ after.name = r.name := by
  -- Every release may add an error, so the errors so far are not fixed.
  induction ws generalizing r g errors with
  | nil =>
    have same : g.forget r.name conduct [] = g := by simp [Directory.forget]
    exact ⟨r,by simp [Roster.sweep],same.symm ▸ mirrors,rfl⟩
  | cons w ws ih =>
    obtain ⟨once,nodup⟩ := List.nodup_cons.mp nodup
    obtain ⟨copy,found⟩ := Directory.find?_of_mem (known w List.mem_cons_self)
    obtain ⟨reply,gone,g',released,forgotten,mirrors,name,quiet⟩ := mirrors.release calm w
    rw [Directory.release_eq calm found] at forgotten
    cases forgotten
    have within (v : WorkerId) (member : v ∈ ws) :
        v ∈ (g.forget r.name conduct [w]).workers := by
      obtain ⟨entry,inside,rfl⟩ := List.mem_map.mp (known v (List.mem_cons_of_mem w member))
      have other : entry.1 ≠ w := fun same => once (same ▸ member)
      exact List.mem_map_of_mem (List.mem_filter.mpr ⟨inside,by simpa using other⟩)
    unfold Roster.sweep
    rw [released,← Directory.forget_forget once,List.filterMap_cons]
    cases failed : g.failure? r.name conduct w with
    | none =>
      obtain ⟨after,swept,same,kept⟩ := ih mirrors nodup within errors
      rw [name,Directory.failures_forget once] at swept
      rw [name] at same
      exact ⟨after,swept,same,kept.trans name⟩
    | some e =>
      obtain ⟨after,swept,same,kept⟩ := ih mirrors nodup within (errors ++ [e])
      rw [name,Directory.failures_forget once,List.append_assoc] at swept
      rw [name] at same
      exact ⟨after,swept,same,kept.trans name⟩

theorem Mirrors.releaseAll (mirrors : r.Mirrors g) (calm : conduct.Calm) (sharding : Sharding) :
    ∃ errors after, Roster.sweep conduct (sharding.walk r.workers) [] r = (.errors errors,after) ∧
      errors.Perm (g.workers.filterMap (g.failure? r.name conduct)) ∧
      after.Mirrors (g.forget r.name conduct g.workers) ∧ after.name = r.name := by
  have perm : (sharding.walk r.workers).Perm g.workers :=
    mirrors.workers ▸ sharding.walk_perm r.workers
  obtain ⟨after,swept,same,name⟩ := mirrors.sweep calm (perm.nodup_iff.mpr mirrors.nodup)
    (fun w member => perm.mem_iff.mp member) []
  have failures := perm.filterMap (g.failure? r.name conduct)
  have forgotten : g.forget r.name conduct (sharding.walk r.workers) =
      g.forget r.name conduct g.workers := by
    simp only [Directory.forget,perm.length_eq,failures.length_eq,perm.mem_iff]
  exact ⟨_,after,swept,by simpa using failures,forgotten ▸ same,name⟩

/-- Every call is answered alike on a roster and on a directory that mirror each other, and they
still do afterwards. -/
theorem Mirrors.answer (mirrors : r.Mirrors g) (calm : conduct.Calm) (quiet : template.Calm)
    (sharding : Sharding) (ask : Ask) :
    ∃ reply reply' after g' next, r.answer sharding template conduct ask = (reply,after,next) ∧
      g.answer r.name template conduct ask = (reply',g',next) ∧ reply.Agrees reply' ∧
      after.Mirrors g' ∧ after.name = r.name ∧ next.Calm := by
  have looks {reply reply' : Reply V} (asked : r.answer sharding template conduct ask =
      (reply,r,template)) (told : g.answer r.name template conduct ask = (reply',g,template))
      (agrees : reply.Agrees reply') : ∃ reply reply' after g' next,
      r.answer sharding template conduct ask = (reply,after,next) ∧
      g.answer r.name template conduct ask = (reply',g',next) ∧ reply.Agrees reply' ∧
      after.Mirrors g' ∧ after.name = r.name ∧ next.Calm :=
    ⟨_,_,_,_,_,asked,told,agrees,mirrors,rfl,quiet⟩
  have perm : (sharding.walk r.workers).Perm g.workers :=
    mirrors.workers ▸ sharding.walk_perm r.workers
  cases ask with
  | get w =>
    obtain ⟨result,after,g',next,obtained,got,same,name,quiet⟩ := mirrors.obtain calm quiet w
    cases result with
    | ok copy =>
      exact ⟨.handle copy.1,.handle copy.1,after,g',next,by simp only [Roster.answer,obtained],
        by simp only [Directory.answer,got],.same _,same,name,quiet⟩
    | error reply =>
      exact ⟨reply,reply,after,g',next,by simp only [Roster.answer,obtained],
        by simp only [Directory.answer,got],.same _,same,name,quiet⟩
  | peek w =>
    refine looks rfl rfl ?_
    rw [mirrors.find? w]
    cases g.find? w <;> exact .same _
  | process w =>
    obtain ⟨result,after,g',next,obtained,got,same,name,quiet⟩ := mirrors.obtain calm quiet w
    cases result with
    | error reply =>
      exact ⟨reply,reply,after,g',next,by simp only [Roster.answer,obtained],
        by simp only [Directory.answer,got],.same _,same,name,quiet⟩
    | ok copy =>
      obtain ⟨reply,left,h,worked,did,same,kept⟩ := same.work calm w copy
      rw [name] at did
      exact ⟨reply,reply,left,h,next,by simp only [Roster.answer,obtained,worked],
        by simp only [Directory.answer,got,did],.same _,same,kept.trans name,quiet⟩
  | release w =>
    obtain ⟨reply,after,g',released,forgotten,same,name,_⟩ := mirrors.release calm w
    exact ⟨reply,reply,after,g',template,by simp only [Roster.answer,released],
      by simp only [Directory.answer,forgotten],.same _,same,name,quiet⟩
  | releaseAll =>
    obtain ⟨errors,after,swept,perm,same,name⟩ := mirrors.releaseAll calm sharding
    exact ⟨_,_,after,_,template,by simp only [Roster.answer,swept],rfl,.errors perm,same,name,quiet⟩
  | contains w =>
    refine looks rfl rfl ?_
    rw [mirrors.find? w,Option.isSome_map]
    exact .same _
  | workers => exact looks rfl rfl (.workers perm)
  | len =>
    refine looks rfl rfl ?_
    rw [mirrors.workers,Directory.workers,List.length_map]
    exact .same _
  | isEmpty =>
    refine looks rfl rfl ?_
    rw [mirrors.workers,Directory.workers,List.isEmpty_map]
    exact .same _
  | counters =>
    refine looks rfl rfl ?_
    rw [mirrors.counters]
    exact .same _

/-- A conversation gets the answers of the directory, and both keep the same. -/
theorem Mirrors.converse {errands : List (Errand F V)} (mirrors : r.Mirrors g)
    (calm : ∀ errand ∈ errands, errand.conduct.Calm) (quiet : template.Calm)
    (sharding : Sharding) :
    List.Forall₂ Reply.Agrees (Roster.converse sharding errands r template).1
        (g.converse r.name errands template).1 ∧
      (Roster.converse sharding errands r template).2.1.Mirrors
        (g.converse r.name errands template).2 := by
  induction errands generalizing r g template with
  | nil => exact ⟨.nil,mirrors⟩
  | cons errand rest ih =>
    obtain ⟨reply,reply',after,g',next,asked,told,agrees,same,name,quiet⟩ :=
      mirrors.answer (calm errand List.mem_cons_self) quiet sharding errand.ask
    obtain ⟨replies,last⟩ :=
      ih same (fun errand member => calm errand (List.mem_cons_of_mem _ member)) quiet
    rw [name] at replies last
    simp only [Roster.converse,Directory.converse,asked,told]
    exact ⟨.cons agrees replies,last⟩

end Roster

namespace Supply

variable {F V : Type}

/-- To a thread that has a manager to itself the manager is a directory: every conversation without
a panic is answered call by call as the directory answers it, and what is registered then, with
which numbers and contents, and what has been counted are what the directory holds. -/
theorem converses_as_directory (sharding : Sharding) (names : List String) (threads t m : Nat)
    (room : t < threads) (present : m < names.length) (template : Template F)
    (quiet : template.Calm) (errands : List (Errand F V))
    (calm : ∀ errand ∈ errands, errand.conduct.Calm) :
    ∃ enough replies last, (∀ fuel, enough ≤ fuel →
        (fresh sharding names threads template).converse? t m fuel errands =
          some (replies,last)) ∧
      let (answers,g) := Directory.converse names[m] errands {} template
      List.Forall₂ Reply.Agrees replies answers ∧
        (last.roster m).entries = g.copies.map (fun (w,copy) => (w,some copy)) ∧
        (last.roster m).numbered = g.next ∧ (last.roster m).counters = g.counts := by
  have empty : Roster.Mirrors ({ name := names[m] } : Roster F) {} := ⟨rfl,List.nodup_nil,rfl,rfl⟩
  obtain ⟨enough,last,served,poised⟩ :=
    (poised_fresh sharding template room present).converses errands
  obtain ⟨agrees,same⟩ := empty.converse calm quiet sharding
  refine ⟨enough,_,last,served,agrees,?_⟩
  rw [poised.roster_eq]
  exact ⟨same.entries,same.numbered,same.counters⟩

/-- Setups succeed, bodies fail on odd values, and every teardown fails. -/
def stumbling : Conduct Nat Nat where
  setup f := (f + 1,.returned 0)
  body f := (f + 2,if f % 2 = 0 then .returned f else .failed { message := "body" })
  teardown _ f := (f,.failed { message := "teardown" })

theorem calm_stumbling : stumbling.Calm := by
  rintro c (_ | _ | _) f message
  · nofun
  · nofun
  · simp only [Conduct.act,stumbling]
    split <;> nofun

theorem converses_as_directory_of_stumbling : ∃ enough replies last, (∀ fuel, enough ≤ fuel →
      (fresh .single ["pool"] 1 (.clone 4)).converse? 0 0 fuel
        [⟨.get (.named "a"),stumbling⟩,⟨.process (.named "a"),stumbling⟩,
          ⟨.get (.named "b"),stumbling⟩,⟨.releaseAll,stumbling⟩] = some (replies,last)) ∧
    List.Forall₂ Reply.Agrees replies [.handle 0,.fault { message := "body" },.handle 1,
      .errors [.teardown "pool" (.named "b") 2 { message := "teardown" }]] ∧
    (last.roster 0).entries = [] ∧ (last.roster 0).numbered = 2 ∧
    (last.roster 0).counters = ⟨2,0,2,0,2,2⟩ :=
  converses_as_directory .single ["pool"] 1 0 0 (by decide) (by decide) (.clone 4) trivial
    [⟨.get (.named "a"),stumbling⟩,⟨.process (.named "a"),stumbling⟩,
      ⟨.get (.named "b"),stumbling⟩,⟨.releaseAll,stumbling⟩]
    (by simpa using calm_stumbling)

end Supply
end PerWorker
