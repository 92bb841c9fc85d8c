import PerWorker.Proofs.Lifecycle.Errands

/-!
The other calls of a thread that has a manager to itself, and calls one after the other. Main
statement: a conversation gets the answers that the roster gives, and in the end the manager shows
the roster that is left.
-/
namespace PerWorker

open PerWorker.System (Shows Berth Seated Keeps resume nextRelease)

namespace Supply

variable {F V : Type} {sharding : Sharding} {t m i c : Nat} {w : WorkerId} {conduct : Conduct F V}
  {p : Supply F V} {s : System F V} {r after : Roster F} {template : Template F}
  {frame : Frame F V} {frames below below' : List (Frame F V)} {reply reply' : Reply V}
  {result : Reply V × Roster F × Template F} {f : F} {state : SlotState}
  {errors : List LifecycleError} {pending : List WorkerId}

theorem Poised.inspects (poised : Poised sharding t m (some w) p
      (.peek m w (.enter i) :: below) r template)
    (berth : Berth p.system m w i state none) {found : Option Nat}
    (inside : (match state with | .live c => some c | _ => none) = found)
    (seated : ∀ next : System F V, Berth next m w i state none →
      (∀ (c : Nat) (copy : Copy F), p.system.copies[c]? = some copy → copy.worker = w →
        next.copies[c]? = some copy) → Seated next m w (r.find? w)) :
    Ends sharding t m conduct below p (.peeked found,r,template) := by
  have entered : p.system.advance t =
      some ((p.system.mapSlot i ({ · with holder := some t })).setStack t
        (.peek m w (.leave i found) :: below),[]) := by
    subst inside
    simp only [System.advance,poised.stack,System.advancePeek,System.enterSlot?,berth.cell,
      Option.isNone_none,if_true,System.goto]
    cases state <;> rfl
  refine poised.advance entered rfl (poised.shows.mapSlot berth.cell rfl)
    (List.append_nil _).symm fun q keeps poised => ?_
  have again : Berth q.system m w i state (some t) := (berth.mapSlot rfl).keeps (keeps w)
  have left : q.system.advance t = some ((q.system.leaveSlot i).setStack t
      (resume (.peeked found) below).1,[] ++ (resume (.peeked found) below).2) := by
    simp only [System.advance,poised.stack,System.advancePeek,System.answer]
  have shows : Shows sharding t m (some w) (q.system.leaveSlot i) r :=
    poised.shows.mapSlot again.cell rfl
  have settled : Seated (q.system.leaveSlot i) m w (r.find? w) :=
    seated _ (again.mapSlot rfl) (keeps w).copies
  exact poised.answer left rfl (shows.settle settled) (List.append_nil _).symm

theorem Poised.peeks (poised : Poised sharding t m none p (.peek m w .look :: below) r template) :
    Ends sharding t m conduct below p
      (.peeked ((r.find? w).join.map (·.1)),r,template) := by
  have looks {i : Nat} (mapped : p.system.slot? m w = some i) : p.system.advance t =
      some (p.system.setStack t (.peek m w (.enter i) :: below),[]) := by
    simp only [System.advance,poised.stack,System.advancePeek,mapped,System.goto]
  have seated := poised.shows.seat w
  generalize held : r.find? w = was at seated
  cases seated with
  | out absent =>
    have looked : p.system.advance t = some (p.system.setStack t
        (resume (.peeked none) below).1,[] ++ (resume (.peeked none) below).2) := by
      simp only [System.advance,poised.stack,System.advancePeek,absent,System.answer]
    exact poised.answer looked rfl poised.shows (List.append_nil _).symm
  | @bare i berth =>
    refine poised.advance (looks berth.mapped) rfl (poised.shows.except w) (List.append_nil _).symm
      fun p keeps poised => ?_
    exact poised.inspects (berth.keeps (keeps w)) rfl fun _ berth _ => held ▸ .bare berth
  | @housed i c f berth copy =>
    refine poised.advance (looks berth.mapped) rfl (poised.shows.except w) (List.append_nil _).symm
      fun p keeps poised => ?_
    have copy := (keeps w).copies c _ copy rfl
    exact poised.inspects (berth.keeps (keeps w)) rfl fun _ berth copies =>
      held ▸ .housed berth (copies c _ copy rfl)

theorem Poised.contains (poised : Poised sharding t m none p (.contains m w :: below) r template) :
    Ends sharding t m conduct below p (.flag (r.find? w).isSome,r,template) := by
  have mapped : (p.system.slot? m w).isSome = (r.find? w).isSome := by
    have seated := poised.shows.seat w
    generalize r.find? w = held at seated
    cases seated with
    | out absent => simp [absent]
    | bare berth | housed berth => simp [berth.mapped]
  have looked : p.system.advance t = some (p.system.setStack t
      (resume (.flag (r.find? w).isSome) below).1,
        [] ++ (resume (.flag (r.find? w).isSome) below).2) := by
    simp only [System.advance,poised.stack,System.answer,mapped]
  exact poised.answer looked rfl poised.shows (List.append_nil _).symm

theorem Poised.loads {left : List Counter} {read : Counters}
    (poised : Poised sharding t m none p (.load m left read none :: below) r template) :
    Ends sharding t m conduct below p (.counters
      (left.foldl (fun cs counter => cs.set counter (r.counters.get counter)) read),
        r,template) := by
  induction left generalizing p read with
  | nil =>
    have looked : p.system.advance t = some (p.system.setStack t (resume (.counters read) below).1,
        [] ++ (resume (.counters read) below).2) := by
      simp only [System.advance,poised.stack,System.answer]
    exact poised.answer looked rfl poised.shows (List.append_nil _).symm
  | cons counter left ih =>
    have value : ((p.system.managers[m]?).map (·.counters.get counter)).getD 0 =
        r.counters.get counter := by
      rw [← poised.shows.counters,System.counters]
      cases p.system.managers[m]? with
      | none => cases counter <;> rfl
      | some manager => rfl
    have loaded : p.system.advance t = some (p.system.setStack t
        (.load m left (read.set counter (r.counters.get counter)) none :: below),[]) := by
      simp only [System.advance,poised.stack,System.goto,value]
    exact poised.advance loaded rfl poised.shows (List.append_nil _).symm
      fun p keeps poised => ih poised

theorem Ends.passes (ends : Ends sharding t m conduct below' p (reply,after,template))
    (same : resume reply below' = resume reply' below) :
    Ends sharding t m conduct below p (reply',after,template) := by
  obtain ⟨now,next,told,leads,turned,silent,poised⟩ := ends
  rw [same] at turned poised
  exact ⟨now,next,told,leads,turned,silent,poised⟩

theorem Ends.continues (ends : Ends sharding t m conduct below' p (reply,after,template))
    (onward : resume reply below' = (frames,[]))
    (rest : ∀ q : Supply F V, Poised sharding t m none q frames after template →
      Ends sharding t m conduct below q result) : Ends sharding t m conduct below p result := by
  obtain ⟨now,next,told,leads,turned,silent,poised⟩ := ends
  rw [onward] at turned poised
  obtain ⟨last,final,said,leads',ended⟩ := rest next poised
  have led : Leads t conduct now next := .turn turned (by simpa using silent) (.refl next)
  exact ⟨last,final,said,leads.trans (led.trans leads'),ended⟩

theorem Poised.sweeps (poised : Poised sharding t m none p frames r template)
    (next : nextRelease m pending errors below = some frames) :
    Ends sharding t m conduct below p ((Roster.sweep conduct pending errors r).1,
      (Roster.sweep conduct pending errors r).2,template) := by
  induction pending generalizing p frames r errors with
  | nil =>
    obtain rfl : .releaseAllLog m errors :: below = frames := by
      simp only [nextRelease] at next
      split at next
      next => cases next
      next => exact Option.some.inj next
    have logged : p.system.advance t = some (p.system.setStack t (resume (.errors errors) below).1,
        [.logged (.releaseAllFailed (p.system.name m) errors.length)] ++
          (resume (.errors errors) below).2) := by
      simp only [System.advance,poised.stack,System.answer]
    exact poised.answer logged rfl poised.shows (List.append_nil _).symm
  | cons w rest ih =>
    cases next
    have goes {reply : Reply V} {gone : Roster F} {found : List LifecycleError}
        (ends : Ends sharding t m conduct (.releaseAll m rest errors :: below) p
          (reply,gone,template))
        (same : resume reply (.releaseAll m rest errors :: below) =
          (nextRelease m rest found below).elim (resume (.errors found) below) (·,[])) :
        Ends sharding t m conduct below p ((Roster.sweep conduct rest found gone).1,
          (Roster.sweep conduct rest found gone).2,template) := by
      cases following : nextRelease m rest found below with
      | none =>
        rw [following] at same
        cases rest with
        | nil => exact ends.passes same
        | cons v rest => cases following
      | some frames =>
        rw [following] at same
        exact ends.continues same fun q poised => ih poised following
    have ends : Ends sharding t m conduct _ p _ := poised.releases
    unfold Roster.sweep
    generalize r.release w conduct = released at ends ⊢
    obtain ⟨reply,gone⟩ := released
    cases reply with
    | panicked message => exact ends.passes rfl
    | failed e => exact goes ends rfl
    | _ => exact goes ends rfl

theorem shardWorkers_eq (shows : Shows sharding t m none s r) (shard : Nat) :
    s.shardWorkers m shard = r.workers.filter fun w => (sharding.shardOf w).val = shard := by
  obtain rfl := shows.sharding
  rw [← shows.roll,System.roll,System.shardWorkers]
  cases s.managers[m]? <;> rfl

theorem Poised.surveys {purpose : SurveyPurpose} {shard : Nat} {seen : List WorkerId}
    (poised : Poised sharding t m none p (.survey m purpose shard seen :: below) r template)
    (within : shard < sharding.count) (met : seen = (List.range shard).flatMap fun k =>
      r.workers.filter fun w => (sharding.shardOf w).val = k)
    (rest : ∀ (q : Supply F V) (shard : Nat) (seen : List WorkerId),
      ¬ shard + 1 < q.system.sharding.count →
      seen ++ q.system.shardWorkers m shard = sharding.walk r.workers →
      Poised sharding t m none q (.survey m purpose shard seen :: below) r template →
      Ends sharding t m conduct below q result) : Ends sharding t m conduct below p result := by
  induction gap : sharding.count - shard generalizing p shard seen with
  | zero => omega
  | succ gap ih =>
    have here := shardWorkers_eq poised.shows shard
    have more : seen ++ p.system.shardWorkers m shard = (List.range (shard + 1)).flatMap fun k =>
        r.workers.filter fun w => (sharding.shardOf w).val = k := by
      simp [List.range_succ,met,here]
    by_cases last : shard + 1 < sharding.count
    · have walked : p.system.advance t = some (p.system.setStack t (.survey m purpose (shard + 1)
          (seen ++ p.system.shardWorkers m shard) :: below),[]) := by
        simp only [System.advance,poised.stack,System.advanceSurvey,poised.shows.sharding,last,
          if_true,System.goto]
      refine poised.advance walked rfl poised.shows (List.append_nil _).symm
        fun p keeps poised => ih poised last more (by omega)
    · refine rest p shard seen (by rwa [poised.shows.sharding]) ?_ poised
      rw [more,show shard + 1 = sharding.count by omega]
      rfl

theorem Poised.discards {fault : Fault} (poised : Poised sharding t m none p
      (.processLogFailure m w c fault :: below) r template) :
    Ends sharding t m conduct below p
      (match r.release w conduct with
      | (.panicked message,gone) => (.panicked message,gone,template)
      | (_,gone) => (.fault fault,gone,template)) := by
  have logged : p.system.advance t = some (p.system.setStack t
      (.release m w .unregister :: .processRelease m w fault :: below),
        [.logged (.processFailed (p.system.name m) w (c + 1) fault.message)]) := by
    simp only [System.advance,poised.stack,System.goto]
  refine poised.advance logged rfl poised.shows (List.append_nil _).symm fun p keeps poised => ?_
  have ends : Ends sharding t m conduct _ p _ := poised.releases
  generalize r.release w conduct = released at ends ⊢
  obtain ⟨reply,gone⟩ := released
  cases reply with
  | panicked message => exact ends.passes rfl
  | failed e =>
    refine ends.continues rfl fun p poised => ?_
    have told : p.system.advance t = some (p.system.setStack t (resume (.fault fault) below).1,
        [.logged (.teardownAfterFailure (p.system.name m) w e)] ++
          (resume (.fault fault) below).2) := by
      simp only [System.advance,poised.stack,System.answer]
    exact poised.answer told rfl poised.shows (List.append_nil _).symm
  | _ => exact ends.passes rfl

theorem Poised.works (poised : Poised sharding t m none p
      (.processBody m w (.claim c) :: below) r template)
    (known : r.find? w = some (some (c,f))) :
    Ends sharding t m conduct below p
      ((r.work w (c,f) conduct).1,(r.work w (c,f) conduct).2,template) := by
  have seated := poised.shows.seat w
  rw [known] at seated
  obtain ⟨i,berth,there⟩ : ∃ i, Berth p.system m w i (.live c) none ∧
      p.system.copies[c]? = some ⟨m,w,f,true,none⟩ := by
    cases seated with
    | housed berth copy => exact ⟨_,berth,copy⟩
  have claimed : p.system.advance t =
      some ((p.system.mapCopy c ({ · with holder := some t })).setStack t
        (.processBody m w (.running c) :: below),[.hookStarted .body c]) := by
    simp only [System.advance,poised.stack,System.claimCopy?,there,Option.isNone_none,if_true,
      Option.map_some,System.goto]
  have shows : Shows sharding t m (some w) (p.system.mapCopy c ({ · with holder := some t })) r :=
    (poised.shows.except w).mapCopy there rfl fun _ => ⟨rfl,id⟩
  have shows : Shows sharding t m (some w) _ (r.ran .body c) := shows.ran c (by decide)
  refine poised.advance claimed rfl shows rfl
    fun p keeps poised => ?_
  have berth := (berth.mapCopy c _).keeps (keeps w)
  have there : p.system.copies[c]? = some ⟨m,w,f,true,some t⟩ :=
    (keeps w).copies c _ (System.getElem?_mapCopy _ there) rfl
  unfold Roster.work
  generalize ended : conduct.body f = result
  obtain ⟨value,outcome⟩ := result
  refine poised.concludes rfl there ended (poised.shows.mapCopy there rfl fun _ => ⟨rfl,id⟩) rfl
    fun p keeps poised => ?_
  have berth := (berth.mapCopy c _).keeps (keeps w)
  have there : p.system.copies[c]? = some ⟨m,w,value,true,some t⟩ :=
    (keeps w).copies c _ (System.getElem?_mapCopy _ there) rfl
  have yielded : Shows sharding t m none (p.system.yieldCopy c)
      ((r.ran .body c).put w (c,value)) := by
    have shows : Shows sharding t m (some w) (p.system.yieldCopy c) (r.ran .body c) :=
      poised.shows.mapCopy there rfl fun _ => ⟨rfl,id⟩
    refine (shows.put (c,value)).settle ?_
    have left : ((r.ran .body c).put w (c,value)).find? w = some (some (c,value)) := by
      simp [Roster.find?_put,known]
    rw [left]
    exact .housed (berth.mapCopy c _) (System.getElem?_mapCopy _ there)
  have answers {reply : Reply V} (advanced : p.system.advance t = some
      ((p.system.yieldCopy c).setStack t (resume reply below).1,[] ++ (resume reply below).2)) :
      Ends sharding t m conduct below p (reply,(r.ran .body c).put w (c,value),template) :=
    poised.answer advanced rfl yielded (List.append_nil _).symm
  cases outcome with
  | returned v =>
    exact answers (by
      simp only [System.advance,poised.stack,Frame.ended,System.answer])
  | panicked message =>
    exact answers (by
      simp only [System.advance,poised.stack,Frame.ended,System.answer])
  | failed fault =>
    have failed : p.system.advance t = some ((p.system.yieldCopy c).setStack t
        (.processLogFailure m w c fault :: below),[]) := by
      simp only [System.advance,poised.stack,Frame.ended,System.goto]
    refine poised.advance failed rfl yielded (List.append_nil _).symm fun p keeps poised => ?_
    have ends : Ends sharding t m conduct below p _ := poised.discards
    dsimp only
    generalize Roster.release ((r.ran .body c).put w (c,value)) w conduct = released at ends ⊢
    obtain ⟨reply,gone⟩ := released
    cases reply <;> exact ends

theorem Poised.surveyed {purpose : SurveyPurpose} (reply : Reply V)
    (poised : Poised sharding t m none p (.survey m purpose 0 [] :: below) r template)
    (said : ∀ (s : System F V) (shard : Nat) (seen : List WorkerId),
      ¬ shard + 1 < s.sharding.count → seen ++ s.shardWorkers m shard = sharding.walk r.workers →
      s.advanceSurvey t m purpose shard seen below = s.answer t reply below) :
    Ends sharding t m conduct below p (reply,r,template) := by
  refine poised.surveys (sharding.shardOf default).pos rfl fun p shard seen last walked poised => ?_
  have answered : p.system.advance t = some (p.system.setStack t (resume reply below).1,
      [] ++ (resume reply below).2) := by
    simp only [System.advance,poised.stack,said p.system shard seen last walked,System.answer]
  exact poised.answer answered rfl poised.shows (List.append_nil _).symm

theorem Poised.releasesAll
    (poised : Poised sharding t m none p (.survey m .releaseAll 0 [] :: below) r template) :
    Ends sharding t m conduct below p ((Roster.sweep conduct (sharding.walk r.workers) [] r).1,
      (Roster.sweep conduct (sharding.walk r.workers) [] r).2,template) := by
  refine poised.surveys (sharding.shardOf default).pos rfl fun p shard seen last walked poised => ?_
  cases next : nextRelease m (sharding.walk r.workers) [] below with
  | none =>
    have answered : p.system.advance t = some (p.system.setStack t (resume (.errors []) below).1,
        [] ++ (resume (.errors []) below).2) := by
      simp only [System.advance,poised.stack,System.advanceSurvey,last,if_false,walked,next,
        System.answer]
    have empty : sharding.walk r.workers = [] := by
      cases workers : sharding.walk r.workers with
      | nil => rfl
      | cons w rest =>
        rw [workers] at next
        cases next
    rw [empty]
    exact poised.answer answered rfl poised.shows (List.append_nil _).symm
  | some frames =>
    have goes : p.system.advance t = some (p.system.setStack t frames,[]) := by
      simp only [System.advance,poised.stack,System.advanceSurvey,last,if_false,walked,next,
        System.goto]
    exact poised.advance goes rfl poised.shows (List.append_nil _).symm
      fun p keeps poised => poised.sweeps next

theorem Poised.processes
    (poised : Poised sharding t m none p (.get m w .look :: .processGet m w :: below) r template) :
    Ends sharding t m conduct below p (r.answer sharding template conduct (.process w)) := by
  have ends : Ends sharding t m conduct _ p _ := poised.gets
  simp only [Roster.answer]
  generalize obtained : r.obtain w template conduct = result at ends ⊢
  obtain ⟨result,after,next⟩ := result
  cases result with
  | ok copy =>
    exact ends.continues rfl fun p poised => poised.works (Roster.find?_obtain obtained)
  | error reply =>
    obtain ⟨e,rfl⟩ | ⟨message,rfl⟩ := Roster.obtain_error obtained <;> exact ends.passes rfl

/-- Each kind of call ends with the answer and the roster that the roster's own account of it
gives. -/
theorem Poised.ends (ask : Ask)
    (poised : Poised sharding t m none p (System.firstFrames (ask.call m) []) r template) :
    Ends sharding t m conduct [] p (r.answer sharding template conduct ask) := by
  cases ask with
  | get w => exact poised.gets
  | peek w => exact poised.peeks
  | process w => exact poised.processes
  | release w => exact poised.releases
  | releaseAll => exact poised.releasesAll
  | contains w => exact poised.contains
  | workers =>
    refine poised.surveyed _ fun s shard seen last walked => ?_
    simp only [System.advanceSurvey,last,if_false,walked]
  | len =>
    refine poised.surveyed _ fun s shard seen last walked => ?_
    simp only [System.advanceSurvey,last,if_false,walked,(sharding.walk_perm r.workers).length_eq]
  | isEmpty =>
    refine poised.surveyed _ fun s shard seen last walked => ?_
    have same : (sharding.walk r.workers).isEmpty = r.workers.isEmpty := by
      rw [Bool.eq_iff_iff,List.isEmpty_iff,List.isEmpty_iff,← List.length_eq_zero_iff,
        (sharding.walk_perm r.workers).length_eq,List.length_eq_zero_iff]
    simp only [System.advanceSurvey,last,if_false,walked,same]
  | counters => exact poised.loads

theorem Ends.served (ends : Ends sharding t m conduct [] p result) :
    ∃ enough next, (∀ fuel, enough ≤ fuel → p.serve? t conduct fuel = some (result.1,next)) ∧
      Poised sharding t m none next [] result.2.1 result.2.2 := by
  obtain ⟨now,next,told,leads,turned,silent,poised⟩ := ends
  have alone : resume result.1 ([] : List (Frame F V)) = ([],[.returned result.1]) := by
    cases result.1 <;> rfl
  rw [alone] at turned poised
  have answered : (told ++ [Event.returned result.1]).findSome? Event.reply? = some result.1 := by
    rw [List.findSome?_append,silent]
    rfl
  obtain ⟨enough,served⟩ := leads.serve turned answered
  exact ⟨enough,next,served,poised⟩

theorem Poised.called (poised : Poised sharding t m none p [] r template) (call : Call) :
    ∃ next, p.act t (.call call) = some (next,[.called call]) ∧
      Poised sharding t m none next (System.firstFrames call []) r template := by
  have opened : p.system.isOpen t = true := by
    simp [System.isOpen,poised.stack,poised.shows.room]
  have acted : p.act t (.call call) = some (⟨p.system.setStack t (System.firstFrames call []),
      template,p.seen ++ [.called call]⟩,[.called call]) := by
    simp [act,System.step,opened,System.goto,poised.stack,poised.template]
  exact ⟨_,acted,poised.to poised.shows (List.append_nil _).symm _ template⟩

/-- A thread that has a manager to itself gets the answers that the roster gives, and every call
is answered in a bounded number of steps. -/
theorem Poised.converses (errands : List (Errand F V))
    (poised : Poised sharding t m none p [] r template) :
    ∃ enough last, (∀ fuel, enough ≤ fuel → p.converse? t m fuel errands =
        some ((Roster.converse sharding errands r template).1,last)) ∧
      Poised sharding t m none last [] (Roster.converse sharding errands r template).2.1
        (Roster.converse sharding errands r template).2.2 := by
  induction errands generalizing p r template with
  | nil => exact ⟨0,p,fun _ _ => rfl,poised⟩
  | cons errand rest ih =>
    obtain ⟨called,acted,poised⟩ := poised.called (errand.ask.call m)
    have ends : Ends sharding t m errand.conduct [] called _ := poised.ends errand.ask
    obtain ⟨first,next,served,poised⟩ := ends.served
    obtain ⟨more,last,conversed,poised⟩ := ih poised
    refine ⟨max first more,last,fun fuel enough => ?_,poised⟩
    have served := served fuel (le_of_max_le_left enough)
    have conversed := conversed fuel (le_of_max_le_right enough)
    simp [converse?,acted,served,conversed,Roster.converse]

/-- What holds of one call holds of a conversation, by induction on its calls. -/
theorem Poised.settles (poised : Poised sharding t m none p [] r template)
    {errands : List (Errand F V)} {replies : List (Reply V)} {last : Supply F V}
    (conversed : p.Converses t m errands replies last) :
    replies = (Roster.converse sharding errands r template).1 ∧
      Poised sharding t m none last [] (Roster.converse sharding errands r template).2.1
        (Roster.converse sharding errands r template).2.2 := by
  obtain ⟨enough,final,served,settled⟩ := poised.converses errands
  obtain ⟨same,rfl⟩ := conversed.unique ⟨enough,served enough le_rfl⟩
  exact ⟨same,settled⟩

/-- What is to be seen of a manager, its map walked in the order of registration. -/
def roster (m : Nat) (p : Supply F V) : Roster F where
  name := p.system.name m
  entries := ((p.system.managers[m]?).map fun manager =>
    manager.slots.map fun (w,i) => (w,p.system.lodger? i)).getD []
  made := p.system.copies.toList.map (·.worker)
  counters := p.system.counters m
  hooks := hooksRun p.seen

def fresh (sharding : Sharding) (names : List String) (threads : Nat) (template : Template F) :
    Supply F V where
  system := .idle sharding names threads
  template := template

theorem entries_eq {first second : List (WorkerId × Option (Nat × F))}
    (keys : first.map (·.1) = second.map (·.1)) (nodup : (second.map (·.1)).Nodup)
    (same : ∀ w, first.lookup w = second.lookup w) : first = second := by
  induction first generalizing second with
  | nil => simpa using keys.symm
  | cons entry rest ih =>
    obtain ⟨w,held⟩ := entry
    cases second with
    | nil => cases keys
    | cons entry' rest' =>
      obtain ⟨v,held'⟩ := entry'
      obtain ⟨own,tails⟩ : w = v ∧ rest.map (·.1) = rest'.map (·.1) := List.cons.inj keys
      subst own
      obtain rfl : held = held' := by simpa using same w
      obtain ⟨once,nodup⟩ := List.nodup_cons.mp nodup
      rw [ih tails nodup fun v => ?_]
      by_cases own : v = w
      · subst own
        rw [Roster.lookup_of_not_mem once,Roster.lookup_of_not_mem (tails ▸ once)]
      · have apart : (v == w) = false := by simpa using own
        simpa [List.lookup_cons,apart] using same v

theorem Poised.roster_eq (poised : Poised sharding t m none p [] r template) : p.roster m = r := by
  obtain ⟨shows,_,seen,_⟩ := poised
  have entries : (p.roster m).entries = r.entries := by
    refine entries_eq ?_ shows.nodup fun w => ?_
    · refine Eq.trans ?_ shows.roll
      rw [roster,System.roll]
      cases p.system.managers[m]? with
      | none => rfl
      | some manager => simp [Function.comp_def]
    · have found : (p.roster m).entries.lookup w = (p.system.slot? m w).map p.system.lodger? := by
        rw [roster,System.slot?]
        cases p.system.managers[m]? with
        | none => rfl
        | some manager => exact Roster.lookup_map_snd _ _ _
      have seated := shows.seat w
      rw [found,← Roster.find?]
      generalize r.find? w = held at seated
      cases seated with
      | out missing => simp [missing]
      | bare berth => simp [berth.mapped,System.lodger?,berth.cell]
      | housed berth copy => simp [berth.mapped,System.lodger?,berth.cell,copy]
  obtain ⟨name,registered,made,counters,hooks⟩ := r
  simp only [roster,Roster.mk.injEq] at entries ⊢
  exact ⟨shows.name,entries,shows.made,shows.counters,seen⟩

theorem poised_fresh (sharding : Sharding) {names : List String} {threads : Nat}
    (template : Template F) (room : t < threads) (present : m < names.length) :
    Poised sharding t m none (fresh sharding names threads template : Supply F V) []
      { name := names[m] } template where
  shows := {
    room := by simpa [fresh,System.idle] using room
    bound := by simpa [fresh,System.idle,System.start] using present
    sharding := rfl
    name := by simp [fresh,System.idle,System.start,System.name,present]
    roll := by simp [fresh,System.idle,System.start,System.roll,present,Roster.workers]
    nodup := List.nodup_nil
    counters := by simp [fresh,System.idle,System.start,System.counters,present]
    made := rfl
    spent := nofun
    seated := fun v _ =>
      .out (by simp [fresh,System.idle,System.start,System.slot?,present,Manager.slot?]) }
  stack := by simp [fresh,System.idle,System.stack,Array.getD_eq_getD_getElem?,room]
  seen := rfl
  template := rfl

end Supply
end PerWorker
