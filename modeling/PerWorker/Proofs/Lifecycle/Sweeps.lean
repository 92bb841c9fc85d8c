import PerWorker.Proofs.Lifecycle.Changes

/-!
Workers released one after the other. Main statement: a drain releases the workers that it visits up
to the first whose teardown hook panics, and leaves the others as they are.
-/
namespace PerWorker
namespace Roster

variable {F V : Type}

def teardowns (r : Roster F) (ws : List WorkerId) : List (Hook × Nat) :=
  ws.filterMap fun w => (r.find? w).join.map fun copy => (.teardown,copy.1)

def Breaks (r : Roster F) (conduct : Conduct F V) (message : String) (w : WorkerId) : Prop :=
  ∃ c f, r.find? w = some (some (c,f)) ∧ (conduct.teardown c f).2 = .panicked message

variable {r after : Roster F} {w : WorkerId} {conduct : Conduct F V} {reply : Reply V}
  {message : String} {ws : List WorkerId}

theorem release_hooks : (r.release w conduct).2.hooks = r.hooks ++ r.teardowns [w] := by
  have released := released r w conduct
  generalize r.release w conduct = result at released
  cases released with
  | empty none => simp [teardowns,none]
  | returned found | failed found | panicked found => simp [teardowns,found]

theorem workers_release : (r.release w conduct).2.workers = r.workers.filter (· ≠ w) := by
  have released := released r w conduct
  generalize r.release w conduct = result at released
  cases released <;> simp [workers_remove]

theorem release_panics (broke : r.release w conduct = (.panicked message,after)) :
    Breaks r conduct message w ∧ ∃ c f, r.find? w = some (some (c,f)) ∧
      after = (r.remove w).ran .teardown c := by
  have released := released r w conduct
  rw [broke] at released
  cases released with
  | @panicked c f message found ended => exact ⟨⟨c,f,found,ended⟩,c,f,found,rfl⟩

theorem release_calm (calm : ∀ message, (r.release w conduct).1 ≠ .panicked message) :
    ∀ message, ¬Breaks r conduct message w := by
  rintro message ⟨c,f,found,ended⟩
  refine calm message ?_
  simp only [release,found,ended]

structure Drained (ws : List WorkerId) (r after : Roster F) : Prop where
  find? : ∀ v, after.find? v = if v ∈ ws then none else r.find? v
  workers : after.workers = r.workers.filter (· ∉ ws)
  made : after.made = r.made
  hooks : after.hooks = r.hooks ++ r.teardowns ws

theorem Drained.nil (r : Roster F) : Drained [] r r := ⟨by simp,by simp,rfl,by simp [teardowns]⟩

/-- One release more at the front of a drain. -/
theorem Drained.cons {gone : Roster F} (released : (r.release w conduct).2 = gone)
    (drained : Drained ws gone after) (once : w ∉ ws) : Drained (w :: ws) r after where
  find? := by
    intro v
    rw [drained.find? v,← released,find?_release]
    by_cases own : v = w <;> simp [own]
  workers := by
    rw [drained.workers,← released,workers_release,List.filter_filter]
    refine List.filter_congr fun v _ => ?_
    by_cases own : v = w <;> simp [own]
  made := by rw [drained.made,← released,made_release]
  hooks := by
    have same : gone.teardowns ws = r.teardowns ws := by
      refine List.filterMap_congr fun v member => ?_
      have other : v ≠ w := fun same => once (same ▸ member)
      rw [← released,find?_release,if_neg other]
    rw [drained.hooks,same,← released,release_hooks,List.append_assoc]
    congr 1
    exact List.filterMap_append.symm

/-- How a drain ends that has released the workers of the first list and not come to those of the
second. -/
inductive Halt (conduct : Conduct F V) (r : Roster F) :
    Reply V → List WorkerId → List WorkerId → Prop
  | through (errors : List LifecycleError) {done : List WorkerId}
      (calm : ∀ v ∈ done, ∀ message, ¬Breaks r conduct message v) :
      Halt conduct r (.errors errors) done []
  | broken {front : List WorkerId} {w : WorkerId} {message : String} (rest : List WorkerId)
      (calm : ∀ v ∈ front, ∀ message, ¬Breaks r conduct message v)
      (breaks : Breaks r conduct message w) :
      Halt conduct r (.panicked message) (front ++ [w]) rest

/-- A release that does not panic takes a drain one worker further towards where it ends. -/
theorem Halt.cons {gone : Roster F} {done rest : List WorkerId}
    (released : (r.release w conduct).2 = gone) (calm : ∀ message, ¬Breaks r conduct message w)
    (once : w ∉ done) (halt : Halt conduct gone reply done rest) :
    Halt conduct r reply (w :: done) rest := by
  have same {v : WorkerId} (other : v ≠ w) (message : String) :
      Breaks gone conduct message v ↔ Breaks r conduct message v := by
    simp only [Breaks,← released,find?_release,if_neg other]
  have all {front : List WorkerId} (apart : w ∉ front)
      (still : ∀ v ∈ front, ∀ message, ¬Breaks gone conduct message v) :
      ∀ v ∈ w :: front, ∀ message, ¬Breaks r conduct message v := by
    rintro v (_ | ⟨_,member⟩) message
    · exact calm message
    · have other : v ≠ w := fun own => apart (own ▸ member)
      exact (same other message).not.mp (still v member message)
  cases halt with
  | through errors still => exact .through errors (all once still)
  | @broken front u message rest still breaks =>
    obtain ⟨apart,own⟩ : w ∉ front ∧ w ≠ u := by simpa using once
    exact .broken rest (all apart still) ((same (Ne.symm own) message).mp breaks)

/-- A drain releases workers up to the first whose teardown panics. -/
theorem swept (r : Roster F) (conduct : Conduct F V) (nodup : ws.Nodup)
    (errors : List LifecycleError) : ∃ done rest, ws = done ++ rest ∧
      Drained done r (sweep conduct ws errors r).2 ∧
      Halt conduct r (sweep conduct ws errors r).1 done rest := by
  induction ws generalizing r errors with
  | nil => exact ⟨[],[],rfl,.nil r,.through errors (by simp)⟩
  | cons w ws ih =>
    obtain ⟨once,nodup⟩ := List.nodup_cons.mp nodup
    generalize released : r.release w conduct = result
    obtain ⟨reply,gone⟩ := result
    have left : (r.release w conduct).2 = gone := by rw [released]
    -- A release that does not panic leaves the sweep to the workers behind it.
    have goes (quiet : ∀ message, reply ≠ .panicked message) (errors' : List LifecycleError) :
        ∃ done rest, w :: ws = done ++ rest ∧ Drained done r (sweep conduct ws errors' gone).2 ∧
          Halt conduct r (sweep conduct ws errors' gone).1 done rest := by
      obtain ⟨done,rest,rfl,drained,halt⟩ := ih gone nodup errors'
      have apart : w ∉ done := fun member => once (List.mem_append_left rest member)
      have calm : ∀ message, ¬Breaks r conduct message w :=
        release_calm (by rw [released]; exact quiet)
      exact ⟨w :: done,rest,rfl,drained.cons left apart,halt.cons left calm apart⟩
    unfold sweep
    rw [released]
    cases reply with
    | panicked message =>
      have halt : Halt conduct r (.panicked message) ([] ++ [w]) ws :=
        .broken ws (by simp) (release_panics released).1
      exact ⟨[w],ws,rfl,(Drained.nil gone).cons left List.not_mem_nil,halt⟩
    | failed e => exact goes (by simp) (errors ++ [e])
    | _ => exact goes (by simp) errors

theorem release_quiet (calm : conduct.Calm) (message : String) :
    (r.release w conduct).1 ≠ .panicked message := by
  have released := released r w conduct
  generalize r.release w conduct = result at released
  cases released with
  | panicked found ended => exact absurd ended (calm _ .teardown _ _)
  | _ => nofun

theorem work_failed {copy : Nat × F} {value : F} {fault : Fault} (calm : conduct.Calm)
    (ended : conduct.body copy.2 = (value,.failed fault)) : r.work w copy conduct =
      (.fault fault,(((r.ran .body copy.1).put w (copy.1,value)).release w conduct).2) := by
  have worked := worked r w conduct copy
  generalize r.work w copy conduct = result at worked ⊢
  cases worked with
  | returned ended' | panicked ended' => cases ended.symm.trans ended'
  | failed ended' released =>
    cases ended.symm.trans ended'
    rw [released]
  | @broke _ _ message _ ended' released =>
    cases ended.symm.trans ended'
    exact absurd (congrArg (·.1) released) (release_quiet calm message)

theorem swept_calm (nodup : ws.Nodup) (calm : conduct.Calm) (errors : List LifecycleError) :
    Drained ws r (sweep conduct ws errors r).2 := by
  obtain ⟨done,rest,rfl,drained,halt⟩ := r.swept conduct nodup errors
  generalize (sweep conduct (done ++ rest) errors r).1 = reply at halt
  cases halt with
  | through => simpa using drained
  | broken _ _ breaks =>
    obtain ⟨c,f,_,ended⟩ := breaks
    exact absurd ended (calm c .teardown f _)

end Roster
end PerWorker
