import PerWorker.Proofs.Lifecycle.Sweeps

/-!
What panics leave behind for a thread that has a manager to itself. A panic leaves the call, and the
manager goes on without a copy that was being made and without the workers that were on their way
out. Main statement: this is so in every state that calls lead to, panics in earlier ones included.
-/
namespace PerWorker

namespace Roster

variable {F V : Type}

def copies (r : Roster F) : List (Nat × F) := r.entries.filterMap (·.2)

variable {r after : Roster F} {w v : WorkerId} {c : Nat} {f value : F} {template next : Template F}
  {conduct : Conduct F V} {reply : Reply V} {sharding : Sharding} {copy : Nat × F}
  {message : String} {ws : List WorkerId}

end Roster
namespace Supply

variable {F V : Type} {sharding : Sharding} {names : List String} {threads t m : Nat}
  {w : WorkerId} {template : Template F} {conduct : Conduct F V} {p next : Supply F V}
  {errands : List (Errand F V)} {replies : List (Reply V)} {message : String}

/-- A drain that a panic has left. The workers it came to are gone, the one whose teardown panicked
among them; the others keep their copies, and the next drain tears down those. -/
inductive Interrupted (sharding : Sharding) (t m : Nat) (conduct : Conduct F V) (message : String)
    (p next : Supply F V) : Prop
  | mk {done rest : List WorkerId} {w : WorkerId}
      (order : sharding.walk (p.roster m).workers = done ++ w :: rest)
      (calm : ∀ v ∈ done, ∀ message, ¬(p.roster m).Breaks conduct message v)
      (breaks : (p.roster m).Breaks conduct message w)
      (gone : ∀ v ∈ done ++ [w], (next.roster m).find? v = none)
      (kept : ∀ v ∈ rest, (next.roster m).find? v = (p.roster m).find? v)
      (hooks : (next.roster m).hooks =
        (p.roster m).hooks ++ (p.roster m).teardowns (done ++ [w]))
      (later : ∀ conduct' errors last, next.Calls t m .releaseAll conduct' (.errors errors) last →
        (last.roster m).hooks = (next.roster m).hooks ++ (p.roster m).teardowns rest)

theorem Alone.nodup (alone : Alone sharding t m p) : (p.roster m).workers.Nodup :=
  alone.poised.shows.nodup

theorem Alone.walk_nodup (alone : Alone sharding t m p) :
    (sharding.walk (p.roster m).workers).Nodup :=
  (sharding.walk_perm _).nodup_iff.mpr alone.nodup

theorem Alone.halts {reply : Reply V} (alone : Alone sharding t m p)
    (calls : p.Calls t m .releaseAll conduct reply next) :
    ∃ done rest, sharding.walk (p.roster m).workers = done ++ rest ∧
      Roster.Drained done (p.roster m) (next.roster m) ∧
      Roster.Halt conduct (p.roster m) reply done rest := by
  obtain ⟨answered,_⟩ := alone.answered calls
  obtain ⟨done,rest,order,drained,halt⟩ := (p.roster m).swept conduct alone.walk_nodup []
  simp only [Roster.answer,Prod.mk.injEq] at answered
  obtain ⟨told,left,_⟩ := answered
  rw [told] at halt
  rw [left] at drained
  exact ⟨done,rest,order,drained,halt⟩

/-- A drain that answers has released every worker that was registered, each once. -/
theorem Alone.drained (alone : Alone sharding t m p) {errors : List LifecycleError}
    (calls : p.Calls t m .releaseAll conduct (.errors errors) next) :
    Roster.Drained (sharding.walk (p.roster m).workers) (p.roster m) (next.roster m) := by
  obtain ⟨done,rest,order,drained,halt⟩ := alone.halts calls
  cases halt with
  | through =>
    rw [order,List.append_nil]
    exact drained

/-- What a drain that panics leaves undone, the next drain makes up for. -/
theorem Alone.interrupted (alone : Alone sharding t m p)
    (calls : p.Calls t m .releaseAll conduct (.panicked message) next) :
    Interrupted sharding t m conduct message p next := by
  obtain ⟨_,alone'⟩ := alone.answered calls
  obtain ⟨done,rest,order,drained,halt⟩ := alone.halts calls
  cases halt with
  | @broken front w message rest calm breaks =>
    have apart (v : WorkerId) (member : v ∈ rest) : v ∉ front ++ [w] := fun before =>
      (List.nodup_append.mp (order ▸ alone.walk_nodup)).2.2 v before v member rfl
    have kept (v : WorkerId) (member : v ∈ rest) :
        (next.roster m).find? v = (p.roster m).find? v := by
      rw [drained.find? v,if_neg (apart v member)]
    refine .mk (by simpa using order) calm breaks ?_ kept drained.hooks ?_
    · intro v member
      rw [drained.find? v,if_pos member]
    · intro conduct' errors last calls
      have remaining : sharding.walk (next.roster m).workers = rest := by
        have all : rest.filter (· ∉ front ++ [w]) = rest :=
          List.filter_eq_self.mpr fun v member => by simpa using apart v member
        have none : (front ++ [w]).filter (· ∉ front ++ [w]) = [] :=
          List.filter_eq_nil_iff.mpr fun v member kept => of_decide_eq_true kept member
        rw [drained.workers,sharding.walk_filter,order,List.filter_append,all,none,List.nil_append]
      have same : (next.roster m).teardowns rest = (p.roster m).teardowns rest :=
        List.filterMap_congr fun v member => by rw [kept v member]
      rw [(alone'.drained calls).hooks,remaining,same]

end Supply
end PerWorker
