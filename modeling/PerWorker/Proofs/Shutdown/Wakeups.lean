import Mathlib.Data.List.Induction
import PerWorker.Shutdown.Latch

/-!
No waiter at a latch sleeps through the end of the last task. A waiter listens before it looks, so
whoever takes the last task off the count after the look still owes a notification that reaches
it. The one exception is a count that wraps around to zero while the waiter sleeps, for as long as it
stays zero: nobody finished, and nobody notifies.
-/
namespace PerWorker.Gathering

variable {past : List Move} {g h : Gathering} {move : Move} {i : Nat} {n : UInt64}
  {waiter : Waiter}

/-- What stands around a new latch after these moves, if each of them was open in its turn. -/
def after (past : List Move) : Option Gathering := past.foldlM step {}

/-- The tasks under way after one move more: never fewer than none, and up to the largest word. -/
def Move.count (tasks : Nat) : Move → Nat
  | .add n => (tasks + n.toNat) % UInt64.size
  | .finish => tasks - 1
  | _ => tasks

def underway (past : List Move) : Nat := past.foldl Move.count 0

/-- While waiter `i` slept, tasks were added to some that were under way, the count came out as zero,
and it has stayed zero since. -/
def Wrapped (past : List Move) (i since : Nat) : Prop :=
  ∃ before n rest h, past = before ++ .add n :: rest ∧ after before = some h ∧
    h.waiters[i]? = some (.asleep since) ∧ h.latch.pending ≠ 0 ∧
    ∀ more, more <+: rest →
      (after (before ++ .add n :: more)).map (·.latch.pending) = some 0

def Looked (past : List Move) (i : Nat) : Prop :=
  ∃ before rest h since, past = before ++ .wait i :: rest ∧ after before = some h ∧
    h.waiters[i]? = some (.listening since) ∧ h.latch.pending = 0

def Assured (past : List Move) (g : Gathering) (i : Nat) : Waiter → Prop
  | .fresh => True
  | .listening since => since ≤ g.latch.notifications
  | .asleep since => since ≤ g.latch.notifications ∧
      (g.latch.pending = 0 → since < g.latch.notifications ∨ 0 < g.owing ∨ Wrapped past i since)
  | .satisfied => Looked past i

theorem after_concat (past : List Move) (move : Move) :
    after (past ++ [move]) = (after past).bind (·.step move) := by
  simp [after,List.foldlM_append]

theorem after_induct {P : List Move → Gathering → Prop} (fresh : P [] {})
    (next : ∀ past g move h, after past = some g → g.step move = some h → P past g →
      P (past ++ [move]) h) (reached : after past = some g) : P past g := by
  induction past using List.reverseRecOn generalizing g with
  | nil =>
    obtain rfl : {} = g := by simpa [after] using reached
    exact fresh
  | append_singleton past move ih =>
    rw [after_concat] at reached
    obtain ⟨before,earlier,stepped⟩ := Option.bind_eq_some_iff.mp reached
    exact next past before move g earlier stepped (ih earlier)

theorem Wrapped.later {since : Nat} (wrapped : Wrapped past i since)
    (reached : after (past ++ [move]) = some h) (zero : h.latch.pending = 0) :
    Wrapped (past ++ [move]) i since := by
  obtain ⟨before,n,rest,g,rfl,earlier,there,some,stays⟩ := wrapped
  refine ⟨before,n,rest ++ [move],g,by simp,earlier,there,some,fun more within => ?_⟩
  obtain rfl | within := List.prefix_concat_iff.mp within
  · have whole : before ++ .add n :: (rest ++ [move]) = before ++ .add n :: rest ++ [move] := by simp
    rw [whole,reached,Option.map_some,zero]
  · exact stays more within

theorem Looked.later (looked : Looked past i) (move : Move) : Looked (past ++ [move]) i := by
  obtain ⟨before,rest,h,since,rfl,there⟩ := looked
  exact ⟨before,rest ++ [move],h,since,by simp,there⟩

/-- A move that leaves the latch alone takes nothing from a waiter. -/
theorem Assured.aside (assured : Assured past g i waiter)
    (reached : after (past ++ [move]) = some h) (latch : h.latch = g.latch)
    (owing : h.owing = g.owing) : Assured (past ++ [move]) h i waiter := by
  cases waiter with
  | fresh => trivial
  | listening since => simpa [Assured,latch] using assured
  | asleep since =>
    obtain ⟨heard,told⟩ := assured
    refine ⟨latch ▸ heard,fun zero => ?_⟩
    have told := told (latch ▸ zero)
    rw [latch,owing]
    exact told.imp_right (Or.imp_right (Wrapped.later · reached zero))
  | satisfied => exact Looked.later assured move

theorem Assured.add (assured : Assured past g i waiter) (reached : after past = some g)
    (there : g.waiters[i]? = some waiter)
    (next : after (past ++ [.add n]) = some { g with latch := g.latch.add n }) :
    Assured (past ++ [.add n]) { g with latch := g.latch.add n } i waiter := by
  cases waiter with
  | fresh => trivial
  | listening since => exact assured
  | asleep since =>
    obtain ⟨heard,told⟩ := assured
    refine ⟨heard,fun zero => ?_⟩
    by_cases none : g.latch.pending = 0
    · exact (told none).imp_right (Or.imp_right (Wrapped.later · next zero))
    · refine .inr (.inr ⟨past,n,[],g,rfl,reached,there,none,fun more within => ?_⟩)
      obtain rfl := List.prefix_nil.mp within
      rw [next,Option.map_some,zero]
  | satisfied => exact Looked.later assured _

/-- A task that ends and brings the count to zero owes all sleeping waiters a notification. -/
theorem Assured.finish (assured : Assured past g i waiter)
    (next : after (past ++ [.finish]) = some
      { g with latch := g.latch.finish.1,
               owing := g.owing + if g.latch.finish.2 then 1 else 0 }) :
    Assured (past ++ [.finish])
      { g with latch := g.latch.finish.1,
               owing := g.owing + if g.latch.finish.2 then 1 else 0 } i waiter := by
  by_cases none : g.latch.pending = 0
  · rw [Latch.finish_zero _ none] at next ⊢
    exact assured.aside next rfl rfl
  have notified : g.latch.finish.1.notifications = g.latch.notifications := by
    simp [Latch.finish,none]
  cases waiter with
  | fresh => trivial
  | listening since => simpa [Assured,notified] using assured
  | asleep since =>
    refine ⟨notified ▸ assured.1,fun zero => .inr (.inl ?_)⟩
    -- the count has just come to zero: whoever brought it there owes a notification
    have last : g.latch.finish.2 = true := by
      rw [Latch.finish_last,← UInt64.toNat_inj]
      have left := Latch.pending_finish g.latch
      rw [zero] at left
      have some : g.latch.pending.toNat ≠ 0 := fun no => none (UInt64.toNat_inj.mp no)
      simp at left ⊢
      omega
    simp [last]
  | satisfied => exact Looked.later assured _

theorem Assured.notify (assured : Assured past g i waiter) :
    Assured (past ++ [.notify]) { g with latch := g.latch.notify, owing := g.owing - 1 } i
      waiter := by
  cases waiter with
  | fresh => trivial
  | listening since => exact Nat.le_succ_of_le assured
  | asleep since => exact ⟨Nat.le_succ_of_le assured.1,fun _ => .inl (Nat.lt_succ_of_le assured.1)⟩
  | satisfied => exact Looked.later assured _

theorem Assured.wait {next : Waiter} (assured : Assured past g i waiter)
    (reached : after past = some g) (there : g.waiters[i]? = some waiter)
    (stepped : waiter.step g.latch = some next) (same : h.latch = g.latch) :
    Assured (past ++ [.wait i]) h i next := by
  cases waiter with
  | fresh =>
    obtain rfl : .listening g.latch.notifications = next := by simpa [Waiter.step] using stepped
    simp [Assured,same]
  | listening since =>
    by_cases none : g.latch.pending = 0
    · obtain rfl : .satisfied = next := by simpa [Waiter.step,none] using stepped
      exact ⟨past,[],g,since,rfl,reached,there,none⟩
    · obtain rfl : .asleep since = next := by simpa [Waiter.step,none] using stepped
      exact ⟨same ▸ assured,fun zero => absurd (same ▸ zero) none⟩
  | asleep since =>
    obtain ⟨-,rfl⟩ : since < g.latch.notifications ∧ .fresh = next := by
      simpa [Waiter.step] using stepped
    trivial
  | satisfied => simp [Waiter.step] at stepped

theorem step_assured (reached : after past = some g) (stepped : g.step move = some h)
    (assured : ∀ i waiter, g.waiters[i]? = some waiter → Assured past g i waiter) :
    ∀ i waiter, h.waiters[i]? = some waiter → Assured (past ++ [move]) h i waiter := by
  intro i waiter there
  have now : after (past ++ [move]) = some h := by rw [after_concat,reached,Option.bind_some,stepped]
  cases move with
  | add n =>
    obtain rfl : { g with latch := g.latch.add n } = h := by simpa [step] using stepped
    exact (assured i waiter there).add reached there now
  | finish =>
    obtain rfl := Option.some_inj.mp stepped
    exact (assured i waiter there).finish now
  | notify =>
    obtain ⟨-,rfl⟩ : 0 < g.owing ∧
        { g with latch := g.latch.notify, owing := g.owing - 1 } = h := by
      simpa [step] using stepped
    exact (assured i waiter there).notify
  | join =>
    obtain rfl : { g with waiters := g.waiters ++ [.fresh] } = h := by simpa [step] using stepped
    rw [List.getElem?_append] at there
    split at there
    · exact (assured i waiter there).aside now rfl rfl
    · obtain rfl := List.mem_singleton.mp (List.mem_of_getElem? there)
      trivial
  | wait j =>
    cases found : (g.waiters[j]?).bind (·.step g.latch) with
    | none => simp [step,found] at stepped
    | some next =>
      obtain rfl : { g with waiters := g.waiters.set j next } = h := by
        simpa [step,found] using stepped
      -- Other waiters stay as they are while one of them moves.
      by_cases own : j = i
      · subst own
        obtain ⟨before,before_there,taken⟩ := Option.bind_eq_some_iff.mp found
        obtain ⟨-,rfl⟩ : j < g.waiters.length ∧ next = waiter := by
          simpa [List.getElem?_set] using there
        exact (assured j before before_there).wait reached before_there taken rfl
      · rw [List.getElem?_set_ne own] at there
        exact (assured i waiter there).aside now rfl rfl

theorem after_assured (reached : after past = some g) :
    ∀ i waiter, g.waiters[i]? = some waiter → Assured past g i waiter := by
  apply after_induct (P := fun past g => ∀ i waiter, g.waiters[i]? = some waiter →
    Assured past g i waiter) _ _ reached
  · simp
  · exact fun past g move h reached stepped ih => step_assured reached stepped ih

theorem step_count (stepped : g.step move = some h) :
    h.latch.pending.toNat = move.count g.latch.pending.toNat := by
  cases move with
  | add n =>
    obtain rfl := Option.some_inj.mp stepped
    exact UInt64.toNat_add ..
  | finish =>
    obtain rfl := Option.some_inj.mp stepped
    exact g.latch.pending_finish
  | notify =>
    obtain ⟨-,rfl⟩ : 0 < g.owing ∧
        { g with latch := g.latch.notify, owing := g.owing - 1 } = h := by
      simpa [step] using stepped
    rfl
  | join =>
    obtain rfl := Option.some_inj.mp stepped
    rfl
  | wait j =>
    cases found : (g.waiters[j]?).bind (·.step g.latch) with
    | none => simp [step,found] at stepped
    | some next =>
      obtain rfl : { g with waiters := g.waiters.set j next } = h := by
        simpa [step,found] using stepped
      rfl

theorem after_count (reached : after past = some g) : g.latch.pending.toNat = underway past := by
  apply after_induct (P := fun past g => g.latch.pending.toNat = underway past) _ _ reached
  · rfl
  · intro past g move h _ stepped ih
    rw [step_count stepped,ih]
    simp [underway]

/-- The count never falls below zero. Who sleeps while it is zero is about to be notified or has
been, unless the count wrapped around to zero while it slept and has stayed there; and who is
satisfied has seen it at zero. -/
theorem no_lost_wakeup {past : List Move} {g : Gathering} (reached : after past = some g) :
    g.latch.pending.toNat = underway past ∧
      (∀ i since, g.waiters[i]? = some (.asleep since) → g.latch.pending = 0 →
        since < g.latch.notifications ∨ 0 < g.owing ∨ Wrapped past i since) ∧
      ∀ i, g.waiters[i]? = some .satisfied → Looked past i := by
  have assured := after_assured reached
  refine ⟨after_count reached,fun i since there => ?_,fun i there => assured i _ there⟩
  exact (assured i _ there).2

/-- A stray task, two waiters, and a count that comes to zero, up and to zero again before anyone is
notified. -/
def rush : List Move :=
  [.finish,.add 2,.join,.join,.wait 0,.wait 0,.finish,.finish,.wait 1,.add 1,.finish,.wait 1]

theorem no_lost_wakeup_of_rush : ∃ g, after rush = some g ∧
    g.waiters = [.asleep 0,.satisfied] ∧ g.latch.pending = 0 ∧ g.owing = 2 ∧
    (∀ since, g.waiters[0]? = some (.asleep since) →
      since < g.latch.notifications ∨ 0 < g.owing ∨ Wrapped rush 0 since) ∧ Looked rush 1 := by
  have reached : after rush = some ⟨⟨0,0⟩,2,[.asleep 0,.satisfied]⟩ := by decide
  obtain ⟨-,told,looked⟩ := no_lost_wakeup reached
  exact ⟨_,reached,rfl,rfl,rfl,fun since there => told 0 since there rfl,looked 1 rfl⟩

/-- Once the count has wrapped around to zero, a sleeper is left without anyone to wake it. -/
theorem sleeper_left_by_wrapping :
    ¬∀ (past : List Move) (g : Gathering) (i since : Nat), after past = some g →
      g.waiters[i]? = some (.asleep since) → g.latch.pending = 0 →
        since < g.latch.notifications ∨ 0 < g.owing := by
  intro awaited
  have reached : after [.add 18446744073709551615,.join,.wait 0,.wait 0,.add 1] =
      some ⟨⟨0,0⟩,0,[.asleep 0]⟩ := by decide
  have told := awaited _ _ 0 0 reached rfl rfl
  exact absurd told (by decide)

end PerWorker.Gathering
