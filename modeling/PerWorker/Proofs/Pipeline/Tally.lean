import PerWorker.Proofs.Enricher.Verdicts
import PerWorker.Proofs.Pipeline.Cursor

/-!
What bundles count for. Bundles add up in whatever order they are counted. Main statement: a range
of a plan fails if an element of it is rejected, and else counts for its elements and for the bytes
that they are turned into.
-/
namespace PerWorker.Pipeline

/-- What a bundle has coming from the copies of a prototype. -/
def Bundle.verdict (b : Bundle) (p : Enricher) : Except Fault Nat :=
  (p.outcome b.first b.count).mapError (·.fault)

def Bundle.fails (b : Bundle) (p : Enricher) : Bool := !(b.verdict p).isOk

variable {p : Enricher} {b : Bundle} {bytes : Nat} {fault : Fault}

theorem Bundle.fails_of_ok (said : b.verdict p = .ok bytes) : b.fails p = false := by
  rw [fails,said]
  rfl

theorem Bundle.fails_of_error (said : b.verdict p = .error fault) : b.fails p = true := by
  rw [fails,said]
  rfl

def Progress.tally (p : Enricher) (progress : Progress) (b : Bundle) : Progress :=
  match b.verdict p with
  | .ok bytes => progress.countDone b bytes
  | .error _ => progress.countFailed

def Bundle.done (p : Enricher) (b : Bundle) : Nat := if b.fails p then 0 else b.size.toNat

def Bundle.put (p : Enricher) (b : Bundle) : Nat :=
  match b.verdict p with
  | .ok bytes => bytes
  | .error _ => 0

/-- Bundles add up in whatever order they are counted. -/
theorem Progress.foldl_tally (p : Enricher) (progress : Progress) (bundles : List Bundle) :
    bundles.foldl (tally p) progress =
      { bundles := progress.bundles + UInt64.ofNat bundles.length
        failedBundles := progress.failedBundles + UInt64.ofNat (bundles.countP (·.fails p))
        elements := progress.elements + UInt64.ofNat (bundles.map (·.done p)).sum
        outputBytes := progress.outputBytes + UInt64.ofNat (bundles.map (·.put p)).sum } := by
  induction bundles generalizing progress with
  | nil => simp
  | cons b bundles ih =>
    rw [List.foldl_cons,ih]
    cases said : b.verdict p with
    | ok bytes =>
      have passes := Bundle.fails_of_ok said
      have done : b.done p = b.size.toNat := by simp [Bundle.done,passes]
      have put : b.put p = bytes := by simp [Bundle.put,said]
      simp [tally,said,passes,countDone,done,put,UInt64.add_assoc,UInt64.add_comm 1]
    | error fault =>
      have fails := Bundle.fails_of_error said
      have done : b.done p = 0 := by simp [Bundle.done,fails]
      have put : b.put p = 0 := by simp [Bundle.put,said]
      simp [tally,said,fails,countFailed,done,put,UInt64.add_assoc,UInt64.add_comm 1]

namespace Plan

def span (plan : Plan) (j : Nat) : Finset Nat :=
  Finset.Ico (j * plan.bundleSize.toNat) (min ((j + 1) * plan.bundleSize.toNat) plan.elements.toNat)

def Fails (plan : Plan) (p : Enricher) (j : Nat) : Prop := ∃ n ∈ plan.span j, p.Refuses n

instance (plan : Plan) (p : Enricher) (j : Nat) : Decidable (plan.Fails p j) :=
  inferInstanceAs (Decidable (∃ n ∈ plan.span j, p.Refuses n))

variable {plan : Plan} {p : Enricher} {j : Nat}

theorem range_first (positive : 0 < plan.bundleSize) (inside : j < plan.ranges) :
    (plan.range j).first.toNat = j * plan.bundleSize.toNat := start_toNat positive inside

theorem range_last (plan : Plan) (j : Nat) : (plan.range j).last.toNat =
    min ((j + 1) * plan.bundleSize.toNat) plan.elements.toNat := by
  have bound := plan.elements.toNat_lt
  rw [range,UInt64.toNat_ofNat',Nat.mod_eq_of_lt (by omega)]

theorem range_order (positive : 0 < plan.bundleSize) (inside : j < plan.ranges) :
    (plan.range j).first.toNat ≤ (plan.range j).last.toNat := by
  have below := (lt_ranges positive).mp inside
  rw [range_first positive inside,range_last,Nat.add_mul]
  omega

theorem range_count (positive : 0 < plan.bundleSize) (inside : j < plan.ranges) :
    j * plan.bundleSize.toNat + (plan.range j).count =
      min ((j + 1) * plan.bundleSize.toNat) plan.elements.toNat := by
  have order := range_order positive inside
  rw [range_first positive inside,range_last] at order
  rw [Bundle.count,range_first positive inside,range_last]
  omega

/-- The ranges of a plan have their bounds in order, so that the machine word says how many elements
there are. -/
theorem range_size (positive : 0 < plan.bundleSize) (inside : j < plan.ranges) :
    (plan.range j).size.toNat = (plan.range j).count := by
  have order := UInt64.le_iff_toNat_le.mpr (range_order positive inside)
  rw [Bundle.size,UInt64.toNat_sub_of_le _ _ order,Bundle.count]

theorem span_card (positive : 0 < plan.bundleSize) (inside : j < plan.ranges) :
    (plan.span j).card = (plan.range j).size.toNat := by
  rw [span,Nat.card_Ico,← range_count positive inside,Nat.add_sub_cancel_left,
    range_size positive inside]

theorem span_eq (positive : 0 < plan.bundleSize) (inside : j < plan.ranges) :
    plan.span j = Finset.Ico (plan.range j).first.toNat
      ((plan.range j).first.toNat + (plan.range j).count) := by
  rw [span,range_first positive inside,range_count positive inside]

theorem range_inside (positive : 0 < plan.bundleSize) (inside : j < plan.ranges) :
    (plan.range j).first.toNat + (plan.range j).count < UInt64.size := by
  rw [range_first positive inside,range_count positive inside]
  exact (Nat.min_le_right ..).trans_lt plan.elements.toNat_lt

theorem verdict_of_fails (positive : 0 < plan.bundleSize) (inside : j < plan.ranges)
    (fails : plan.Fails p j) : ∃ fault, (plan.range j).verdict p = .error fault := by
  obtain ⟨n,member,refuses⟩ := fails
  obtain ⟨x,said⟩ := @Enricher.outcome_error p _ _ 0 (range_inside positive inside)
    ⟨n,span_eq positive inside ▸ member,refuses⟩
  exact ⟨_,by rw [Bundle.verdict,said]; rfl⟩

theorem verdict_of_passes (positive : 0 < plan.bundleSize) (inside : j < plan.ranges)
    (passes : ¬plan.Fails p j) :
    (plan.range j).verdict p = .ok (∑ n ∈ plan.span j, p.bytes n) := by
  have same := span_eq positive inside
  have said := @Enricher.outcome_ok p _ _ 0 (range_inside positive inside)
    fun n member refuses => passes ⟨n,same ▸ member,refuses⟩
  rw [Bundle.verdict,said,same,Nat.zero_add]
  rfl

/-- A bundle fails where one of its elements is rejected. -/
theorem fails_range (positive : 0 < plan.bundleSize) (inside : j < plan.ranges) :
    (plan.range j).fails p = true ↔ plan.Fails p j := by
  by_cases fails : plan.Fails p j
  · obtain ⟨fault,said⟩ := verdict_of_fails positive inside fails
    simp [fails,Bundle.fails_of_error said]
  · simp [fails,Bundle.fails_of_ok (verdict_of_passes positive inside fails)]

theorem done_range (positive : 0 < plan.bundleSize) (inside : j < plan.ranges) :
    (plan.range j).done p = if plan.Fails p j then 0 else (plan.span j).card := by
  rw [Bundle.done,span_card positive inside]
  exact if_congr (fails_range positive inside) rfl rfl

/-- A bundle that fails puts out nothing at all. -/
theorem put_range (positive : 0 < plan.bundleSize) (inside : j < plan.ranges) :
    (plan.range j).put p = if plan.Fails p j then 0 else ∑ n ∈ plan.span j, p.bytes n := by
  split
  next fails =>
    obtain ⟨fault,said⟩ := verdict_of_fails positive inside fails
    rw [Bundle.put,said]
  next passes => rw [Bundle.put,verdict_of_passes positive inside passes]

end Plan
end PerWorker.Pipeline
