import PerWorker.Proofs.Pipeline.Cleanup

/-!
What a run puts out. Main statement: the summary of a run is told by the number of bundles that were
claimed before it was cancelled, whatever the order of the steps and whatever threads took them.
-/
namespace PerWorker.Pipeline

namespace Plan

variable (plan : Plan) (p : Enricher)

/-- The number of elements of the first ranges that are not rejected. -/
def accepted (k : Nat) : Nat := ∑ j ∈ Finset.range k with ¬plan.Fails p j, (plan.span j).card

/-- The number of bytes that these ranges are turned into. -/
def output (k : Nat) : Nat :=
  ∑ j ∈ Finset.range k with ¬plan.Fails p j, ∑ n ∈ plan.span j, p.bytes n

variable {plan p} {k : Nat}

theorem accepted_le (plan : Plan) (p : Enricher) (k : Nat) :
    plan.accepted p k ≤ k * plan.bundleSize.toNat := by
  calc plan.accepted p k
      ≤ ∑ j ∈ Finset.range k, (plan.span j).card :=
        Finset.sum_le_sum_of_subset (Finset.filter_subset ..)
    _ ≤ ∑ _j ∈ Finset.range k, plan.bundleSize.toNat := by
        refine Finset.sum_le_sum fun j _ => ?_
        rw [span,Nat.card_Ico,Nat.succ_mul]
        omega
    _ = k * plan.bundleSize.toNat := by
        rw [Finset.sum_const,Finset.card_range,smul_eq_mul]

theorem output_mono {l : Nat} (less : k ≤ l) : plan.output p k ≤ plan.output p l :=
  Finset.sum_le_sum_of_subset
    (Finset.filter_subset_filter _ (Finset.range_subset_range.mpr less))

theorem sum_range {f : Bundle → Nat} {g : Nat → Nat}
    (same : ∀ j < k, f (plan.range j) = if plan.Fails p j then 0 else g j) :
    (((List.range k).map plan.range).map f).sum =
      ∑ j ∈ Finset.range k with ¬plan.Fails p j, g j := by
  rw [List.map_map,Finset.sum_filter]
  change ∑ j ∈ Finset.range k, f (plan.range j) = _
  refine Finset.sum_congr rfl fun j member => ?_
  rw [same j (Finset.mem_range.mp member),ite_not]

theorem count_fails (positive : 0 < plan.bundleSize) (within : k ≤ plan.ranges) :
    ((List.range k).map plan.range).countP (·.fails p) =
      {j ∈ Finset.range k | plan.Fails p j}.card := by
  rw [List.countP_map]
  have same : (List.range k).countP ((·.fails p) ∘ plan.range) =
      (List.range k).countP (plan.Fails p ·) := by
    refine List.countP_congr fun j member => ?_
    rw [Function.comp_apply,decide_eq_true_eq]
    exact fails_range positive ((List.mem_range.mp member).trans_le within)
  rw [same,List.countP_eq_length_filter]
  rfl

end Plan

namespace Run

variable {plan : Plan} {stock : Stock} {name : String} {prototype p : Enricher}
  {outcome : Except TeardownErrors Summary} {past : List Turn} {r : Run} {cancelled : Bool}
  {standing : Nat → Nat} {tallied : List Bundle} {k : Nat}

theorem Joined.totals (joined : Joined p past r standing tallied) (positive : 0 < plan.bundleSize)
    (within : k ≤ plan.ranges) (claims : claimed past = (List.range k).map plan.range) :
    r.progress =
      { bundles := UInt64.ofNat k
        failedBundles := UInt64.ofNat {j ∈ Finset.range k | plan.Fails p j}.card
        elements := UInt64.ofNat (plan.accepted p k)
        outputBytes := UInt64.ofNat (plan.output p k) } := by
  have inside {j : Nat} (less : j < k) : j < plan.ranges := less.trans_le within
  have bundles := claims ▸ joined.bundles
  have length : tallied.length = k := by
    rw [← bundles.length_eq,List.length_map,List.length_range]
  have fails : tallied.countP (·.fails p) = {j ∈ Finset.range k | plan.Fails p j}.card := by
    rw [← bundles.countP_eq]
    exact Plan.count_fails positive within
  have done : (tallied.map (·.done p)).sum = plan.accepted p k := by
    rw [← (bundles.map _).sum_eq]
    exact Plan.sum_range fun j less => Plan.done_range positive (inside less)
  have put : (tallied.map (·.put p)).sum = plan.output p k := by
    rw [← (bundles.map _).sum_eq]
    exact Plan.sum_range fun j less => Plan.put_range positive (inside less)
  rw [joined.progress,Progress.foldl_tally,length,fails,done,put]
  simp

theorem InOrder.cursor_lt (inOrder : InOrder past r) (positive : 0 < r.plan.bundleSize)
    (small : (fetched past).length * r.plan.bundleSize.toNat < UInt64.size) :
    r.cursor < r.plan.elements ↔ (fetched past).length < r.plan.ranges := by
  rw [inOrder.cursor,UInt64.lt_iff_toNat_lt,Plan.start,UInt64.toNat_ofNat',Nat.mod_eq_of_lt small]
  exact (Plan.lt_ranges positive).symm

theorem Exhausting.complete_of_ended (exhausting : Exhausting false past r) (crewed : Crewed past r)
    (begun : r.phase ≠ .starting) (staffed : 0 < r.plan.workers)
    (all : ∀ (i : Nat) task, r.tasks[i]? = some task → task = .ended []) :
    r.plan.ranges ≤ (fetched past).length := by
  have complete := exhausting.complete rfl
  have crew := crewed.crew begun
  have ended : r.ended = r.tasks.size := Array.countP_eq_size.mpr fun task member => by
    obtain ⟨i,bound,here⟩ := Array.mem_iff_getElem.mp member
    rw [all i task (by rw [← here]; exact Array.getElem?_eq_getElem bound)]
    rfl
  omega

/-- The summary of a run is told by the number of bundles that were claimed, which are the first
ranges in order. Each range with a rejected element fails, and the others are put out in full. Where
a run was never cancelled all ranges were claimed. -/
theorem Course.summary_exact (started : Stock.start name prototype = .ok stock)
    (course : Course (fresh plan stock) cancelled past r) (over' : r.phase = .ended outcome)
    (positive : 0 < plan.bundleSize) (staffed : 0 < plan.workers)
    (small : (plan.ranges + plan.workers) * plan.bundleSize.toNat < UInt64.size)
    (bytes : plan.output prototype plan.ranges < UInt64.size) :
    ∃ k summary, outcome = .ok summary ∧
      (claimed past).map (fun b => (b.first.toNat,b.last.toNat)) = (List.range k).map (fun j =>
        (j * plan.bundleSize.toNat,
          min ((j + 1) * plan.bundleSize.toNat) plan.elements.toNat)) ∧
      summary.bundles.toNat = k ∧
      summary.failedBundles.toNat = {j ∈ Finset.range k | plan.Fails prototype j}.card ∧
      summary.elements.toNat = plan.accepted prototype k ∧
      summary.outputBytes.toNat = plan.output prototype k ∧
      (summary.cancelled = true ↔ k < plan.ranges) ∧ (cancelled = false → k = plan.ranges) := by
  obtain rfl := Except.ok.inj (started.symm.trans (Stock.start_eq name prototype))
  have plans : r.plan = plan := course.plans
  have inside := course.inside positive small
  have exhausting := course.exhausting_of_inside positive inside
  obtain ⟨standing,tallied,same,joined,_⟩ := course.accounted.over over'
  have claims := exhausting.claims course.inOrder (plans ▸ positive)
    (plans ▸ fun x member _ => inside x member)
  rw [plans] at claims
  generalize number : (fetched past).length = n at claims
  have within : min n plan.ranges ≤ plan.ranges := Nat.min_le_right ..
  have totals := joined.totals positive within claims
  -- No total reaches `2 ^ 64`, so that none has wrapped around.
  have few : min n plan.ranges < UInt64.size :=
    (within.trans (Plan.ranges_le positive)).trans_lt plan.elements.toNat_lt
  have fails : {j ∈ Finset.range (min n plan.ranges) | plan.Fails prototype j}.card ≤
      min n plan.ranges := (Finset.card_filter_le ..).trans_eq (Finset.card_range _)
  have accepted : plan.accepted prototype (min n plan.ranges) < UInt64.size :=
    ((Plan.accepted_le ..).trans (Nat.mul_le_mul_right _ (by omega))).trans_lt small
  refine ⟨min n plan.ranges,_,same,?_,?_,?_,?_,?_,?_,?_⟩
  · rw [claims,List.map_map]
    refine List.map_congr_left fun j member => ?_
    have inside := (List.mem_range.mp member).trans_le within
    rw [Function.comp_apply,Plan.range_first positive inside,Plan.range_last]
  · exact (congrArg (·.bundles.toNat) totals).trans (UInt64.toNat_ofNat_of_lt' few)
  · exact (congrArg (·.failedBundles.toNat) totals).trans
      (UInt64.toNat_ofNat_of_lt' (fails.trans_lt few))
  · exact (congrArg (·.elements.toNat) totals).trans (UInt64.toNat_ofNat_of_lt' accepted)
  · exact (congrArg (·.outputBytes.toNat) totals).trans
      (UInt64.toNat_ofNat_of_lt' ((Plan.output_mono within).trans_lt bytes))
  · change decide (r.cursor < r.plan.elements) = true ↔ _
    have fetches := exhausting.length_le course.crewed
    rw [← plans] at positive small
    have cursor := course.inOrder.cursor_lt positive
      ((Nat.mul_le_mul_right _ fetches).trans_lt small)
    rw [decide_eq_true_eq,cursor,plans,number]
    exact (by omega : n < plan.ranges ↔ min n plan.ranges < plan.ranges)
  · rintro rfl
    have complete := exhausting.complete_of_ended course.crewed (by simp [over'])
      (plans ▸ staffed) joined.ended
    rw [plans,number] at complete
    exact Nat.min_eq_right complete

/-- Two of the four ranges have a multiple of four in them. -/
theorem summary_exact_of_brief : ∃ (past : List Turn) (r : Run) (summary : Summary),
    Course (fresh brief (.fresh "pipeline" picky)) false past r ∧ r.phase = .ended (.ok summary) ∧
      summary.bundles.toNat = 4 ∧ summary.failedBundles.toNat = 2 ∧ summary.elements.toNat = 4 ∧
      summary.outputBytes.toNat = 12 ∧ summary.cancelled = false := by
  obtain ⟨past,r,outcome,course,over'⟩ := brief_completes
  obtain ⟨k,summary,rfl,_,bundles,failed,elements,bytes,cancelled,complete⟩ :=
    Course.summary_exact (Stock.start_eq ..) course over' (by decide) (by decide)
      (by decide +kernel) (by decide +kernel)
  obtain rfl := complete rfl
  refine ⟨past,r,summary,course,over',bundles.trans ?_,failed.trans ?_,elements.trans ?_,
    bytes.trans ?_,?_⟩
  · decide +kernel
  · decide +kernel
  · decide +kernel
  · decide +kernel
  · rw [Bool.eq_false_iff,ne_eq,cancelled]
    exact Nat.lt_irrefl _

end Run
end PerWorker.Pipeline
