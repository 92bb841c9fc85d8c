import PerWorker.Enricher
import Mathlib.Algebra.BigOperators.Intervals
import Mathlib.Data.Nat.Log

/-!
What an enricher says to a range of elements. Main statement: whatever it processed before, an
enricher that is set up rejects a range that has a positive multiple of its rule in it, and else
puts out the bytes of the tag and the digits of each element.
-/
namespace PerWorker.Enricher

structure Serves (p e : Enricher) : Prop where
  tag : e.tag = p.tag
  failEvery : e.failEvery = p.failEvery
  isOpen : e.isOpen = true

def Refuses (p : Enricher) (n : Nat) : Prop :=
  p.failEvery ≠ 0 ∧ 0 < n ∧ p.failEvery.toNat ∣ n

instance (p : Enricher) (n : Nat) : Decidable (p.Refuses n) :=
  inferInstanceAs (Decidable (_ ∧ _ ∧ _))

def bytes (p : Enricher) (n : Nat) : Nat := p.tag.utf8ByteSize + (Nat.log 10 n + 1)

/-- What is said to the `count` elements from `first` on, whatever the session. -/
def outcome (p : Enricher) (first : UInt64) (count : Nat) (put : Nat := 0) : Except Refusal Nat :=
  match count with
  | 0 => .ok put
  | count + 1 =>
    if p.rejects first then .error (.rejected first)
    else p.outcome (first + 1) count (put + p.bytes first.toNat)

variable {p e : Enricher} {first : UInt64} {count put : Nat}

theorem length_toDigits (n : Nat) : (Nat.toDigits 10 n).length = Nat.log 10 n + 1 := by
  have positive : 0 < (Nat.toDigits 10 n).length := Nat.length_toDigits_pos
  have below : n < 10 ^ (Nat.toDigits 10 n).length :=
    (Nat.length_toDigits_le_iff (by decide) positive).mp le_rfl
  refine Nat.le_antisymm ((Nat.length_toDigits_le_iff (by decide) (by omega)).mpr ?_) ?_
  · exact Nat.lt_pow_succ_log_self (by decide) n
  · exact Nat.succ_le_of_lt (Nat.log_lt_of_lt_pow' positive.ne' below)

theorem utf8ByteSize_ascii (cs : List Char) (ascii : ∀ c ∈ cs, c.utf8Size = 1) :
    (String.ofList cs).utf8ByteSize = cs.length := by
  induction cs with
  | nil => rfl
  | cons c cs ih =>
    have rest := ih fun d member => ascii d (List.mem_cons_of_mem c member)
    rw [String.ofList_cons,String.utf8ByteSize_append,String.utf8ByteSize_singleton,rest,
      ascii c List.mem_cons_self,List.length_cons,Nat.add_comm]

theorem bytes_eq (p : Enricher) (n : Nat) : (p.tag ++ toString n).utf8ByteSize = p.bytes n := by
  have ascii (c : Char) (member : c ∈ Nat.toDigits 10 n) : c.utf8Size = 1 := by
    have digit := Nat.isDigit_of_mem_toDigits (by decide) (by decide) member
    simp only [Char.isDigit,Bool.and_eq_true,decide_eq_true_eq] at digit
    have nine : '9'.val ≤ 127 := by decide
    exact Char.utf8Size_eq_one_iff.mpr (UInt32.le_trans digit.2 nine)
  rw [String.utf8ByteSize_append,Nat.toString_eq_ofList_toDigits,utf8ByteSize_ascii _ ascii,
    length_toDigits]
  rfl

theorem rejects_iff (p : Enricher) (x : UInt64) : p.rejects x = true ↔ p.Refuses x.toNat := by
  have rule : 0 < p.failEvery ↔ p.failEvery ≠ 0 := UInt64.pos_iff_ne_zero
  have element : 0 < x ↔ 0 < x.toNat := UInt64.lt_iff_toNat_lt
  have divides : x % p.failEvery = 0 ↔ p.failEvery.toNat ∣ x.toNat := by
    rw [← UInt64.toNat_inj,UInt64.toNat_mod]
    exact (Nat.dvd_iff_mod_eq_zero ..).symm
  simp only [rejects,Bool.and_eq_true,decide_eq_true_eq,beq_iff_eq,rule,element,divides,Refuses,
    and_assoc]

theorem Serves.process_ok (serves : Serves p e) {x : UInt64} (passes : p.rejects x = false) :
    ∃ next, e.process x = .ok (p.bytes x.toNat,next) ∧ Serves p next := by
  obtain ⟨tag,failEvery,isOpen⟩ := serves
  obtain ⟨processed,session⟩ := Option.isSome_iff_exists.mp isOpen
  have passes : e.rejects x = false := by rwa [rejects,failEvery]
  refine ⟨{ e with session := some (processed + 1), scratch := e.tag ++ toString x.toNat },?_,?_⟩
  · simp only [process,session,passes,Bool.false_eq_true,if_false]
    rw [tag,bytes_eq]
  · exact ⟨tag,failEvery,rfl⟩

theorem Serves.process_error (serves : Serves p e) {x : UInt64} (rejects : p.rejects x = true) :
    e.process x = .error (.rejected x) := by
  obtain ⟨tag,failEvery,isOpen⟩ := serves
  obtain ⟨processed,session⟩ := Option.isSome_iff_exists.mp isOpen
  have rejects : e.rejects x = true := by rwa [Enricher.rejects,failEvery]
  simp [process,session,rejects]

/-- An enricher that is set up says of a range what its prototype would say, and is left set up. -/
theorem Serves.processRange (serves : Serves p e) (first : UInt64) (count put : Nat) :
    ∃ next, e.processRange first count put = (p.outcome first count put,next) ∧ Serves p next := by
  induction count generalizing e first put with
  | zero => exact ⟨e,rfl,serves⟩
  | succ count ih =>
    cases said : p.rejects first with
    | false =>
      obtain ⟨between,processed,serves⟩ := serves.process_ok said
      obtain ⟨next,rest,serves⟩ := ih serves (first + 1) (put + p.bytes first.toNat)
      exact ⟨next,by simp [Enricher.processRange,outcome,processed,rest,said],serves⟩
    | true =>
      exact ⟨e,by simp [Enricher.processRange,outcome,serves.process_error said,said],serves⟩

theorem toNat_succ {count : Nat} (inside : first.toNat + (count + 1) < UInt64.size) :
    (first + 1).toNat = first.toNat + 1 := by
  rw [UInt64.toNat_add]
  exact Nat.mod_eq_of_lt (by change first.toNat + 1 < UInt64.size; omega)

/-- Where no element of a range is rejected its outcome is the sum of the lengths of the lines. -/
theorem outcome_ok (inside : first.toNat + count < UInt64.size)
    (passes : ∀ n ∈ Finset.Ico first.toNat (first.toNat + count), ¬p.Refuses n) :
    p.outcome first count put =
      .ok (put + ∑ n ∈ Finset.Ico first.toNat (first.toNat + count), p.bytes n) := by
  induction count generalizing first put with
  | zero => simp [outcome]
  | succ count ih =>
    have next := toNat_succ inside
    have here : p.rejects first = false := by
      rw [Bool.eq_false_iff,ne_eq,rejects_iff]
      exact passes _ (Finset.mem_Ico.mpr ⟨le_rfl,by omega⟩)
    rw [outcome,here,if_neg (by simp),ih (by omega) fun n member => passes n ?_,next]
    · rw [Finset.sum_eq_sum_Ico_succ_bot (by omega : first.toNat < first.toNat + (count + 1)),
        Nat.add_assoc put,Nat.add_right_comm first.toNat 1,Nat.add_assoc first.toNat]
    · rw [Finset.mem_Ico,next] at member
      exact Finset.mem_Ico.mpr ⟨by omega,by omega⟩

/-- One rejected element makes the outcome of the whole range a rejection. -/
theorem outcome_error (inside : first.toNat + count < UInt64.size)
    (refused : ∃ n ∈ Finset.Ico first.toNat (first.toNat + count), p.Refuses n) :
    ∃ x, p.outcome first count put = .error (.rejected x) := by
  induction count generalizing first put with
  | zero => simp at refused
  | succ count ih =>
    have next := toNat_succ inside
    cases here : p.rejects first with
    | true => exact ⟨first,by simp [outcome,here]⟩
    | false =>
      obtain ⟨n,member,refuses⟩ := refused
      rw [Finset.mem_Ico] at member
      have apart : n ≠ first.toNat := by
        rintro rfl
        simp [(p.rejects_iff first).mpr refuses] at here
      have inside' : (first + 1).toNat + count < UInt64.size := by omega
      have later := @ih (first + 1) (put + p.bytes first.toNat) inside'
        ⟨n,Finset.mem_Ico.mpr ⟨by omega,by omega⟩,refuses⟩
      simpa [outcome,here] using later

end PerWorker.Enricher
