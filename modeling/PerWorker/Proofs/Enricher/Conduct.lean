import PerWorker.Proofs.Enricher.Copies
import PerWorker.Proofs.Enricher.Verdicts

/-!
What an enricher does when it is set up, used, torn down and replaced by copies of itself, in any
order. Main statement: the deeds of the past alone tell whether it is open and how many elements it
has processed, a step it refuses changes nothing, and its text is the one it began with.
-/
namespace PerWorker
namespace Enricher

inductive Ask where
  | setup
  | teardown
  | process (element : UInt64)
  | copy
  deriving Repr, DecidableEq, Inhabited

inductive Deed where
  | opened
  | closed (processed : Nat)
  | tagged (bytes : Nat)
  | copied (size : Option Nat)
  | refused (refusal : Refusal)
  | uncopied (outcome : Except CloneError (Draw Enricher))
  deriving Inhabited

namespace Deed

def opens : Deed → Bool
  | .opened => true
  | _ => false

def closes : Deed → Bool
  | .closed _ => true
  | _ => false

def copies : Deed → Bool
  | .copied _ => true
  | _ => false

def tags : Deed → Bool
  | .tagged _ => true
  | _ => false

def fails : Deed → Bool
  | .refused _ => true
  | .uncopied _ => true
  | _ => false

/-- The place of the last deed of that kind. -/
def latest (kind : Deed → Bool) (deeds : List Deed) : Option Nat :=
  (deeds.zipIdx.filter fun d => kind d.1).getLast?.map (·.2)

end Deed

def replaced (e : Enricher) : Deed × Enricher :=
  match e.template with
  | .error error => (.uncopied (.error error),e)
  | .ok template =>
    match template.replicate.1 with
    | .copy next => (.copied template.encodedSize?,next)
    | other => (.uncopied (.ok other),e)

def perform (e : Enricher) : Ask → Deed × Enricher
  | .setup =>
    match e.setup with
    | .ok next => (.opened,next)
    | .error refusal => (.refused refusal,e)
  | .teardown =>
    match e.teardown with
    | .ok (processed,next) => (.closed processed,next)
    | .error refusal => (.refused refusal,e)
  | .process element =>
    match e.process element with
    | .ok (bytes,next) => (.tagged bytes,next)
    | .error refusal => (.refused refusal,e)
  | .copy => e.replaced

def conduct (e : Enricher) : List Ask → List Deed × Enricher
  | [] => ([],e)
  | ask :: asks =>
    let (deed,next) := e.perform ask
    let (deeds,last) := next.conduct asks
    (deed :: deeds,last)

namespace Deed

variable {kind : Deed → Bool} {deeds : List Deed} {deed : Deed} {k : Nat}

theorem latest_concat (kind : Deed → Bool) (deeds : List Deed) (deed : Deed) :
    latest kind (deeds ++ [deed]) =
      if kind deed then some deeds.length else latest kind deeds := by
  unfold latest
  rw [List.zipIdx_append,List.filter_append,List.zipIdx_singleton,List.filter_singleton]
  cases kind deed
  · simp
  · simp

theorem latest_lt (found : latest kind deeds = some k) : k < deeds.length := by
  obtain ⟨⟨deed,place⟩,last,rfl⟩ := Option.map_eq_some_iff.mp found
  have member := (List.mem_filter.mp (List.mem_of_getLast? last)).1
  exact List.snd_lt_of_mem_zipIdx member

theorem latest_lt_length (kind : Deed → Bool) (deeds : List Deed) :
    latest kind deeds < some deeds.length := by
  cases found : latest kind deeds with
  | none => exact trivial
  | some k => exact latest_lt found

theorem not_length_lt_latest (kind : Deed → Bool) (deeds : List Deed) :
    ¬some deeds.length < latest kind deeds := by
  cases found : latest kind deeds with
  | none => exact id
  | some k => exact (latest_lt found).not_gt

end Deed

open Deed

variable {new e : Enricher} {deeds : List Deed} {session : Option Nat}

inductive Leaves (deeds : List Deed) : Option Nat → Prop
  | closed (ended : ¬(latest closes deeds < latest opens deeds ∧
      latest copies deeds < latest opens deeds)) : Leaves deeds none
  | opened (k : Nat) (since : latest opens deeds = some k)
      (unclosed : latest closes deeds < some k) (uncopied : latest copies deeds < some k) :
      Leaves deeds (some ((deeds.drop k).countP tags))

theorem Leaves.opens (deeds : List Deed) : Leaves (deeds ++ [.opened]) (some 0) := by
  have since : latest Deed.opens (deeds ++ [.opened]) = some deeds.length := latest_concat ..
  have unclosed : latest closes (deeds ++ [.opened]) < some deeds.length := by
    rw [latest_concat]
    exact latest_lt_length ..
  have uncopied : latest copies (deeds ++ [.opened]) < some deeds.length := by
    rw [latest_concat]
    exact latest_lt_length ..
  have here := Leaves.opened deeds.length since unclosed uncopied
  rwa [List.drop_left] at here

theorem Leaves.closes (deeds : List Deed) (processed : Nat) :
    Leaves (deeds ++ [.closed processed]) none := by
  refine .closed fun earlier => ?_
  have later := earlier.1
  rw [latest_concat,latest_concat] at later
  exact not_length_lt_latest _ _ later

/-- A copy that is read back is closed, whatever was done before. -/
theorem Leaves.copies (deeds : List Deed) (size : Option Nat) :
    Leaves (deeds ++ [.copied size]) none := by
  refine .closed fun earlier => ?_
  have later := earlier.2
  rw [latest_concat,latest_concat] at later
  exact not_length_lt_latest _ _ later

/-- A deed that neither opens nor ends a session is counted if it is one of a tagged element. -/
theorem Leaves.goes_on (leaves : Leaves deeds session) (deed : Deed)
    (unopened : deed.opens = false) (unclosed : deed.closes = false)
    (uncopied : deed.copies = false) :
    Leaves (deeds ++ [deed]) (session.map (· + [deed].countP tags)) := by
  have opens : latest Deed.opens (deeds ++ [deed]) = latest Deed.opens deeds := by
    simp [latest_concat,unopened]
  have closes : latest Deed.closes (deeds ++ [deed]) = latest Deed.closes deeds := by
    simp [latest_concat,unclosed]
  have copies : latest Deed.copies (deeds ++ [deed]) = latest Deed.copies deeds := by
    simp [latest_concat,uncopied]
  cases leaves with
  | closed ended => exact .closed (by rwa [opens,closes,copies])
  | opened k since unclosed uncopied =>
    have later := Leaves.opened k (opens.trans since) (closes ▸ unclosed) (copies ▸ uncopied)
    rw [List.drop_append_of_le_length (latest_lt since).le,List.countP_append] at later
    exact later

structure Remains (new : Enricher) (deeds : List Deed) (e : Enricher) : Prop where
  tag : e.tag = new.tag
  failEvery : e.failEvery = new.failEvery
  session : Leaves deeds e.session

theorem perform_setup (e : Enricher) : e.perform .setup =
    if e.isOpen then (.refused .alreadyOpen,e) else (.opened,{ e with session := some 0 }) := by
  cases session : e.session <;> simp [perform,setup,isOpen,session]

theorem perform_teardown (e : Enricher) : e.perform .teardown =
    if e.isOpen then (.closed e.processed,{ e with session := none })
    else (.refused .closedUnopened,e) := by
  cases session : e.session <;> simp [perform,teardown,isOpen,processed,session]

theorem perform_process (e : Enricher) (x : UInt64) : e.perform (.process x) =
    if e.isOpen = false then (.refused .notOpen,e)
    else if e.Refuses x.toNat then (.refused (.rejected x),e)
    else (.tagged (e.bytes x.toNat),
      { e with session := some (e.processed + 1), scratch := e.tag ++ toString x.toNat }) := by
  cases session : e.session with
  | none => simp [perform,process,isOpen,session]
  | some n =>
    simp only [perform,process,isOpen,processed,session,rejects_iff,bytes_eq]
    split_ifs <;> simp_all

theorem replaced_eq {template next : Template Enricher} {copy : Enricher}
    (made : e.template = .ok template) (drawn : template.replicate = (.copy copy,next)) :
    e.replaced = (.copied template.encodedSize?,copy) := by
  unfold replaced
  rw [made]
  dsimp only
  rw [drawn]

theorem perform_copy (e : Enricher) :
    e.perform .copy = (.copied (some e.encode.utf8ByteSize),e.closed) := by
  obtain ⟨next,drawn,-⟩ := (e.yields_closed 1).replicate
  have asked : e.perform .copy = e.replaced := rfl
  rw [asked,replaced_eq e.template_eq drawn,Template.encodedSize?]

theorem encode_congr (tag : e.tag = new.tag) (failEvery : e.failEvery = new.failEvery) :
    e.encode = new.encode := by
  unfold encode
  rw [tag,failEvery]

theorem perform_fails (e : Enricher) (ask : Ask) (fails : (e.perform ask).1.fails = true) :
    (e.perform ask).2 = e := by
  cases ask with
  | setup =>
    rw [perform_setup] at fails ⊢
    split_ifs at fails ⊢
    · rfl
    · cases fails
  | teardown =>
    rw [perform_teardown] at fails ⊢
    split_ifs at fails ⊢
    · cases fails
    · rfl
  | process x =>
    rw [perform_process] at fails ⊢
    split_ifs at fails ⊢
    · rfl
    · rfl
    · cases fails
  | copy =>
    rw [perform_copy] at fails
    cases fails

/-- Whatever is asked of an enricher, its tag and rule stay, and its session is the one that its
deeds have left. -/
theorem Remains.perform (remains : Remains new deeds e) (ask : Ask) :
    Remains new (deeds ++ [(e.perform ask).1]) (e.perform ask).2 := by
  obtain ⟨tag,failEvery,session⟩ := remains
  have refused (refusal : Refusal) : Remains new (deeds ++ [.refused refusal]) e := by
    refine ⟨tag,failEvery,?_⟩
    have same := session.goes_on (.refused refusal) rfl rfl rfl
    simpa [tags] using same
  cases ask with
  | setup =>
    rw [perform_setup]
    split_ifs
    · exact refused _
    · exact ⟨tag,failEvery,.opens _⟩
  | teardown =>
    rw [perform_teardown]
    split_ifs
    · exact ⟨tag,failEvery,.closes ..⟩
    · exact refused _
  | process x =>
    rw [perform_process]
    split_ifs with shut refuses
    · exact refused _
    · exact refused _
    · refine ⟨tag,failEvery,?_⟩
      have more := session.goes_on (.tagged (e.bytes x.toNat)) rfl rfl rfl
      obtain ⟨n,known⟩ := Option.isSome_iff_exists.mp (eq_true_of_ne_false shut)
      rw [known] at more
      simpa [processed,known,tags] using more
  | copy =>
    rw [perform_copy]
    exact ⟨tag,failEvery,.copies ..⟩

theorem Remains.conduct (remains : Remains new deeds e) (asks : List Ask) :
    Remains new (deeds ++ (e.conduct asks).1) (e.conduct asks).2 := by
  induction asks generalizing deeds e with
  | nil => simpa [Enricher.conduct] using remains
  | cons ask asks ih =>
    have later := ih (remains.perform ask)
    rwa [List.append_assoc] at later

theorem Leaves.isOpen_iff (leaves : Leaves deeds e.session) : e.isOpen = true ↔
    latest Deed.closes deeds < latest Deed.opens deeds ∧
      latest Deed.copies deeds < latest Deed.opens deeds := by
  unfold isOpen
  generalize e.session = session at leaves
  cases leaves with
  | closed ended => simpa using ended
  | opened k since unclosed uncopied => simp [since,unclosed,uncopied]

theorem Leaves.processed_eq (leaves : Leaves deeds e.session) : e.processed =
    if e.isOpen then (deeds.drop ((latest Deed.opens deeds).getD 0)).countP tags else 0 := by
  unfold isOpen processed
  generalize e.session = session at leaves
  cases leaves with
  | closed ended => rfl
  | opened k since unclosed uncopied => simp [since]

/-- After any steps of a new enricher: it can be set up just if it is closed, be torn down just if
it is open, and always be copied; an element is tagged just if the enricher is open and does not
refuse it, and the bytes it gives depend on nothing else; it is open just if it was opened after it
was last closed and last replaced by a copy, and has then processed what it tagged since; a step
that fails changes nothing; the text and its length are those of the new enricher. -/
theorem conduct_exact (tag : String) (failEvery : UInt64) (asks : List Ask) :
    ∃ deeds e, conduct { tag, failEvery } asks = (deeds,e) ∧
      (e.perform .setup).1 = (if e.isOpen then .refused .alreadyOpen else .opened) ∧
      (e.perform .teardown).1 =
        (if e.isOpen then .closed e.processed else .refused .closedUnopened) ∧
      (∀ x, (e.perform (.process x)).1 =
        if e.isOpen = false then .refused .notOpen
        else if 0 < failEvery ∧ 0 < x ∧ failEvery.toNat ∣ x.toNat then .refused (.rejected x)
        else .tagged (tag.utf8ByteSize + (Nat.toDigits 10 x.toNat).length)) ∧
      (e.perform .copy).1 = .copied (some e.encode.utf8ByteSize) ∧
      (e.isOpen = true ↔ latest Deed.closes deeds < latest Deed.opens deeds ∧
        latest Deed.copies deeds < latest Deed.opens deeds) ∧
      e.processed =
        (if e.isOpen then (deeds.drop ((latest Deed.opens deeds).getD 0)).countP tags else 0) ∧
      (∀ ask, (e.perform ask).1.fails = true → (e.perform ask).2.isOpen = e.isOpen ∧
        (e.perform ask).2.processed = e.processed ∧ (e.perform ask).2.encode = e.encode) ∧
      e.encode = encode { tag, failEvery } ∧
      ∃ template, e.template = .ok template ∧
        template.encodedSize? = some (encode { tag, failEvery }).utf8ByteSize := by
  have start : Remains { tag, failEvery } [] { tag, failEvery } :=
    ⟨rfl,rfl,.closed fun earlier => False.elim earlier.1⟩
  have remains := start.conduct asks
  rw [List.nil_append] at remains
  -- From here on only what the deeds leave behind matters, not how they were done.
  generalize conduct { tag, failEvery } asks = left at remains
  obtain ⟨deeds,e⟩ := left
  have same := encode_congr remains.tag remains.failEvery
  refine ⟨deeds,e,rfl,?_,?_,fun x => ?_,?_,remains.session.isOpen_iff,remains.session.processed_eq,
    fun ask fails => ?_,same,_,template_eq _,congrArg some (congrArg _ same)⟩
  · rw [perform_setup]
    split_ifs <;> rfl
  · rw [perform_teardown]
    split_ifs <;> rfl
  · have refuses : e.Refuses x.toNat ↔ 0 < failEvery ∧ 0 < x ∧ failEvery.toNat ∣ x.toNat := by
      rw [Refuses,remains.failEvery,← UInt64.pos_iff_ne_zero,UInt64.lt_iff_toNat_lt (a := 0)]
      rfl
    rw [perform_process,bytes,remains.tag,← length_toDigits]
    simp only [refuses]
    split_ifs <;> rfl
  · rw [perform_copy]
  · rw [perform_fails _ ask fails]
    exact ⟨rfl,rfl,rfl⟩

/-- A session that is cut short by a copy, and another in which one element is refused. -/
example : (conduct { tag := "é-", failEvery := 3 } [.setup,.process 14,.process 3,.copy,.process 7,
    .setup,.process 9,.setup,.process 10]).2.session = some 1 := by
  decide +kernel

end Enricher
end PerWorker
