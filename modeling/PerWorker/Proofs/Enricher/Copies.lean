import PerWorker.Enricher
import PerWorker.Proofs.Json.Strings

/-!
Copies of an enricher. Main statement: the text of an enricher is read back as an enricher with the
same tag and rejection rule and no session, so its template can be made and never refuses.
-/
namespace PerWorker
namespace Enricher

open Json Json.Written

/-- The enricher as its text tells it: closed, and with nothing of a session. -/
def closed (e : Enricher) : Enricher := { tag := e.tag, failEvery := e.failEvery }

theorem encode_toList (e : Enricher) : e.encode.toList =
    '\x7b' :: '"' :: (stringBody "prefix".toList ++ '"' :: ':' :: '"' ::
      (stringBody e.tag.toList ++ '"' :: ',' :: '"' :: (stringBody "fail_every".toList ++
        '"' :: ':' :: (Nat.toDigits 10 e.failEvery.toNat ++ ['\x7d'])))) := by
  have numeral : (e.failEvery.toNat : Int).repr.toList = Nat.toDigits 10 e.failEvery.toNat := by
    change e.failEvery.toNat.repr.toList = _
    rw [Nat.repr_eq_ofList_toDigits,String.toList_ofList]
  simp [encode,render,renderMembers,quoted,Json.nat,numeral]

theorem skipBlanks_visible (c : Char) (rest : List Char) (visible : isBlank c = false) :
    skipBlanks (c :: rest) = c :: rest := by
  simp [skipBlanks,visible]

theorem takeValue_string (fuel : Nat) (s : String) (rest : List Char) :
    takeValue (fuel + 1) ('"' :: (stringBody s.toList ++ '"' :: rest)) =
      some (.str (stringBody s.toList),rest) := by
  simp [takeValue,skipBlanks_visible _ _ (show isBlank '"' = false by decide),takeBody_stringBody]

theorem takeValue_number (fuel n : Nat) :
    takeValue (fuel + 1) (Nat.toDigits 10 n ++ ['\x7d']) =
      some (.number (Nat.toDigits 10 n),['\x7d']) := by
  have numeral : takeNumeral? (Nat.toDigits 10 n ++ ['\x7d']) =
      some (Nat.toDigits 10 n,['\x7d']) :=
    takeNumeral?_toDigits (by decide) (by decide) (by decide) (by decide)
  obtain ⟨d,digits,same,digit,_⟩ := toDigits_cons n
  have visible : isBlank d = false := by
    by_contra blank
    simp only [isBlank,Bool.not_eq_false,Bool.or_eq_true,decide_eq_true_eq] at blank
    obtain ((rfl | rfl) | rfl) | rfl := blank <;> exact absurd digit (by decide)
  have other (c : Char) (apart : c.isDigit = false) (rest : List Char) :
      d :: (digits ++ ['\x7d']) ≠ c :: rest := by
    rintro same
    rw [(List.cons.inj same).1,apart] at digit
    cases digit
  rw [same] at numeral ⊢
  rw [List.cons_append] at numeral ⊢
  unfold takeValue
  rw [skipBlanks_visible _ _ visible]
  split
  next matched => exact absurd matched (other _ (by decide) _)
  next matched => exact absurd matched (other _ (by decide) _)
  next matched => exact absurd matched (other _ (by decide) _)
  next matched => exact absurd matched (other _ (by decide) _)
  next matched => exact absurd matched (other _ (by decide) _)
  next matched => exact absurd matched (other _ (by decide) _)
  next => rw [numeral,Option.map_some]

section

variable {fuel : Nat} {value : Written} {members : List (List Char × Written)}
  {rest after final : List Char}

theorem takeMembers_last (name : String)
    (taken : takeValue fuel rest = some (value,'\x7d' :: after)) :
    takeMembers (fuel + 1) ('"' :: (stringBody name.toList ++ '"' :: ':' :: rest)) =
      some ([(stringBody name.toList,value)],after) := by
  simp [takeMembers,skipBlanks_visible _ _ (show isBlank '"' = false by decide),
    skipBlanks_visible _ _ (show isBlank ':' = false by decide),
    skipBlanks_visible _ _ (show isBlank '\x7d' = false by decide),takeBody_stringBody,taken]

theorem takeMembers_more (name : String) (taken : takeValue fuel rest = some (value,',' :: after))
    (others : takeMembers fuel after = some (members,final)) :
    takeMembers (fuel + 1) ('"' :: (stringBody name.toList ++ '"' :: ':' :: rest)) =
      some ((stringBody name.toList,value) :: members,final) := by
  simp [takeMembers,skipBlanks_visible _ _ (show isBlank '"' = false by decide),
    skipBlanks_visible _ _ (show isBlank ':' = false by decide),
    skipBlanks_visible _ _ (show isBlank ',' = false by decide),takeBody_stringBody,taken,others]

theorem takeValue_object {first : List Char}
    (taken : takeMembers fuel ('"' :: first) = some (members,after)) :
    takeValue (fuel + 1) ('\x7b' :: '"' :: first) = some (.obj members,after) := by
  simp [takeValue,skipBlanks_visible _ _ (show isBlank '\x7b' = false by decide),
    skipBlanks_visible _ _ (show isBlank '"' = false by decide),taken]

end

theorem parse?_encode (e : Enricher) : Written.parse? e.encode = some
    (.obj [(stringBody "prefix".toList,.str (stringBody e.tag.toList)),
      (stringBody "fail_every".toList,.number (Nat.toDigits 10 e.failEvery.toNat))]) := by
  obtain ⟨fuel,enough⟩ : ∃ fuel, 2 * e.encode.toList.length + 2 = fuel + 4 :=
    ⟨2 * e.encode.toList.length - 2,by rw [encode_toList,List.length_cons]; omega⟩
  have last := takeMembers_last "fail_every" (takeValue_number fuel e.failEvery.toNat)
  have both := takeMembers_more "prefix" (takeValue_string (fuel + 1) e.tag _) last
  have whole := takeValue_object both
  simp only [Written.parse?,enough]
  rw [encode_toList,whole]
  rfl

theorem readMember_tag (fields : Fields) (s : String) (missing : fields.tag = none) :
    readMember fields (stringBody "prefix".toList,.str (stringBody s.toList)) =
      some { fields with tag := some s } := by
  rw [readMember,string?_stringBody]
  simp [missing,Enricher.string?,string?_stringBody]

theorem readMember_failEvery (fields : Fields) (n : UInt64) (missing : fields.failEvery = none) :
    readMember fields (stringBody "fail_every".toList,.number (Nat.toDigits 10 n.toNat)) =
      some { fields with failEvery := some n } := by
  have digits := integer?_toDigits n.toNat_lt
  rw [readMember,string?_stringBody]
  simp [missing,word?,digits]

/-- An enricher is read back from its text as it was, but closed. -/
theorem decode_encode (e : Enricher) : decode e.encode = some e.closed := by
  rw [decode,parse?_encode]
  simp only [List.foldlM_cons,List.foldlM_nil]
  rw [readMember_tag {} e.tag rfl]
  dsimp only [Option.bind_eq_bind,Option.bind]
  rw [readMember_failEvery _ e.failEvery rfl]
  rfl

theorem template_eq (e : Enricher) : e.template = .ok (.serialized codec e.encode 1) := by
  have written : codec.encode e = .ok e.encode := rfl
  have read : codec.decode 0 e.encode = .ok e.closed := by simp only [codec,decode_encode]
  simp only [template,Template.ofCodec,written,Except.mapError,bind,Except.bind,read]
  rfl

end Enricher

def Template.Yields (template : Template Enricher) (e : Enricher) : Prop :=
  ∃ text reads, template = .serialized Enricher.codec text reads ∧ Enricher.decode text = some e

/-- A template that gives some enricher gives it again the next time, however often it was read. -/
theorem Template.Yields.replicate {template : Template Enricher} {e : Enricher}
    (yields : template.Yields e) : ∃ next, template.replicate = (.copy e,next) ∧ next.Yields e := by
  obtain ⟨text,reads,rfl,read⟩ := yields
  refine ⟨.serialized Enricher.codec text (reads + 1),?_,_,_,rfl,read⟩
  simp [Template.replicate,Enricher.codec,read]

theorem Enricher.yields_closed (e : Enricher) (reads : Nat) :
    (Template.serialized codec e.encode reads).Yields e.closed :=
  ⟨_,_,rfl,decode_encode e⟩

end PerWorker
