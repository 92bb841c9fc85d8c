import PerWorker.Proofs.Pipeline.Course

/-!
Texts of enrichers. An object tells of an enricher if it holds both fields once, wherever they stand
among members of other names. Main statement: writing an enricher loses nothing but its session, and
whatever text an enricher is read from, it has one text of its own, which is read back as it.
-/
namespace PerWorker
namespace Enricher

open Json Json.Written

variable {members : List (List Char × Written)} {fields final : Fields} {e : Enricher}
  {text : String}

def held (name : String) (members : List (List Char × Written)) : List Written :=
  (members.filter fun m => Written.string? m.1 = some name).map (·.2)

/-- What is said of an enricher, in an object or in a list of its two values. -/
inductive Tells (e : Enricher) : Written → Prop
  | members (members : List (List Char × Written)) (tag number : Written)
      (named : ∀ m ∈ members, (Written.string? m.1).isSome = true)
      (tags : held "prefix" members = [tag]) (numbers : held "fail_every" members = [number])
      (tagged : string? tag = some e.tag) (numbered : word? number = some e.failEvery) :
      Tells e (.obj members)
  | values (tag number : Written) (tagged : string? tag = some e.tag)
      (numbered : word? number = some e.failEvery) : Tells e (.arr [tag,number])

/-- A field before and after the values found for it have been read: at most one, and none if there
is one already. -/
def Settles {α : Type} (read : Written → Option α) (before after : Option α)
    (found : List Written) : Prop :=
  found = [] ∧ after = before ∨
    before = none ∧ ∃ value, found = [value] ∧ (read value).isSome = true ∧ after = read value

theorem held_cons (name : String) (m : List Char × Written) :
    held name (m :: members) =
      if Written.string? m.1 = some name then m.2 :: held name members else held name members := by
  unfold held
  rw [List.filter_cons]
  split_ifs <;> simp_all

theorem Settles.read {α : Type} {read : Written → Option α} {before after : Option α}
    {value : Written} {found : List Written} :
    Settles read before after (value :: found) ↔
      before = none ∧ ∃ known, read value = some known ∧ Settles read (some known) after found := by
  unfold Settles
  cases known : read value <;> simp [known]

theorem Settles.done {α : Type} {read : Written → Option α} {before after : Option α} :
    Settles read before after [] ↔ before = after := by
  unfold Settles
  simp [eq_comm (a := before)]

theorem readMember_told_tag {m : List Char × Written} (name : Written.string? m.1 = some "prefix") :
    readMember fields m = if fields.tag = none then
      (string? m.2).map fun tag => { fields with tag := some tag } else none := by
  rw [readMember,name]
  cases fields.tag <;> cases string? m.2 <;> rfl

theorem readMember_told_number {m : List Char × Written}
    (name : Written.string? m.1 = some "fail_every") :
    readMember fields m = if fields.failEvery = none then
      (word? m.2).map fun n => { fields with failEvery := some n } else none := by
  rw [readMember,name]
  cases fields.failEvery <;> cases word? m.2 <;> rfl

theorem readMember_told_other {m : List Char × Written} {name : String}
    (told : Written.string? m.1 = some name) (tag : name ≠ "prefix")
    (number : name ≠ "fail_every") : readMember fields m = some fields := by
  unfold readMember
  split <;> simp_all

theorem foldlM_readMember : members.foldlM readMember fields = some final ↔
    (∀ m ∈ members, (Written.string? m.1).isSome = true) ∧
      Settles string? fields.tag final.tag (held "prefix" members) ∧
      Settles word? fields.failEvery final.failEvery (held "fail_every" members) := by
  induction members generalizing fields with
  | nil =>
    cases fields
    cases final
    simp [held,Settles.done]
  | cons m rest ih =>
    rw [List.foldlM_cons,held_cons,held_cons,List.forall_mem_cons]
    cases told : Written.string? m.1 with
    | none => simp [readMember,told]
    | some name =>
      by_cases tag : name = "prefix"
      · subst tag
        rw [readMember_told_tag told]
        cases free : fields.tag <;> cases value : string? m.2 <;>
          simp [Settles.read,value,ih]
      by_cases number : name = "fail_every"
      · subst number
        rw [readMember_told_number told]
        cases free : fields.failEvery <;> cases value : word? m.2 <;>
          simp [Settles.read,value,ih]
      · rw [readMember_told_other told tag number]
        simp [tag,number,ih]

/-- A field that is filled was told exactly once, with a value that can be read. -/
theorem Settles.filled {α : Type} {read : Written → Option α} {found : List Written} {a : α} :
    Settles read none (some a) found ↔ ∃ value, found = [value] ∧ read value = some a := by
  unfold Settles
  constructor
  · rintro (⟨-,absent⟩ | ⟨-,value,alone,-,told⟩)
    · cases absent
    · exact ⟨value,alone,told.symm⟩
  · rintro ⟨value,alone,told⟩
    exact .inr ⟨rfl,value,alone,by rw [told]; rfl,told.symm⟩

theorem tells_obj : Tells e (.obj members) ↔
    members.foldlM readMember {} = some { tag := some e.tag, failEvery := some e.failEvery } := by
  rw [foldlM_readMember,Settles.filled,Settles.filled]
  constructor
  · rintro ⟨_,tag,number,named,tags,numbers,tagged,numbered⟩
    exact ⟨named,⟨tag,tags,tagged⟩,number,numbers,numbered⟩
  · rintro ⟨named,⟨tag,tags,tagged⟩,number,numbers,numbered⟩
    exact .members members tag number named tags numbers tagged numbered

theorem decode_iff : decode text = some e ↔
    e = e.closed ∧ ∃ written, Written.parse? text = some written ∧ Tells e written := by
  cases parsed : Written.parse? text with
  | none => simp [decode,parsed]
  | some written =>
    simp only [Option.some.injEq,exists_eq_left']
    rw [decode,parsed]
    constructor
    · intro read
      split at read
      · rename_i members same
        obtain rfl := Option.some_inj.mp same
        split at read
        · rename_i tag failEvery folded
          obtain rfl := Option.some_inj.mp read
          exact ⟨rfl,tells_obj.mpr folded⟩
        · cases read
      · rename_i tag number same
        obtain rfl := Option.some_inj.mp same
        split at read
        · rename_i tagged numbered
          obtain rfl := Option.some_inj.mp read
          exact ⟨rfl,.values tag number tagged numbered⟩
        · cases read
      · cases read
    · rintro ⟨closed,tells⟩
      rw [closed]
      cases tells with
      | members members tag number named tags numbers tagged numbered =>
        have folded := tells_obj.mp (.members members tag number named tags numbers tagged numbered)
        simp only [folded]
        rfl
      | values tag number tagged numbered =>
        simp only [tagged,numbered]
        rfl

theorem replicates_yields {template : Template Enricher} (yields : template.Yields e) (n : Nat) :
    template.replicates n = List.replicate n (.copy e) := by
  induction n generalizing template with
  | zero => rfl
  | succ n ih =>
    obtain ⟨next,drawn,yields⟩ := yields.replicate
    rw [Template.replicates,drawn,List.replicate_succ,← ih yields]

/-- An enricher's text is read back as the enricher without its session; so every enricher and every
configuration gives a template, and no copy is ever refused. And a text tells of an enricher just
if it is one of those that `Tells` describes; the enricher is a closed one and has a text of its
own, which is read back as it and is written again as it is. -/
theorem text_canonical :
    (∀ e : Enricher, decode e.encode = some
        { tag := e.tag, failEvery := e.failEvery, session := none, scratch := "" } ∧
      ∃ template, e.template = .ok template ∧
        template.encodedSize? = some e.encode.utf8ByteSize ∧
        ∀ n, template.replicates n = List.replicate n (.copy e.closed)) ∧
    (∀ c : Config, ∃ stock : Pipeline.Stock, Pipeline.Stock.ofConfig c = .ok stock ∧
      stock.template.encodedSize? = some (Pipeline.prototype c).encode.utf8ByteSize ∧
      ∀ n, stock.template.replicates n = List.replicate n (.copy (Pipeline.prototype c))) ∧
    ∀ text e, (decode text = some e ↔
        e = e.closed ∧ ∃ written, Written.parse? text = some written ∧ Tells e written) ∧
      (decode text = some e → decode e.encode = some e ∧
        (decode e.encode).map encode = some e.encode) := by
  refine ⟨fun e => ⟨decode_encode e,_,e.template_eq,rfl,?_⟩,fun c => ?_,fun text e =>
    ⟨decode_iff,fun read => ?_⟩⟩
  · exact replicates_yields (e.yields_closed 1)
  · exact ⟨_,Pipeline.Stock.start_eq ..,rfl,replicates_yields (Enricher.yields_closed _ 1)⟩
  · obtain ⟨closed,-⟩ := decode_iff.mp read
    have again := decode_encode e
    rw [← closed] at again
    exact ⟨again,by rw [again]; rfl⟩

/-- A text with blanks, escapes for halves of one character, and members that nobody asked for. -/
def spelled : String :=
  " \x7b \"fail_every\" : 18446744073709551615 ,\n\"\\u0070refix\":\"\\ud83d\\ude00\\n\\\"é\", " ++
    "\"old\" : [ 1e3 , \x7b\"prefix\": \"\\udead\"\x7d ] \x7d\t"

theorem text_canonical_of_spelled :
    ∃ e : Enricher, e.tag = "😀\n\"é" ∧ e.failEvery = 18446744073709551615 ∧
      decode spelled = some e ∧ e.encode ≠ spelled ∧ decode e.encode = some e ∧
      (decode e.encode).map encode = some e.encode := by
  have read : decode spelled = some { tag := "😀\n\"é", failEvery := 18446744073709551615 } := by
    decide +kernel
  have canonical := (text_canonical.2.2 spelled _).2 read
  exact ⟨_,rfl,rfl,read,by decide,canonical⟩

end Enricher
end PerWorker
