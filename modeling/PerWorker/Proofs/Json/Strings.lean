import PerWorker.Json.Written
import Mathlib.Tactic.IntervalCases
import Mathlib.Tactic.SplitIfs

/-!
Strings and whole numbers in JSON texts, written and read back. Main statement: the body of a
written string is taken whole, up to its closing quote, and decodes to the string; the numeral of a
written number is taken whole and is worth that number.
-/
namespace PerWorker.Json

theorem hexValue?_hexDigit {n : Nat} (small : n < 16) : Written.hexValue? (hexDigit n) = some n := by
  interval_cases n <;> rfl

inductive Escaping (c : Char) : List Char → Prop
  | letter (letter : Char) (known : ['"','\\','/','b','f','n','r','t'].contains letter = true)
      (other : letter ≠ 'u')
      (meant : c = if letter = 'b' then '\x08' else if letter = 'f' then '\x0c'
        else if letter = 'n' then '\n' else if letter = 'r' then '\r'
        else if letter = 't' then '\t' else letter) : Escaping c ['\\',letter]
  | unit (small : c.toNat < 0x20) :
      Escaping c ['\\','u','0','0',hexDigit (c.toNat / 16),hexDigit (c.toNat % 16)]
  | plain (quote : c ≠ '"') (backslash : c ≠ '\\') (large : ¬c.toNat < 0x20) : Escaping c [c]

theorem escaped_escaping (c : Char) : Escaping c (escaped c) := by
  unfold escaped
  split_ifs with quote backslash back form line carriage tab small
  · exact .letter '"' rfl (by decide) quote
  · exact .letter '\\' rfl (by decide) backslash
  · exact .letter 'b' rfl (by decide) back
  · exact .letter 'f' rfl (by decide) form
  · exact .letter 'n' rfl (by decide) line
  · exact .letter 'r' rfl (by decide) carriage
  · exact .letter 't' rfl (by decide) tab
  · exact .unit small
  · exact .plain quote backslash small

namespace Written

theorem takeBody_escaped (c : Char) (rest : List Char) :
    takeBody (escaped c ++ rest) =
      (takeBody rest).map fun (body,after) => (escaped c ++ body,after) := by
  have escaping := escaped_escaping c
  generalize escaped c = chars at escaping
  cases escaping with
  | letter letter known other =>
    simp only [List.cons_append,List.nil_append]
    rw [takeBody.eq_4 _ _ (by simp [other]),if_pos known]
  | unit small =>
    have high := hexValue?_hexDigit (n := c.toNat / 16) (by omega)
    have low := hexValue?_hexDigit (n := c.toNat % 16) (by omega)
    have zero : hexValue? '0' = some 0 := rfl
    simp [takeBody,high,low,zero]
  | plain quote backslash large =>
    simp only [List.cons_append,List.nil_append]
    rw [takeBody.eq_5 _ _ (by simp [quote]) (by simp [backslash]) (by simp [backslash]),
      if_neg (by simp [large,backslash])]

theorem decodeBody?_escaped (c : Char) (rest : List Char) :
    decodeBody? (escaped c ++ rest) = (decodeBody? rest).map (c :: ·) := by
  have escaping := escaped_escaping c
  generalize escaped c = chars at escaping
  cases escaping with
  | letter letter known other meant =>
    simp only [List.cons_append,List.nil_append]
    rw [decodeBody?.eq_3 _ _ (by simp [other]),← meant]
  | unit small =>
    have high := hexValue?_hexDigit (n := c.toNat / 16) (by omega)
    have low := hexValue?_hexDigit (n := c.toNat % 16) (by omega)
    have zero : hexValue? '0' = some 0 := rfl
    have value : unit? '0' '0' (hexDigit (c.toNat / 16)) (hexDigit (c.toNat % 16)) =
        some c.toNat := by
      have split : c.toNat / 16 * 16 + c.toNat % 16 = c.toNat := by omega
      simp [unit?,high,low,zero,split]
    have single : ¬(0xD800 ≤ c.toNat ∧ c.toNat < 0xDC00) := by omega
    have whole : ¬(0xDC00 ≤ c.toNat ∧ c.toNat < 0xE000) := by omega
    simp only [List.cons_append,List.nil_append,decodeBody?.eq_2,value,if_neg single,if_neg whole,
      Char.ofNat_toNat]
  | plain quote backslash large =>
    simp only [List.cons_append,List.nil_append]
    rw [decodeBody?.eq_4 _ _ (by simp [backslash]) (by simp [backslash])]

/-- The writer escapes whatever would end a string early, so that the reader finds its end. -/
theorem takeBody_stringBody (chars rest : List Char) :
    takeBody (stringBody chars ++ '"' :: rest) = some (stringBody chars,rest) := by
  induction chars with
  | nil => rfl
  | cons c chars ih =>
    simp only [stringBody,List.flatMap_cons,List.append_assoc] at ih ⊢
    rw [takeBody_escaped,ih]
    rfl

theorem decodeBody?_stringBody (chars : List Char) :
    decodeBody? (stringBody chars) = some chars := by
  induction chars with
  | nil => rfl
  | cons c chars ih =>
    simp only [stringBody,List.flatMap_cons] at ih ⊢
    rw [decodeBody?_escaped,ih]
    rfl

theorem string?_stringBody (s : String) : string? (stringBody s.toList) = some s := by
  rw [string?,decodeBody?_stringBody,Option.map_some,String.ofList_toList]

theorem takeDigits_append {digits rest : List Char} (all : ∀ c ∈ digits, c.isDigit = true)
    (stop : ∀ c, rest.head? = some c → c.isDigit = false) :
    takeDigits (digits ++ rest) = (digits,rest) := by
  have none : rest.takeWhile Char.isDigit = [] ∧ rest.dropWhile Char.isDigit = rest := by
    cases rest with
    | nil => exact ⟨rfl,rfl⟩
    | cons c rest => simp [stop c rfl]
  rw [takeDigits,List.takeWhile_append_of_pos all,List.dropWhile_append_of_pos all,none.1,none.2,
    List.append_nil]

theorem toDigits_head {n : Nat} (positive : 0 < n) : (Nat.toDigits 10 n).head? ≠ some '0' := by
  induction n using Nat.strongRecOn with
  | ind n ih =>
    by_cases small : n < 10
    · rw [Nat.toDigits_of_lt_base small]
      interval_cases n <;> decide
    · have shorter := ih (n / 10) (by omega) (by omega)
      rw [Nat.toDigits_of_base_le (by decide) (by omega)]
      cases digits : Nat.toDigits 10 (n / 10) with
      | nil => exact absurd digits Nat.toDigits_ne_nil
      | cons c rest => simpa [digits] using shorter

theorem takeWhole?_toDigits {n : Nat} {rest : List Char}
    (stop : ∀ c, rest.head? = some c → c.isDigit = false) :
    takeWhole? (Nat.toDigits 10 n ++ rest) = some (Nat.toDigits 10 n,rest) := by
  have all : ∀ c ∈ Nat.toDigits 10 n, c.isDigit = true :=
    fun c member => Nat.isDigit_of_mem_toDigits (by decide) (by decide) member
  rw [takeWhole?,takeDigits_append all stop]
  have some : Nat.toDigits 10 n ≠ [] := Nat.toDigits_ne_nil
  obtain rfl | positive := Nat.eq_zero_or_pos n
  · rfl
  · have head := toDigits_head positive
    cases digits : Nat.toDigits 10 n with
    | nil => exact absurd digits some
    | cons c more =>
      rw [digits] at head
      have nonzero : c ≠ '0' := by simpa using head
      cases more <;> simp [nonzero]

theorem toDigits_cons (n : Nat) :
    ∃ c rest, Nat.toDigits 10 n = c :: rest ∧ c.isDigit = true ∧ c ≠ '-' := by
  cases digits : Nat.toDigits 10 n with
  | nil => exact absurd digits Nat.toDigits_ne_nil
  | cons c rest =>
    have digit : c.isDigit = true := by
      refine Nat.isDigit_of_mem_toDigits (n := n) (b := 10) (by decide) (by decide) ?_
      simp [digits]
    refine ⟨c,rest,rfl,digit,?_⟩
    rintro rfl
    exact absurd digit (by decide)

/-- The numeral of a number is taken whole where no digit, point or exponent comes next. -/
theorem takeNumeral?_toDigits {n : Nat} {c : Char} {rest : List Char} (stop : c.isDigit = false)
    (point : c ≠ '.') (small : c ≠ 'e') (capital : c ≠ 'E') :
    takeNumeral? (Nat.toDigits 10 n ++ c :: rest) = some (Nat.toDigits 10 n,c :: rest) := by
  have whole : takeWhole? (Nat.toDigits 10 n ++ c :: rest) = some (Nat.toDigits 10 n,c :: rest) :=
    takeWhole?_toDigits (by simpa using stop)
  have fraction : takeFraction? (c :: rest) = some ([],c :: rest) := by
    rw [takeFraction?.eq_2 _ (by simp [point])]
  have exponent : takeExponent? (c :: rest) = some ([],c :: rest) := by
    simp [takeExponent?,small,capital]
  obtain ⟨d,digits,same,_,unsigned⟩ := toDigits_cons n
  rw [same] at whole ⊢
  simp only [takeNumeral?]
  split
  next minus => exact absurd (List.cons.inj minus).1 unsigned
  next =>
    dsimp only
    rw [whole]
    simp [fraction,exponent]

/-- A number that fits into a word is read back from its digits. -/
theorem integer?_toDigits {n : Nat} (small : n < UInt64.size) :
    integer? (Nat.toDigits 10 n) = some n := by
  have all : (Nat.toDigits 10 n).all Char.isDigit = true :=
    List.all_eq_true.mpr fun c member => Nat.isDigit_of_mem_toDigits (by decide) (by decide) member
  have value : digitsValue (Nat.toDigits 10 n) = n := by
    have sum := Nat.ofDigitChars_ten_toDigits (n := n)
    simpa only [Nat.ofDigitChars_eq_foldl,digitsValue,Nat.mul_comm] using sum
  obtain ⟨d,digits,same,_,unsigned⟩ := toDigits_cons n
  rw [integer?.eq_2 _ (by simp [same,unsigned])]
  simp [all,value,small]

end Written
end PerWorker.Json
