import PerWorker.Json

/-!
JSON texts read back. A text is first taken apart without looking into its strings and numerals
(`Written.parse?`), so a reader that ignores a member accepts whatever is well formed there; a
string or numeral that is used is then decoded on its own. `Written.toJson` decodes everything and
refuses a value whose containers nest too deep.
-/
namespace PerWorker.Json

/-- A well-formed text: strings hold the characters between their quotes with the escapes still in
place, numerals the characters they are written with. -/
inductive Written where
  | null
  | bool (value : Bool)
  | number (numeral : List Char)
  | str (body : List Char)
  | arr (items : List Written)
  | obj (members : List (List Char × Written))
  deriving Repr, Inhabited

namespace Written

def isBlank (c : Char) : Bool := c = ' ' || c = '\n' || c = '\t' || c = '\r'

def skipBlanks (chars : List Char) : List Char := chars.dropWhile isBlank

def hexValue? (c : Char) : Option Nat :=
  if '0' ≤ c ∧ c ≤ '9' then some (c.toNat - '0'.toNat)
  else if 'a' ≤ c ∧ c ≤ 'f' then some (c.toNat - 'a'.toNat + 10)
  else if 'A' ≤ c ∧ c ≤ 'F' then some (c.toNat - 'A'.toNat + 10)
  else none

/-- The characters up to the closing quote, and what follows it. Control characters and unknown
escapes are refused. -/
def takeBody : List Char → Option (List Char × List Char)
  | [] => none
  | '"' :: rest => some ([], rest)
  | '\\' :: 'u' :: a :: b :: c :: d :: rest =>
    if [a, b, c, d].all (fun h => (hexValue? h).isSome) then
      (takeBody rest).map fun (body, after) => ('\\' :: 'u' :: a :: b :: c :: d :: body, after)
    else none
  | '\\' :: c :: rest =>
    if ['"', '\\', '/', 'b', 'f', 'n', 'r', 't'].contains c then
      (takeBody rest).map fun (body, after) => ('\\' :: c :: body, after)
    else none
  | c :: rest =>
    if c.toNat < 0x20 ∨ c = '\\' then none
    else (takeBody rest).map fun (body, after) => (c :: body, after)

def takeDigits (chars : List Char) : List Char × List Char :=
  (chars.takeWhile Char.isDigit, chars.dropWhile Char.isDigit)

/-- The integer part of a numeral: a lone zero, or digits that do not start with zero. -/
def takeWhole? (chars : List Char) : Option (List Char × List Char) :=
  match takeDigits chars with
  | ([], _) => none
  | ('0' :: _ :: _, _) => none
  | found => some found

def takeFraction? : List Char → Option (List Char × List Char)
  | '.' :: rest =>
    match takeDigits rest with
    | ([], _) => none
    | (digits, after) => some ('.' :: digits, after)
  | rest => some ([], rest)

def takeExponent? : List Char → Option (List Char × List Char)
  | c :: rest =>
    if c = 'e' ∨ c = 'E' then
      let (sign, unsigned) := match rest with
        | '+' :: more => (['+'], more)
        | '-' :: more => (['-'], more)
        | more => ([], more)
      match takeDigits unsigned with
      | ([], _) => none
      | (digits, after) => some (c :: (sign ++ digits), after)
    else some ([], c :: rest)
  | [] => some ([], [])

def takeNumeral? (chars : List Char) : Option (List Char × List Char) := do
  let (sign, unsigned) := match chars with
    | '-' :: rest => (['-'], rest)
    | rest => ([], rest)
  let (whole, afterWhole) ← takeWhole? unsigned
  let (fraction, afterFraction) ← takeFraction? afterWhole
  let (exponent, after) ← takeExponent? afterFraction
  return (sign ++ whole ++ fraction ++ exponent, after)

mutual
/-- The value in front and what follows it. `fuel` bounds the number of nested and neighbouring
values; twice the length of the text is always enough. -/
def takeValue (fuel : Nat) (chars : List Char) : Option (Written × List Char) :=
  match fuel with
  | 0 => none
  | fuel + 1 =>
    match skipBlanks chars with
    | 'n' :: 'u' :: 'l' :: 'l' :: rest => some (.null, rest)
    | 't' :: 'r' :: 'u' :: 'e' :: rest => some (.bool true, rest)
    | 'f' :: 'a' :: 'l' :: 's' :: 'e' :: rest => some (.bool false, rest)
    | '"' :: rest => (takeBody rest).map fun (body, after) => (.str body, after)
    | '[' :: rest =>
      match skipBlanks rest with
      | ']' :: after => some (.arr [], after)
      | more => (takeItems fuel more).map fun (items, after) => (.arr items, after)
    | '\x7b' :: rest =>
      match skipBlanks rest with
      | '\x7d' :: after => some (.obj [], after)
      | more => (takeMembers fuel more).map fun (members, after) => (.obj members, after)
    | more => (takeNumeral? more).map fun (numeral, after) => (.number numeral, after)

def takeItems (fuel : Nat) (chars : List Char) : Option (List Written × List Char) :=
  match fuel with
  | 0 => none
  | fuel + 1 => do
    let (item, after) ← takeValue fuel chars
    match skipBlanks after with
    | ']' :: rest => return ([item], rest)
    | ',' :: rest =>
      let (items, final) ← takeItems fuel rest
      return (item :: items, final)
    | _ => none

def takeMembers (fuel : Nat) (chars : List Char) :
    Option (List (List Char × Written) × List Char) :=
  match fuel with
  | 0 => none
  | fuel + 1 => do
    match skipBlanks chars with
    | '"' :: afterQuote =>
      let (name, afterName) ← takeBody afterQuote
      match skipBlanks afterName with
      | ':' :: afterColon =>
        let (value, after) ← takeValue fuel afterColon
        match skipBlanks after with
        | '\x7d' :: rest => return ([(name, value)], rest)
        | ',' :: rest =>
          let (members, final) ← takeMembers fuel rest
          return ((name, value) :: members, final)
        | _ => none
      | _ => none
    | _ => none
end

def parse? (text : String) : Option Written :=
  let chars := text.toList
  match takeValue (2 * chars.length + 2) chars with
  | some (value, rest) => if (skipBlanks rest).isEmpty then some value else none
  | none => none

def unit? (a b c d : Char) : Option Nat := do
  let a ← hexValue? a
  let b ← hexValue? b
  let c ← hexValue? c
  let d ← hexValue? d
  return ((a * 16 + b) * 16 + c) * 16 + d

/-- The characters of a string. An escaped surrogate counts only as the first half of a pair whose
second half follows at once. -/
def decodeBody? : List Char → Option (List Char)
  | [] => some []
  | '\\' :: 'u' :: a :: b :: c :: d :: rest =>
    match unit? a b c d with
    | none => none
    | some unit =>
      if 0xD800 ≤ unit ∧ unit < 0xDC00 then
        match rest with
        | '\\' :: 'u' :: e :: f :: g :: h :: more =>
          match unit? e f g h with
          | none => none
          | some low =>
            if 0xDC00 ≤ low ∧ low < 0xE000 then
              (decodeBody? more).map
                (Char.ofNat (0x10000 + (unit - 0xD800) * 0x400 + (low - 0xDC00)) :: ·)
            else none
        | _ => none
      else if 0xDC00 ≤ unit ∧ unit < 0xE000 then none
      else (decodeBody? rest).map (Char.ofNat unit :: ·)
  | '\\' :: c :: rest =>
    let meant := if c = 'b' then '\x08' else if c = 'f' then '\x0c' else if c = 'n' then '\n'
      else if c = 'r' then '\r' else if c = 't' then '\t' else c
    (decodeBody? rest).map (meant :: ·)
  | c :: rest => (decodeBody? rest).map (c :: ·)

def string? (body : List Char) : Option String := (decodeBody? body).map String.ofList

def digitsValue (digits : List Char) : Nat :=
  digits.foldl (fun n c => n * 10 + (c.toNat - '0'.toNat)) 0

/-- The integer that a numeral writes: no fraction, no exponent, no minus before zero, and within
the signed or unsigned 64-bit range. Every other numeral is a real number. -/
def integer? (numeral : List Char) : Option Int :=
  match numeral with
  | '-' :: digits =>
    let n := digitsValue digits
    if digits.all Char.isDigit ∧ 0 < n ∧ n ≤ UInt64.size / 2 then some (-(n : Int)) else none
  | digits =>
    let n := digitsValue digits
    if digits.all Char.isDigit ∧ n < UInt64.size then some n else none

def maxDepth : Nat := 127

/-- Why a well-formed text is no value. -/
inductive Fault where
  | tooDeep
  | loneSurrogate
  deriving Repr, DecidableEq

mutual
/-- The value of a text whose containers nest at most `depth` deep. -/
def toJson (depth : Nat) : Written → Except Fault Json
  | .null => .ok .null
  | .bool b => .ok (.bool b)
  | .number numeral =>
    .ok (match integer? numeral with
      | some n => .int n
      | none => .real (String.ofList numeral))
  | .str body =>
    match string? body with
    | some s => .ok (.str s)
    | none => .error .loneSurrogate
  | .arr items =>
    match depth with
    | 0 => .error .tooDeep
    | depth + 1 => (itemsToJson depth items).map .arr
  | .obj members =>
    match depth with
    | 0 => .error .tooDeep
    | depth + 1 => (membersToJson depth members).map .obj

def itemsToJson (depth : Nat) : List Written → Except Fault (List Json)
  | [] => .ok []
  | item :: rest => do
    let value ← toJson depth item
    return value :: (← itemsToJson depth rest)

def membersToJson (depth : Nat) : List (List Char × Written) → Except Fault (List (String × Json))
  | [] => .ok []
  | (name, item) :: rest => do
    match string? name with
    | none => .error .loneSurrogate
    | some name =>
      let value ← toJson depth item
      return (name, value) :: (← membersToJson depth rest)
end

end Written

def parse? (text : String) : Option Json :=
  match Written.parse? text with
  | some written => (written.toJson text.length).toOption
  | none => none

end PerWorker.Json
