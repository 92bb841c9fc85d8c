import PerWorker.Binary64

/-!
Two readers of real numerals. `parse?` takes the free spelling of a configuration or test text and
rounds correctly. `ofJson?` takes a JSON numeral the fast way: the digits become one double, which
is then multiplied or divided by a power of ten, so the last bit may differ from the nearest
number.
-/
namespace PerWorker.Binary64

private def digitsIn (chars : List Char) : List Char × List Char :=
  (chars.takeWhile Char.isDigit, chars.dropWhile Char.isDigit)

private def decimalValue (digits : List Char) : Nat :=
  digits.foldl (fun n c => n * 10 + (c.toNat - '0'.toNat)) 0

/-- A signed run of at least one digit that ends the text. -/
private def exponent? (chars : List Char) : Option Int :=
  let (negative, unsigned) := match chars with
    | '-' :: rest => (true, rest)
    | '+' :: rest => (false, rest)
    | rest => (false, rest)
  match digitsIn unsigned with
  | ([], _) => none
  | (digits, []) => some (if negative then -(decimalValue digits : Int) else decimalValue digits)
  | _ => none

/-- A real number in the usual spellings: an optional sign, then `inf`, `infinity` or `nan` in any
case, or digits with an optional point and exponent. -/
def parse? (text : String) : Option Binary64 :=
  let (negative, unsigned) := match text.toList with
    | '-' :: rest => (true, rest)
    | '+' :: rest => (false, rest)
    | rest => (false, rest)
  match String.ofList (unsigned.map Char.toLower) with
  | "inf" | "infinity" => some (.infinite negative)
  | "nan" => some .nan
  | _ =>
    let (whole, afterWhole) := digitsIn unsigned
    let (fraction, afterFraction) := match afterWhole with
      | '.' :: rest => digitsIn rest
      | rest => ([], rest)
    if whole.isEmpty && fraction.isEmpty then none
    else
      let exponent := match afterFraction with
        | [] => some 0
        | c :: rest => if c = 'e' ∨ c = 'E' then exponent? rest else none
      exponent.map fun e =>
        let e := max (-100000) (min 100000 e)
        ofDecimal negative (decimalValue (whole ++ fraction)) (e - fraction.length)

/-- Digits read into a 64-bit word: those that would overflow it are dropped, and their number is
reported. -/
private def word (start : Nat) : List Char → Nat × Nat
  | [] => (start, 0)
  | c :: rest =>
    let next := start * 10 + (c.toNat - '0'.toNat)
    if next < UInt64.size then word next rest else (start, rest.length + 1)

/-- Divides by 10^308 until the remaining power of ten is in range. -/
private def divideOut (steps : Nat) (x : Binary64) (exponent : Int) : Binary64 × Int :=
  match steps with
  | 0 => (x, exponent)
  | steps + 1 =>
    if exponent < -308 then
      match ofDecimal false 1 308 with
      | .finite _ m q => divideOut steps (x.div m q) (exponent + 308)
      | _ => (x, exponent)
    else (x, exponent)

/-- The number that a JSON numeral gives, or nothing beyond the largest double. -/
def ofJson? (numeral : String) : Option Binary64 :=
  let (negative, unsigned) := match numeral.toList with
    | '-' :: rest => (true, rest)
    | rest => (false, rest)
  let (whole, afterWhole) := digitsIn unsigned
  let (fraction, afterFraction) := match afterWhole with
    | '.' :: rest => digitsIn rest
    | rest => ([], rest)
  let (w, droppedWhole) := word 0 whole
  let (significand, taken) :=
    if droppedWhole = 0 then
      let (all, dropped) := word w fraction
      (all, fraction.length - dropped)
    else (w, 0)
  let written : Int := match afterFraction with
    | _ :: rest => (exponent? rest).getD 0
    | [] => 0
  let exponent : Int := written + droppedWhole - taken
  let start := ofRatio negative significand 1
  if significand = 0 then some start
  else if 308 < exponent then none
  else if 0 ≤ exponent then
    match ofDecimal false 1 exponent with
    | .finite _ m q =>
      match start.mul m q with
      | .infinite _ => none
      | product => some product
    | _ => none
  else
    let (x, exponent) := divideOut 4 start exponent
    match ofDecimal false 1 (-exponent) with
    | .finite _ m q => some (x.div m q)
    | _ => some x

end PerWorker.Binary64
