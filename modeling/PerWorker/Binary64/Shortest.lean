import PerWorker.Binary64

/-!
The shortest decimal that reads back. The reals that round to m · 2^q form an interval whose ends
belong to it exactly when m is even; on the grid of decimals with n digits only the two neighbours
of the number itself can be the nearest ones inside, so the first n with a hit gives the fewest
digits.
-/
namespace PerWorker.Binary64

/-- The interval of reals that round to m · 2^q, as numerators over one denominator: lower end,
number, upper end, denominator. Below a power of two the gap is half as wide. -/
def roundingInterval (m : Nat) (q : Int) : Nat × Nat × Nat × Nat :=
  let low := if m = Nat.pow 2 52 ∧ -1074 < q then 4 * m - 1 else 4 * m - 2
  let scale := Nat.pow 2 q.toNat
  let den := 4 * Nat.pow 2 (-q).toNat
  (low * scale, 4 * m * scale, (4 * m + 2) * scale, den)

/-- The decimal exponent e with 10^e ≤ num / den < 10^(e+1), for a positive quotient. -/
def decimalExponent (num den : Nat) : Int :=
  if den ≤ num then ((Nat.toDigits 10 (num / den)).length : Int) - 1
  else
    let zeros := (List.range 400).find? fun j => den ≤ num * Nat.pow 10 (j + 1)
    Int.negSucc (zeros.getD 400)

/-- The decimal with `digits` digits inside the rounding interval that is nearest to the number,
as digits and exponent, if there is one. A tie goes to the even last digit. -/
def onGrid? (digits : Nat) (m : Nat) (q : Int) : Option (Nat × Int) :=
  let (low, num, high, den) := roundingInterval m q
  let exponent := decimalExponent num den - ((digits : Int) - 1)
  let up := Nat.pow 10 exponent.toNat
  let down := Nat.pow 10 (-exponent).toNat
  let unit := den * up
  let below := num * down / unit
  let inside (d : Nat) : Bool :=
    if m % 2 = 0 then low * down ≤ d * unit && d * unit ≤ high * down
    else low * down < d * unit && d * unit < high * down
  let above :=
    if below + 1 = Nat.pow 10 digits then (1, exponent + digits) else (below + 1, exponent)
  let fromBelow := num * down - below * unit
  let fromAbove := (below + 1) * unit - num * down
  match 0 < below && inside below, inside (below + 1) with
  | true, true =>
    if fromBelow < fromAbove ∨ (fromBelow = fromAbove ∧ below % 2 = 0) then some (below, exponent)
    else some above
  | true, false => some (below, exponent)
  | false, true => some above
  | false, false => none

/-- The decimal with the fewest digits that reads back as m · 2^q, for positive m. Seventeen digits
always suffice. -/
def shortest (m : Nat) (q : Int) : Nat × Int :=
  ((List.range 17).findSome? fun n => onGrid? (n + 1) m q).getD (0, 0)

/-- A finite number as a numeral without an exponent, with a digit on both sides of the point. -/
def positional (negative : Bool) (m : Nat) (q : Int) : String :=
  let sign := if negative then "-" else ""
  if m = 0 then sign ++ "0.0"
  else
    let (decimal, exponent) := shortest m q
    let digits := Nat.toDigits 10 decimal
    let point := (digits.length : Int) + exponent
    let zeros (n : Int) := List.replicate n.toNat '0'
    let whole := if point ≤ 0 then ['0'] else digits.take point.toNat ++ zeros exponent
    let fraction :=
      if 0 ≤ exponent then ['0'] else zeros (-point) ++ digits.drop point.toNat
    sign ++ String.ofList whole ++ "." ++ String.ofList fraction

/-- A finite number as a numeral: positional from 10^-5 up to 10^16, with a digit on both sides of
the point, and with an exponent beyond. -/
def numeral (negative : Bool) (m : Nat) (q : Int) : String :=
  let sign := if negative then "-" else ""
  if m = 0 then sign ++ "0.0"
  else
    let (decimal, exponent) := shortest m q
    let digits := Nat.toDigits 10 decimal
    let count := digits.length
    let point := (count : Int) + exponent
    let text (chars : List Char) := String.ofList chars
    let zeros (n : Nat) := List.replicate n '0'
    sign ++
      if 0 ≤ exponent ∧ point ≤ 16 then text (digits ++ zeros exponent.toNat) ++ ".0"
      else if 0 < point ∧ point ≤ 16 then
        text (digits.take point.toNat) ++ "." ++ text (digits.drop point.toNat)
      else if -5 < point ∧ point ≤ 0 then "0." ++ text (zeros (-point).toNat ++ digits)
      else
        let fraction := digits.drop 1
        text (digits.take 1) ++ (if fraction.isEmpty then "" else "." ++ text fraction)
          ++ "e" ++ toString (point - 1)

end PerWorker.Binary64
