/-!
Double-precision numbers in exact arithmetic: a finite number is a sign and m · 2^q. Rounding a
quotient goes to the nearest representable number, a tie to the even significand, and everything
else here is built on it.
-/
namespace PerWorker

/-- A double-precision number. In a finite one `significand` is below 2^53 and `exponent` at least
-1074; it is at least 2^52 unless the exponent is -1074. -/
inductive Binary64 where
  | nan
  | infinite (negative : Bool)
  | finite (negative : Bool) (significand : Nat) (exponent : Int)
  deriving Repr, DecidableEq, Inhabited

namespace Binary64

/-- The quotient rounded to the nearest integer, a tie to the even one. -/
def roundEven (num den : Nat) : Nat :=
  let floor := num / den
  let twice := 2 * (num % den)
  if twice < den then floor
  else if den < twice then floor + 1
  else if floor % 2 = 0 then floor else floor + 1

/-- The quotient num / (den · 2^q) as a pair of natural numbers. -/
def unscale (num den : Nat) (q : Int) : Nat × Nat :=
  if 0 ≤ q then (num, den * Nat.pow 2 q.toNat) else (num * Nat.pow 2 (-q).toNat, den)

/-- The exponent at which the quotient num / den is written: 53 significant bits, as far as the
smallest exponent allows. -/
def exponentOf (num den : Nat) : Int :=
  let guess : Int := (Nat.log2 num : Int) - (Nat.log2 den : Int) - 52
  let (n, d) := unscale num den guess
  max (if n / d < Nat.pow 2 52 then guess - 1 else guess) (-1074)

/-- The representable number nearest to num / den, or infinity beyond the largest one. -/
def ofRatio (negative : Bool) (num den : Nat) : Binary64 :=
  if num = 0 then .finite negative 0 (-1074)
  else
    let q := exponentOf num den
    let (n, d) := unscale num den q
    let m := roundEven n d
    let (m, q) := if m = Nat.pow 2 53 then (Nat.pow 2 52, q + 1) else (m, q)
    if 971 < q then .infinite negative else .finite negative m q

def ratio (significand : Nat) (exponent : Int) : Nat × Nat :=
  if 0 ≤ exponent then (significand * Nat.pow 2 exponent.toNat, 1)
  else (significand, Nat.pow 2 (-exponent).toNat)

/-- The nearest number to the decimal digits · 10^exponent. -/
def ofDecimal (negative : Bool) (digits : Nat) (exponent : Int) : Binary64 :=
  if 0 ≤ exponent then ofRatio negative (digits * Nat.pow 10 exponent.toNat) 1
  else ofRatio negative digits (Nat.pow 10 (-exponent).toNat)

/-- The product with a positive number, rounded. -/
def mul (x : Binary64) (m : Nat) (q : Int) : Binary64 :=
  match x with
  | .finite negative m' q' =>
    let (a, b) := ratio m' q'
    let (c, d) := ratio m q
    ofRatio negative (a * c) (b * d)
  | other => other

/-- The quotient by a positive number, rounded. -/
def div (x : Binary64) (m : Nat) (q : Int) : Binary64 :=
  match x with
  | .finite negative m' q' =>
    let (a, b) := ratio m' q'
    let (c, d) := ratio m q
    ofRatio negative (a * d) (b * c)
  | other => other

end Binary64
end PerWorker
