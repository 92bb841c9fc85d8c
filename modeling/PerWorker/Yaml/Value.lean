import PerWorker.Binary64.Numeral
import PerWorker.Binary64.Shortest
import PerWorker.Text.Quoted
import PerWorker.Yaml.Event

/-!
What scalars stand for. A plain scalar without a tag may be null, a truth value, an integer, a real
number or else a string; a quoted one is a string; a tag asks for one kind. A value that is not of
the expected kind is described in the message.
-/
namespace PerWorker.Yaml

inductive Value where
  | null
  | bool (value : Bool)
  | int (value : Int)
  | real (value : Binary64)
  | string (value : String)
  deriving Repr, DecidableEq, Inhabited

namespace Value

/-- How a message tells what stands in a place. Integers beyond 64 bits are told apart. -/
def description : Value → String
  | .null => "unit value"
  | .bool value => s!"boolean `{value}`"
  | .int value =>
    let size :=
      if UInt64.size ≤ value then " as u128"
      else if value < Int64.minValue.toInt then " as i128"
      else ""
    s!"integer `{value}`" ++ size
  | .real value =>
    let numeral := match value with
      | .nan => "NaN"
      | .infinite negative => if negative then "-inf" else "inf"
      | .finite negative m q => Binary64.positional negative m q
    s!"floating point `{numeral}`"
  | .string value => "string " ++ Text.quoted value

end Value

namespace Scalar

def isNullWord (text : String) : Bool := ["null", "Null", "NULL", "~"].contains text

def bool? (text : String) : Option Bool :=
  if ["true", "True", "TRUE"].contains text then some true
  else if ["false", "False", "FALSE"].contains text then some false
  else none

def digits? (base : Nat) (digits : List Char) : Option Nat :=
  if digits.isEmpty then none
  else digits.foldlM (fun n c => (hexDigit? c).bind fun d =>
    if d < base then some (n * base + d) else none) 0

/-- A number without a sign: in base 16, 8 or 2 behind its mark, or in base 10 without leading
zeros. -/
def magnitude? (chars : List Char) : Option Nat :=
  match chars with
  | '0' :: 'x' :: rest => digits? 16 rest
  | '0' :: 'o' :: rest => digits? 8 rest
  | '0' :: 'b' :: rest => digits? 2 rest
  | '0' :: _ :: _ => none
  | chars => digits? 10 chars

/-- A number that is not negative and is below a bound, with or without a plus sign. -/
def natural? (bound : Nat) (text : String) : Option Nat :=
  let chars := match text.toList with
    | '+' :: rest => rest
    | chars => chars
  (magnitude? chars).bind fun n => if n < bound then some n else none

def integer? (text : String) : Option Int :=
  match text.toList with
  | '-' :: rest =>
    (magnitude? rest).bind fun n => if n ≤ Nat.pow 2 127 then some (-(n : Int)) else none
  | _ => (natural? (Nat.pow 2 128) text).map (fun n : Nat => (n : Int))

/-- Digits that start with a zero but are not the number zero. -/
def isPadded (text : String) : Bool :=
  let digits := match text.toList with
    | '+' :: rest | '-' :: rest => rest
    | chars => chars
  1 < digits.length && digits.head? = some '0' && digits.all Char.isDigit

/-- A real number. Only the words that start with a point stand for those that are not finite. -/
def real? (text : String) : Option Binary64 :=
  let unsigned := match text.toList with
    | '+' :: rest => rest
    | chars => chars
  let doubleSign := text.toList.head? = some '+' && (unsigned.head?.any fun c => c = '+' || c = '-')
  if doubleSign then none
  else if [".inf", ".Inf", ".INF"].contains (String.ofList unsigned) then some (.infinite false)
  else if ["-.inf", "-.Inf", "-.INF"].contains text then some (.infinite true)
  else if [".nan", ".NaN", ".NAN"].contains text then some .nan
  else
    match Binary64.parse? (String.ofList unsigned) with
    | some (.finite negative m q) => some (.finite negative m q)
    | _ => none

def plainValue (text : String) : Value :=
  if text.isEmpty || isNullWord text then .null
  else
    match bool? text, integer? text, real? text with
    | some b, _, _ => .bool b
    | none, some n, _ => .int n
    | none, none, some x => if isPadded text then .string text else .real x
    | none, none, none => .string text

def standardTag (name : String) : String := "tag:yaml.org,2002:" ++ name

/-- The value of a scalar, or the kind that its tag asks for and it is not of. -/
def value (s : Scalar) : Except String Value :=
  match s.tag with
  | none => .ok (if s.style = .plain then plainValue s.text else .string s.text)
  | some tag =>
    if tag = standardTag "bool" then
      (bool? s.text).elim (.error "a boolean") fun b => .ok (.bool b)
    else if tag = standardTag "int" then
      (integer? s.text).elim (.error "an integer") fun n => .ok (.int n)
    else if tag = standardTag "float" then
      (real? s.text).elim (.error "a float") fun x => .ok (.real x)
    else if tag = standardTag "null" then
      if isNullWord s.text then .ok .null else .error "null"
    else .ok (.string s.text)

/-- Whether a scalar may be read as a number or truth value: if it is plain, or a block that keeps
its lines and has the tag of that kind. -/
def mayBe (s : Scalar) (kind : String) : Bool :=
  s.style = .plain || (s.style = .literal && s.tag = some (standardTag kind))

def isMissing (s : Scalar) : Bool := s.style = .plain && s.text.isEmpty

end Scalar
end PerWorker.Yaml
