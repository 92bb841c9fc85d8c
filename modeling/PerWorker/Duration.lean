import PerWorker.Text.Blank

/-!
Lengths of time, in whole nanoseconds, and their text: amounts with units that add up. An amount
may have a fraction, and blanks may stand between amounts, units and digits.
-/
namespace PerWorker

abbrev nanosecondsPerSecond : Nat := 1000000000

/-- A length of time whose seconds fit in 64 bits. -/
structure Duration where
  nanoseconds : Nat
  fits : nanoseconds / nanosecondsPerSecond < UInt64.size := by decide
  deriving Repr, DecidableEq

namespace Duration

instance : Inhabited Duration := ⟨{ nanoseconds := 0 }⟩

def seconds (d : Duration) : Nat := d.nanoseconds / nanosecondsPerSecond

def subsecond (d : Duration) : Nat := d.nanoseconds % nanosecondsPerSecond

def ofNanoseconds? (n : Nat) : Option Duration :=
  if h : n / nanosecondsPerSecond < UInt64.size then some { nanoseconds := n, fits := h } else none

def ofSeconds (n : UInt64) : Duration where
  nanoseconds := n.toNat * nanosecondsPerSecond
  fits := by simpa [nanosecondsPerSecond] using n.toNat_lt

inductive TimeUnit where
  | nanosecond
  | microsecond
  | millisecond
  | second
  | minute
  | hour
  | day
  | week
  | month
  | year
  deriving Repr, DecidableEq, Inhabited

namespace TimeUnit

/-- The unit of that name. Only the month has a name in a capital letter. -/
def ofName? : String → Option TimeUnit
  | "nanos" | "nsec" | "ns" => some .nanosecond
  | "usec" | "us" | "µs" => some .microsecond
  | "millis" | "msec" | "ms" => some .millisecond
  | "seconds" | "second" | "secs" | "sec" | "s" => some .second
  | "minutes" | "minute" | "min" | "mins" | "m" => some .minute
  | "hours" | "hour" | "hrs" | "hr" | "h" => some .hour
  | "days" | "day" | "d" => some .day
  | "weeks" | "week" | "wk" | "wks" | "w" => some .week
  | "months" | "month" | "M" => some .month
  | "years" | "year" | "yr" | "yrs" | "y" => some .year
  | _ => none

/-- A unit below the second in nanoseconds, a longer one in seconds. -/
inductive Scale where
  | nanoseconds (n : Nat)
  | seconds (n : Nat)
  deriving Repr, DecidableEq, Inhabited

/-- The size of a unit. A year has 365.25 days and a month 30.44. -/
def scale : TimeUnit → Scale
  | .nanosecond => .nanoseconds 1
  | .microsecond => .nanoseconds 1000
  | .millisecond => .nanoseconds 1000000
  | .second => .seconds 1
  | .minute => .seconds 60
  | .hour => .seconds 3600
  | .day => .seconds 86400
  | .week => .seconds 604800
  | .month => .seconds 2630016
  | .year => .seconds 31557600

/-- How finely a fraction of a unit is told: to the nanosecond up to the minute, to the second
beyond. A nanosecond has no fractions. -/
def fractionScale? : TimeUnit → Option Scale
  | .nanosecond => none
  | .second => some (.nanoseconds 1000000000)
  | .minute => some (.nanoseconds 60000000000)
  | unit => some unit.scale

end TimeUnit

def word? (n : Nat) : Option Nat := if n < UInt64.size then some n else none

/-- The part `num / den` of a scale, rounded down, as seconds and nanoseconds. Nothing where the
product before the division leaves 64 bits. -/
def TimeUnit.Scale.part? (scale : TimeUnit.Scale) (num den : Nat) : Option (Nat × Nat) :=
  match scale with
  | .nanoseconds k => (word? (num * k)).map fun product => (0, product / den)
  | .seconds k => (word? (num * k)).map fun product => (product / den, 0)

/-- The sum with seconds and nanoseconds. The nanoseconds together, and the seconds of the sum, have
to fit in 64 bits. -/
def add? (d : Duration) (part : Nat × Nat) : Option Duration := do
  let _ ← word? (d.subsecond + part.2)
  ofNanoseconds? (d.nanoseconds + part.1 * nanosecondsPerSecond + part.2)

structure Amount where
  whole : List Char
  fraction : Option (List Char)
  unit : String
  deriving Repr, DecidableEq, Inhabited

namespace Amount

private def decimal (digits : List Char) : Nat :=
  digits.foldl (fun n c => n * 10 + (c.toNat - '0'.toNat)) 0

def addTo? (amount : Amount) (d : Duration) : Option Duration := do
  let unit ← TimeUnit.ofName? amount.unit
  let whole ← word? (decimal amount.whole)
  let d ← d.add? (← unit.scale.part? whole 1)
  match amount.fraction with
  | none => return d
  | some [] => none
  | some digits =>
    let num ← word? (decimal digits)
    let den ← word? (Nat.pow 10 digits.length)
    d.add? (← (← unit.fractionScale?).part? num den)

private def isLetter (c : Char) : Bool := c.isAlpha || c = 'µ'

private def isInNumber (c : Char) : Bool := c.isDigit || Text.isBlank c

/-- The amount at the start of a text, and what follows it. Digits may be apart. -/
def split (chars : List Char) : Amount × List Char :=
  let digits (chars : List Char) := (chars.takeWhile isInNumber).filter Char.isDigit
  let beyond (chars : List Char) := chars.dropWhile isInNumber
  let (fraction, rest) := match beyond chars with
    | '.' :: rest => (some (digits rest), beyond rest)
    | rest => (none, rest)
  ({ whole := digits chars, fraction, unit := String.ofList (rest.takeWhile isLetter) },
    rest.dropWhile isLetter)

end Amount

/-- Adds the amounts of a text, at most `fuel` of them. Each one starts with a digit. -/
def sumAmounts? (d : Duration) (chars : List Char) : Nat → Option Duration
  | 0 => none
  | fuel + 1 =>
    match chars.dropWhile Text.isBlank with
    | [] => some d
    | c :: rest =>
      if c.isDigit then
        let (amount, rest) := Amount.split (c :: rest)
        (amount.addTo? d).bind fun d => sumAmounts? d rest fuel
      else none

def parse? (text : String) : Option Duration :=
  let chars := text.toList
  if text = "0" then some { nanoseconds := 0 }
  else if chars.all Text.isBlank then none
  else sumAmounts? { nanoseconds := 0 } chars (chars.length + 1)

/-- The text of a length of time: the largest units first, as many of each as there are, and only
units that occur. -/
def text (d : Duration) : String :=
  let day := d.seconds % 31557600 % 2630016
  let long (n : Nat) (name : String) : List String :=
    if n = 0 then [] else [toString n ++ name ++ if n = 1 then "" else "s"]
  let short (n : Nat) (name : String) : List String := if n = 0 then [] else [toString n ++ name]
  let parts :=
    long (d.seconds / 31557600) "year" ++ long (d.seconds % 31557600 / 2630016) "month"
      ++ long (day / 86400) "day" ++ short (day % 86400 / 3600) "h" ++ short (day % 3600 / 60) "m"
      ++ short (day % 60) "s" ++ short (d.subsecond / 1000000) "ms"
      ++ short (d.subsecond / 1000 % 1000) "us" ++ short (d.subsecond % 1000) "ns"
  if parts.isEmpty then "0s" else " ".intercalate parts

end Duration
end PerWorker
