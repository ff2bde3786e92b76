import QuorumKeeper.Text.Blank
import QuorumKeeper.Text.Numeral

/-!
# Durations

A duration is a number of whole seconds and a remainder in nanoseconds. `Duration.parse?` reads the
forms used in a configuration (`500ms`, `5s`, `2m`, plain seconds), and `Duration.text` shows a
duration in its largest unit that has a non-zero whole part.
-/

set_option autoImplicit false

namespace QuorumKeeper

/-- A span of time. -/
structure Duration where
  seconds : Nat
  nanos : Nat
  nanos_lt : nanos < 1000000000 := by decide
  deriving DecidableEq, Repr

namespace Duration

/-- A duration of whole seconds. -/
def ofSeconds (n : Nat) : Duration where
  seconds := n
  nanos := 0

/-- A duration of whole milliseconds. -/
def ofMillis (n : Nat) : Duration where
  seconds := n / 1000
  nanos := n % 1000 * 1000000
  nanos_lt := by omega

/-- Seconds and nanoseconds; full seconds among the nanoseconds are carried over. -/
def ofParts (seconds nanos : Nat) : Duration where
  seconds := seconds + nanos / 1000000000
  nanos := nanos % 1000000000
  nanos_lt := Nat.mod_lt _ (by decide)

/-- No time at all. -/
def isZero (d : Duration) : Bool :=
  d.seconds == 0 && d.nanos == 0

/-- The largest number of seconds, milliseconds or minutes' seconds that can be written. -/
def maxCount : Nat := Nat.pow 2 64 - 1

/-- The unit that stands behind a number in the text of a duration. -/
inductive Unit where
  | second
  | milli
  | minute
  deriving DecidableEq, Repr

/-- The text before its last character, if that is the given one. -/
def stripLast? (c : Char) (cs : List Char) : Option (List Char) :=
  if cs.getLast? = some c then some cs.dropLast else none

/-- The unit at the end of a text and what stands before it; no unit means seconds. -/
def splitUnit (cs : List Char) : Unit × List Char :=
  match stripLast? 's' cs with
  | some rest =>
    match stripLast? 'm' rest with
    | some rest => (.milli, rest)
    | none => (.second, rest)
  | none =>
    match stripLast? 'm' cs with
    | some rest => (.minute, rest)
    | none => (.second, cs)

/-- `n` times the unit, unless the count of seconds is too large. -/
def Unit.times? : Unit → Nat → Option Duration
  | .second, n => some (ofSeconds n)
  | .milli, n => some (ofMillis n)
  | .minute, n => if 60 * n ≤ maxCount then some (ofSeconds (60 * n)) else none

/-- Reads a number with an optional unit; blanks around it are ignored. -/
def parse? (text : String) : Option Duration :=
  let (unit, number) := splitUnit (Text.trim text.toList)
  (Text.boundedNatural? maxCount number).bind unit.times?

/-- A whole part and the digits of a fraction, filled to `places` digits and cut after the last
non-zero one. -/
def fractionText (whole fraction places : Nat) : String :=
  if fraction = 0 then Text.decimal whole
  else
    let digits := Nat.toDigits 10 fraction
    let padded := List.replicate (places - digits.length) '0' ++ digits
    let kept := (padded.reverse.dropWhile (· == '0')).reverse
    Text.decimal whole ++ "." ++ String.ofList kept

/-- The duration in the largest of seconds, milli-, micro- and nanoseconds with a non-zero whole
part. -/
def text (d : Duration) : String :=
  if 0 < d.seconds then fractionText d.seconds d.nanos 9 ++ "s"
  else if 1000000 ≤ d.nanos then fractionText (d.nanos / 1000000) (d.nanos % 1000000) 6 ++ "ms"
  else if 1000 ≤ d.nanos then fractionText (d.nanos / 1000) (d.nanos % 1000) 3 ++ "µs"
  else Text.decimal d.nanos ++ "ns"

end Duration

end QuorumKeeper
