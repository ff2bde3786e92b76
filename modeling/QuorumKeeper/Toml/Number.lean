import QuorumKeeper.Text.Numeral
import QuorumKeeper.Toml.Value

/-!
# Numbers, dates and times in a document

Decimal numbers may have single underscores between digits and no leading zero; numbers in base two,
eight and sixteen start with `0b`, `0o` and `0x`. Whole numbers must fit into 64 bits. Dates are
those of the calendar, and times those of a day, with a leap second allowed.
-/

set_option autoImplicit false

namespace QuorumKeeper.Toml

/-! ## Runs of digits -/

/-- Digits of a class behind a first one, with single underscores between them. -/
def digitsAfter (isDigit : Char → Bool) : List Char → Option (List Char × List Char)
  | '_' :: c :: rest =>
    if isDigit c then (digitsAfter isDigit rest).map fun (ds, rest) => (c :: ds, rest) else none
  | ['_'] => none
  | c :: rest =>
    if isDigit c then (digitsAfter isDigit rest).map fun (ds, rest) => (c :: ds, rest)
    else some ([], c :: rest)
  | [] => some ([], [])

/-- A run of at least one digit. -/
def digits (isDigit : Char → Bool) : List Char → Option (List Char × List Char)
  | c :: rest =>
    if isDigit c then (digitsAfter isDigit rest).map fun (ds, rest) => (c :: ds, rest) else none
  | [] => none

/-- A run of decimal digits that does not start with a zero, or a single zero. -/
def wholeDigits : List Char → Option (List Char × List Char)
  | '0' :: rest => some (['0'], rest)
  | s => digits Char.isDigit s

/-- A sign, which may be missing: whether it is a minus. -/
def sign : List Char → Bool × List Char
  | '+' :: rest => (false, rest)
  | '-' :: rest => (true, rest)
  | s => (false, s)

/-! ## Numbers -/

/-- The value of a run of digits in a base. -/
def valueIn (base : Nat) (ds : List Char) : Nat :=
  ds.foldl (fun n c => base * n + (Text.hexDigit? c).getD 0) 0

/-- The character is a digit in a base. -/
def isDigitIn (base : Nat) (c : Char) : Bool :=
  match Text.hexDigit? c with
  | some d => d < base
  | none => false

/-- A whole number, if it fits into 64 bits. -/
def integer? (negative : Bool) (n : Nat) : Option Value :=
  if negative then if n ≤ Nat.pow 2 63 then some (.integer (-n)) else none
  else if n < Nat.pow 2 63 then some (.integer n) else none

/-- A number behind the mark of its base. -/
def readInBase (base : Nat) (s : List Char) : Option (Value × List Char) := do
  let (ds, rest) ← digits (isDigitIn base) s
  return (← integer? false (valueIn base ds), rest)

/-- An exponent. -/
def readExponent (s : List Char) : Option (Int × List Char) := do
  let (negative, s) := sign s
  let (ds, rest) ← digits Char.isDigit s
  let n : Int := Text.valueOf ds
  return (if negative then -n else n, rest)

/-- A float with the given digits before and behind the point. -/
def float? (negative : Bool) (whole fraction : List Char) (exponent : Int) : Option Value :=
  let x := Text.Binary64.ofDecimal negative (Text.valueOf (whole ++ fraction))
    (exponent - fraction.length)
  if x = .infinite false then none else some (.float x)

/-- A decimal number: whole, or with a fraction, an exponent or both. -/
def readDecimal (s : List Char) : Option (Value × List Char) := do
  let (negative, s) := sign s
  let (whole, s) ← wholeDigits s
  match s with
  | '.' :: s =>
    let (fraction, s) ← digits Char.isDigit s
    match s with
    | 'e' :: s | 'E' :: s =>
      let (exponent, s) ← readExponent s
      return (← float? negative whole fraction exponent, s)
    | _ => return (← float? negative whole fraction 0, s)
  | 'e' :: s | 'E' :: s =>
    let (exponent, s) ← readExponent s
    return (← float? negative whole [] exponent, s)
  | _ => return (← integer? negative (Text.valueOf whole), s)

/-- Infinity or not a number, possibly with a sign. -/
def readSpecial (s : List Char) : Option (Value × List Char) :=
  match sign s with
  | (negative, 'i' :: 'n' :: 'f' :: rest) => some (.float (.infinite negative), rest)
  | (_, 'n' :: 'a' :: 'n' :: rest) => some (.float .nan, rest)
  | _ => none

/-- A number of any form. -/
def readNumber : List Char → Option (Value × List Char)
  | '0' :: 'x' :: rest => readInBase 16 rest
  | '0' :: 'o' :: rest => readInBase 8 rest
  | '0' :: 'b' :: rest => readInBase 2 rest
  | s => (readSpecial s).or (readDecimal s)

/-! ## Dates and times -/

/-- A number of exactly `n` digits. -/
def fixedDigits (n : Nat) (s : List Char) : Option (Nat × List Char) :=
  let ds := s.take n
  if ds.length = n ∧ ds.all Char.isDigit then some (Text.valueOf ds, s.drop n) else none

/-- One given character. -/
def expect (c : Char) : List Char → Option (List Char)
  | d :: rest => if d = c then some rest else none
  | [] => none

/-- A number of two digits within bounds. -/
def twoDigits (low high : Nat) (s : List Char) : Option (Nat × List Char) := do
  let (n, rest) ← fixedDigits 2 s
  if low ≤ n ∧ n ≤ high then some (n, rest) else none

/-- The number of days of a month. -/
def daysInMonth (year month : Nat) : Nat :=
  let leap := year % 4 = 0 ∧ (year % 100 ≠ 0 ∨ year % 400 = 0)
  if month = 2 then if leap then 29 else 28
  else if month = 4 ∨ month = 6 ∨ month = 9 ∨ month = 11 then 30
  else 31

/-- A date; what follows it. -/
def readDay (s : List Char) : Option (List Char) := do
  let (year, s) ← fixedDigits 4 s
  let (month, s) ← twoDigits 1 12 (← expect '-' s)
  let (_, s) ← twoDigits 1 (daysInMonth year month) (← expect '-' s)
  return s

/-- A time of day; what follows it. -/
def readClock (s : List Char) : Option (List Char) := do
  let (_, s) ← twoDigits 0 23 s
  let (_, s) ← twoDigits 0 59 (← expect ':' s)
  let (_, s) ← twoDigits 0 60 (← expect ':' s)
  match s with
  | '.' :: rest =>
    if (rest.takeWhile Char.isDigit).isEmpty then return s
    else return rest.dropWhile Char.isDigit
  | _ => return s

/-- A distance from universal time; what follows it. -/
def readOffset (s : List Char) : Option (List Char) :=
  match s with
  | 'Z' :: rest | 'z' :: rest => some rest
  | '+' :: rest | '-' :: rest => do
    let (_, rest) ← twoDigits 0 23 rest
    let (_, rest) ← twoDigits 0 59 (← expect ':' rest)
    return rest
  | _ => none

/-- A time of day behind a date, possibly with a distance from universal time. -/
def readClockAfterDay (s : List Char) : List Char :=
  match s with
  | c :: inner =>
    if c = 'T' ∨ c = 't' ∨ c = ' ' then
      match readClock inner with
      | some rest => (readOffset rest).getD rest
      | none => s
    else s
  | [] => s

/-- A date, a time, or both. -/
def readDate (s : List Char) : Option (Value × List Char) :=
  match ((readDay s).map readClockAfterDay).or (readClock s) with
  | some rest => some (.datetime (String.ofList (s.take (s.length - rest.length))), rest)
  | none => none

end QuorumKeeper.Toml
