/-!
# Numbers of 64-bit floating point

A finite number is a sign, a whole significand below `2 ^ 53` and a power of two. `ofDecimal` rounds
a decimal number to the nearest such number, to the even significand on a tie, and `text` writes one
with the fewest decimal digits that are still nearer to it than to any other number. Both work on
whole numbers only.
-/

set_option autoImplicit false

namespace QuorumKeeper.Text

/-- A number of 64-bit floating point. A finite one is `significand * 2 ^ exponent`, with its sign.
-/
inductive Binary64 where
  | nan
  | infinite (negative : Bool)
  | finite (negative : Bool) (significand : Nat) (exponent : Int)
  deriving DecidableEq, Repr

namespace Binary64

/-- The least exponent. -/
def minExponent : Int := -1074

/-- The greatest exponent. -/
def maxExponent : Int := 971

/-- The quotient rounded to the nearest whole number, a tie to the even one. -/
def roundDiv (num den : Nat) : Nat :=
  let q := num / den
  let r := num % den
  if 2 * r < den then q
  else if den < 2 * r then q + 1
  else if q % 2 = 0 then q
  else q + 1

/-- `num / den / 2 ^ e` as a numerator and a denominator. -/
def scaled (num den : Nat) (e : Int) : Nat × Nat :=
  if 0 ≤ e then (num, den * Nat.pow 2 e.toNat) else (num * Nat.pow 2 (-e).toNat, den)

/-- The number nearest to a positive fraction. -/
def ofFraction (negative : Bool) (num den : Nat) : Binary64 :=
  let guess : Int := (Nat.log2 num : Int) - (Nat.log2 den : Int) - 53
  let fits := fun (e : Int) => (scaled num den e).1 / (scaled num den e).2 < Nat.pow 2 53
  let e := if fits guess then guess else if fits (guess + 1) then guess + 1 else guess + 2
  let e := if e < minExponent then minExponent else e
  let m := roundDiv (scaled num den e).1 (scaled num den e).2
  let (m, e) := if m = Nat.pow 2 53 then (Nat.pow 2 52, e + 1) else (m, e)
  if maxExponent < e then infinite negative
  else if m = 0 then finite negative 0 0
  else finite negative m e

/-- The number nearest to `digits * 10 ^ exponent`. -/
def ofDecimal (negative : Bool) (digits : Nat) (exponent : Int) : Binary64 :=
  if digits = 0 then finite negative 0 0
  else
    let magnitude := ((Nat.toDigits 10 digits).length : Int) + exponent
    if 310 < magnitude then infinite negative
    else if magnitude < -330 then finite negative 0 0
    else if 0 ≤ exponent then ofFraction negative (digits * Nat.pow 10 exponent.toNat) 1
    else ofFraction negative digits (Nat.pow 10 (-exponent).toNat)

/-- The fraction `m * 2 ^ e / 10 ^ k` as a numerator and a denominator. -/
def onGrid (m : Nat) (e k : Int) : Nat × Nat :=
  let (num, den) := if 0 ≤ e then (m * Nat.pow 2 e.toNat, 1) else (m, Nat.pow 2 (-e).toNat)
  if 0 ≤ k then (num, den * Nat.pow 10 k.toNat) else (num * Nat.pow 10 (-k).toNat, den)

/-- A multiple of `10 ^ k` that reads back as the number, the nearest one if there are two. -/
def hit? (m : Nat) (e k : Int) : Option Nat :=
  -- everything is counted in quarters of the last place
  let quarter := e - 2
  let value := onGrid (4 * m) quarter k
  let below := if m = Nat.pow 2 52 ∧ minExponent < e then 1 else 2
  let low := onGrid (4 * m - below) quarter k
  let high := onGrid (4 * m + 2) quarter k
  let inside := fun (d : Nat) =>
    let (ln, ld) := low
    let (hn, hd) := high
    if m % 2 = 0 then ln ≤ d * ld && d * hd ≤ hn else ln < d * ld && d * hd < hn
  let (vn, vd) := value
  let d := vn / vd
  let lower := 0 < d && inside d
  let upper := inside (d + 1)
  if lower && upper then
    if 2 * (vn % vd) ≤ vd then some d else some (d + 1)
  else if lower then some d
  else if upper then some (d + 1)
  else none

/-- The largest power of ten, from `k` downwards, on whose grid a decimal reads back as the number;
the decimal comes with it. -/
def shortestFrom (m : Nat) (e : Int) : (fuel : Nat) → (k : Int) → Nat × Int
  | 0, k => (0, k)
  | fuel + 1, k =>
    match hit? m e k with
    | some d => (d, k)
    | none => shortestFrom m e fuel (k - 1)

/-- The shortest decimal of a positive number: digits and a power of ten. -/
def shortest (m : Nat) (e : Int) : Nat × Int :=
  shortestFrom m e 800 (((Nat.log2 m : Int) + e) * 3 / 10 + 2)

/-- Digits with a power of ten, written without an exponent; a whole number keeps one zero behind
the point. -/
def positional (digits : Nat) (k : Int) : String :=
  let ds := Nat.toDigits 10 digits
  if 0 ≤ k then String.ofList (ds ++ List.replicate k.toNat '0') ++ ".0"
  else
    let places := (-k).toNat
    let padded := List.replicate (places + 1 - ds.length) '0' ++ ds
    let whole := padded.take (padded.length - places)
    let fraction := padded.drop (padded.length - places)
    String.ofList (whole ++ '.' :: fraction)

/-- The text of a number, with a point if it is finite. -/
def text : Binary64 → String
  | nan => "NaN"
  | infinite negative => if negative then "-inf" else "inf"
  | finite negative m e =>
    let body :=
      if m = 0 then "0.0"
      else
        let (d, k) := shortest m e
        positional d k
    if negative then "-" ++ body else body

end Binary64

end QuorumKeeper.Text
