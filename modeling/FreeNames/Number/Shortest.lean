import FreeNames.Number.Double

/-!
# The shortest text of a double

A double is written with the fewest decimal digits that read back as the same double, and of the
decimals with that many digits the nearest one. The digits are found in exact arithmetic: the
reals that round to `m * 2 ^ q` form an interval, and for one, two, and more digits the two
neighbours of the number on that decimal grid are tried.

`Double.text` then lays the digits out: positionally from `0.0001` up to sixteen digits before the
point, with an exponent of at least two digits otherwise.
-/

namespace FreeNames.Double

/-- The least `p ≤ bound` with `num * 10 ^ p ≥ den`. -/
def leadingZeros (num den : Nat) : Nat → Nat
  | 0 => 0
  | bound + 1 => if num ≥ den then 0 else leadingZeros (num * 10) den bound + 1

/-- The `p` with `10 ^ (p - 1) ≤ num / den < 10 ^ p`. -/
def pointPlace (num den : Nat) : Int :=
  if num ≥ den then (Nat.toDigits 10 (num / den)).length
  else 1 - (leadingZeros num den 400 : Int)

/-- The interval of reals that round to one double, in units of `1 / den`. -/
structure Interval where
  low : Nat
  value : Nat
  high : Nat
  den : Nat
  /-- Whether the ends belong to it. -/
  closed : Bool

/-- The interval around `m * 2 ^ q`. -/
def interval (m : Nat) (q : Int) (edge : Bool) : Interval :=
  let scale := Nat.pow 2 (q - 2).toNat
  { low := (4 * m - if edge then 1 else 2) * scale
    value := 4 * m * scale
    high := (4 * m + 2) * scale
    den := Nat.pow 2 (2 - q).toNat
    closed := m % 2 = 0 }

/-- Whether `c * 10 ^ g` lies in the interval. -/
def Interval.has (i : Interval) (c : Nat) (g : Int) : Bool :=
  let x := c * Nat.pow 10 g.toNat * i.den
  let down := Nat.pow 10 (-g).toNat
  if i.closed then i.low * down ≤ x && x ≤ i.high * down
  else i.low * down < x && x < i.high * down

/-- The neighbour of the number on the grid of `10 ^ g` that reads back, the nearer one if both do,
the even one at a tie. -/
def Interval.onGrid (i : Interval) (g : Int) : Option Nat :=
  let num := i.value * Nat.pow 10 (-g).toNat
  let den := i.den * Nat.pow 10 g.toNat
  let c := num / den
  let rest := num % den
  match i.has c g, i.has (c + 1) g with
  | true, false => some c
  | false, true => some (c + 1)
  | false, false => none
  | true, true =>
    if 2 * rest < den then some c
    else if 2 * rest > den then some (c + 1)
    else some (if c % 2 = 0 then c else c + 1)

/-- Tries grids with more and more digits. -/
def Interval.search (i : Interval) (p : Int) (count : Nat) : Nat → Nat × Int
  | 0 => (i.value * Nat.pow 10 (count - p).toNat / (i.den * Nat.pow 10 (p - count).toNat), p - count)
  | more + 1 =>
    match i.onGrid (p - count) with
    | some c => (c, p - count)
    | none => i.search p (count + 1) more

/-- The shortest digits of `m * 2 ^ q` and the power of ten of the last one. -/
def shortest (m : Nat) (q : Int) (edge : Bool) : Nat × Int :=
  let i := interval m q edge
  i.search (pointPlace i.value i.den) 1 17

/-- Digits and a power of ten, without zeros at the end of the digits. -/
def trim (c : Nat) (g : Int) : Nat → Nat × Int
  | 0 => (c, g)
  | n + 1 => if c % 10 = 0 && c ≠ 0 then trim (c / 10) (g + 1) n else (c, g)

/-- At least two digits of an exponent. -/
def exponentText (e : Int) : String :=
  let ds := toString e.natAbs
  (if e < 0 then "e-" else "e+") ++ (if ds.length < 2 then "0" ++ ds else ds)

/-- The digits `c * 10 ^ g` laid out. -/
def layout (c : Nat) (g : Int) : String :=
  let ds := Nat.toDigits 10 c
  let place : Int := ds.length + g
  if -4 < place && place ≤ 16 then
    if place ≤ 0 then
      "0." ++ String.ofList (List.replicate (-place).toNat '0' ++ ds)
    else if g ≥ 0 then
      String.ofList (ds ++ List.replicate g.toNat '0') ++ ".0"
    else
      String.ofList (ds.take place.toNat) ++ "." ++ String.ofList (ds.drop place.toNat)
  else
    let fraction := if ds.length > 1 then "." ++ String.ofList (ds.drop 1) else ""
    String.ofList (ds.take 1) ++ fraction ++ exponentText (place - 1)

/-- The text of a double. -/
def text (bits : UInt64) : String :=
  let sign := if isNegative bits then "-" else ""
  match magnitude bits with
  | .notANumber => "nan"
  | .infinite => sign ++ "inf"
  | .finite 0 _ _ => sign ++ "0.0"
  | .finite m q edge =>
    let (c, g) := shortest m q edge
    let (c, g) := trim c g 20
    sign ++ layout c g

end FreeNames.Double
