/-!
# Doubles as bits

Numbers that are not whole are kept as the bits of a double. This module takes the bits apart into
`m * 2 ^ q`, reads a decimal `m * 10 ^ e` into the nearest double, and finds the whole number that a
double is, if it is one. All finite doubles are whole multiples of the least positive one, so that
they can be compared with each other and with whole numbers without rounding.
-/

namespace FreeNames

/-- What the bits of a double stand for, the sign apart. -/
inductive Magnitude where
  /-- The number `m * 2 ^ q`. `edge` says that the next double below is only half a step away. -/
  | finite (m : Nat) (q : Int) (edge : Bool)
  | infinite
  | notANumber

namespace Double

/-- The sign bit. -/
def isNegative (bits : UInt64) : Bool := bits >>> 63 == 1

/-- The number under the sign bit. -/
def magnitude (bits : UInt64) : Magnitude :=
  let exponent := ((bits >>> 52) &&& 0x7ff).toNat
  let fraction := (bits &&& 0xfffffffffffff).toNat
  if exponent = 0x7ff then
    if fraction = 0 then .infinite else .notANumber
  else if exponent = 0 then .finite fraction (-1074) false
  else .finite (0x10000000000000 + fraction) (exponent - 1075) (fraction = 0 && exponent > 1)

/-- The bits of positive infinity. -/
def infinity : UInt64 := 0x7ff0000000000000

/-- The double nearest to `m * 10 ^ e`. Exponents far out of range are settled by the number of
digits, so that no huge power is ever computed. -/
def ofDecimal (m : Nat) (e : Int) : UInt64 :=
  let top := (Nat.toDigits 10 m).length + e
  if m = 0 then 0
  else if top > 310 then infinity
  else if top < -330 then 0
  else if e ≥ 0 then (Float.ofScientific m false e.toNat).toBits
  else (Float.ofScientific m true (-e).toNat).toBits

/-- The whole number that a double is, if it is finite and whole. -/
def toInt? (bits : UInt64) : Option Int :=
  match magnitude bits with
  | .finite m q _ =>
    let sign : Int := if isNegative bits then -1 else 1
    if q ≥ 0 then some (sign * (m * Nat.pow 2 q.toNat : Nat))
    else
      let d := Nat.pow 2 (-q).toNat
      if m % d = 0 then some (sign * (m / d : Nat)) else none
  | _ => none

/-- The least positive double goes into one this many times. -/
def unitsInOne : Int := Nat.pow 2 1074

/-- How often the least positive double goes into a finite one. -/
def units (isNegative : Bool) (m : Nat) (q : Int) : Int :=
  (if isNegative then -1 else 1) * (m * Nat.pow 2 (q + 1074).toNat : Nat)

end Double

end FreeNames
