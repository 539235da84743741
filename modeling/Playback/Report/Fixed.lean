/-!
# Numbers with a fixed number of places

`Fixed.render places x` writes a finite floating point number with the given number of digits
after the point. The number is first decoded into `m * 2 ^ e`, so the rounding is that of its
exact value: to the nearest, and half-way to the even neighbour.
-/

namespace Playback

namespace Fixed

/-- The quotient rounded to the nearest integer; a half goes to the even one. -/
def roundDiv (n d : Nat) : Nat :=
  let q := n / d
  let twice := 2 * (n % d)
  if d < twice ∨ (twice = d ∧ q % 2 = 1) then q + 1 else q

/-- The bit of the encoding of a number that tells its sign. -/
def signBit : Nat := 0x8000000000000000

/-- The leading bit of a significand, which the encoding leaves out. -/
def hiddenBit : Nat := 0x10000000000000

/-- The significand and the exponent to the base two of a finite number without its sign. -/
def decode (x : Float) : Nat × Int :=
  let bits := x.toBits.toNat % signBit
  let exponent : Nat := bits / hiddenBit
  let fraction : Nat := bits % hiddenBit
  if exponent = 0 then (fraction, -1074) else (fraction + hiddenBit, (exponent : Int) - 1075)

/-- Whether a number has a minus sign. -/
def isNegative (x : Float) : Bool :=
  signBit ≤ x.toBits.toNat

/-- The number without its sign in units of the last place, rounded. -/
def units (places : Nat) (x : Float) : Nat :=
  let (m, e) := decode x
  let scaled := m * Nat.pow 10 places
  if 0 ≤ e then scaled <<< e.toNat else roundDiv scaled (1 <<< (-e).toNat)

/-- Decimal digits, padded with zeros on the left. -/
def padded (width n : Nat) : String :=
  let digits := toString n
  String.ofList (List.replicate (width - digits.length) '0') ++ digits

/-- A finite number with `places` digits after the point. -/
def render (places : Nat) (x : Float) : String :=
  let n := units places x
  let sign := if isNegative x then "-" else ""
  let whole := toString (n / Nat.pow 10 places)
  if places = 0 then sign ++ whole
  else sign ++ whole ++ "." ++ padded places (n % Nat.pow 10 places)

end Fixed

end Playback
