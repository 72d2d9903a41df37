import CandleHistory.Number.Power
import CandleHistory.Number.Rounding
import CandleHistory.Text.Digit

/-!
Double-precision numbers. A finite double is a whole number of units of 2 to the power -1074, the
smallest positive double, together with a sign. Every operation computes its exact value as a
fraction of units and then rounds it once, so the laws of the operations are laws of
natural-number division.
-/

namespace CandleHistory.Number

/-- A double-precision number. The sign of a finite number is kept apart from its magnitude, which
is counted in units of 2 to the power -1074; so zero has two forms. -/
inductive Binary64 where
  | finite (negative : Bool) (units : Nat)
  | infinite (negative : Bool)
  | nan
  deriving DecidableEq, Inhabited, Repr

namespace Binary64

/-- How many units make up the number one. -/
def unitsPerOne : Nat := twoPow 1074

/-- The first magnitude, in units, that is no longer finite. -/
def overflowUnits : Nat := twoPow 2098

/-- The binary places that a double near `n / d` units cannot hold: the least `p` for which `n /
d` is below `2 ^ (p + 53)`. -/
def droppedPlaces (n d : Nat) : Nat :=
  let places := n.log2 - (d.log2 + 52)
  if 0 < places ∧ n < d * twoPow (places + 52) then places - 1 else places

/-- The magnitude, in units, of the double nearest to `n / d` units, a tie going to the one with
an even significand. It may be too large for a finite double. -/
def nearestUnits (n d : Nat) : Nat :=
  let step := twoPow (droppedPlaces n d)
  roundHalfEven n (d * step) * step

/-- The double nearest to `n / d` units. -/
def ofUnits (negative : Bool) (n d : Nat) : Binary64 :=
  let units := nearestUnits n d
  if units < overflowUnits then .finite negative units else .infinite negative

/-- The double nearest to the quotient `n / d`. -/
def ofRatio (negative : Bool) (n d : Nat) : Binary64 := ofUnits negative (n * unitsPerOne) d

/-- The double nearest to a quotient with an integer numerator. -/
def ofIntRatio (n : Int) (d : Nat) : Binary64 := ofRatio (n < 0) n.natAbs d

/-- The double nearest to `coefficient * 10 ^ exponent`. Magnitudes that are far outside the range
of doubles are recognised by their number of digits. -/
def ofScientific (negative : Bool) (coefficient : Nat) (exponent : Int) : Binary64 :=
  let lead := Text.digitCount coefficient + exponent
  if coefficient = 0 ∨ lead < -330 then .finite negative 0
  else if 310 < lead then .infinite negative
  else if 0 ≤ exponent then ofRatio negative (coefficient * tenPow exponent.toNat) 1
  else ofRatio negative coefficient (tenPow (-exponent).toNat)

/-- Positive zero. -/
def zero : Binary64 := .finite false 0

/-- A magnitude with its sign, in units. -/
def signedUnits (negative : Bool) (units : Nat) : Int := if negative then -units else units

/-- The number with the opposite sign. -/
def neg : Binary64 → Binary64
  | .finite negative units => .finite (!negative) units
  | .infinite negative => .infinite (!negative)
  | .nan => .nan

/-- The sum, rounded once. A zero sum is negative only if both parts are. -/
def add : Binary64 → Binary64 → Binary64
  | .finite s u, .finite t v =>
    let sum := signedUnits s u + signedUnits t v
    if sum = 0 then .finite (s && t) 0 else ofUnits (sum < 0) sum.natAbs 1
  | .infinite s, .infinite t => if s = t then .infinite s else .nan
  | .infinite s, .finite .. => .infinite s
  | .finite .., .infinite t => .infinite t
  | .nan, _ => .nan
  | _, .nan => .nan

/-- The difference, rounded once. -/
def sub (x y : Binary64) : Binary64 := x.add y.neg

/-- The product, rounded once. An infinity times zero is no number. -/
def mul : Binary64 → Binary64 → Binary64
  | .finite s u, .finite t v => ofUnits (s != t) (u * v) unitsPerOne
  | .infinite s, .infinite t => .infinite (s != t)
  | .infinite s, .finite t v => if v = 0 then .nan else .infinite (s != t)
  | .finite s u, .infinite t => if u = 0 then .nan else .infinite (s != t)
  | .nan, _ => .nan
  | _, .nan => .nan

/-- Whether one number lies strictly below another. Both zeros are equal, and a comparison with
what is no number fails. -/
def lt : Binary64 → Binary64 → Bool
  | .finite s u, .finite t v => signedUnits s u < signedUnits t v
  | .finite .., .infinite t => !t
  | .infinite s, .finite .. => s
  | .infinite s, .infinite t => s && !t
  | .nan, _ => false
  | _, .nan => false

/-- Whether one number lies below another or is equal to it. -/
def le (x y : Binary64) : Bool := x != .nan && y != .nan && !y.lt x

/-- Whether a double has the value of an integer. -/
def equalsInt (x : Binary64) (n : Int) : Bool :=
  match x with
  | .finite negative units => signedUnits negative units == n * unitsPerOne
  | .infinite _ => false
  | .nan => false

/-- The integer part of a finite double, toward zero. -/
def truncate? : Binary64 → Option Int
  | .finite negative units => some (signedUnits negative (units / unitsPerOne))
  | .infinite _ => none
  | .nan => none

/-- The integer nearest to a finite double, a half going to the even neighbour. -/
def round? : Binary64 → Option Int
  | .finite negative units => some (signedUnits negative (roundHalfEven units unitsPerOne))
  | .infinite _ => none
  | .nan => none

instance : Neg Binary64 := ⟨neg⟩
instance : Add Binary64 := ⟨add⟩
instance : Sub Binary64 := ⟨sub⟩
instance : Mul Binary64 := ⟨mul⟩

/-- The double nearest to an integer. -/
def ofInt (n : Int) : Binary64 := ofIntRatio n 1

end Binary64

end CandleHistory.Number
