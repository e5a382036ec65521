/-!
# Floating-point numbers of 64 bits

A finite number is a sign, a whole mantissa and a power of two. All arithmetic
is exact on natural numbers and rounded once, to the nearest representable
number with ties to the even mantissa.
-/

set_option autoImplicit false

namespace Tracemark

/-- A floating-point number. A finite one stands for `mantissa * 2 ^ exponent`
with the sign in front; its mantissa is below `2 ^ 53`. -/
inductive Binary64 where
  | finite (negative : Bool) (mantissa : Nat) (exponent : Int)
  | infinite (negative : Bool)
  | undefined
deriving Repr, DecidableEq, Inhabited

/-- A quotient of natural numbers rounded to the nearest whole number, a tie
going to the even neighbour. -/
def roundedQuotient (numerator denominator : Nat) : Nat :=
  let quotient := numerator / denominator
  let twiceRest := 2 * (numerator % denominator)
  if twiceRest < denominator then quotient
  else if denominator < twiceRest then quotient + 1
  else if quotient % 2 == 0 then quotient
  else quotient + 1

/-- A quotient times a power of a base, as a quotient again. -/
def scaledQuotient (base : Nat) (numerator denominator : Nat) (power : Int) : Nat × Nat :=
  if 0 ≤ power then (numerator * Nat.pow base power.toNat, denominator)
  else (numerator, denominator * Nat.pow base (-power).toNat)

namespace Binary64

def ofRatio (negative : Bool) (numerator denominator : Nat) : Binary64 :=
  if numerator == 0 then .finite negative 0 (-1074)
  else
    let gap : Int := (Nat.log2 numerator : Int) - (Nat.log2 denominator : Int)
    let quotientAt (exponent : Int) : Nat × Nat :=
      scaledQuotient 2 numerator denominator (-exponent)
    let wide := quotientAt (gap - 52)
    let free := if Nat.pow 2 52 ≤ wide.1 / wide.2 then gap - 52 else gap - 53
    let exponent := max (-1074) free
    let chosen := quotientAt exponent
    let mantissa := roundedQuotient chosen.1 chosen.2
    let (mantissa, exponent) :=
      if mantissa == Nat.pow 2 53 then (Nat.pow 2 52, exponent + 1) else (mantissa, exponent)
    if 971 < exponent then .infinite negative else .finite negative mantissa exponent

/-- The number nearest to `digits * 10 ^ power`. A power that is out of reach of the
digits is not computed. -/
def ofDecimal (negative : Bool) (digits : Nat) (power : Int) : Binary64 :=
  let mostPlaces : Int := Nat.log2 digits / 3 + 1
  if digits == 0 || power + mostPlaces < -330 then .finite negative 0 (-1074)
  else if 310 ≤ power then .infinite negative
  else
    let (numerator, denominator) := scaledQuotient 10 digits 1 power
    ofRatio negative numerator denominator

/-- A finite number without its sign as an exact quotient. -/
def magnitude (mantissa : Nat) (exponent : Int) : Nat × Nat :=
  scaledQuotient 2 mantissa 1 exponent

def ofInt (whole : Int) : Binary64 :=
  ofRatio (whole < 0) whole.natAbs 1

/-- The number nearest to a quotient of whole numbers. A zero is negative if one of
both numbers is. -/
def quotient (dividend divisor : Int) : Binary64 :=
  ofRatio (decide (dividend < 0) != decide (divisor < 0)) dividend.natAbs divisor.natAbs

def times (number : Binary64) (factor : Nat) : Binary64 :=
  match number with
  | .finite negative mantissa exponent =>
      let (numerator, denominator) := magnitude mantissa exponent
      ofRatio negative (numerator * factor) denominator
  | other => other

/-- A finite number as an exact quotient, the sign with the dividend. -/
def signedQuotient (negative : Bool) (mantissa : Nat) (exponent : Int) : Int × Nat :=
  let (numerator, denominator) := magnitude mantissa exponent
  (if negative then -(numerator : Int) else numerator, denominator)

/-- The number nearest to the difference of two numbers, which is exact before it is
rounded. -/
def minus : Binary64 → Binary64 → Binary64
  | .finite negative mantissa exponent, .finite otherNegative otherMantissa otherExponent =>
      let (numerator, denominator) := signedQuotient negative mantissa exponent
      let (taken, unit) := signedQuotient otherNegative otherMantissa otherExponent
      let left := numerator * unit - taken * denominator
      ofRatio (left < 0) left.natAbs (denominator * unit)
  | .infinite negative, .infinite otherNegative =>
      if negative == otherNegative then .undefined else .infinite negative
  | .infinite negative, .finite .. => .infinite negative
  | .finite .., .infinite negative => .infinite !negative
  | _, _ => .undefined

def isInfinite : Binary64 → Bool
  | .infinite _ => true
  | _ => false

def equalsInt (number : Binary64) (whole : Int) : Bool :=
  match number with
  | .finite negative mantissa exponent =>
      let (numerator, denominator) := magnitude mantissa exponent
      (if negative then -(numerator : Int) else (numerator : Int)) == whole * (denominator : Int)
  | _ => false

def isWhole : Binary64 → Bool
  | .finite _ mantissa exponent =>
      let (numerator, denominator) := magnitude mantissa exponent
      numerator % denominator == 0
  | _ => false

/-- Zero of either sign. -/
def isZero : Binary64 → Bool
  | .finite _ mantissa _ => mantissa == 0
  | _ => false

/-- Numeric equality: the zeros are equal, and the undefined number differs from
all numbers. -/
def sameNumber : Binary64 → Binary64 → Bool
  | .undefined, _ => false
  | _, .undefined => false
  | left, right => left == right || (left.isZero && right.isZero)

/-- Digits with a fixed number of decimals, a tie going to the even digit. -/
def toFixed (places : Nat) : Binary64 → String
  | .undefined => "nan"
  | .infinite negative => if negative then "-inf" else "inf"
  | .finite negative mantissa exponent =>
      let (numerator, denominator) := magnitude mantissa exponent
      let scaled := roundedQuotient (numerator * Nat.pow 10 places) denominator
      let whole := scaled / Nat.pow 10 places
      let decimals := Nat.toDigits 10 (scaled % Nat.pow 10 places)
      let padded := List.replicate (places - decimals.length) '0' ++ decimals
      let sign := if negative then "-" else ""
      if places == 0 then s!"{sign}{whole}" else s!"{sign}{whole}.{String.ofList padded}"

/-- The fewest digits that read back as the given number, with the power of ten
of the last digit. -/
structure Shortest where
  digits : Nat
  power : Int
deriving Repr, DecidableEq

/-- The best number of the grid `10 ^ power` that rounds to the given mantissa and
exponent, if there is one. -/
def onGrid? (mantissa : Nat) (exponent : Int) (power : Int) : Option Nat :=
  let (numerator, denominator) := magnitude mantissa exponent
  let (scaledNumerator, scaledDenominator) := scaledQuotient 10 numerator denominator (-power)
  let below := scaledNumerator / scaledDenominator
  let readsBack (digits : Nat) : Bool :=
    ofDecimal false digits power == .finite false mantissa exponent
  let nearest := roundedQuotient scaledNumerator scaledDenominator
  let other := if nearest == below then below + 1 else below
  if readsBack nearest then some nearest
  else if readsBack other then some other
  else none

/-- The decimal exponent of the leading digit of a quotient, searched upward from
a bound below it. -/
def leadingPower (numerator denominator : Nat) : Nat → Int → Int
  | 0, power => power
  | steps + 1, power =>
      let (low, high) := scaledQuotient 10 numerator denominator (-(power + 1))
      if high ≤ low then leadingPower numerator denominator steps (power + 1) else power

/-- Tries grids of more and more digits, at most seventeen. -/
def shortestFrom (mantissa : Nat) (exponent leading : Int) : Nat → Nat → Shortest
  | 0, count => ⟨0, leading - count⟩
  | steps + 1, count =>
      let power := leading - count
      match onGrid? mantissa exponent power with
      | some digits => ⟨digits, power⟩
      | none => shortestFrom mantissa exponent leading steps (count + 1)

/-- The fewest digits that read back as a nonzero finite number. -/
def shortest (mantissa : Nat) (exponent : Int) : Shortest :=
  let (numerator, denominator) := magnitude mantissa exponent
  let leading := leadingPower numerator denominator 700 (-330)
  shortestFrom mantissa exponent leading 17 0

/-- The digits of a number without zeros at the end, and the power of ten of the
last digit kept. -/
def withoutTrailingZeros : Nat → Nat → Int → Nat × Int
  | 0, digits, power => (digits, power)
  | steps + 1, digits, power =>
      if digits % 10 == 0 && digits != 0 then withoutTrailingZeros steps (digits / 10) (power + 1)
      else (digits, power)

/-- The text of a number: the fewest digits that read back, positional from
`0.0001` up to below `10 ^ 16`, and with an exponent of at least two digits
otherwise. A whole number keeps one decimal. -/
def toText : Binary64 → String
  | .undefined => "nan"
  | .infinite negative => if negative then "-inf" else "inf"
  | .finite negative mantissa exponent =>
      let sign := if negative then "-" else ""
      if mantissa == 0 then s!"{sign}0.0"
      else
        let found := shortest mantissa exponent
        let (digits, power) := withoutTrailingZeros 20 found.digits found.power
        let written := Nat.toDigits 10 digits
        let point : Int := (written.length : Int) + power
        if -4 < point && point ≤ 16 then
          if point ≤ 0 then
            let zeros := String.ofList (List.replicate (-point).toNat '0')
            s!"{sign}0.{zeros}{String.ofList written}"
          else if (written.length : Int) ≤ point then
            let zeros := String.ofList (List.replicate (point.toNat - written.length) '0')
            s!"{sign}{String.ofList written}{zeros}.0"
          else
            let whole := String.ofList (written.take point.toNat)
            let decimals := String.ofList (written.drop point.toNat)
            s!"{sign}{whole}.{decimals}"
        else
          let lead := String.ofList (written.take 1)
          let rest := written.drop 1
          let decimals := if rest.isEmpty then "" else "." ++ String.ofList rest
          let scientific := point - 1
          let mark := if scientific < 0 then "-" else "+"
          let size := Nat.toDigits 10 scientific.natAbs
          let padded := if size.length < 2 then '0' :: size else size
          s!"{sign}{lead}{decimals}e{mark}{String.ofList padded}"

end Binary64

end Tracemark
