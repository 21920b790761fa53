import BuildingModel.Number.Shortest

/-!
# A fixed number of places

Decimal text with a given number of places. The exact value is rounded, ties to the even digit.
-/

namespace BuildingModel.Number

/-- A natural number over `10 ^ places`, with all its places. -/
def placed (n places : Nat) : String :=
  let digits := Nat.toDigits 10 n
  let padded := List.replicate (places + 1 - digits.length) '0' ++ digits
  let whole := padded.take (padded.length - places)
  if places = 0 then String.ofList whole
  else String.ofList (whole ++ '.' :: padded.drop (padded.length - places))

/-- The value `mantissa · 2 ^ exponent` in units of `10 ^ -places`, rounded. -/
def unitsAt (mantissa : Nat) (exponent : Int) (places : Nat) : Nat :=
  match exponent with
  | .ofNat e => mantissa * twoTo e * tenTo places
  | .negSucc e => roundDiv (mantissa * tenTo places) (twoTo (e + 1))

/-- The value `mantissa · 2 ^ exponent` as a mantissa of `places + 1` digits and a power of ten,
rounded. The value is positive. -/
def scientificAt (mantissa : Nat) (exponent : Int) (places : Nat) : Nat × Int :=
  let (num, den) := match exponent with
    | .ofNat e => (mantissa * twoTo e, 1)
    | .negSucc e => (mantissa, twoTo (e + 1))
  let power := leadingPower num den
  let step := power - places
  let n := match step with
    | .ofNat e => roundDiv num (den * tenTo e)
    | .negSucc e => roundDiv (num * tenTo (e + 1)) den
  -- Rounding up to the next power of ten costs a digit.
  if tenTo (places + 1) ≤ n then (n / 10, power + 1) else (n, power)

/-- Fixed places, with the sign of a negative zero kept. -/
def fixedText (places : Nat) (x : Float) : String :=
  match decodeDouble x with
  | .nan => "NaN"
  | .infinite negative => signed negative "inf"
  | .finite negative mantissa exponent =>
    signed negative (placed (unitsAt mantissa exponent places) places)

/-- How a table of coordinates writes a number: below `limit` in size with `fixed` places, from there
on with `scientific` places of the mantissa and a power of ten. -/
structure CoordinateFormat where
  limit : Nat
  fixed : Nat
  scientific : Nat

/-- Whether `mantissa · 2 ^ exponent` is below a natural number. -/
def isBelow (mantissa : Nat) (exponent : Int) (limit : Nat) : Bool :=
  match exponent with
  | .ofNat e => mantissa * twoTo e < limit
  | .negSucc e => mantissa < limit * twoTo (e + 1)

/-- The text of a coordinate. Which of the two forms it takes is decided before rounding, and a text
whose digits are all zero has no sign. -/
def CoordinateFormat.text (format : CoordinateFormat) (x : Float) : String :=
  match decodeDouble x with
  | .nan => "nan"
  | .infinite negative => signed negative "inf"
  | .finite negative mantissa exponent =>
    if isBelow mantissa exponent format.limit then
      let n := unitsAt mantissa exponent format.fixed
      signed (negative && n != 0) (placed n format.fixed)
    else
      let (n, power) := scientificAt mantissa exponent format.scientific
      signed negative (placed n format.scientific ++ "e" ++ natText power.toNat)

end BuildingModel.Number
