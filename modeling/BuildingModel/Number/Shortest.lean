import BuildingModel.Number.Binary

/-!
# Shortest decimal digits

The fewest decimal digits that read back to a given number of a binary format, and the two ways to
write them: positionally, and in the notation of numbers in data files.
-/

namespace BuildingModel.Number

/-- Which of two equally near decimals is taken. -/
inductive Tie where
  | greater
  | even
deriving DecidableEq, Repr

/-- Whether `n + 1` is taken instead of `n` for a value between them, given the comparison of twice the
part beyond `n` with one. -/
def Tie.takesNext (tie : Tie) (n : Nat) (rest : Ordering) : Bool :=
  match rest with
  | .lt => false
  | .gt => true
  | .eq => tie = .greater || n % 2 = 1

/-- The reals that round to a positive number, in quarters of the unit `2 ^ exponent / scale`. -/
structure Rounding where
  /-- The number itself, its lower and its upper end, all over `den`. -/
  value : Nat
  low : Nat
  high : Nat
  den : Nat
  /-- Whether the ends belong to it. -/
  closed : Bool

namespace Rounding

/-- The reals that round to `mantissa · 2 ^ exponent`. Below a power of two the numbers lie twice as
dense. -/
def ofFinite (f : BinaryFormat) (mantissa : Nat) (exponent : Int) : Rounding :=
  let dense := mantissa = twoTo f.fractionBits && f.minExponent < exponent
  let (unit, den) := match exponent with
    | .ofNat k => (twoTo k, 4)
    | .negSucc k => (1, 4 * twoTo (k + 1))
  { value := 4 * mantissa * unit
    low := (4 * mantissa - if dense then 1 else 2) * unit
    high := (4 * mantissa + 2) * unit
    den := den
    closed := mantissa % 2 = 0 }

/-- Whether the decimal `n · 10 ^ k` rounds to the number. -/
def holds (r : Rounding) (n : Nat) (k : Int) : Bool :=
  let (x, s) := match k with
    | .ofNat e => (n * tenTo e * r.den, 1)
    | .negSucc e => (n * r.den, tenTo (e + 1))
  if r.closed then decide (r.low * s ≤ x ∧ x ≤ r.high * s)
  else decide (r.low * s < x ∧ x < r.high * s)

/-- The greatest `n` with `n · 10 ^ k` at most the number, and the comparison of twice the rest with
the step. -/
def floorAt (r : Rounding) (k : Int) : Nat × Ordering :=
  let (num, den) := match k with
    | .ofNat e => (r.value, r.den * tenTo e)
    | .negSucc e => (r.value * tenTo (e + 1), r.den)
  (num / den, compare (2 * (num % den)) den)

/-- The decimal on the grid of step `10 ^ k` that rounds to the number, if there is one: of two the
nearer, and as `tie` says if both are equally near. -/
def onGrid? (r : Rounding) (tie : Tie) (k : Int) : Option Nat :=
  let (n, rest) := r.floorAt k
  match r.holds n k, r.holds (n + 1) k with
  | true, true => some (if tie.takesNext n rest then n + 1 else n)
  | true, false => some n
  | false, true => some (n + 1)
  | false, false => none

end Rounding

/-- The power of ten of the leading digit of `num / den`, for positive `num` and `den`. -/
def leadingPower (num den : Nat) : Int :=
  let digits (n : Nat) : Int := (Nat.toDigits 10 n).length
  let guess := digits num - digits den
  let fits := match guess with
    | .ofNat e => decide (den * tenTo e ≤ num)
    | .negSucc e => decide (den ≤ num * tenTo (e + 1))
  if fits then guess else guess - 1

/-- Search the grids from the given step on, each ten times finer than the last. -/
def shortestFrom (r : Rounding) (tie : Tie) : (tries : Nat) → (k : Int) → Nat × Int
  | 0, k => ((r.floorAt k).1, k)
  | tries + 1, k =>
    match r.onGrid? tie k with
    | some n => (n, k)
    | none => shortestFrom r tie tries (k - 1)

/-- The digits `n` and the power `k` of the shortest decimal `n · 10 ^ k` that rounds to the positive
number `mantissa · 2 ^ exponent`. Seventeen digits are always enough. -/
def shortestDigits (f : BinaryFormat) (tie : Tie) (mantissa : Nat) (exponent : Int) : Nat × Int :=
  let r := Rounding.ofFinite f mantissa exponent
  let (n, k) := shortestFrom r tie 17 (leadingPower r.value r.den)
  -- Rounding up to a power of ten leaves a trailing zero.
  if n % 10 = 0 then (n / 10, k + 1) else (n, k)

/-- The digits of a natural number. -/
def natText (n : Nat) : String := String.ofList (Nat.toDigits 10 n)

/-- A minus sign before a negative number. -/
def signed (negative : Bool) (text : String) : String :=
  if negative then "-" ++ text else text

/-- The decimal `n · 10 ^ k` with a decimal point where it belongs, and none if it is whole. -/
def positional (n : Nat) (k : Int) : String :=
  match k with
  | .ofNat e => natText (n * tenTo e)
  | .negSucc e =>
    let places := e + 1
    let digits := Nat.toDigits 10 n
    let padded := List.replicate (places + 1 - digits.length) '0' ++ digits
    String.ofList (padded.take (padded.length - places) ++ '.' :: padded.drop (padded.length - places))

/-- Shortest digits, never an exponent, no point in a whole number; of two equally near texts the one
farther from zero. -/
def plainText (f : BinaryFormat) : Decoded → String
  | .nan => "NaN"
  | .infinite negative => signed negative "inf"
  | .finite negative 0 _ => signed negative "0"
  | .finite negative mantissa exponent =>
    let (n, k) := shortestDigits f .greater mantissa exponent
    signed negative (positional n k)

/-- The shortest plain text of a double-precision number. -/
def doubleText (x : Float) : String := plainText .double (decodeDouble x)

/-- The shortest plain text of a single-precision number. -/
def singleText (x : Float32) : String := plainText .single (decodeSingle x)

/-- Shortest digits as data files have them: at least one decimal place, and an exponent with its sign
below `10 ^ -5` and from `10 ^ 16` on; of two equally near texts the one whose last digit is even. A value
that is not finite is `null`. -/
def dataText (x : Float) : String :=
  match decodeDouble x with
  | .nan | .infinite _ => "null"
  | .finite negative 0 _ => signed negative "0.0"
  | .finite negative mantissa exponent =>
    let (n, k) := shortestDigits .double .even mantissa exponent
    let digits := Nat.toDigits 10 n
    let point : Int := digits.length + k
    signed negative <|
      if 0 ≤ k ∧ point ≤ 16 then positional n k ++ ".0"
      else if -5 < point ∧ point ≤ 16 then positional n k
      else
        let mark := match digits with
          | [] => ""
          | [d] => String.ofList [d]
          | d :: ds => String.ofList (d :: '.' :: ds)
        let power := point - 1
        mark ++ (if power < 0 then "e-" else "e+") ++ natText power.natAbs

end BuildingModel.Number
