import BuildingModel.Number.Natural

/-!
# Binary floating-point formats

A finite number of a binary format is `± m · 2 ^ q` with a whole `m`. This module takes the bits of
a number apart into that form, and rounds an exact quotient of natural numbers to the bits of the
nearest number of the format, ties to the even `m`.
-/

namespace BuildingModel.Number

/-- The quotient `num / den` rounded to the nearest whole number, ties to the even neighbour. -/
def roundDiv (num den : Nat) : Nat :=
  let low := num / den
  let twice := 2 * (num % den)
  if twice < den then low
  else if den < twice then low + 1
  else if low % 2 = 0 then low
  else low + 1

/-- The widths of the fraction and the exponent field of a binary interchange format. -/
structure BinaryFormat where
  fractionBits : Nat
  exponentBits : Nat
deriving DecidableEq

namespace BinaryFormat

/-- Double precision. -/
def double : BinaryFormat := ⟨52, 11⟩

/-- Single precision. -/
def single : BinaryFormat := ⟨23, 8⟩

/-- The exponent of two of the smallest positive number. -/
def minExponent (f : BinaryFormat) : Int :=
  2 - twoTo (f.exponentBits - 1) - f.fractionBits

/-- The bits of positive infinity. -/
def infinityBits (f : BinaryFormat) : Nat :=
  (twoTo f.exponentBits - 1) * twoTo f.fractionBits

/-- Where the sign bit stands. -/
def signBit (f : BinaryFormat) : Nat :=
  twoTo (f.exponentBits + f.fractionBits)

end BinaryFormat

/-- What the bits of a number of a binary format stand for. -/
inductive Decoded where
  | nan
  | infinite (negative : Bool)
  /-- The number `± mantissa · 2 ^ exponent`. -/
  | finite (negative : Bool) (mantissa : Nat) (exponent : Int)
deriving DecidableEq

namespace BinaryFormat

/-- Take the bits of a number apart. -/
def decode (f : BinaryFormat) (bits : Nat) : Decoded :=
  let negative := decide (f.signBit ≤ bits)
  let magnitude := bits % f.signBit
  let fraction := magnitude % twoTo f.fractionBits
  let field := magnitude / twoTo f.fractionBits
  if field = twoTo f.exponentBits - 1 then
    if fraction = 0 then .infinite negative else .nan
  else if field = 0 then .finite negative fraction f.minExponent
  else .finite negative (twoTo f.fractionBits + fraction) (f.minExponent + (field - 1))

/-- The exponent `k` with `2 ^ k ≤ num / den < 2 ^ (k + 1)`, for positive `num` and `den`. -/
def floorLog2 (num den : Nat) : Int :=
  let guess : Int := (num.log2 : Int) - (den.log2 : Int)
  let fits := match guess with
    | .ofNat k => decide (den * twoTo k ≤ num)
    | .negSucc k => decide (den ≤ num * twoTo (k + 1))
  if fits then guess else guess - 1

/-- The bits of the number nearest to `num / den`; from the middle between the largest finite number
and the next power of two on it is infinity. -/
def nearest (f : BinaryFormat) (num den : Nat) : Nat :=
  if num = 0 then 0
  else
    let q := max f.minExponent (floorLog2 num den - f.fractionBits)
    let m := match q with
      | .ofNat k => roundDiv num (den * twoTo k)
      | .negSucc k => roundDiv (num * twoTo (k + 1)) den
    let bits := m + (q - f.minExponent).toNat * twoTo f.fractionBits
    min bits f.infinityBits

end BinaryFormat

/-- What a double-precision number stands for. -/
def decodeDouble (x : Float) : Decoded :=
  BinaryFormat.double.decode x.toBits.toNat

/-- What a single-precision number stands for. -/
def decodeSingle (x : Float32) : Decoded :=
  BinaryFormat.single.decode x.toBits.toNat

end BuildingModel.Number
