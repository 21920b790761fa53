import BuildingModel.Number.Binary

/-!
# Remainders

The exact remainder of a division of single-precision numbers, with the sign of the dividend.
-/

namespace BuildingModel.Number

/-- The single-precision number `± mantissa · 2 ^ exponent`, rounded to the nearest. -/
def singleOfParts (negative : Bool) (mantissa : Nat) (exponent : Int) : Float32 :=
  let f := BinaryFormat.single
  let magnitude := match exponent with
    | .ofNat k => f.nearest (mantissa * twoTo k) 1
    | .negSucc k => f.nearest mantissa (twoTo (k + 1))
  .ofBits (magnitude + if negative then f.signBit else 0).toUInt32

/-- What is left of `x` when multiples of `y` are taken off as long as possible. -/
def remainder (x y : Float32) : Float32 :=
  match decodeSingle x, decodeSingle y with
  | .finite negative m p, .finite _ n q =>
    if n = 0 then 0 / 0
    else
      let low := min p q
      let rest := (m * twoTo (p - low).toNat) % (n * twoTo (q - low).toNat)
      singleOfParts negative rest low
  | .finite .., .infinite _ => x
  | _, _ => 0 / 0

end BuildingModel.Number
