import BuildingModel.Number.Binary

/-!
# Decimal numbers

A decimal number `± digits · 10 ^ exponent` and its nearest double- and single-precision number.
-/

namespace BuildingModel.Number

/-- The decimal number `± digits · 10 ^ exponent`. -/
structure Decimal where
  negative : Bool
  digits : Nat
  exponent : Int
deriving DecidableEq

/-- The value of a run of decimal digits, most significant first. -/
def digitsValue (cs : List Char) : Nat :=
  cs.foldl (fun n c => 10 * n + (c.toNat - '0'.toNat)) 0

namespace Decimal

/-- The bits, without the sign, of the number of format `f` nearest to `d`. Far outside the range of
the format the powers of ten are not computed. -/
def magnitudeBits (f : BinaryFormat) (d : Decimal) : Nat :=
  if d.digits = 0 then 0
  else match d.exponent with
    | .ofNat e => if 400 < e then f.infinityBits else f.nearest (d.digits * tenTo e) 1
    | .negSucc e =>
      if d.digits.log2 + 1200 < 3 * e then 0 else f.nearest d.digits (tenTo (e + 1))

/-- The nearest number of format `f`, as bits. -/
def toBits (f : BinaryFormat) (d : Decimal) : Nat :=
  d.magnitudeBits f + if d.negative then f.signBit else 0

/-- The nearest double-precision number. -/
def toFloat (d : Decimal) : Float :=
  .ofBits (d.toBits .double).toUInt64

/-- The nearest single-precision number. -/
def toFloat32 (d : Decimal) : Float32 :=
  .ofBits (d.toBits .single).toUInt32

end Decimal

end BuildingModel.Number
