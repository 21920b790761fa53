/-!
# Reading bytes as text

Every byte sequence is read as a text. Each longest run of bytes that begins a character and cannot be
completed, and each byte that begins none, is read as one replacement character.
-/

namespace BuildingModel.Text

/-- Stands for bytes that are no text. -/
def replacement : Char := Char.ofNat 0xFFFD

/-- Whether a byte can continue a character. -/
def isContinuation (b : UInt8) : Bool := 0x80 ≤ b && b ≤ 0xBF

/-- Whether `b1` can follow `b0`, the first byte of three. Overlong forms and surrogates are left
out. -/
def isSecondOfThree (b0 b1 : UInt8) : Bool :=
  if b0 == 0xE0 then 0xA0 ≤ b1 && b1 ≤ 0xBF
  else if b0 == 0xED then 0x80 ≤ b1 && b1 ≤ 0x9F
  else isContinuation b1

/-- Whether `b1` can follow `b0`, the first byte of four. Overlong forms and codes past the last are
left out. -/
def isSecondOfFour (b0 b1 : UInt8) : Bool :=
  if b0 == 0xF0 then 0x90 ≤ b1 && b1 ≤ 0xBF
  else if b0 == 0xF4 then 0x80 ≤ b1 && b1 ≤ 0x8F
  else isContinuation b1

/-- The low six bits, which a continuation byte carries. -/
def payload (b : UInt8) : Nat := b.toNat % 64

/-- Read bytes as characters. -/
def decodeBytes : List UInt8 → List Char
  | [] => []
  | b0 :: rest =>
    if b0 < 0x80 then Char.ofNat b0.toNat :: decodeBytes rest
    else if 0xC2 ≤ b0 && b0 ≤ 0xDF then
      match rest with
      | b1 :: rest1 =>
        if isContinuation b1 then
          Char.ofNat (b0.toNat % 32 * 64 + payload b1) :: decodeBytes rest1
        else replacement :: decodeBytes (b1 :: rest1)
      | [] => [replacement]
    else if 0xE0 ≤ b0 && b0 ≤ 0xEF then
      match rest with
      | b1 :: rest1 =>
        if isSecondOfThree b0 b1 then
          match rest1 with
          | b2 :: rest2 =>
            if isContinuation b2 then
              Char.ofNat (b0.toNat % 16 * 4096 + payload b1 * 64 + payload b2) :: decodeBytes rest2
            else replacement :: decodeBytes (b2 :: rest2)
          | [] => [replacement]
        else replacement :: decodeBytes (b1 :: rest1)
      | [] => [replacement]
    else if 0xF0 ≤ b0 && b0 ≤ 0xF4 then
      match rest with
      | b1 :: rest1 =>
        if isSecondOfFour b0 b1 then
          match rest1 with
          | b2 :: rest2 =>
            if isContinuation b2 then
              match rest2 with
              | b3 :: rest3 =>
                if isContinuation b3 then
                  Char.ofNat (b0.toNat % 8 * 262144 + payload b1 * 4096 + payload b2 * 64
                    + payload b3) :: decodeBytes rest3
                else replacement :: decodeBytes (b3 :: rest3)
              | [] => [replacement]
            else replacement :: decodeBytes (b2 :: rest2)
          | [] => [replacement]
        else replacement :: decodeBytes (b1 :: rest1)
      | [] => [replacement]
    else replacement :: decodeBytes rest

end BuildingModel.Text
