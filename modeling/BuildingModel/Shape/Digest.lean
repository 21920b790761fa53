/-!
# Digests

The 64-bit XXH3 digest of a sequence of bytes, without a seed and with the standard secret. Short inputs
are mixed in one step; inputs of more than 240 bytes run through eight lanes in stripes of 64 bytes.
-/

namespace BuildingModel.Digest

def prime32a : UInt64 := 0x9E3779B1
def prime32b : UInt64 := 0x85EBCA77
def prime32c : UInt64 := 0xC2B2AE3D
def prime64a : UInt64 := 0x9E3779B185EBCA87
def prime64b : UInt64 := 0xC2B2AE3D27D4EB4F
def prime64c : UInt64 := 0x165667B19E3779F9
def prime64d : UInt64 := 0x85EBCA77C2B2AE63
def prime64e : UInt64 := 0x27D4EB2F165667C5
def mixer : UInt64 := 0x165667919E3779F9
def shortMixer : UInt64 := 0x9FB21C651E98DF25

/-- The standard secret. -/
def secret : Array UInt8 := #[
  0xb8, 0xfe, 0x6c, 0x39, 0x23, 0xa4, 0x4b, 0xbe, 0x7c, 0x01, 0x81, 0x2c, 0xf7, 0x21, 0xad, 0x1c,
  0xde, 0xd4, 0x6d, 0xe9, 0x83, 0x90, 0x97, 0xdb, 0x72, 0x40, 0xa4, 0xa4, 0xb7, 0xb3, 0x67, 0x1f,
  0xcb, 0x79, 0xe6, 0x4e, 0xcc, 0xc0, 0xe5, 0x78, 0x82, 0x5a, 0xd0, 0x7d, 0xcc, 0xff, 0x72, 0x21,
  0xb8, 0x08, 0x46, 0x74, 0xf7, 0x43, 0x24, 0x8e, 0xe0, 0x35, 0x90, 0xe6, 0x81, 0x3a, 0x26, 0x4c,
  0x3c, 0x28, 0x52, 0xbb, 0x91, 0xc3, 0x00, 0xcb, 0x88, 0xd0, 0x65, 0x8b, 0x1b, 0x53, 0x2e, 0xa3,
  0x71, 0x64, 0x48, 0x97, 0xa2, 0x0d, 0xf9, 0x4e, 0x38, 0x19, 0xef, 0x46, 0xa9, 0xde, 0xac, 0xd8,
  0xa8, 0xfa, 0x76, 0x3f, 0xe3, 0x9c, 0x34, 0x3f, 0xf9, 0xdc, 0xbb, 0xc7, 0xc7, 0x0b, 0x4f, 0x1d,
  0x8a, 0x51, 0xe0, 0x4b, 0xcd, 0xb4, 0x59, 0x31, 0xc8, 0x9f, 0x7e, 0xc9, 0xd9, 0x78, 0x73, 0x64,
  0xea, 0xc5, 0xac, 0x83, 0x34, 0xd3, 0xeb, 0xc3, 0xc5, 0x81, 0xa0, 0xff, 0xfa, 0x13, 0x63, 0xeb,
  0x17, 0x0d, 0xdd, 0x51, 0xb7, 0xf0, 0xda, 0x49, 0xd3, 0x16, 0x55, 0x26, 0x29, 0xd4, 0x68, 0x9e,
  0x2b, 0x16, 0xbe, 0x58, 0x7d, 0x47, 0xa1, 0xfc, 0x8f, 0xf8, 0xb8, 0xd1, 0x7a, 0xd0, 0x31, 0xce,
  0x45, 0xcb, 0x3a, 0x8f, 0x95, 0x16, 0x04, 0x28, 0xaf, 0xd7, 0xfb, 0xca, 0xbb, 0x4b, 0x40, 0x7e]

/-- The number made of `count` bytes from place `i` on, the lowest byte first. -/
def readBytes (data : Array UInt8) : (count i : Nat) → UInt64
  | 0, _ => 0
  | count + 1, i => (data.getD i 0).toUInt64 ||| (readBytes data count (i + 1) <<< 8)

def read32 (data : Array UInt8) (i : Nat) : UInt64 := readBytes data 4 i
def read64 (data : Array UInt8) (i : Nat) : UInt64 := readBytes data 8 i

def rotateLeft (x : UInt64) (k : UInt64) : UInt64 := (x <<< k) ||| (x >>> (64 - k))

/-- The bytes of a word in reverse order. -/
def swapBytes (x : UInt64) : UInt64 :=
  (List.range 8).foldl (fun out i => (out <<< 8) ||| ((x >>> (8 * i.toUInt64)) &&& 0xff)) 0

/-- The two halves of the full product, combined. -/
def foldedProduct (a b : UInt64) : UInt64 :=
  let p := a.toNat * b.toNat
  p.toUInt64 ^^^ (p >>> 64).toUInt64

/-- The last step for inputs of moderate length and longer. -/
def avalanche (h : UInt64) : UInt64 :=
  let h := (h ^^^ (h >>> 37)) * mixer
  h ^^^ (h >>> 32)

/-- The last step for the shortest inputs. -/
def shortAvalanche (h : UInt64) : UInt64 :=
  let h := (h ^^^ (h >>> 33)) * prime64b
  let h := (h ^^^ (h >>> 29)) * prime64c
  h ^^^ (h >>> 32)

/-- Sixteen bytes of the input mixed with sixteen bytes of the secret. -/
def mix16 (data : Array UInt8) (i s : Nat) : UInt64 :=
  foldedProduct (read64 data i ^^^ read64 secret s) (read64 data (i + 8) ^^^ read64 secret (s + 8))

/-- Up to three bytes. -/
def tiny (data : Array UInt8) : UInt64 :=
  let n := data.size
  if n = 0 then shortAvalanche (read64 secret 56 ^^^ read64 secret 64)
  else
    let first := (data.getD 0 0).toUInt64
    let middle := (data.getD (n / 2) 0).toUInt64
    let last := (data.getD (n - 1) 0).toUInt64
    let combined := (first <<< 16) ||| (middle <<< 24) ||| last ||| (n.toUInt64 <<< 8)
    shortAvalanche (combined ^^^ (read32 secret 0 ^^^ read32 secret 4))

/-- Four to eight bytes. -/
def upTo8 (data : Array UInt8) : UInt64 :=
  let n := data.size
  let word := read32 data (n - 4) + (read32 data 0 <<< 32)
  let h := word ^^^ (read64 secret 8 ^^^ read64 secret 16)
  let h := (h ^^^ rotateLeft h 49 ^^^ rotateLeft h 24) * shortMixer
  let h := (h ^^^ ((h >>> 35) + n.toUInt64)) * shortMixer
  h ^^^ (h >>> 28)

/-- Nine to sixteen bytes. -/
def upTo16 (data : Array UInt8) : UInt64 :=
  let n := data.size
  let low := read64 data 0 ^^^ (read64 secret 24 ^^^ read64 secret 32)
  let high := read64 data (n - 8) ^^^ (read64 secret 40 ^^^ read64 secret 48)
  avalanche (n.toUInt64 + swapBytes low + high + foldedProduct low high)

/-- Up to 128 bytes: pairs of sixteen bytes from both ends, as many as are needed to reach the middle. -/
def upTo128 (data : Array UInt8) : UInt64 :=
  let n := data.size
  let pairs := (n - 1) / 32 + 1
  avalanche <| (List.range pairs).foldl
    (fun acc i => acc + mix16 data (16 * i) (32 * i) + mix16 data (n - 16 * (i + 1)) (32 * i + 16))
    (n.toUInt64 * prime64a)

/-- Up to 240 bytes. -/
def upTo240 (data : Array UInt8) : UInt64 :=
  let n := data.size
  let first := (List.range 8).foldl (fun acc i => acc + mix16 data (16 * i) (16 * i))
    (n.toUInt64 * prime64a)
  let rest := (List.range (n / 16 - 8)).foldl
    (fun acc i => acc + mix16 data (16 * (i + 8)) (16 * i + 3)) (avalanche first)
  avalanche (rest + mix16 data (n - 16) 119)

/-- Sixty-four bytes of the input, from place `i` on, into the lanes; each word also goes into the lane
beside its own. -/
def accumulate (data : Array UInt8) (lanes : Array UInt64) (i s : Nat) : Array UInt64 :=
  (Array.range 8).map fun k =>
    let word := read64 data (i + 8 * k)
    let beside := read64 data (i + 8 * (k ^^^ 1))
    let key := word ^^^ read64 secret (s + 8 * k)
    lanes.getD k 0 + beside + (key % 0x100000000) * (key >>> 32)

/-- What happens to the lanes after sixteen stripes. -/
def scramble (lanes : Array UInt64) : Array UInt64 :=
  lanes.mapIdx fun k (h : UInt64) => ((h ^^^ (h >>> 47)) ^^^ read64 secret (128 + 8 * k)) * prime32a

/-- The lanes of an empty input. -/
def startLanes : Array UInt64 :=
  #[prime32c, prime64a, prime64b, prime64c, prime64d, prime32b, prime64e, prime32a]

/-- All lanes in one word. -/
def mergeLanes (lanes : Array UInt64) (n : Nat) : UInt64 :=
  avalanche <| (List.range 4).foldl
    (fun acc k => acc + foldedProduct (lanes.getD (2 * k) 0 ^^^ read64 secret (11 + 16 * k))
      (lanes.getD (2 * k + 1) 0 ^^^ read64 secret (19 + 16 * k)))
    (n.toUInt64 * prime64a)

/-- More than 240 bytes. -/
def long (data : Array UInt8) : UInt64 :=
  let n := data.size
  let lanes := (List.range ((n - 1) / 64)).foldl
    (fun lanes i =>
      let lanes := accumulate data lanes (64 * i) (8 * (i % 16))
      if i % 16 = 15 then scramble lanes else lanes)
    startLanes
  mergeLanes (accumulate data lanes (n - 64) 121) n

/-- The digest of some bytes. -/
def hash64 (bytes : List UInt8) : UInt64 :=
  let data := bytes.toArray
  let n := data.size
  if n ≤ 3 then tiny data
  else if n ≤ 8 then upTo8 data
  else if n ≤ 16 then upTo16 data
  else if n ≤ 128 then upTo128 data
  else if n ≤ 240 then upTo240 data
  else long data

end BuildingModel.Digest
