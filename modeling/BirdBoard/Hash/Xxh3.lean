/-! # XXH3 with 64 bits

  The 64-bit hash XXH3 of a byte string under a seed. All arithmetic is on 64-bit words and wraps; words are read with
  the lowest byte first.

  The hash has one rule for each range of lengths: the empty string, 1 to 3, 4 to 8, 9 to 16, 17 to 128 and 129 to 240
  bytes, and a loop over eight lanes for everything longer. `hash` chooses among them.
-/

namespace BirdBoard.Hash.Xxh3

/-! ### Reading words -/

/-- The byte at an index, zero behind the end. -/
def byteAt (b : ByteArray) (i : Nat) : UInt64 :=
  if h : i < b.size then b[i].toUInt64 else 0

/-- The number in the `n` bytes from index `i` on, lowest byte first. -/
def readLow (b : ByteArray) (i : Nat) : Nat → UInt64
  | 0 => 0
  | n + 1 => byteAt b i ||| (readLow b (i + 1) n <<< 8)

/-- Four bytes as a word. -/
def read32 (b : ByteArray) (i : Nat) : UInt64 := readLow b i 4

/-- Eight bytes as a word. -/
def read64 (b : ByteArray) (i : Nat) : UInt64 := readLow b i 8

/-- The eight bytes of a word, lowest first. -/
def wordBytes (x : UInt64) : List UInt8 :=
  (List.range 8).map fun i => (x >>> (8 * UInt64.ofNat i)).toUInt8

/-- A word with its eight bytes in reverse order. -/
def swapBytes (x : UInt64) : UInt64 :=
  (wordBytes x).foldl (fun acc b => (acc <<< 8) ||| b.toUInt64) 0

/-- Rotation to the left by `r` bits, for `r` between 1 and 63. -/
def rotateLeft (x : UInt64) (r : UInt64) : UInt64 := (x <<< r) ||| (x >>> (64 - r))

/-- The two halves of the 128-bit product, joined by exclusive or. -/
def foldProduct (a b : UInt64) : UInt64 :=
  let p := a.toNat * b.toNat
  UInt64.ofNat p ^^^ UInt64.ofNat (p / 0x10000000000000000)

/-! ### Constants -/

/-- The 192 bytes that salt every rule. -/
def secret : ByteArray :=
  ⟨#[0xb8, 0xfe, 0x6c, 0x39, 0x23, 0xa4, 0x4b, 0xbe, 0x7c, 0x01, 0x81, 0x2c, 0xf7, 0x21, 0xad, 0x1c,
    0xde, 0xd4, 0x6d, 0xe9, 0x83, 0x90, 0x97, 0xdb, 0x72, 0x40, 0xa4, 0xa4, 0xb7, 0xb3, 0x67, 0x1f,
    0xcb, 0x79, 0xe6, 0x4e, 0xcc, 0xc0, 0xe5, 0x78, 0x82, 0x5a, 0xd0, 0x7d, 0xcc, 0xff, 0x72, 0x21,
    0xb8, 0x08, 0x46, 0x74, 0xf7, 0x43, 0x24, 0x8e, 0xe0, 0x35, 0x90, 0xe6, 0x81, 0x3a, 0x26, 0x4c,
    0x3c, 0x28, 0x52, 0xbb, 0x91, 0xc3, 0x00, 0xcb, 0x88, 0xd0, 0x65, 0x8b, 0x1b, 0x53, 0x2e, 0xa3,
    0x71, 0x64, 0x48, 0x97, 0xa2, 0x0d, 0xf9, 0x4e, 0x38, 0x19, 0xef, 0x46, 0xa9, 0xde, 0xac, 0xd8,
    0xa8, 0xfa, 0x76, 0x3f, 0xe3, 0x9c, 0x34, 0x3f, 0xf9, 0xdc, 0xbb, 0xc7, 0xc7, 0x0b, 0x4f, 0x1d,
    0x8a, 0x51, 0xe0, 0x4b, 0xcd, 0xb4, 0x59, 0x31, 0xc8, 0x9f, 0x7e, 0xc9, 0xd9, 0x78, 0x73, 0x64,
    0xea, 0xc5, 0xac, 0x83, 0x34, 0xd3, 0xeb, 0xc3, 0xc5, 0x81, 0xa0, 0xff, 0xfa, 0x13, 0x63, 0xeb,
    0x17, 0x0d, 0xdd, 0x51, 0xb7, 0xf0, 0xda, 0x49, 0xd3, 0x16, 0x55, 0x26, 0x29, 0xd4, 0x68, 0x9e,
    0x2b, 0x16, 0xbe, 0x58, 0x7d, 0x47, 0xa1, 0xfc, 0x8f, 0xf8, 0xb8, 0xd1, 0x7a, 0xd0, 0x31, 0xce,
    0x45, 0xcb, 0x3a, 0x8f, 0x95, 0x16, 0x04, 0x28, 0xaf, 0xd7, 0xfb, 0xca, 0xbb, 0x4b, 0x40, 0x7e]⟩

/-- The first 32-bit prime. -/
def prime32a : UInt64 := 0x9E3779B1

/-- The second 32-bit prime. -/
def prime32b : UInt64 := 0x85EBCA77

/-- The third 32-bit prime. -/
def prime32c : UInt64 := 0xC2B2AE3D

/-- The first 64-bit prime. -/
def prime64a : UInt64 := 0x9E3779B185EBCA87

/-- The second 64-bit prime. -/
def prime64b : UInt64 := 0xC2B2AE3D27D4EB4F

/-- The third 64-bit prime. -/
def prime64c : UInt64 := 0x165667B19E3779F9

/-- The fourth 64-bit prime. -/
def prime64d : UInt64 := 0x85EBCA77C2B2AE63

/-- The fifth 64-bit prime. -/
def prime64e : UInt64 := 0x27D4EB2F165667C5

/-- The first multiplier of the final mixing steps. -/
def mixerA : UInt64 := 0x165667919E3779F9

/-- The second multiplier of the final mixing steps. -/
def mixerB : UInt64 := 0x9FB21C651E98DF25

/-! ### Mixing -/

/-- The final mixing step of the shortest inputs. -/
def avalancheShort (h : UInt64) : UInt64 :=
  let h := (h ^^^ (h >>> 33)) * prime64b
  let h := (h ^^^ (h >>> 29)) * prime64c
  h ^^^ (h >>> 32)

/-- The final mixing step of inputs from 9 bytes on. -/
def avalanche (h : UInt64) : UInt64 :=
  let h := (h ^^^ (h >>> 37)) * mixerA
  h ^^^ (h >>> 32)

/-- Mixes 16 bytes of the input with 16 bytes of the secret. -/
def mix16 (b : ByteArray) (i : Nat) (s : Nat) (seed : UInt64) : UInt64 :=
  foldProduct (read64 b i ^^^ (read64 secret s + seed)) (read64 b (i + 8) ^^^ (read64 secret (s + 8) - seed))

/-! ### Short inputs -/

/-- The empty input. -/
def hashEmpty (seed : UInt64) : UInt64 :=
  avalancheShort (seed ^^^ (read64 secret 56 ^^^ read64 secret 64))

/-- Inputs of 1 to 3 bytes: the first, the middle and the last byte and the length. -/
def hash1to3 (b : ByteArray) (seed : UInt64) : UInt64 :=
  let combined := (byteAt b 0 <<< 16) ||| (byteAt b (b.size / 2) <<< 24) ||| byteAt b (b.size - 1) |||
    (UInt64.ofNat b.size <<< 8)
  avalancheShort (combined ^^^ ((read32 secret 0 ^^^ read32 secret 4) + seed))

/-- Inputs of 4 to 8 bytes: the first four and the last four bytes. -/
def hash4to8 (b : ByteArray) (seed : UInt64) : UInt64 :=
  let len := UInt64.ofNat b.size
  let seed := seed ^^^ swapBytes (seed &&& (0xffffffff : UInt64))
  let word := read32 b (b.size - 4) + (read32 b 0 <<< 32)
  let k := word ^^^ ((read64 secret 8 ^^^ read64 secret 16) - seed)
  let k := (k ^^^ rotateLeft k 49 ^^^ rotateLeft k 24) * mixerB
  let k := (k ^^^ ((k >>> 35) + len)) * mixerB
  k ^^^ (k >>> 28)

/-- Inputs of 9 to 16 bytes: the first eight and the last eight bytes. -/
def hash9to16 (b : ByteArray) (seed : UInt64) : UInt64 :=
  let lo := read64 b 0 ^^^ ((read64 secret 24 ^^^ read64 secret 32) + seed)
  let hi := read64 b (b.size - 8) ^^^ ((read64 secret 40 ^^^ read64 secret 48) - seed)
  avalanche (UInt64.ofNat b.size + swapBytes lo + hi + foldProduct lo hi)

/-- Inputs of 17 to 128 bytes: pairs of 16-byte chunks from both ends towards the middle. -/
def hash17to128 (b : ByteArray) (seed : UInt64) : UInt64 :=
  let pairs := (b.size - 1) / 32 + 1
  let step := fun (acc : UInt64) (i : Nat) =>
    acc + mix16 b (16 * i) (32 * i) seed + mix16 b (b.size - 16 * (i + 1)) (32 * i + 16) seed
  avalanche ((List.range pairs).foldl step (UInt64.ofNat b.size * prime64a))

/-- Inputs of 129 to 240 bytes: eight chunks, a mixing step, the other whole chunks and the last 16 bytes. -/
def hash129to240 (b : ByteArray) (seed : UInt64) : UInt64 :=
  let first := (List.range 8).foldl (fun acc i => acc + mix16 b (16 * i) (16 * i) seed)
    (UInt64.ofNat b.size * prime64a)
  let rest := (List.range (b.size / 16 - 8)).foldl
    (fun acc i => acc + mix16 b (16 * (i + 8)) (16 * i + 3) seed) (avalanche first)
  avalanche (rest + mix16 b (b.size - 16) 119 seed)

/-! ### Long inputs -/

/-- The eight lanes of the accumulator. -/
abbrev Lanes := Array UInt64

/-- A lane, zero outside. -/
def lane (a : Lanes) (i : Nat) : UInt64 := a.getD i 0

/-- The lanes at the start. -/
def startLanes : Lanes :=
  #[prime32c, prime64a, prime64b, prime64c, prime64d, prime32b, prime64e, prime32a]

/-- The secret of a seed: the seed is added to every even word and taken off every odd word. -/
def seededSecret (seed : UInt64) : ByteArray :=
  ⟨((List.range 12).flatMap fun i =>
    wordBytes (read64 secret (16 * i) + seed) ++ wordBytes (read64 secret (16 * i + 8) - seed)).toArray⟩

/-- Takes a stripe of 64 bytes into the lanes: each word goes to the lane beside it, and the product of the halves of
the salted word to its own. -/
def accumulate (b key : ByteArray) (a : Lanes) (i s : Nat) : Lanes :=
  Array.ofFn fun (j : Fin 8) =>
    let salted := read64 b (i + 8 * j) ^^^ read64 key (s + 8 * j)
    lane a j + read64 b (i + 8 * (j.val ^^^ 1)) + (salted &&& (0xffffffff : UInt64)) * (salted >>> 32)

/-- Scrambles the lanes with the last 64 bytes of the secret, at the end of a block. -/
def scramble (key : ByteArray) (a : Lanes) : Lanes :=
  Array.ofFn fun (j : Fin 8) =>
    let x := lane a j
    (x ^^^ (x >>> 47) ^^^ read64 key (128 + 8 * j)) * prime32a

/-- Takes `n` stripes from index `i` on into the lanes; the secret moves on by eight bytes with every stripe. -/
def accumulateStripes (b key : ByteArray) (a : Lanes) (i n : Nat) : Lanes :=
  (List.range n).foldl (fun a k => accumulate b key a (i + 64 * k) (8 * k)) a

/-- Takes `n` whole blocks of 16 stripes into the lanes. -/
def accumulateBlocks (b key : ByteArray) (a : Lanes) (n : Nat) : Lanes :=
  (List.range n).foldl (fun a k => scramble key (accumulateStripes b key a (1024 * k) 16)) a

/-- Merges the lanes in pairs. -/
def mergeLanes (key : ByteArray) (a : Lanes) (start : UInt64) : UInt64 :=
  avalanche ((List.range 4).foldl (fun acc j =>
    acc + foldProduct (lane a (2 * j) ^^^ read64 key (11 + 16 * j))
      (lane a (2 * j + 1) ^^^ read64 key (19 + 16 * j))) start)

/-- Inputs of more than 240 bytes: whole blocks, the whole stripes behind them, and the last 64 bytes once more. -/
def hashLong (b : ByteArray) (seed : UInt64) : UInt64 :=
  let key := seededSecret seed
  let blocks := (b.size - 1) / 1024
  let stripes := (b.size - 1 - 1024 * blocks) / 64
  let a := accumulateBlocks b key startLanes blocks
  let a := accumulateStripes b key a (1024 * blocks) stripes
  let a := accumulate b key a (b.size - 64) 121
  mergeLanes key a (UInt64.ofNat b.size * prime64a)

/-- The hash of a byte string under a seed. -/
def hash (b : ByteArray) (seed : UInt64) : UInt64 :=
  if b.size = 0 then hashEmpty seed
  else if b.size ≤ 3 then hash1to3 b seed
  else if b.size ≤ 8 then hash4to8 b seed
  else if b.size ≤ 16 then hash9to16 b seed
  else if b.size ≤ 128 then hash17to128 b seed
  else if b.size ≤ 240 then hash129to240 b seed
  else hashLong b seed

end BirdBoard.Hash.Xxh3
