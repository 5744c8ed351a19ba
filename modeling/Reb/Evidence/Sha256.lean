/-
# Evidence.Sha256 -- the digest of artifact content

The streaming digest of the artifact store: `Update` fills a 64-byte block and
transforms the state when it is full, `Final` pads and reads the state out.  The
block is kept as the bytes that have been filled in.
-/
import Mathlib

namespace Reb.Evidence

set_option autoImplicit false

def kSha256RoundConstants : List UInt32 := [
  0x428a2f98, 0x71374491, 0xb5c0fbcf, 0xe9b5dba5, 0x3956c25b, 0x59f111f1, 0x923f82a4,
  0xab1c5ed5, 0xd807aa98, 0x12835b01, 0x243185be, 0x550c7dc3, 0x72be5d74, 0x80deb1fe,
  0x9bdc06a7, 0xc19bf174, 0xe49b69c1, 0xefbe4786, 0x0fc19dc6, 0x240ca1cc, 0x2de92c6f,
  0x4a7484aa, 0x5cb0a9dc, 0x76f988da, 0x983e5152, 0xa831c66d, 0xb00327c8, 0xbf597fc7,
  0xc6e00bf3, 0xd5a79147, 0x06ca6351, 0x14292967, 0x27b70a85, 0x2e1b2138, 0x4d2c6dfc,
  0x53380d13, 0x650a7354, 0x766a0abb, 0x81c2c92e, 0x92722c85, 0xa2bfe8a1, 0xa81a664b,
  0xc24b8b70, 0xc76c51a3, 0xd192e819, 0xd6990624, 0xf40e3585, 0x106aa070, 0x19a4c116,
  0x1e376c08, 0x2748774c, 0x34b0bcb5, 0x391c0cb3, 0x4ed8aa4a, 0x5b9cca4f, 0x682e6ff3,
  0x748f82ee, 0x78a5636f, 0x84c87814, 0x8cc70208, 0x90befffa, 0xa4506ceb, 0xbef9a3f7,
  0xc67178f2]

/-- `std::rotr`. -/
def rotr (word : UInt32) (count : UInt32) : UInt32 :=
  (word >>> count) ||| (word <<< (32 - count))

structure Sha256State where
  a : UInt32 := 0x6a09e667
  b : UInt32 := 0xbb67ae85
  c : UInt32 := 0x3c6ef372
  d : UInt32 := 0xa54ff53a
  e : UInt32 := 0x510e527f
  f : UInt32 := 0x9b05688c
  g : UInt32 := 0x1f83d9ab
  h : UInt32 := 0x5be0cd19
  deriving DecidableEq, Repr

namespace Sha256State

/-- The sixteen big-endian words of a block. -/
def blockWords (block : List UInt8) : List UInt32 :=
  (List.range 16).map fun index =>
    ((block.getD (index * 4) 0).toUInt32 <<< 24) |||
      ((block.getD (index * 4 + 1) 0).toUInt32 <<< 16) |||
      ((block.getD (index * 4 + 2) 0).toUInt32 <<< 8) |||
      (block.getD (index * 4 + 3) 0).toUInt32

def scheduleWord (schedule : List UInt32) (index : Nat) : UInt32 :=
  let w15 := schedule.getD (index - 15) 0
  let w2 := schedule.getD (index - 2) 0
  let s0 := rotr w15 7 ^^^ rotr w15 18 ^^^ (w15 >>> 3)
  let s1 := rotr w2 17 ^^^ rotr w2 19 ^^^ (w2 >>> 10)
  schedule.getD (index - 16) 0 + s0 + schedule.getD (index - 7) 0 + s1

def schedule (block : List UInt8) : List UInt32 :=
  (List.range' 16 48).foldl (fun words index => words ++ [scheduleWord words index])
    (blockWords block)

def round (r : Sha256State) (constant word : UInt32) : Sha256State :=
  let sum1 := rotr r.e 6 ^^^ rotr r.e 11 ^^^ rotr r.e 25
  let choice := (r.e &&& r.f) ^^^ (~~~r.e &&& r.g)
  let temporary1 := r.h + sum1 + choice + constant + word
  let sum0 := rotr r.a 2 ^^^ rotr r.a 13 ^^^ rotr r.a 22
  let majority := (r.a &&& r.b) ^^^ (r.a &&& r.c) ^^^ (r.b &&& r.c)
  let temporary2 := sum0 + majority
  { a := temporary1 + temporary2, b := r.a, c := r.b, d := r.c
    e := r.d + temporary1, f := r.e, g := r.f, h := r.g }

def transform (state : Sha256State) (block : List UInt8) : Sha256State :=
  let r := (kSha256RoundConstants.zip (schedule block)).foldl
    (fun r step => r.round step.1 step.2) state
  { a := state.a + r.a, b := state.b + r.b, c := state.c + r.c, d := state.d + r.d
    e := state.e + r.e, f := state.f + r.f, g := state.g + r.g, h := state.h + r.h }

def words (state : Sha256State) : List UInt32 :=
  [state.a, state.b, state.c, state.d, state.e, state.f, state.g, state.h]

end Sha256State

structure Sha256 where
  state : Sha256State := {}
  block : List UInt8 := []
  totalSize : UInt64 := 0
  deriving DecidableEq, Repr

namespace Sha256

/-- The loop of `Update`; every turn but the last fills a block. -/
def updateLoop : Nat → Sha256 → List UInt8 → Sha256
  | 0, sha256, _ => sha256
  | turns + 1, sha256, data =>
      if data = [] then sha256
      else
        let copied := min data.length (64 - sha256.block.length)
        let block := sha256.block ++ data.take copied
        if block.length = 64 then
          updateLoop turns { sha256 with state := sha256.state.transform block, block := [] }
            (data.drop copied)
        else updateLoop turns { sha256 with block } (data.drop copied)

def update (sha256 : Sha256) (data : List UInt8) : Sha256 :=
  updateLoop (data.length + 1) { sha256 with totalSize := sha256.totalSize + .ofNat data.length } data

/-- The eight big-endian bytes of the bit size. -/
def sizeBytes (bitSize : UInt64) : List UInt8 :=
  (List.range 8).map fun index => (bitSize >>> (.ofNat ((7 - index) * 8))).toUInt8

def final (sha256 : Sha256) : List UInt8 :=
  let bitSize := sha256.totalSize * 8
  let block := sha256.block ++ [0x80]
  let (state, block) :=
    if block.length > 56 then
      (sha256.state.transform (block ++ List.replicate (64 - block.length) 0), [])
    else (sha256.state, block)
  let padded := block ++ List.replicate (56 - block.length) 0 ++ sizeBytes bitSize
  (state.transform padded).words.flatMap fun word : UInt32 =>
    [(word >>> 24).toUInt8, (word >>> 16).toUInt8, (word >>> 8).toUInt8, word.toUInt8]

/-- The digest of the empty content. -/
example : (Sha256.final {}).take 8 = [0xe3, 0xb0, 0xc4, 0x42, 0x98, 0xfc, 0x1c, 0x14] := by
  decide +kernel

end Sha256

theorem sha256_final_length (sha256 : Sha256) : sha256.final.length = 32 := by
  simp [Sha256.final, Sha256State.words]

end Reb.Evidence
