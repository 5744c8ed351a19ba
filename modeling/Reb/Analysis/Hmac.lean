/-
# Analysis.Hmac -- the signatures of tokens

`HmacSha2` over the three digests.  The decoder's `Sha256` is the artifact store's; its
`Sha512` has words of 64 bits, and `sha384` starts it from another state and cuts the
digest.  `ConstantTimeEqual` compares every byte and is equality (`constantTimeEqual_iff`).
-/
import Reb.Evidence.Sha256

namespace Reb.Analysis

open Reb.Evidence

set_option autoImplicit false

inductive JwtAlgorithm where
  | none | hs256 | hs384 | hs512 | unsupported
  deriving DecidableEq, Repr

/-! ## SHA-512 -/

def kSha512RoundConstants : List UInt64 := [
  0x428a2f98d728ae22, 0x7137449123ef65cd, 0xb5c0fbcfec4d3b2f, 0xe9b5dba58189dbbc,
  0x3956c25bf348b538, 0x59f111f1b605d019, 0x923f82a4af194f9b, 0xab1c5ed5da6d8118,
  0xd807aa98a3030242, 0x12835b0145706fbe, 0x243185be4ee4b28c, 0x550c7dc3d5ffb4e2,
  0x72be5d74f27b896f, 0x80deb1fe3b1696b1, 0x9bdc06a725c71235, 0xc19bf174cf692694,
  0xe49b69c19ef14ad2, 0xefbe4786384f25e3, 0x0fc19dc68b8cd5b5, 0x240ca1cc77ac9c65,
  0x2de92c6f592b0275, 0x4a7484aa6ea6e483, 0x5cb0a9dcbd41fbd4, 0x76f988da831153b5,
  0x983e5152ee66dfab, 0xa831c66d2db43210, 0xb00327c898fb213f, 0xbf597fc7beef0ee4,
  0xc6e00bf33da88fc2, 0xd5a79147930aa725, 0x06ca6351e003826f, 0x142929670a0e6e70,
  0x27b70a8546d22ffc, 0x2e1b21385c26c926, 0x4d2c6dfc5ac42aed, 0x53380d139d95b3df,
  0x650a73548baf63de, 0x766a0abb3c77b2a8, 0x81c2c92e47edaee6, 0x92722c851482353b,
  0xa2bfe8a14cf10364, 0xa81a664bbc423001, 0xc24b8b70d0f89791, 0xc76c51a30654be30,
  0xd192e819d6ef5218, 0xd69906245565a910, 0xf40e35855771202a, 0x106aa07032bbd1b8,
  0x19a4c116b8d2d0c8, 0x1e376c085141ab53, 0x2748774cdf8eeb99, 0x34b0bcb5e19b48a8,
  0x391c0cb3c5c95a63, 0x4ed8aa4ae3418acb, 0x5b9cca4f7763e373, 0x682e6ff3d6b2b8a3,
  0x748f82ee5defb2fc, 0x78a5636f43172f60, 0x84c87814a1f0ab72, 0x8cc702081a6439ec,
  0x90befffa23631e28, 0xa4506cebde82bde9, 0xbef9a3f7b2c67915, 0xc67178f2e372532b,
  0xca273eceea26619c, 0xd186b8c721c0c207, 0xeada7dd6cde0eb1e, 0xf57d4f7fee6ed178,
  0x06f067aa72176fba, 0x0a637dc5a2c898a6, 0x113f9804bef90dae, 0x1b710b35131c471b,
  0x28db77f523047d84, 0x32caab7b40c72493, 0x3c9ebe0a15c9bebc, 0x431d67c49c100d4c,
  0x4cc5d4becb3e42b6, 0x597f299cfc657e2a, 0x5fcb6fab3ad6faec, 0x6c44198c4a475817]

/-- `std::rotr`. -/
def rotr64 (word : UInt64) (count : UInt64) : UInt64 :=
  (word >>> count) ||| (word <<< (64 - count))

structure Sha512State where
  a : UInt64 := 0x6a09e667f3bcc908
  b : UInt64 := 0xbb67ae8584caa73b
  c : UInt64 := 0x3c6ef372fe94f82b
  d : UInt64 := 0xa54ff53a5f1d36f1
  e : UInt64 := 0x510e527fade682d1
  f : UInt64 := 0x9b05688c2b3e6c1f
  g : UInt64 := 0x1f83d9abfb41bd6b
  h : UInt64 := 0x5be0cd19137e2179
  deriving DecidableEq, Repr

namespace Sha512State

/-- The state that `sha384` starts from. -/
def sha384 : Sha512State where
  a := 0xcbbb9d5dc1059ed8
  b := 0x629a292a367cd507
  c := 0x9159015a3070dd17
  d := 0x152fecd8f70e5939
  e := 0x67332667ffc00b31
  f := 0x8eb44a8768581511
  g := 0xdb0c2e0d64f98fa7
  h := 0x47b5481dbefa4fa4

/-- The sixteen big-endian words of a block. -/
def blockWords (block : List UInt8) : List UInt64 :=
  (List.range 16).map fun index =>
    (List.range 8).foldl (fun word byte => (word <<< 8) ||| (block.getD (index * 8 + byte) 0).toUInt64) 0

def scheduleWord (schedule : List UInt64) (index : Nat) : UInt64 :=
  let w15 := schedule.getD (index - 15) 0
  let w2 := schedule.getD (index - 2) 0
  let s0 := rotr64 w15 1 ^^^ rotr64 w15 8 ^^^ (w15 >>> 7)
  let s1 := rotr64 w2 19 ^^^ rotr64 w2 61 ^^^ (w2 >>> 6)
  schedule.getD (index - 16) 0 + s0 + schedule.getD (index - 7) 0 + s1

def schedule (block : List UInt8) : List UInt64 :=
  (List.range' 16 64).foldl (fun words index => words ++ [scheduleWord words index])
    (blockWords block)

def round (r : Sha512State) (constant word : UInt64) : Sha512State :=
  let sum1 := rotr64 r.e 14 ^^^ rotr64 r.e 18 ^^^ rotr64 r.e 41
  let choice := (r.e &&& r.f) ^^^ (~~~r.e &&& r.g)
  let first := r.h + sum1 + choice + constant + word
  let sum0 := rotr64 r.a 28 ^^^ rotr64 r.a 34 ^^^ rotr64 r.a 39
  let majority := (r.a &&& r.b) ^^^ (r.a &&& r.c) ^^^ (r.b &&& r.c)
  let second := sum0 + majority
  { a := first + second, b := r.a, c := r.b, d := r.c
    e := r.d + first, f := r.e, g := r.f, h := r.g }

def transform (state : Sha512State) (block : List UInt8) : Sha512State :=
  let r := (kSha512RoundConstants.zip (schedule block)).foldl
    (fun r step => r.round step.1 step.2) state
  { a := state.a + r.a, b := state.b + r.b, c := state.c + r.c, d := state.d + r.d
    e := state.e + r.e, f := state.f + r.f, g := state.g + r.g, h := state.h + r.h }

def words (state : Sha512State) : List UInt64 :=
  [state.a, state.b, state.c, state.d, state.e, state.f, state.g, state.h]

end Sha512State

/-- The eight big-endian bytes of a word. -/
def wordBytes (word : UInt64) : List UInt8 :=
  (List.range 8).map fun byte => (word >>> (.ofNat ((7 - byte) * 8))).toUInt8

structure Sha512 where
  sha384 : Bool
  state : Sha512State
  block : List UInt8 := []
  totalSize : UInt64 := 0
  deriving DecidableEq, Repr

namespace Sha512

/-- The constructor. -/
def start (sha384 : Bool) : Sha512 := { sha384, state := if sha384 then .sha384 else {} }

/-- The loop of `Update`; every turn but the last fills a block. -/
def updateLoop : Nat → Sha512 → List UInt8 → Sha512
  | 0, sha512, _ => sha512
  | turns + 1, sha512, input =>
      if input = [] then sha512
      else
        let copied := min input.length (128 - sha512.block.length)
        let block := sha512.block ++ input.take copied
        if block.length = 128 then
          updateLoop turns { sha512 with state := sha512.state.transform block, block := [] }
            (input.drop copied)
        else updateLoop turns { sha512 with block } (input.drop copied)

def update (sha512 : Sha512) (input : List UInt8) : Sha512 :=
  updateLoop (input.length + 1) { sha512 with totalSize := sha512.totalSize + .ofNat input.length }
    input

def final (sha512 : Sha512) : List UInt8 :=
  let lowBits := sha512.totalSize <<< 3
  let highBits := sha512.totalSize >>> 61
  let block := sha512.block ++ [0x80]
  let (state, block) :=
    if block.length > 112 then
      (sha512.state.transform (block ++ List.replicate (128 - block.length) 0), [])
    else (sha512.state, block)
  let padded := block ++ List.replicate (112 - block.length) 0 ++ wordBytes highBits
    ++ wordBytes lowBits
  ((state.transform padded).words.flatMap wordBytes).take (if sha512.sha384 then 48 else 64)

/-- The digests of the empty text. -/
example : ((start false).final.take 8, (start true).final.take 8)
    = ([0xcf, 0x83, 0xe1, 0x35, 0x7e, 0xef, 0xb8, 0xbd],
      [0x38, 0xb0, 0x60, 0xa7, 0x51, 0xac, 0x96, 0x38]) := by
  decide +kernel

end Sha512

/-! ## HMAC -/

def sha2Digest (algorithm : JwtAlgorithm) (input : List UInt8) : List UInt8 :=
  if algorithm = .hs256 then (Sha256.update {} input).final
  else ((Sha512.start (algorithm = .hs384)).update input).final

def hmacBlockSize (algorithm : JwtAlgorithm) : Nat := if algorithm = .hs256 then 64 else 128

/-- The key, hashed when it is longer than a block, and padded to one. -/
def normalizedKey (algorithm : JwtAlgorithm) (key : List UInt8) : List UInt8 :=
  let key := if key.length > hmacBlockSize algorithm then sha2Digest algorithm key else key
  key ++ List.replicate (hmacBlockSize algorithm - key.length) 0

def hmacSha2 (algorithm : JwtAlgorithm) (key input : List UInt8) : List UInt8 :=
  let inner := (normalizedKey algorithm key).map (· ^^^ 0x36) ++ input
  let outer := (normalizedKey algorithm key).map (· ^^^ 0x5c)
  sha2Digest algorithm (outer ++ sha2Digest algorithm inner)

/-- The loop of `ConstantTimeEqual`: every byte of the longer one is compared. -/
def constantTimeEqual (left right : List UInt8) : Bool :=
  (List.range (max left.length right.length)).foldl
    (fun difference index =>
      difference ||| ((left.getD index 0) ^^^ (right.getD index 0)).toNat)
    (left.length ^^^ right.length) = 0

/-! ## Lengths -/

theorem Sha512.final_length (sha512 : Sha512) : sha512.final.length ≤ 64 := by
  simp [Sha512.final, Sha512State.words, wordBytes]

theorem sha2Digest_length (algorithm : JwtAlgorithm) (input : List UInt8) :
    (sha2Digest algorithm input).length ≤ 64 := by
  rw [sha2Digest]
  split
  · rw [sha256_final_length]
    decide
  · exact Sha512.final_length _

theorem hmacSha2_length (algorithm : JwtAlgorithm) (key input : List UInt8) :
    (hmacSha2 algorithm key input).length ≤ 64 :=
  sha2Digest_length algorithm _

/-! ## Comparison -/

theorem foldl_lor_eq_zero {α : Type} (g : α → Nat) (items : List α) (start : Nat) :
    items.foldl (fun difference item => difference ||| g item) start = 0
      ↔ start = 0 ∧ ∀ item ∈ items, g item = 0 := by
  induction items generalizing start with
  | nil => simp
  | cons item items ih => simp [ih, Nat.or_eq_zero_iff, and_assoc]

theorem constantTimeEqual_iff {left right : List UInt8} :
    constantTimeEqual left right = true ↔ left = right := by
  rw [constantTimeEqual, decide_eq_true_iff, foldl_lor_eq_zero, Nat.xor_eq_zero_iff]
  constructor
  · rintro ⟨sizes, bytes⟩
    apply List.ext_getElem sizes
    intro index here there
    have same := bytes index (by simp [here])
    rw [List.getD_eq_getElem _ _ here, List.getD_eq_getElem _ _ there] at same
    have none : left[index] ^^^ right[index] = 0 := UInt8.toNat_inj.1 same
    exact UInt8.xor_eq_zero_iff.1 none
  · rintro rfl
    exact ⟨rfl, by simp⟩

end Reb.Analysis
