/-
# Theory.Sha2 -- the secure hash standard and its keyed hash

The hash functions of words of 32 and 64 bits as the standard writes them: a message is
padded to whole blocks, a block is sixteen words, its schedule extends them, and every
round mixes one word and one constant into eight working variables.  The constants are the
first bits of the fractional parts of roots of primes; `fraction_eq` checks a written one.
-/
import Mathlib

namespace Reb.Theory.Sha2

set_option autoImplicit false

/-- The number of rounds and the rotations; the small functions shift by the last count. -/
structure Family (w : Nat) where
  rounds : Nat
  bigSigma0 : Nat × Nat × Nat
  bigSigma1 : Nat × Nat × Nat
  smallSigma0 : Nat × Nat × Nat
  smallSigma1 : Nat × Nat × Nat

def words32 : Family 32 where
  rounds := 64
  bigSigma0 := (2, 13, 22)
  bigSigma1 := (6, 11, 25)
  smallSigma0 := (7, 18, 3)
  smallSigma1 := (17, 19, 10)

def words64 : Family 64 where
  rounds := 80
  bigSigma0 := (28, 34, 39)
  bigSigma1 := (14, 18, 41)
  smallSigma0 := (1, 8, 7)
  smallSigma1 := (19, 61, 6)

/-! ## Constants -/

/-- The first eighty primes. -/
def primes : List Nat := (List.range 410).filter Nat.Prime

/-- The first `w` bits of the fractional part of the `k`-th root of a number. -/
def fraction (w k n : Nat) : BitVec w := .ofNat w (Nat.nthRoot k (n * 2 ^ (k * w)))

def constant (w t : Nat) : BitVec w := fraction w 3 (primes.getD t 0)

/-! ## Functions -/

section Functions

variable {w : Nat}

def ch (x y z : BitVec w) : BitVec w := (x &&& y) ^^^ (~~~x &&& z)

def maj (x y z : BitVec w) : BitVec w := (x &&& y) ^^^ (x &&& z) ^^^ (y &&& z)

def rotations (counts : Nat × Nat × Nat) (x : BitVec w) : BitVec w :=
  x.rotateRight counts.1 ^^^ x.rotateRight counts.2.1 ^^^ x.rotateRight counts.2.2

def rotationsShift (counts : Nat × Nat × Nat) (x : BitVec w) : BitVec w :=
  x.rotateRight counts.1 ^^^ x.rotateRight counts.2.1 ^^^ (x >>> counts.2.2)

end Functions

/-! ## Computation -/

section Computation

variable {w : Nat} (family : Family w)

/-- A hash value, and the working variables. -/
@[ext] structure Hash (w : Nat) where
  a : BitVec w
  b : BitVec w
  c : BitVec w
  d : BitVec w
  e : BitVec w
  f : BitVec w
  g : BitVec w
  h : BitVec w
  deriving DecidableEq

/-- The hash value of the first bits of the square roots of eight primes. -/
def initial (w : Nat) (prime : Nat → Nat) : Hash w where
  a := fraction w 2 (prime 0)
  b := fraction w 2 (prime 1)
  c := fraction w 2 (prime 2)
  d := fraction w 2 (prime 3)
  e := fraction w 2 (prime 4)
  f := fraction w 2 (prime 5)
  g := fraction w 2 (prime 6)
  h := fraction w 2 (prime 7)

/-- The message schedule of a block. -/
def schedule (block : Nat → BitVec w) (t : Nat) : BitVec w :=
  if t < 16 then block t
  else rotationsShift family.smallSigma1 (schedule block (t - 2)) + schedule block (t - 7)
    + rotationsShift family.smallSigma0 (schedule block (t - 15)) + schedule block (t - 16)
termination_by t

def round (r : Hash w) (k word : BitVec w) : Hash w :=
  let t1 := r.h + rotations family.bigSigma1 r.e + ch r.e r.f r.g + k + word
  let t2 := rotations family.bigSigma0 r.a + maj r.a r.b r.c
  { a := t1 + t2, b := r.a, c := r.b, d := r.c, e := r.d + t1, f := r.e, g := r.f, h := r.g }

def compress (hash : Hash w) (block : Nat → BitVec w) : Hash w :=
  let r := (List.range family.rounds).foldl
    (fun r t => round family r (constant w t) (schedule family block t)) hash
  { a := r.a + hash.a, b := r.b + hash.b, c := r.c + hash.c, d := r.d + hash.d
    e := r.e + hash.e, f := r.f + hash.f, g := r.g + hash.g, h := r.h + hash.h }

/-! ## Bytes -/

/-- A number in big-endian bytes. -/
def bigEndian (count n : Nat) : List UInt8 :=
  (List.range count).map fun i => .ofNat (n / 256 ^ (count - 1 - i))

/-- The number of big-endian bytes. -/
def ofBigEndian (bytes : List UInt8) : Nat := bytes.foldl (fun n byte => n * 256 + byte.toNat) 0

/-- A word of a block of bytes. -/
def wordAt (w : Nat) (block : List UInt8) (i : Nat) : BitVec w :=
  .ofNat w (ofBigEndian ((block.drop (i * (w / 8))).take (w / 8)))

/-- The least number of zero bytes that completes a block of `2 * w` bytes. -/
def zeros (w length : Nat) : Nat := (2 * w - (length + 1 + w / 4) % (2 * w)) % (2 * w)

/-- The bit `1`, the zeros and the length in bits. -/
def padding (w length : Nat) : List UInt8 :=
  0x80 :: List.replicate (zeros w length) 0 ++ bigEndian (w / 4) (8 * length)

def chunks {β : Type} (size : Nat) (bytes : List β) : List (List β) :=
  (List.range (bytes.length / size)).map fun i => (bytes.drop (i * size)).take size

def hash (start : Hash w) (message : List UInt8) : Hash w :=
  (chunks (2 * w) (message ++ padding w message.length)).foldl
    (fun value block => compress family value (wordAt w block)) start

def Hash.bytes (value : Hash w) : List UInt8 :=
  [value.a, value.b, value.c, value.d, value.e, value.f, value.g, value.h].flatMap
    fun word => bigEndian (w / 8) word.toNat

end Computation

def sha256 (message : List UInt8) : List UInt8 :=
  (hash words32 (initial 32 fun i => primes.getD i 0) message).bytes

def sha512 (message : List UInt8) : List UInt8 :=
  (hash words64 (initial 64 fun i => primes.getD i 0) message).bytes

/-- The roots of the ninth to the sixteenth prime start it, and its digest is cut. -/
def sha384 (message : List UInt8) : List UInt8 :=
  (hash words64 (initial 64 fun i => primes.getD (i + 8) 0) message).bytes.take 48

/-- The keyed hash over a hash function of a block size. -/
def hmac (digest : List UInt8 → List UInt8) (blockSize : Nat) (key text : List UInt8) :
    List UInt8 :=
  let key := if key.length > blockSize then digest key else key
  let key := key ++ List.replicate (blockSize - key.length) 0
  let ipad := List.replicate blockSize (0x36 : UInt8)
  let opad := List.replicate blockSize (0x5c : UInt8)
  digest (List.zipWith (· ^^^ ·) key opad ++ digest (List.zipWith (· ^^^ ·) key ipad ++ text))

/-! ## Words from bytes -/

/-- A byte shifted into a word. -/
theorem ofNat_shift (w n : Nat) (byte : UInt8) :
    BitVec.ofNat w (n * 256 + byte.toNat)
      = (BitVec.ofNat w n <<< 8) ||| BitVec.ofNat w byte.toNat := by
  have join : n * 256 + byte.toNat = n <<< 8 ||| byte.toNat := by
    rw [← Nat.shiftLeft_add_eq_or_of_lt byte.toNat_lt, Nat.shiftLeft_eq]
  rw [join]
  apply BitVec.eq_of_toNat_eq
  simp [Nat.shiftLeft_eq]

theorem ofNat_ofBigEndian (w : Nat) (bytes : List UInt8) :
    BitVec.ofNat w (ofBigEndian bytes)
      = bytes.foldl (fun (word : BitVec w) (byte : UInt8) =>
          (word <<< 8) ||| BitVec.ofNat w byte.toNat) (0 : BitVec w) := by
  have run : ∀ n, BitVec.ofNat w (bytes.foldl (fun n byte => n * 256 + byte.toNat) n)
      = bytes.foldl (fun (word : BitVec w) (byte : UInt8) =>
          (word <<< 8) ||| BitVec.ofNat w byte.toNat) (BitVec.ofNat w n) := by
    induction bytes with
    | nil => exact fun _ => rfl
    | cons byte bytes ih =>
        intro n
        rw [List.foldl_cons, List.foldl_cons, ih, ofNat_shift]
  exact run 0

/-! ## Bytes of numbers -/

theorem bigEndian_append (high low n : Nat) :
    bigEndian (high + low) n = bigEndian high (n / 256 ^ low) ++ bigEndian low n := by
  rw [bigEndian, List.range_add, List.map_append, List.map_map]
  congr 1
  · refine List.map_congr_left fun i inside => ?_
    have inside := List.mem_range.1 inside
    rw [Nat.div_div_eq_div_mul, ← pow_add]
    congr 3
    omega
  · refine List.map_congr_left fun i _ => ?_
    rw [Function.comp_apply, show high + low - 1 - (high + i) = low - 1 - i by omega]

theorem bigEndian_mod (count n : Nat) : bigEndian count (n % 256 ^ count) = bigEndian count n := by
  refine List.map_congr_left fun i inside => ?_
  have inside := List.mem_range.1 inside
  have split : 256 ^ count = 256 ^ (count - 1 - i) * 256 ^ (i + 1) := by
    rw [← pow_add]
    congr 1
    omega
  apply UInt8.toNat_inj.1
  rw [UInt8.toNat_ofNat', UInt8.toNat_ofNat', split, Nat.mod_mul_right_div_self,
    Nat.mod_mod_of_dvd _ (show 2 ^ 8 ∣ 256 ^ (i + 1) from ⟨256 ^ i, pow_succ' _ _⟩)]

/-! ## Checked constants -/

/-- Whether a written number is the fraction of a root; the root is less than eight. -/
def isFraction (w k n written : Nat) : Bool :=
  (List.range 8).any fun whole =>
    (whole * 2 ^ w + written) ^ k ≤ n * 2 ^ (k * w)
      && n * 2 ^ (k * w) < (whole * 2 ^ w + written + 1) ^ k

theorem fraction_eq {w k n written : Nat} (checked : isFraction w k n written = true) :
    fraction w k n = .ofNat w written := by
  simp only [isFraction, List.any_eq_true, Bool.and_eq_true, decide_eq_true_eq] at checked
  obtain ⟨whole, -, below, above⟩ := checked
  rw [fraction, Nat.nthRoot_eq_of_le_of_lt below above]
  apply BitVec.eq_of_toNat_eq
  simp

theorem primes_eq : primes = [2, 3, 5, 7, 11, 13, 17, 19, 23, 29, 31, 37, 41, 43, 47, 53, 59, 61, 67,
    71, 73, 79, 83, 89, 97, 101, 103, 107, 109, 113, 127, 131, 137, 139, 149, 151, 157, 163, 167, 173,
    179, 181, 191, 193, 197, 199, 211, 223, 227, 229, 233, 239, 241, 251, 257, 263, 269, 271, 277, 281,
    283, 293, 307, 311, 313, 317, 331, 337, 347, 349, 353, 359, 367, 373, 379, 383, 389, 397, 401,
    409] := by
  decide +kernel

/-- A written table of constants, checked against the primes. -/
theorem constant_eq {w : Nat} {table : List Nat} (fits : table.length ≤ primes.length)
    (checked : (primes.zip table).all (fun row => isFraction w 3 row.1 row.2) = true) {t : Nat}
    (inside : t < table.length) : constant w t = .ofNat w (table.getD t 0) := by
  have known : t < primes.length := by omega
  have row := List.all_eq_true.1 checked (primes[t], table[t])
    (List.mem_iff_getElem.2 ⟨t, by simp [known, inside], by simp⟩)
  rw [constant, List.getD_eq_getElem _ _ known, List.getD_eq_getElem _ _ inside]
  exact fraction_eq row

/-- A written start, checked against eight primes. -/
theorem initial_eq {w : Nat} {prime written : Nat → Nat}
    (checked : ∀ i < 8, isFraction w 2 (prime i) (written i) = true) :
    initial w prime = ⟨.ofNat w (written 0), .ofNat w (written 1), .ofNat w (written 2),
      .ofNat w (written 3), .ofNat w (written 4), .ofNat w (written 5), .ofNat w (written 6),
      .ofNat w (written 7)⟩ := by
  apply Hash.ext
  · exact fraction_eq (checked 0 (by decide))
  · exact fraction_eq (checked 1 (by decide))
  · exact fraction_eq (checked 2 (by decide))
  · exact fraction_eq (checked 3 (by decide))
  · exact fraction_eq (checked 4 (by decide))
  · exact fraction_eq (checked 5 (by decide))
  · exact fraction_eq (checked 6 (by decide))
  · exact fraction_eq (checked 7 (by decide))

theorem zeros_complete {w : Nat} (positive : 0 < w) (length : Nat) :
    (length + 1 + w / 4 + zeros w length) % (2 * w) = 0 := by
  have left := Nat.mod_lt (length + 1 + w / 4) (show 0 < 2 * w by omega)
  have split := Nat.div_add_mod (length + 1 + w / 4) (2 * w)
  rw [zeros, Nat.add_mod_mod]
  have whole : length + 1 + w / 4 + (2 * w - (length + 1 + w / 4) % (2 * w))
      = 2 * w * ((length + 1 + w / 4) / (2 * w) + 1) := by
    rw [Nat.mul_succ]
    omega
  rw [whole, Nat.mul_mod_right]

theorem zeros_lt {w : Nat} (positive : 0 < w) (length : Nat) : zeros w length < 2 * w :=
  Nat.mod_lt _ (by omega)

end Reb.Theory.Sha2
