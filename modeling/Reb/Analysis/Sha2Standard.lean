/-
# Analysis.Sha2Standard -- the digests are those of the standard

Word by word the rounds and schedules are the standard's (`transform_hash`), and so are the
written constants; the streams fold the blocks of the padded message.  The decoder's keyed
hash is the standard one over them.  The stream that has taken in a message does not depend
on how it was cut (`update_absorbed`), so neither does the artifact store's digest.
-/
import Reb.Analysis.Hmac
import Reb.Theory.BlockStream

namespace Reb.Analysis

open Reb.Evidence
open Reb.Theory.Sha2
open Reb.Theory.BlockStream

set_option autoImplicit false

/-- The summands of a schedule word in the order of the code. -/
theorem recurrence {w : Nat} (w16 s0 w7 s1 : BitVec w) :
    w16 + s0 + w7 + s1 = s1 + w7 + s0 + w16 := by
  ac_rfl

/-- The bytes of a word, highest first. -/
theorem wordBytes_eq (word : UInt64) : wordBytes word = bigEndian 8 word.toNat := by
  refine List.map_congr_left fun i inside => ?_
  have small : (7 - i) * 8 < 64 := by omega
  apply UInt8.toNat_inj.1
  rw [UInt64.toNat_toUInt8, UInt64.toNat_shiftRight, UInt64.toNat_ofNat_of_lt' (by
    show (7 - i) * 8 < 18446744073709551616
    omega), Nat.mod_eq_of_lt small, Nat.shiftRight_eq_div_pow, UInt8.toNat_ofNat', Nat.mul_comm, pow_mul]
  rfl

/-! ## Words of 32 bits -/

namespace Standard256

theorem rotr_toBitVec (x : UInt32) {n : Nat} (positive : 0 < n) (small : n < 32) :
    (rotr x (.ofNat n)).toBitVec = x.toBitVec.rotateRight n := by
  have count : (UInt32.ofNat n).toNat = n := UInt32.toNat_ofNat_of_lt' (by show n < 4294967296; omega)
  have other : (32 - UInt32.ofNat n).toNat = 32 - n := by
    rw [UInt32.toNat_sub_of_le, count]
    · rfl
    · rw [UInt32.le_iff_toNat_le, count]
      exact small.le
  have right : ((UInt32.ofNat n).toBitVec % 32).toNat = n := by
    rw [BitVec.toNat_umod]
    exact (congrArg (· % 32) count).trans (Nat.mod_eq_of_lt small)
  have left : ((32 - UInt32.ofNat n).toBitVec % 32).toNat = 32 - n := by
    rw [BitVec.toNat_umod]
    exact (congrArg (· % 32) other).trans (Nat.mod_eq_of_lt (by omega))
  rw [rotr, UInt32.toBitVec_or, UInt32.toBitVec_shiftRight, UInt32.toBitVec_shiftLeft,
    BitVec.ushiftRight_eq', BitVec.shiftLeft_eq', right, left, BitVec.rotateRight_def,
    Nat.mod_eq_of_lt small]

theorem rotations_eq (x : UInt32) {i j k : Nat}
    (bounds : (0 < i ∧ i < 32) ∧ (0 < j ∧ j < 32) ∧ 0 < k ∧ k < 32) :
    (rotr x (.ofNat i) ^^^ rotr x (.ofNat j) ^^^ rotr x (.ofNat k)).toBitVec
      = rotations (i, j, k) x.toBitVec := by
  rw [UInt32.toBitVec_xor, UInt32.toBitVec_xor, rotr_toBitVec x bounds.1.1 bounds.1.2,
    rotr_toBitVec x bounds.2.1.1 bounds.2.1.2, rotr_toBitVec x bounds.2.2.1 bounds.2.2.2, rotations]

theorem rotationsShift_eq (x : UInt32) {i j k : Nat}
    (bounds : (0 < i ∧ i < 32) ∧ (0 < j ∧ j < 32) ∧ k < 32) :
    (rotr x (.ofNat i) ^^^ rotr x (.ofNat j) ^^^ (x >>> .ofNat k)).toBitVec
      = rotationsShift (i, j, k) x.toBitVec := by
  have count : ((UInt32.ofNat k).toBitVec % 32).toNat = k := by
    rw [BitVec.toNat_umod]
    exact (congrArg (· % 32) (UInt32.toNat_ofNat_of_lt' (by show k < 4294967296; omega))).trans
      (Nat.mod_eq_of_lt bounds.2.2)
  rw [UInt32.toBitVec_xor, UInt32.toBitVec_xor, rotr_toBitVec x bounds.1.1 bounds.1.2,
    rotr_toBitVec x bounds.2.1.1 bounds.2.1.2, UInt32.toBitVec_shiftRight, BitVec.ushiftRight_eq',
    count, rotationsShift]

/-- The working variables as the standard has them. -/
def hash (s : Sha256State) : Hash 32 where
  a := s.a.toBitVec
  b := s.b.toBitVec
  c := s.c.toBitVec
  d := s.d.toBitVec
  e := s.e.toBitVec
  f := s.f.toBitVec
  g := s.g.toBitVec
  h := s.h.toBitVec

theorem round_hash (s : Sha256State) (constant word : UInt32) :
    hash (s.round constant word) = round words32 (hash s) constant.toBitVec word.toBitVec := by
  have sum1 : (rotr s.e 6 ^^^ rotr s.e 11 ^^^ rotr s.e 25).toBitVec
      = rotations (6, 11, 25) s.e.toBitVec := @rotations_eq s.e 6 11 25 (by decide)
  have sum0 : (rotr s.a 2 ^^^ rotr s.a 13 ^^^ rotr s.a 22).toBitVec
      = rotations (2, 13, 22) s.a.toBitVec := @rotations_eq s.a 2 13 22 (by decide)
  have first : ∀ k word : UInt32, (s.h + (rotr s.e 6 ^^^ rotr s.e 11 ^^^ rotr s.e 25)
      + ((s.e &&& s.f) ^^^ (~~~s.e &&& s.g)) + k + word).toBitVec
        = s.h.toBitVec + rotations (6, 11, 25) s.e.toBitVec
          + ch s.e.toBitVec s.f.toBitVec s.g.toBitVec + k.toBitVec + word.toBitVec := by
    intro k word
    simp only [UInt32.toBitVec_add, sum1]
    rfl
  have second : ((rotr s.a 2 ^^^ rotr s.a 13 ^^^ rotr s.a 22)
      + ((s.a &&& s.b) ^^^ (s.a &&& s.c) ^^^ (s.b &&& s.c))).toBitVec
        = rotations (2, 13, 22) s.a.toBitVec + maj s.a.toBitVec s.b.toBitVec s.c.toBitVec := by
    rw [UInt32.toBitVec_add, sum0]
    rfl
  apply Hash.ext
  · exact UInt32.toBitVec_add.trans (congrArg₂ (· + ·) (first _ _) second)
  · rfl
  · rfl
  · rfl
  · exact UInt32.toBitVec_add.trans (congrArg (s.d.toBitVec + ·) (first _ _))
  · rfl
  · rfl
  · rfl

theorem byte_toBitVec (byte : UInt8) : byte.toUInt32.toBitVec = .ofNat 32 byte.toNat := by
  apply BitVec.eq_of_toNat_eq
  have := byte.toNat_lt
  simp

/-- Four bytes joined at once, or one by one. -/
theorem joined (a b c d : BitVec 32) :
    a <<< 24 ||| b <<< 16 ||| c <<< 8 ||| d = (((0 <<< 8 ||| a) <<< 8 ||| b) <<< 8 ||| c) <<< 8 ||| d := by
  simp [BitVec.shiftLeft_or_distrib, ← BitVec.shiftLeft_add]

theorem blockWords_eq {block : List UInt8} (length : block.length = 64) {t : Nat} (first : t < 16) :
    ((Sha256State.blockWords block).getD t 0).toBitVec = wordAt 32 block t := by
  have bytes := @take_drop_eq_range _ (0 : UInt8) block (t * 4) 4 (by omega)
  rw [wordAt, ofNat_ofBigEndian, bytes, Sha256State.blockWords, List.getD_eq_getElem _ _ (by simpa),
    List.getElem_map, List.getElem_range]
  simp only [UInt32.toBitVec_or, UInt32.toBitVec_shiftLeft, byte_toBitVec]
  exact joined _ _ _ _

theorem schedule_eq {block : List UInt8} (length : block.length = 64) :
    (Sha256State.schedule block).length = 64 ∧ ∀ t < 64,
      ((Sha256State.schedule block).getD t 0).toBitVec = schedule words32 (wordAt 32 block) t := by
  refine extend_eq UInt32.toBitVec (schedule words32 (wordAt 32 block)) 0 Sha256State.scheduleWord 16
    ?_ (Sha256State.blockWords block) (by simp [Sha256State.blockWords]) ?_ 48
  · intro words long known
    have small0 (x : UInt32) : (rotr x 7 ^^^ rotr x 18 ^^^ (x >>> 3)).toBitVec
        = rotationsShift (7, 18, 3) x.toBitVec := @rotationsShift_eq x 7 18 3 (by decide)
    have small1 (x : UInt32) : (rotr x 17 ^^^ rotr x 19 ^^^ (x >>> 10)).toBitVec
        = rotationsShift (17, 19, 10) x.toBitVec := @rotationsShift_eq x 17 19 10 (by decide)
    rw [schedule, if_neg (by omega), ← known _ (by omega), ← known _ (by omega),
      ← known _ (by omega), ← known _ (by omega), Sha256State.scheduleWord]
    simp only [UInt32.toBitVec_add, small0, small1]
    exact recurrence _ _ _ _
  · intro t first
    rw [blockWords_eq length first, schedule, if_pos first]

theorem constants_eq : ∀ t < 64, (kSha256RoundConstants.getD t 0).toBitVec = constant 32 t := by
  intro t inside
  have checked : (primes.zip (kSha256RoundConstants.map UInt32.toNat)).all
      (fun row => isFraction 32 3 row.1 row.2) = true := by
    rw [primes_eq]
    decide +kernel
  have known : t < (kSha256RoundConstants.map UInt32.toNat).length := inside
  rw [constant_eq (by rw [primes_eq]; decide) checked known, List.getD_eq_getElem _ _ known,
    List.getD_eq_getElem _ _ (show t < kSha256RoundConstants.length from inside), List.getElem_map]
  exact BitVec.eq_of_toNat_eq (Nat.mod_eq_of_lt (UInt32.toNat_lt _)).symm

theorem start_eq : hash {} = initial 32 fun i => primes.getD i 0 := by
  have checked : ∀ i < 8, isFraction 32 2 (primes.getD i 0)
      ((Sha256State.words {}).getD i 0).toNat = true := by
    rw [primes_eq]
    decide +kernel
  exact (initial_eq checked).symm

theorem transform_hash (s : Sha256State) {block : List UInt8} (length : block.length = 64) :
    hash (s.transform block) = compress words32 (hash s) (wordAt 32 block) := by
  obtain ⟨long, words⟩ := schedule_eq length
  have rounds : hash ((kSha256RoundConstants.zip (Sha256State.schedule block)).foldl
      (fun r step => r.round step.1 step.2) s)
        = (List.range words32.rounds).foldl (fun r t => round words32 r (constant 32 t)
          (schedule words32 (wordAt 32 block) t)) (hash s) := by
    rw [zip_eq_range 0 0 (by rfl) long, List.foldl_map]
    refine foldl_range_view hash _ _ 64 (fun r t inside => ?_) s
    rw [round_hash, constants_eq t inside, words t inside]
  rw [compress, ← rounds, Sha256State.transform]
  generalize (kSha256RoundConstants.zip (Sha256State.schedule block)).foldl
    (fun r step => r.round step.1 step.2) s = r
  apply Hash.ext
  all_goals exact UInt32.toBitVec_add.trans (BitVec.add_comm _ _)

theorem updateLoop_eq (turns : Nat) (stream : Sha256) (data : List UInt8) :
    Sha256.updateLoop turns stream data
      = { stream with
          state := (fillLoop 64 Sha256State.transform turns stream.state stream.block data).1
          block := (fillLoop 64 Sha256State.transform turns stream.state stream.block data).2 } := by
  induction turns generalizing stream data with
  | zero => rfl
  | succ turns ih =>
      rw [Sha256.updateLoop, fillLoop]
      by_cases none : data = []
      · rw [if_pos none, if_pos none]
      · rw [if_neg none, if_neg none]
        dsimp only
        split
        · rw [ih]
        · rw [ih]

theorem sizeBytes_length (size : UInt64) : (Sha256.sizeBytes size).length = 8 := by
  simp [Sha256.sizeBytes]

theorem final_eq (stream : Sha256) :
    stream.final = (close Sha256State.transform 64 0x80 0 (Sha256.sizeBytes (stream.totalSize * 8))
      stream.state stream.block).words.flatMap fun word : UInt32 =>
        [(word >>> 24).toUInt8, (word >>> 16).toUInt8, (word >>> 8).toUInt8, word.toUInt8] := by
  rw [close, sizeBytes_length]
  rfl

/-- The bytes of the state. -/
theorem bytes_eq (s : Sha256State) : (hash s).bytes = s.words.flatMap fun word : UInt32 =>
    [(word >>> 24).toUInt8, (word >>> 16).toUInt8, (word >>> 8).toUInt8, word.toUInt8] := by
  have word (x : UInt32) : bigEndian (32 / 8) x.toBitVec.toNat
      = [(x >>> 24).toUInt8, (x >>> 16).toUInt8, (x >>> 8).toUInt8, x.toUInt8] := by
    have shifted (n : Nat) (y : UInt32) (same : y.toNat = x.toNat >>> n) :
        y.toUInt8 = UInt8.ofNat (x.toNat / 2 ^ n) := by
      apply UInt8.toNat_inj.1
      rw [UInt32.toNat_toUInt8, UInt8.toNat_ofNat', same, Nat.shiftRight_eq_div_pow]
    rw [shifted 24 (x >>> 24) (UInt32.toNat_shiftRight _ _),
      shifted 16 (x >>> 16) (UInt32.toNat_shiftRight _ _),
      shifted 8 (x >>> 8) (UInt32.toNat_shiftRight _ _), shifted 0 x rfl]
    rfl
  simp only [Hash.bytes, Sha256State.words, List.flatMap_cons, List.flatMap_nil, hash, word]

/-- The stream that has taken in a message, however it came. -/
def absorbed (message : List UInt8) : Sha256 where
  state := (chunks 64 message).foldl Sha256State.transform {}
  block := rest 64 message
  totalSize := .ofNat message.length

theorem absorbed_nil : absorbed [] = {} := rfl

theorem update_absorbed (message data : List UInt8) :
    (absorbed message).update data = absorbed (message ++ data) := by
  have waits : (rest 64 message).length < 64 := by
    rw [length_rest]
    exact Nat.mod_lt _ (by decide)
  rw [Sha256.update, updateLoop_eq, absorbed,
    fillLoop_eq _ _ _ waits (Nat.lt_succ_self _), ← fold_rest _ (by decide),
    rest_rest_append (by decide), absorbed, List.length_append, UInt64.ofNat_add]

theorem final_absorbed {message : List UInt8} (fits : message.length < 2 ^ 61) :
    (absorbed message).final = sha256 message := by
  have size : Sha256.sizeBytes ((.ofNat message.length : UInt64) * 8)
      = bigEndian 8 (8 * message.length) := by
    refine (wordBytes_eq _).trans (congrArg _ ?_)
    rw [UInt64.toNat_mul, UInt64.toNat_ofNat_of_lt' (by
      show message.length < 18446744073709551616
      omega), Nat.mul_comm]
    exact Nat.mod_eq_of_lt (show 8 * message.length < 18446744073709551616 by omega)
  have closed := @close_hash _ 32 words32 hash Sha256State.transform
    (fun s _ full => transform_hash s full) (by decide) {} message
  rw [start_eq] at closed
  rw [final_eq, absorbed, size, sha256, ← closed, bytes_eq]

theorem digest_eq {message : List UInt8} (fits : message.length < 2 ^ 61) :
    (Sha256.update {} message).final = sha256 message := by
  rw [← absorbed_nil, update_absorbed, List.nil_append, final_absorbed fits]

end Standard256

/-! ## Words of 64 bits -/

namespace Standard512

theorem rotr_toBitVec (x : UInt64) {n : Nat} (positive : 0 < n) (small : n < 64) :
    (rotr64 x (.ofNat n)).toBitVec = x.toBitVec.rotateRight n := by
  have count : (UInt64.ofNat n).toNat = n := UInt64.toNat_ofNat_of_lt' (by show n < 18446744073709551616; omega)
  have other : (64 - UInt64.ofNat n).toNat = 64 - n := by
    rw [UInt64.toNat_sub_of_le, count]
    · rfl
    · rw [UInt64.le_iff_toNat_le, count]
      exact small.le
  have right : ((UInt64.ofNat n).toBitVec % 64).toNat = n := by
    rw [BitVec.toNat_umod]
    exact (congrArg (· % 64) count).trans (Nat.mod_eq_of_lt small)
  have left : ((64 - UInt64.ofNat n).toBitVec % 64).toNat = 64 - n := by
    rw [BitVec.toNat_umod]
    exact (congrArg (· % 64) other).trans (Nat.mod_eq_of_lt (by omega))
  rw [rotr64, UInt64.toBitVec_or, UInt64.toBitVec_shiftRight, UInt64.toBitVec_shiftLeft,
    BitVec.ushiftRight_eq', BitVec.shiftLeft_eq', right, left, BitVec.rotateRight_def,
    Nat.mod_eq_of_lt small]

theorem rotations_eq (x : UInt64) {i j k : Nat}
    (bounds : (0 < i ∧ i < 64) ∧ (0 < j ∧ j < 64) ∧ 0 < k ∧ k < 64) :
    (rotr64 x (.ofNat i) ^^^ rotr64 x (.ofNat j) ^^^ rotr64 x (.ofNat k)).toBitVec
      = rotations (i, j, k) x.toBitVec := by
  rw [UInt64.toBitVec_xor, UInt64.toBitVec_xor, rotr_toBitVec x bounds.1.1 bounds.1.2,
    rotr_toBitVec x bounds.2.1.1 bounds.2.1.2, rotr_toBitVec x bounds.2.2.1 bounds.2.2.2, rotations]

theorem rotationsShift_eq (x : UInt64) {i j k : Nat}
    (bounds : (0 < i ∧ i < 64) ∧ (0 < j ∧ j < 64) ∧ k < 64) :
    (rotr64 x (.ofNat i) ^^^ rotr64 x (.ofNat j) ^^^ (x >>> .ofNat k)).toBitVec
      = rotationsShift (i, j, k) x.toBitVec := by
  have count : ((UInt64.ofNat k).toBitVec % 64).toNat = k := by
    rw [BitVec.toNat_umod]
    exact (congrArg (· % 64) (UInt64.toNat_ofNat_of_lt' (by show k < 18446744073709551616; omega))).trans
      (Nat.mod_eq_of_lt bounds.2.2)
  rw [UInt64.toBitVec_xor, UInt64.toBitVec_xor, rotr_toBitVec x bounds.1.1 bounds.1.2,
    rotr_toBitVec x bounds.2.1.1 bounds.2.1.2, UInt64.toBitVec_shiftRight, BitVec.ushiftRight_eq',
    count, rotationsShift]

/-- The working variables as the standard has them. -/
def hash (s : Sha512State) : Hash 64 where
  a := s.a.toBitVec
  b := s.b.toBitVec
  c := s.c.toBitVec
  d := s.d.toBitVec
  e := s.e.toBitVec
  f := s.f.toBitVec
  g := s.g.toBitVec
  h := s.h.toBitVec

theorem round_hash (s : Sha512State) (constant word : UInt64) :
    hash (s.round constant word) = round words64 (hash s) constant.toBitVec word.toBitVec := by
  have sum1 : (rotr64 s.e 14 ^^^ rotr64 s.e 18 ^^^ rotr64 s.e 41).toBitVec
      = rotations (14, 18, 41) s.e.toBitVec := @rotations_eq s.e 14 18 41 (by decide)
  have sum0 : (rotr64 s.a 28 ^^^ rotr64 s.a 34 ^^^ rotr64 s.a 39).toBitVec
      = rotations (28, 34, 39) s.a.toBitVec := @rotations_eq s.a 28 34 39 (by decide)
  have first : ∀ k word : UInt64, (s.h + (rotr64 s.e 14 ^^^ rotr64 s.e 18 ^^^ rotr64 s.e 41)
      + ((s.e &&& s.f) ^^^ (~~~s.e &&& s.g)) + k + word).toBitVec
        = s.h.toBitVec + rotations (14, 18, 41) s.e.toBitVec
          + ch s.e.toBitVec s.f.toBitVec s.g.toBitVec + k.toBitVec + word.toBitVec := by
    intro k word
    simp only [UInt64.toBitVec_add, sum1]
    rfl
  have second : ((rotr64 s.a 28 ^^^ rotr64 s.a 34 ^^^ rotr64 s.a 39)
      + ((s.a &&& s.b) ^^^ (s.a &&& s.c) ^^^ (s.b &&& s.c))).toBitVec
        = rotations (28, 34, 39) s.a.toBitVec + maj s.a.toBitVec s.b.toBitVec s.c.toBitVec := by
    rw [UInt64.toBitVec_add, sum0]
    rfl
  apply Hash.ext
  · exact UInt64.toBitVec_add.trans (congrArg₂ (· + ·) (first _ _) second)
  · rfl
  · rfl
  · rfl
  · exact UInt64.toBitVec_add.trans (congrArg (s.d.toBitVec + ·) (first _ _))
  · rfl
  · rfl
  · rfl

theorem byte_toBitVec (byte : UInt8) : byte.toUInt64.toBitVec = .ofNat 64 byte.toNat := by
  apply BitVec.eq_of_toNat_eq
  have := byte.toNat_lt
  simp

theorem blockWords_eq {block : List UInt8} (length : block.length = 128) {t : Nat} (first : t < 16) :
    ((Sha512State.blockWords block).getD t 0).toBitVec = wordAt 64 block t := by
  have bytes := @take_drop_eq_range _ (0 : UInt8) block (t * 8) 8 (by omega)
  rw [wordAt, ofNat_ofBigEndian, bytes, Sha512State.blockWords, List.getD_eq_getElem _ _ (by simpa),
    List.getElem_map, List.getElem_range]
  rw [List.foldl_map]
  refine foldl_range_view UInt64.toBitVec _ _ 8 (fun word j _ => ?_) 0
  rw [UInt64.toBitVec_or, UInt64.toBitVec_shiftLeft, byte_toBitVec]
  rfl

theorem schedule_eq {block : List UInt8} (length : block.length = 128) :
    (Sha512State.schedule block).length = 80 ∧ ∀ t < 80,
      ((Sha512State.schedule block).getD t 0).toBitVec = schedule words64 (wordAt 64 block) t := by
  refine extend_eq UInt64.toBitVec (schedule words64 (wordAt 64 block)) 0 Sha512State.scheduleWord 16
    ?_ (Sha512State.blockWords block) (by simp [Sha512State.blockWords]) ?_ 64
  · intro words long known
    have small0 (x : UInt64) : (rotr64 x 1 ^^^ rotr64 x 8 ^^^ (x >>> 7)).toBitVec
        = rotationsShift (1, 8, 7) x.toBitVec := @rotationsShift_eq x 1 8 7 (by decide)
    have small1 (x : UInt64) : (rotr64 x 19 ^^^ rotr64 x 61 ^^^ (x >>> 6)).toBitVec
        = rotationsShift (19, 61, 6) x.toBitVec := @rotationsShift_eq x 19 61 6 (by decide)
    rw [schedule, if_neg (by omega), ← known _ (by omega), ← known _ (by omega),
      ← known _ (by omega), ← known _ (by omega), Sha512State.scheduleWord]
    simp only [UInt64.toBitVec_add, small0, small1]
    exact recurrence _ _ _ _
  · intro t first
    rw [blockWords_eq length first, schedule, if_pos first]

theorem constants_eq : ∀ t < 80, (kSha512RoundConstants.getD t 0).toBitVec = constant 64 t := by
  intro t inside
  have checked : (primes.zip (kSha512RoundConstants.map UInt64.toNat)).all
      (fun row => isFraction 64 3 row.1 row.2) = true := by
    rw [primes_eq]
    decide +kernel
  have known : t < (kSha512RoundConstants.map UInt64.toNat).length := inside
  rw [constant_eq (by rw [primes_eq]; decide) checked known, List.getD_eq_getElem _ _ known,
    List.getD_eq_getElem _ _ (show t < kSha512RoundConstants.length from inside), List.getElem_map]
  exact BitVec.eq_of_toNat_eq (Nat.mod_eq_of_lt (UInt64.toNat_lt _)).symm

theorem start_eq : hash (Sha512.start false).state = initial 64 fun i => primes.getD i 0 := by
  have checked : ∀ i < 8, isFraction 64 2 (primes.getD i 0)
      ((Sha512State.words {}).getD i 0).toNat = true := by
    rw [primes_eq]
    decide +kernel
  exact (initial_eq checked).symm

theorem start_sha384_eq :
    hash (Sha512.start true).state = initial 64 fun i => primes.getD (i + 8) 0 := by
  have checked : ∀ i < 8, isFraction 64 2 (primes.getD (i + 8) 0)
      (Sha512State.sha384.words.getD i 0).toNat = true := by
    rw [primes_eq]
    decide +kernel
  exact (initial_eq checked).symm

theorem transform_hash (s : Sha512State) {block : List UInt8} (length : block.length = 128) :
    hash (s.transform block) = compress words64 (hash s) (wordAt 64 block) := by
  obtain ⟨long, words⟩ := schedule_eq length
  have rounds : hash ((kSha512RoundConstants.zip (Sha512State.schedule block)).foldl
      (fun r step => r.round step.1 step.2) s)
        = (List.range words64.rounds).foldl (fun r t => round words64 r (constant 64 t)
          (schedule words64 (wordAt 64 block) t)) (hash s) := by
    rw [zip_eq_range 0 0 (by rfl) long, List.foldl_map]
    refine foldl_range_view hash _ _ 80 (fun r t inside => ?_) s
    rw [round_hash, constants_eq t inside, words t inside]
  rw [compress, ← rounds, Sha512State.transform]
  generalize (kSha512RoundConstants.zip (Sha512State.schedule block)).foldl
    (fun r step => r.round step.1 step.2) s = r
  apply Hash.ext
  all_goals exact UInt64.toBitVec_add.trans (BitVec.add_comm _ _)

theorem updateLoop_eq (turns : Nat) (stream : Sha512) (input : List UInt8) :
    Sha512.updateLoop turns stream input
      = { stream with
          state := (fillLoop 128 Sha512State.transform turns stream.state stream.block input).1
          block := (fillLoop 128 Sha512State.transform turns stream.state stream.block input).2 } := by
  induction turns generalizing stream input with
  | zero => rfl
  | succ turns ih =>
      rw [Sha512.updateLoop, fillLoop]
      by_cases none : input = []
      · rw [if_pos none, if_pos none]
      · rw [if_neg none, if_neg none]
        dsimp only
        split
        · rw [ih]
        · rw [ih]

theorem final_eq (stream : Sha512) :
    stream.final = ((close Sha512State.transform 128 0x80 0
      (wordBytes (stream.totalSize >>> 61) ++ wordBytes (stream.totalSize <<< 3))
      stream.state stream.block).words.flatMap wordBytes).take (if stream.sha384 then 48 else 64) := by
  have length (high low : UInt64) : (wordBytes high ++ wordBytes low).length = 16 := by
    simp [wordBytes]
  rw [close, length]
  simp only [Sha512.final, List.append_assoc]

/-- The bytes of the state. -/
theorem bytes_eq (s : Sha512State) : (hash s).bytes = s.words.flatMap wordBytes := by
  simp only [Hash.bytes, Sha512State.words, List.flatMap_cons, List.flatMap_nil, hash, wordBytes_eq]
  rfl

/-- The bit size in two words. -/
theorem sizeBytes_eq (size : UInt64) :
    wordBytes (size >>> 61) ++ wordBytes (size <<< 3) = bigEndian 16 (8 * size.toNat) := by
  have high : (size >>> 61).toNat = 8 * size.toNat / 256 ^ 8 := by
    rw [UInt64.toNat_shiftRight, Nat.shiftRight_eq_div_pow]
    change size.toNat / 2 ^ 61 = _
    omega
  have low : (size <<< 3).toNat = 8 * size.toNat % 256 ^ 8 := by
    rw [UInt64.toNat_shiftLeft, Nat.shiftLeft_eq]
    change size.toNat * 8 % 2 ^ 64 = _
    omega
  rw [wordBytes_eq, wordBytes_eq, high, low, bigEndian_mod, ← bigEndian_append]

theorem digest_eq (sha384 : Bool) {message : List UInt8} (fits : message.length < 2 ^ 64) :
    ((Sha512.start sha384).update message).final
      = (Theory.Sha2.hash words64 (hash (Sha512.start sha384).state) message).bytes.take
          (if sha384 then 48 else 64) := by
  have size : (0 + .ofNat message.length : UInt64).toNat = message.length := by
    rw [UInt64.zero_add, UInt64.toNat_ofNat_of_lt' fits]
  have closed := @close_hash _ 64 words64 hash Sha512State.transform
    (fun s _ full => transform_hash s full) (by decide) (Sha512.start sha384).state message
  have filled := fillLoop_eq Sha512State.transform (message.length + 1) (Sha512.start sha384).state
    (show ([] : List UInt8).length < 128 by decide) (Nat.lt_succ_self message.length)
  rw [final_eq, Sha512.update, updateLoop_eq]
  change ((close _ _ _ _ (wordBytes ((0 + .ofNat message.length : UInt64) >>> 61)
    ++ wordBytes ((0 + .ofNat message.length : UInt64) <<< 3))
    (fillLoop 128 Sha512State.transform (message.length + 1) (Sha512.start sha384).state []
      message).1
    (fillLoop 128 Sha512State.transform (message.length + 1) (Sha512.start sha384).state []
      message).2).words.flatMap wordBytes).take _ = _
  rw [filled, sizeBytes_eq, size, ← closed, bytes_eq]
  rfl

end Standard512

/-! ## Digests -/

/-- The standard hash function of an algorithm. -/
def standardDigest : JwtAlgorithm → List UInt8 → List UInt8
  | .hs256 => sha256
  | .hs384 => sha384
  | _ => sha512

theorem sha2Digest_eq (algorithm : JwtAlgorithm) {message : List UInt8}
    (fits : message.length < 2 ^ 61) :
    sha2Digest algorithm message = standardDigest algorithm message := by
  have large : message.length < 2 ^ 64 := by omega
  have full := Standard512.digest_eq false large
  rw [Standard512.start_eq] at full
  cases algorithm with
  | hs256 => exact Standard256.digest_eq fits
  | hs384 =>
      have cut := Standard512.digest_eq true large
      rwa [Standard512.start_sha384_eq] at cut
  | none | hs512 | unsupported =>
      rw [sha2Digest, if_neg (by decide)]
      exact full.trans (List.take_of_length_le (by simp [Hash.bytes, bigEndian]))

theorem zipWith_replicate (mask : UInt8) (bytes : List UInt8) :
    List.zipWith (· ^^^ ·) bytes (List.replicate bytes.length mask) = bytes.map (· ^^^ mask) := by
  induction bytes with
  | nil => rfl
  | cons byte bytes ih => exact congrArg (_ :: ·) ih

theorem normalizedKey_length (algorithm : JwtAlgorithm) (key : List UInt8) :
    (normalizedKey algorithm key).length = hmacBlockSize algorithm := by
  have digest := sha2Digest_length algorithm key
  have block : 64 ≤ hmacBlockSize algorithm := by
    rw [hmacBlockSize]
    split <;> decide
  rw [normalizedKey, List.length_append, List.length_replicate]
  split <;> omega

theorem hmacSha2_eq (algorithm : JwtAlgorithm) {key input : List UInt8}
    (fits : key.length < 2 ^ 61) (room : input.length + 128 < 2 ^ 61) :
    hmacSha2 algorithm key input
      = hmac (standardDigest algorithm) (hmacBlockSize algorithm) key input := by
  have size := normalizedKey_length algorithm key
  have block : hmacBlockSize algorithm ≤ 128 := by
    rw [hmacBlockSize]
    split <;> decide
  have padded : (if key.length > hmacBlockSize algorithm then standardDigest algorithm key else key)
      ++ List.replicate (hmacBlockSize algorithm
        - (if key.length > hmacBlockSize algorithm then standardDigest algorithm key else key).length) 0
        = normalizedKey algorithm key := by
    rw [normalizedKey, sha2Digest_eq algorithm fits]
  have inner : ((normalizedKey algorithm key).map (· ^^^ 0x36) ++ input).length < 2 ^ 61 := by
    rw [List.length_append, List.length_map]
    omega
  have outer : ((normalizedKey algorithm key).map (· ^^^ 0x5c)
      ++ sha2Digest algorithm ((normalizedKey algorithm key).map (· ^^^ 0x36) ++ input)).length
        < 2 ^ 61 := by
    have digest := sha2Digest_length algorithm
      ((normalizedKey algorithm key).map (· ^^^ 0x36) ++ input)
    rw [List.length_append, List.length_map]
    omega
  simp only [hmac]
  rw [padded, ← size, zipWith_replicate, zipWith_replicate, ← sha2Digest_eq algorithm inner,
    ← sha2Digest_eq algorithm outer]
  rfl

/-- For messages and keys of less than an exabyte the digests and signatures are the standard
ones, and the comparison is equality. -/
theorem signatures_standard {message key input : List UInt8} (left right : List UInt8)
    (fits : message.length < 2 ^ 61) (keyFits : key.length < 2 ^ 61)
    (room : input.length + 128 < 2 ^ 61) :
    (sha2Digest .hs256 message = sha256 message ∧ sha2Digest .hs384 message = sha384 message
        ∧ sha2Digest .hs512 message = sha512 message)
      ∧ (hmacSha2 .hs256 key input = hmac sha256 64 key input
        ∧ hmacSha2 .hs384 key input = hmac sha384 128 key input
        ∧ hmacSha2 .hs512 key input = hmac sha512 128 key input)
      ∧ (constantTimeEqual left right = true ↔ left = right) := by
  constructor
  · exact ⟨sha2Digest_eq .hs256 fits, sha2Digest_eq .hs384 fits, sha2Digest_eq .hs512 fits⟩
  constructor
  · exact ⟨hmacSha2_eq .hs256 keyFits room, hmacSha2_eq .hs384 keyFits room,
      hmacSha2_eq .hs512 keyFits room⟩
  · exact constantTimeEqual_iff

theorem signatures_standard_short :
    (sha2Digest .hs256 [0x61, 0x62, 0x63] = sha256 [0x61, 0x62, 0x63]
        ∧ sha2Digest .hs384 [0x61, 0x62, 0x63] = sha384 [0x61, 0x62, 0x63]
        ∧ sha2Digest .hs512 [0x61, 0x62, 0x63] = sha512 [0x61, 0x62, 0x63])
      ∧ (hmacSha2 .hs256 [0x6b] [0x61] = hmac sha256 64 [0x6b] [0x61]
        ∧ hmacSha2 .hs384 [0x6b] [0x61] = hmac sha384 128 [0x6b] [0x61]
        ∧ hmacSha2 .hs512 [0x6b] [0x61] = hmac sha512 128 [0x6b] [0x61])
      ∧ (constantTimeEqual [0x61] [0x61, 0] = true ↔ ([0x61] : List UInt8) = [0x61, 0]) :=
  signatures_standard [0x61] [0x61, 0] (by decide) (by decide) (by decide)

end Reb.Analysis

namespace Reb.Evidence

open Reb.Analysis.Standard256 (absorbed absorbed_nil final_absorbed update_absorbed)
open Reb.Theory.Sha2 (sha256)

/-! # The digest of artifact content -/

theorem foldl_update (content : List UInt8) (pieces : List (List UInt8)) :
    pieces.foldl Sha256.update (absorbed content) = absorbed (content ++ pieces.flatten) := by
  induction pieces generalizing content with
  | nil => simp
  | cons piece pieces ih =>
      rw [List.foldl_cons, update_absorbed, ih, List.flatten_cons, List.append_assoc]

/-- However the content is cut, the digest is the standard's of the whole. -/
theorem update_calls_standard (pieces : List (List UInt8)) (short : pieces.flatten.length < 2 ^ 61) :
    (pieces.foldl Sha256.update {}).final = sha256 pieces.flatten := by
  rw [← absorbed_nil, foldl_update, List.nil_append, final_absorbed short]

theorem update_calls_standard_abc :
    ([[0x61], [], [0x62, 0x63]].foldl Sha256.update {}).final = sha256 [0x61, 0x62, 0x63] :=
  update_calls_standard [[0x61], [], [0x62, 0x63]] (by decide)

end Reb.Evidence
