import RemoteCall.Signing.Key

/-!
# Digests and signatures worked out

The words of a schedule are made of the words shortly before them.  A list with the newest
word in front has these at hand, where an array is gone through from its beginning, and
the rounds take the words one after the other.  The digests of given messages are worked
out in this way, and with them whether a signature of one's own is verified.
-/

namespace RemoteCall.Digest

/-! ## Schedules -/

/-- The next word of a schedule, made from the words that stand a number of places back. -/
def wordAfter (back : Nat → UInt64) : UInt64 :=
  let low := rotate (back 15) 1 ^^^ rotate (back 15) 8 ^^^ (back 15 >>> 7)
  let high := rotate (back 2) 19 ^^^ rotate (back 2) 61 ^^^ (back 2 >>> 6)
  back 16 + low + back 7 + high

/-- The words of a schedule with `count` more in front, the newest word first. -/
def extendFront : Nat → List UInt64 → List UInt64
  | 0, newest => newest
  | count + 1, newest =>
    extendFront count (wordAfter (fun n => newest.getD (n - 1) 0) :: newest)

variable {words : Array UInt64} {newest : List UInt64}

theorem getD_of_reverse (heq : words.toList = newest.reverse) {n : Nat} (hpos : 0 < n)
    (hle : n ≤ words.size) : words.getD (words.size - n) 0 = newest.getD (n - 1) 0 := by
  have hsize : words.size = newest.length := by
    rw [← Array.length_toList, heq, List.length_reverse]
  rw [Array.getD_eq_getD_getElem?, List.getD_eq_getElem?_getD, ← Array.getElem?_toList, heq,
    List.getElem?_reverse (by omega)]
  congr 2
  omega

theorem nextWord_of_reverse (heq : words.toList = newest.reverse) (hle : 16 ≤ words.size) :
    nextWord words = wordAfter fun n => newest.getD (n - 1) 0 := by
  have hback : ∀ n, 0 < n → n ≤ 16 →
      words.getD (words.size - n) 0 = newest.getD (n - 1) 0 :=
    fun n hpos hn => getD_of_reverse heq hpos (Nat.le_trans hn hle)
  simp only [nextWord, wordAfter, hback 2, hback 7, hback 15, hback 16, Nat.reduceLT,
    Nat.reduceLeDiff, Nat.le_refl]

theorem toList_extend (count : Nat) (heq : words.toList = newest.reverse)
    (hle : 16 ≤ words.size) :
    (extend count words).toList = (extendFront count newest).reverse := by
  induction count generalizing words newest with
  | zero => exact heq
  | succ count ih =>
      rw [extend, extendFront]
      refine ih ?_ ?_
      · rw [Array.toList_push, heq, nextWord_of_reverse heq hle, List.reverse_cons]
      · rw [Array.size_push]
        exact Nat.le_succ_of_le hle

theorem length_extendFront (count : Nat) (newest : List UInt64) :
    (extendFront count newest).length = newest.length + count := by
  induction count generalizing newest with
  | zero => rfl
  | succ count ih =>
      rw [extendFront, ih, List.length_cons]
      omega

theorem length_rows (width count : Nat) (bytes : List UInt8) :
    (rows width count bytes).length = count := by
  induction count generalizing bytes with
  | zero => rfl
  | succ count ih => rw [rows, List.length_cons, ih]

/-- The eighty words that a block is stirred in with, in their order. -/
def scheduled (block : List UInt8) : List UInt64 :=
  (extendFront 64 ((rows 8 16 block).map wordOf).reverse).reverse

theorem toList_schedule (block : List UInt8) : (schedule block).toList = scheduled block := by
  refine toList_extend 64 (List.reverse_reverse _).symm ?_
  simp [length_rows]

theorem length_scheduled (block : List UInt8) : (scheduled block).length = 80 := by
  simp [scheduled, length_extendFront, length_rows]

/-! ## Rounds -/

/-- A round with its constant and its word. -/
def stir (s : State) (pair : UInt64 × UInt64) : State :=
  let mixE := rotate s.e 14 ^^^ rotate s.e 18 ^^^ rotate s.e 41
  let choice := (s.e &&& s.f) ^^^ (~~~s.e &&& s.g)
  let first := s.h + mixE + choice + pair.1 + pair.2
  let mixA := rotate s.a 28 ^^^ rotate s.a 34 ^^^ rotate s.a 39
  let majority := (s.a &&& s.b) ^^^ (s.a &&& s.c) ^^^ (s.b &&& s.c)
  ⟨first + (mixA + majority), s.a, s.b, s.c, s.d + first, s.e, s.f, s.g⟩

/-- Going through the places of two lists is going through their pairs. -/
theorem zip_eq_map_range {left right : List UInt64} (hlength : left.length = right.length) :
    left.zip right = (List.range right.length).map fun index =>
      (left.getD index 0, right.getD index 0) := by
  refine List.ext_getElem (by simp [hlength]) fun index hleft hright => ?_
  simp only [List.length_map, List.length_range] at hright
  simp [hright, hlength]

theorem getD_toList (words : Array UInt64) (index : Nat) :
    words.toList.getD index 0 = words.getD index 0 := by
  rw [List.getD_eq_getElem?_getD, Array.getD_eq_getD_getElem?, Array.getElem?_toList]

theorem round_eq_stir (words : Array UInt64) (s : State) (index : Nat) :
    round words s index = stir s (roundConstants.getD index 0, words.getD index 0) := rfl

theorem length_roundConstants : roundConstants.toList.length = 80 := rfl

theorem foldl_round (block : List UInt8) (s : State) :
    (List.range 80).foldl (round (schedule block)) s =
      (roundConstants.toList.zip (scheduled block)).foldl stir s := by
  have hlength := length_scheduled block
  rw [zip_eq_map_range (length_roundConstants.trans hlength.symm), List.foldl_map, hlength,
    ← toList_schedule]
  simp only [getD_toList, ← round_eq_stir]

/-- A block stirred in, with the words of its schedule in a list. -/
def absorbList (s : State) (block : List UInt8) : State :=
  let t := (roundConstants.toList.zip (scheduled block)).foldl stir s
  ⟨s.a + t.a, s.b + t.b, s.c + t.c, s.d + t.d, s.e + t.e, s.f + t.f, s.g + t.g, s.h + t.h⟩

theorem absorb_eq_absorbList : absorb = absorbList := by
  funext s block
  rw [absorb, foldl_round]
  rfl

/-- The digest, with the words of the schedules in lists. -/
def ofBytesList (message : List UInt8) : List UInt8 :=
  let text := padded message
  let s := (rows 128 (text.length / 128) text).foldl absorbList initial
  [s.a, s.b, s.c, s.d, s.e, s.f, s.g, s.h].flatMap bytesOf

theorem ofBytes_eq_ofBytesList : ofBytes = ofBytesList := by
  funext message
  rw [ofBytes, absorb_eq_absorbList]
  rfl

end RemoteCall.Digest

/-! ## Signatures of one's own -/

namespace RemoteCall.Curve

theorem ofBytes_toBytes {width n : Nat} (hlt : n < Nat.pow 256 width) :
    ofBytes (toBytes width n) = n := by
  induction width generalizing n with
  | zero =>
      cases Nat.lt_one_iff.mp hlt
      rfl
  | succ width ih =>
      have hbytes : ofBytes (toBytes (width + 1) n) =
          n % 256 + 256 * ofBytes (toBytes width (n / 256)) := rfl
      rw [hbytes, ih (Nat.div_lt_of_lt_mul (Nat.mul_comm _ _ ▸ hlt)), Nat.mod_add_div]

end RemoteCall.Curve

namespace RemoteCall.Ed25519

open Curve

/-- A signature whose second half is below the order stands for an equation of points. -/
theorem verify_append {key message first : List UInt8} {second : Nat}
    (hlength : first.length = 32) (hlt : second < order) :
    verify key message (first ++ toBytes 32 second) = (Point.decode? key).any fun point =>
      ((Point.base.times 253 second).add
        (point.neg.times 253 (scalarOf (first ++ key ++ message)))).encode == first := by
  have hbytes : ofBytes (toBytes 32 second) = second :=
    ofBytes_toBytes (Nat.lt_trans hlt (by decide))
  have hsignature : (first ++ toBytes 32 second).length = 64 := by
    rw [List.length_append, hlength, length_toBytes]
  rw [verify, if_neg (not_not_intro hsignature), List.take_left' hlength,
    List.drop_left' hlength, hbytes]
  cases Point.decode? key with
  | none => rfl
  | some point => simp only [hlt, decide_true, Bool.true_and, Option.any_some]

/-- Whether a message signed by the holder of `seed` is verified, worked out with `digest`. -/
def ownVerified (digest : List UInt8 → List UInt8) (seed message : List UInt8) : Bool :=
  let secret := Nat.pow 2 254 + ofBytes ((digest seed).take 32) % Nat.pow 2 254 / 8 * 8
  let key := (Point.base.times 255 secret).encode
  let nonce := ofBytes (digest ((digest seed).drop 32 ++ message)) % order
  let first := (Point.base.times 253 nonce).encode
  let challenge := ofBytes (digest (first ++ key ++ message)) % order
  (Point.decode? key).any fun point =>
    ((Point.base.times 253 ((nonce + challenge * secret) % order)).add
      (point.neg.times 253 challenge)).encode == first

theorem verify_sign (seed message : List UInt8) :
    verify (publicKey seed) message (sign seed (publicKey seed) message) =
      ownVerified Digest.ofBytesList seed message := by
  rw [← Digest.ofBytes_eq_ofBytesList]
  exact verify_append (length_toBytes 32 _) (Nat.mod_lt _ (Nat.add_pos_right _ (by decide)))

end RemoteCall.Ed25519

namespace RemoteCall.SigningKey

theorem verify_sign_ofSeed (seed message : List UInt8) :
    (ofSeed seed).verifyKey.verify message ((ofSeed seed).sign message) =
      Ed25519.ownVerified Digest.ofBytesList seed message :=
  Ed25519.verify_sign seed message

end RemoteCall.SigningKey
