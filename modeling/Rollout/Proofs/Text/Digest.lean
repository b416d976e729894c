import Rollout.Text.Digest

/-!
# Digests in natural numbers

The words of the hash, read as natural numbers below `2 ^ 32`: every step of the hash has a
counterpart that computes with remainders, and the two agree. The counterpart is what a proof
evaluates.

**Types.** `Natural.Words`.

**Operations.** `Words.toNat`, `Natural.round`, `Natural.compress`, `Natural.sha256`,
`Natural.fingerprint`.

**Results.**
* `toNat_round`, `toNat_compress`, `toNat_absorb`: the steps of the hash;
* `sha256_eq`, `fingerprint_eq`: the digests of bytes and of values.
-/

namespace Rollout.Digest

namespace Natural

structure Words where
  a : Nat
  b : Nat
  c : Nat
  d : Nat
  e : Nat
  f : Nat
  g : Nat
  h : Nat

/-- The number of words. -/
def modulus : Nat := 4294967296

def rotate (x n : Nat) : Nat := x >>> n ||| x <<< (32 - n) % modulus

def nextWord (latest : List Nat) : Nat :=
  let w2 := latest.getD 1 0
  let w7 := latest.getD 6 0
  let w15 := latest.getD 14 0
  let w16 := latest.getD 15 0
  let s0 := rotate w15 7 ^^^ rotate w15 18 ^^^ (w15 >>> 3)
  let s1 := rotate w2 17 ^^^ rotate w2 19 ^^^ (w2 >>> 10)
  (w16 + s0 + w7 + s1) % modulus

def extend : Nat → List Nat → List Nat
  | 0, words => words
  | n + 1, words => extend n (nextWord words :: words)

def round (s : Words) (kw : Nat × Nat) : Words :=
  let s1 := rotate s.e 6 ^^^ rotate s.e 11 ^^^ rotate s.e 25
  let ch := (s.e &&& s.f) ^^^ ((modulus - 1 - s.e) &&& s.g)
  let t1 := s.h + s1 + ch + kw.1 + kw.2
  let s0 := rotate s.a 2 ^^^ rotate s.a 13 ^^^ rotate s.a 22
  let maj := (s.a &&& s.b) ^^^ (s.a &&& s.c) ^^^ (s.b &&& s.c)
  ⟨(t1 + (s0 + maj)) % modulus, s.a, s.b, s.c, (s.d + t1) % modulus, s.e, s.f, s.g⟩

def compress (s : Words) (block : List Nat) : Words :=
  let schedule := (extend 48 block.reverse).reverse
  let r := ((roundConstants.map UInt32.toNat).zip schedule).foldl round s
  ⟨(s.a + r.a) % modulus, (s.b + r.b) % modulus, (s.c + r.c) % modulus, (s.d + r.d) % modulus,
    (s.e + r.e) % modulus, (s.f + r.f) % modulus, (s.g + r.g) % modulus, (s.h + r.h) % modulus⟩

def words : List UInt8 → List Nat
  | a :: b :: c :: d :: rest =>
    (a.toNat <<< 24 ||| b.toNat <<< 16 ||| c.toNat <<< 8 ||| d.toNat) :: words rest
  | _ => []

def absorb : Nat → Words → List Nat → Words
  | 0, s, _ => s
  | count + 1, s, ws =>
    match ws with
    | [] => s
    | ws => absorb count (compress s (ws.take 16)) (ws.drop 16)

def wordText (w : Nat) : List Char :=
  (List.range 8).map fun i => Json.hexDigit (w / Nat.pow 16 (7 - i))

end Natural

/-- The words of state as natural numbers. -/
def Words.toNat (s : Words) : Natural.Words :=
  ⟨s.a.toNat, s.b.toNat, s.c.toNat, s.d.toNat, s.e.toNat, s.f.toNat, s.g.toNat, s.h.toNat⟩

namespace Natural

/-- The digest of a byte sequence. -/
def sha256 (bytes : List UInt8) : String :=
  let ws := words (pad bytes)
  let s := absorb (ws.length / 16) initial.toNat ws
  String.ofList ([s.a, s.b, s.c, s.d, s.e, s.f, s.g, s.h].flatMap wordText)

/-- The digest of the stable JSON text of a value, from the characters of the text. -/
def fingerprint (v : Value) : Except Json.Fault String :=
  (Json.write Json.stable v).map fun cs => sha256 ((cs ++ ['\n']).flatMap String.utf8EncodeChar)

end Natural

/-! ### The steps of the hash -/

theorem toNat_rotate {n : UInt32} (hpos : 0 < n.toNat) (hlt : n.toNat < 32) (x : UInt32) :
    (rotate x n).toNat = Natural.rotate x.toNat n.toNat := by
  have hle : n ≤ 32 := UInt32.le_iff_toNat_le.mpr (Nat.le_of_lt hlt)
  have hsub : (32 - n).toNat = 32 - n.toNat := UInt32.toNat_sub_of_le _ _ hle
  rw [rotate, UInt32.toNat_or, UInt32.toNat_shiftRight, UInt32.toNat_shiftLeft, hsub,
    Nat.mod_eq_of_lt hlt, Nat.mod_eq_of_lt (by omega : 32 - n.toNat < 32)]
  rfl

theorem toNat_nextWord (latest : List UInt32) :
    (nextWord latest).toNat = Natural.nextWord (latest.map UInt32.toNat) := by
  have hget (i : Nat) : (latest.map UInt32.toNat).getD i 0 = (latest.getD i 0).toNat := by
    simp only [List.getD_eq_getElem?_getD, List.getElem?_map]
    cases latest[i]? <;> rfl
  simp (disch := decide) only [nextWord, Natural.nextWord, hget, UInt32.toNat_add,
    UInt32.toNat_xor, UInt32.toNat_shiftRight, toNat_rotate, Nat.mod_add_mod]
  rfl

theorem map_toNat_extend (n : Nat) (latest : List UInt32) :
    (extend n latest).map UInt32.toNat = Natural.extend n (latest.map UInt32.toNat) := by
  induction n generalizing latest with
  | zero => rfl
  | succ n ih => rw [extend, Natural.extend, ih, List.map_cons, toNat_nextWord]

theorem toNat_round (s : Words) (kw : UInt32 × UInt32) :
    (round s kw).toNat = Natural.round s.toNat (kw.1.toNat, kw.2.toNat) := by
  simp (disch := decide) only [round, Natural.round, Words.toNat, UInt32.toNat_add,
    UInt32.toNat_xor, UInt32.toNat_and, UInt32.toNat_not, toNat_rotate, Nat.mod_add_mod,
    Nat.add_mod_mod]
  rfl

theorem toNat_compress (s : Words) (block : List UInt32) :
    (compress s block).toNat = Natural.compress s.toNat (block.map UInt32.toNat) := by
  have hrounds (kws : List (UInt32 × UInt32)) (s : Words) : (kws.foldl round s).toNat =
      (kws.map fun kw => (kw.1.toNat, kw.2.toNat)).foldl Natural.round s.toNat := by
    induction kws generalizing s with
    | nil => rfl
    | cons kw kws ih => rw [List.foldl_cons, ih, toNat_round, List.map_cons, List.foldl_cons]
  have hzip (ks schedule : List UInt32) :
      (ks.zip schedule).map (fun kw => (kw.1.toNat, kw.2.toNat)) =
        (ks.map UInt32.toNat).zip (schedule.map UInt32.toNat) := by
    rw [List.zip_map]
    rfl
  simp only [compress, Natural.compress, ← List.map_reverse, ← map_toNat_extend, ← hzip, ← hrounds]
  simp only [Words.toNat, UInt32.toNat_add]
  rfl

theorem map_toNat_words (bytes : List UInt8) :
    (words bytes).map UInt32.toNat = Natural.words bytes := by
  have hshift (x : UInt8) (n : Nat) (hn : n ≤ 24) :
      x.toNat <<< n % 2 ^ 32 = x.toNat <<< n := by
    rw [Nat.shiftLeft_eq]
    refine Nat.mod_eq_of_lt ?_
    calc x.toNat * 2 ^ n < 2 ^ 8 * 2 ^ n := Nat.mul_lt_mul_of_pos_right x.toNat_lt (Nat.two_pow_pos n)
      _ ≤ 2 ^ 8 * 2 ^ 24 := Nat.mul_le_mul_left _ (Nat.pow_le_pow_right (by decide) hn)
  fun_induction words bytes with
  | case1 a b c d rest ih =>
    simp only [List.map_cons, ih, Natural.words, UInt32.toNat_or, UInt32.toNat_shiftLeft,
      UInt8.toNat_toUInt32]
    rw [hshift a _ (by decide), hshift b _ (by decide), hshift c _ (by decide)]
    rfl
  | case2 bytes h => exact (Natural.words.eq_2 bytes h).symm

theorem toNat_absorb (count : Nat) (s : Words) (ws : List UInt32) :
    (absorb count s ws).toNat = Natural.absorb count s.toNat (ws.map UInt32.toNat) := by
  induction count generalizing s ws with
  | zero => rfl
  | succ count ih =>
    cases ws with
    | nil => rfl
    | cons w ws =>
      simp only [absorb, Natural.absorb, List.map_cons]
      rw [ih, toNat_compress, List.map_take, List.map_drop, List.map_cons]

/-! ### Digests -/

theorem sha256_eq (bytes : List UInt8) : sha256 bytes = Natural.sha256 bytes := by
  have hstate (count : Nat) := toNat_absorb count initial (words (pad bytes))
  have hlength : (Natural.words (pad bytes)).length = (words (pad bytes)).length := by
    rw [← map_toNat_words, List.length_map]
  rw [sha256, Natural.sha256, hlength, ← map_toNat_words, ← toNat_absorb]
  rfl

theorem toList_eq_toList_data (bytes : ByteArray) : bytes.toList = bytes.data.toList := by
  have hloop (i : Nat) (done : List UInt8) :
      ByteArray.toList.loop bytes i done = done.reverse ++ bytes.data.toList.drop i := by
    fun_induction ByteArray.toList.loop bytes i done with
    | case1 i done h ih =>
      have hget : bytes.get! i = bytes.data.toList[i] := getElem!_pos bytes.data i h
      rw [ih, List.reverse_cons, List.append_assoc, List.singleton_append, hget,
        List.getElem_cons_drop]
    | case2 i done h =>
      rw [List.drop_eq_nil_of_le (Nat.not_lt.mp h), List.append_nil]
  exact hloop 0 []

theorem fingerprint_eq (v : Value) : fingerprint v = Natural.fingerprint v := by
  have hbytes (cs : List Char) :
      (String.ofList cs).toUTF8.toList = cs.flatMap String.utf8EncodeChar := by
    rw [String.toUTF8_eq_toByteArray, String.toByteArray_ofList]
    exact (toList_eq_toList_data _).trans List.toList_data_toByteArray
  rw [fingerprint, Natural.fingerprint, stableText]
  cases Json.write Json.stable v with
  | error fault => rfl
  | ok cs => simp only [Except.map, sha256_eq, hbytes]

end Rollout.Digest
