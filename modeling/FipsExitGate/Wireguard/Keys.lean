import FipsExitGate.Fipsaddr.Address
import FipsExitGate.Lib.Base64
import FipsExitGate.Store.Wireguard

/-!
# WireGuard keys

`ValidWgKey` and `genWgKeypair`.  A key is 32 bytes in standard base64, with padding and without
bits that are left over: what `wg` accepts.  Go's decoder skips line breaks, so `ValidWgKey` looks
for white space by itself, and decodes strictly.

`Store.Wireguard` has a key as 43 characters of the alphabet, the last with two bits to spare, and a
padding character.  That is the same (`validWgKey_eq`), and both are the encoding of 32 bytes.

## Main results

* `strictWgKey_iff` — a valid key is the encoding of 32 bytes
* `validWgKey_eq` — the store reads the same function
-/

namespace FipsExitGate

/-- `base64.StdEncoding.Strict()`. -/
def strictEncoding : Base64.Encoding where
  alphabet := utf8 "ABCDEFGHIJKLMNOPQRSTUVWXYZabcdefghijklmnopqrstuvwxyz0123456789+/"
  length_alphabet := by decide +kernel
  nodup := by decide +kernel
  plain := by
    have all : (utf8 "ABCDEFGHIJKLMNOPQRSTUVWXYZabcdefghijklmnopqrstuvwxyz0123456789+/").all
        (fun c => !Base64.isBreak c && decide (c ≠ Base64.pad)) = true := by decide +kernel
    intro c member
    simpa using List.all_eq_true.mp all c member
  padded := true
  strict := true

/-- `base64.StdEncoding`. -/
def stdEncoding : Base64.Encoding := { strictEncoding with strict := false }

/-- `ValidWgKey`, on the bytes of a string. -/
def strictWgKey (k : Bytes) : Bool :=
  if k.length ≠ 44 ∨ k.any fun c => c = 0x20 ∨ c = 0x09 ∨ c = 0x0d ∨ c = 0x0a then false
  else
    match Base64.decode strictEncoding k with
    | .error _ => false
    | .ok b => decide (b.length = 32)

/-- `genWgKeypair`: the private key and the public key, with the bytes that were drawn and
the product with the base point. -/
def genWgKeypair (publicKey : Vector UInt8 32 → Vector UInt8 32) (k : Vector UInt8 32) :
    Bytes × Bytes :=
  (Base64.encode stdEncoding k.toList, Base64.encode stdEncoding (publicKey k).toList)

/-- Strictness is for decoding. -/
theorem encode_std (bs : Bytes) : Base64.encode stdEncoding bs = Base64.encode strictEncoding bs := by
  induction bs using Base64.encode.induct with
  | case1 => rfl
  | case2 a => rfl
  | case3 a b => rfl
  | case4 a b c rest ih => rw [Base64.encode, Base64.encode, ih]; rfl

theorem of_mem_alphabet {c : UInt8} (member : c ∈ strictEncoding.alphabet ∨ c = Base64.pad) :
    0x2b ≤ c ∧ c < 0x7b := by
  have all : strictEncoding.alphabet.all (fun c => decide (0x2b ≤ c) && decide (c < 0x7b)) = true := by
    decide +kernel
  rcases member with inAlphabet | rfl
  · simpa using List.all_eq_true.mp all c inAlphabet
  · decide

/-- **A valid key is the encoding of 32 bytes.** -/
theorem strictWgKey_iff {k : Bytes} :
    strictWgKey k = true ↔ ∃ bs : Bytes, bs.length = 32 ∧ k = Base64.encode strictEncoding bs := by
  constructor
  · intro valid
    rw [strictWgKey] at valid
    split at valid
    · cases valid
    next plain =>
      rw [not_or] at plain
      have noBreak : ∀ c ∈ k, Base64.isBreak c = false := by
        intro c member
        by_contra isBreak
        refine plain.2 (List.any_eq_true.mpr ⟨c, member, ?_⟩)
        simp only [Base64.isBreak, Bool.not_eq_false, Bool.or_eq_true, decide_eq_true_eq] at isBreak ⊢
        tauto
      split at valid
      · cases valid
      next bs decoded =>
        exact ⟨bs, of_decide_eq_true valid,
          (Base64.decode_eq_ok_iff strictEncoding rfl noBreak).mp decoded⟩
  · rintro ⟨bs, length, rfl⟩
    have plain : ¬ ((Base64.encode strictEncoding bs).length ≠ 44 ∨
        (Base64.encode strictEncoding bs).any
          (fun c => c = 0x20 ∨ c = 0x09 ∨ c = 0x0d ∨ c = 0x0a) = true) := by
      rw [Base64.length_encode_of_padded strictEncoding rfl, length, not_or]
      refine ⟨by decide, fun white => ?_⟩
      obtain ⟨c, member, isWhite⟩ := List.any_eq_true.mp white
      have range := of_mem_alphabet (Base64.mem_encode strictEncoding member)
      rw [decide_eq_true_eq] at isWhite
      rcases isWhite with rfl | rfl | rfl | rfl <;> exact absurd range.1 (by decide)
    rw [strictWgKey, if_neg plain, Base64.decode_encode]
    exact decide_eq_true length

/-! ## Keys as characters -/

/-- The character of a digit. -/
def letter (d : Nat) : Char := Char.ofNat (strictEncoding.char d).toNat

theorem letter_spec {d : Nat} (small : d < 64) :
    base64Value (letter d) = some d ∧ String.utf8EncodeChar (letter d) = [strictEncoding.char d] := by
  have all : ∀ d < 64, base64Value (letter d) = some d ∧
      String.utf8EncodeChar (letter d) = [strictEncoding.char d] := by decide +kernel
  exact all d small

/-- A character with a value is the character of that digit. -/
theorem eq_letter {c : Char} {v : Nat} (found : base64Value c = some v) :
    v < 64 ∧ c = letter v := by
  have ascii : c.toNat < 0x80 := by
    have below {d : Char} (small : d.toNat < 0x80) (le : c ≤ d) : c.toNat < 0x80 :=
      (UInt32.le_iff_toNat_le.mp le).trans_lt small
    unfold base64Value at found
    split at found
    · next upper => exact below (by decide) upper.2
    split at found
    · next lower => exact below (by decide) lower.2
    split at found
    · next digit => exact below (by decide) digit.2
    split at found
    · next plus => rw [plus]; decide
    split at found
    · next slash => rw [slash]; decide
    · cases found
  have all : ∀ n < 0x80, (base64Value (Char.ofNat n)).all
      (fun v => decide (v < 64) && decide (Char.ofNat n = letter v)) = true := by decide +kernel
  have here := all c.toNat ascii
  rw [Char.ofNat_toNat, found] at here
  simpa using here

/-- The keys that the store accepts. -/
theorem validWgKey_iff {k : String} :
    validWgKey k = true ↔ ∃ ds : List Nat, ds.length = 43 ∧ (∀ d ∈ ds, d < 64) ∧
      (∀ d ∈ ds.getLast?, d % 4 = 0) ∧ k.toList = ds.map letter ++ ['='] := by
  constructor
  · intro valid
    unfold validWgKey at valid
    split at valid
    · next values isPad =>
        rw [Bool.and_eq_true, List.all_eq_true, decide_eq_true_eq] at valid
        have found : ∀ c ∈ k.toList.take 43, ∃ v, base64Value c = some v := fun c member =>
          Option.isSome_iff_exists.mp (valid.1 _ (List.mem_map_of_mem member))
        have value (c : Char) (member : c ∈ k.toList.take 43) :
            (base64Value c).getD 0 < 64 ∧ letter ((base64Value c).getD 0) = c := by
          obtain ⟨v, isValue⟩ := found c member
          rw [isValue, Option.getD_some]
          exact ⟨(eq_letter isValue).1, (eq_letter isValue).2.symm⟩
        have length := congrArg List.length isPad
        rw [List.length_drop, List.length_singleton] at length
        refine ⟨(k.toList.take 43).map fun c => (base64Value c).getD 0, ?_, ?_, ?_, ?_⟩
        · rw [List.length_map, List.length_take]
          omega
        · intro d member
          obtain ⟨c, isIn, rfl⟩ := List.mem_map.mp member
          exact (value c isIn).1
        · intro d isLast
          rw [List.getLast?_map, Option.mem_def, Option.map_eq_some_iff] at isLast
          obtain ⟨c, isLast, rfl⟩ := isLast
          obtain ⟨v, isValue⟩ := found c (List.mem_of_getLast? isLast)
          have spare := valid.2
          rw [List.getLastD_eq_getLast?, List.getLast?_map, isLast] at spare
          simpa [isValue] using spare
        · rw [List.map_map, ← isPad]
          have same : (k.toList.take 43).map (letter ∘ fun c => (base64Value c).getD 0) =
              k.toList.take 43 :=
            (List.map_congr_left fun c member => (value c member).2).trans (List.map_id _)
          rw [same, List.take_append_drop]
    · cases valid
  · rintro ⟨ds, length, small, last, isText⟩
    have front : k.toList.take 43 = ds.map letter := by
      rw [isText, List.take_left' (by simp [length])]
    have back : k.toList.drop 43 = ['='] := by
      rw [isText, List.drop_left' (by simp [length])]
    have values : (ds.map letter).map base64Value = ds.map some := by
      rw [List.map_map]
      exact List.map_congr_left fun d member => (letter_spec (small d member)).1
    obtain ⟨d, isLast⟩ : ∃ d, ds.getLast? = some d :=
      Option.isSome_iff_exists.mp (List.getLast?_isSome.mpr (by rintro rfl; cases length))
    unfold validWgKey
    rw [front, back, values]
    simp only [Bool.and_eq_true, List.all_eq_true, decide_eq_true_eq, List.getLastD_eq_getLast?,
      List.getLast?_map, isLast]
    refine ⟨fun v member => ?_, last d isLast⟩
    obtain ⟨d', -, rfl⟩ := List.mem_map.mp member
    rfl

/-- **The store reads `ValidWgKey`.** -/
theorem validWgKey_eq (k : String) : validWgKey k = strictWgKey (utf8 k) := by
  have encoded {ds : List Nat} (small : ∀ d ∈ ds, d < 64) :
      (ds.map letter ++ ['=']).flatMap String.utf8EncodeChar =
        ds.map strictEncoding.char ++ Base64.padding strictEncoding 1 := by
    rw [List.flatMap_append, List.flatMap_map]
    refine congrArg₂ (· ++ ·) ?_ (by decide)
    rw [List.map_eq_flatMap]
    exact List.flatMap_congr fun d member => (letter_spec (small d member)).2
  rw [Bool.eq_iff_iff, validWgKey_iff, strictWgKey_iff]
  constructor
  · rintro ⟨ds, length, small, last, isText⟩
    obtain ⟨bs, isLength, isKey⟩ := Base64.exists_bytes strictEncoding rfl (m := 10) length small last
    exact ⟨bs, isLength, by rw [utf8_eq_flatMap, isText, encoded small, isKey]⟩
  · rintro ⟨bs, isLength, isKey⟩
    obtain ⟨ds, length, small, last, isDigits⟩ :=
      Base64.exists_digits strictEncoding (m := 10) isLength
    refine ⟨ds, length, small, last, ?_⟩
    rw [← runesFrom_utf8 k.toList, ← utf8_eq_flatMap, isKey, isDigits, ← encoded small,
      runesFrom_utf8]

/-- The bytes of a key. -/
theorem of_mem_validWgKey {k : String} (valid : validWgKey k = true) {c : UInt8}
    (member : c ∈ utf8 k) : 0x2b ≤ c ∧ c < 0x7b := by
  rw [validWgKey_eq, strictWgKey_iff] at valid
  obtain ⟨bs, -, isKey⟩ := valid
  rw [isKey] at member
  exact of_mem_alphabet (Base64.mem_encode strictEncoding member)

end FipsExitGate
