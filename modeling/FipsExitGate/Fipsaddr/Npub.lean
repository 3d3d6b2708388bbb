import FipsExitGate.Fipsaddr.Bech32

/-!
# Npubs

`DecodeNpub`, `EncodeNpub` and `validXOnly` of `npub.go`: an npub is the bech32 form of a
public key of 32 bytes, which has to be the x-coordinate of a point of secp256k1.

A key of 256 bits takes 52 symbols of five bits, the last with four zeros behind it.
`payload_of_symbols` and `symbols_of_payload` say that the strict conversion of 52 symbols
and the padded conversion of 32 bytes undo each other; with the two directions of bech32
they give the round trips of the codec.

## Main results

* `npub_codec_roundtrip` — decoding undoes encoding on the valid keys, and encoding gives
  the lower-case form of whatever was decoded
-/

namespace FipsExitGate.Fipsaddr

open Digits

/-- A public key: `[32]byte`. -/
abbrev Pubkey := Vector UInt8 32

/-- `new(big.Int).SetBytes`. -/
def setBytes (bs : List UInt8) : Nat := value 256 (values bs)

/-- `big.Int.Exp` with modulus `m`, for an exponent of up to `bits` bits. -/
def exp (m : Nat) : Nat → Nat → Nat → Nat
  | 0, _, _ => 1 % m
  | bits + 1, x, y =>
      let half := exp m bits (x * x % m) (y / 2)
      if y % 2 = 1 then x * half % m else half

/-- Squaring and multiplying computes the power. -/
theorem exp_eq_pow_mod (m : Nat) {bits y : Nat} (fits : y < 2 ^ bits) (x : Nat) :
    exp m bits x y = x ^ y % m := by
  induction bits generalizing x y with
  | zero =>
      obtain rfl : y = 0 := by simpa using fits
      rfl
  | succ bits ih =>
      have half : y / 2 < 2 ^ bits := by omega
      have square : (x * x % m) ^ (y / 2) % m = x ^ (2 * (y / 2)) % m := by
        rw [← Nat.pow_mod, pow_mul, pow_two]
      simp only [exp, ih half, square]
      split
      · rename_i odd
        rw [Nat.mul_mod_mod, ← pow_succ']
        congr 2
        omega
      · rename_i even
        congr 2
        omega

/-- `secpP`. -/
def secpP : Nat := 0xfffffffffffffffffffffffffffffffffffffffffffffffffffffffefffffc2f

/-- `secpPExp`. -/
def secpPExp : Nat := (secpP + 1) >>> 2

/-- `validXOnly`. -/
def validXOnly (pubkey : Pubkey) : Bool :=
  let x := setBytes pubkey.toList
  if secpP ≤ x then false
  else
    let rhs := (exp secpP 2 x 3 + 7) % secpP
    let y := exp secpP 256 rhs secpPExp
    y * y % secpP == rhs

/-- The prefix `npub`. -/
def npubHrp : Bytes := [0x6e, 0x70, 0x75, 0x62]

/-- `DecodeNpub`. -/
def decodeNpub (unicode : CaseTables) (npub : Bytes) : Except NpubErr Pubkey :=
  match bech32Decode unicode npub with
  | .error e => .error e
  | .ok (hrp, data) =>
      if hrp ≠ npubHrp then .error .notNpub
      else
        match convertBits data 5 8 false with
        | .error e => .error (.convert e)
        | .ok payload =>
            if isKey : payload.length = 32 then
              let out : Pubkey := ⟨payload.toArray, by simpa using isKey⟩
              if validXOnly out then .ok out else .error .invalidPubkey
            else .error (.payloadLength payload.length)

/-- `EncodeNpub`. -/
def encodeNpub (pubkey : Pubkey) : Bytes :=
  bech32Encode npubHrp ((convertBits pubkey.toList 8 5 true).toOption.getD [])

/-! ## 32 bytes and 52 symbols -/

/-- The symbols of a key convert back to its bytes. -/
theorem payload_of_symbols (pubkey : Pubkey) :
    ∃ data, convertBits pubkey.toList 8 5 true = .ok data ∧ (∀ d ∈ values data, d < 32) ∧
      convertBits data 5 8 false = .ok pubkey.toList := by
  have bytes : ∀ d ∈ values pubkey.toList, d < 2 ^ 8 := by
    intro d member
    obtain ⟨b, -, rfl⟩ := List.mem_map.mp member
    exact b.toNat_lt
  obtain ⟨data, free, converted, few, groups, count, number⟩ :=
    convertBits_padded (show 5 ≤ 8 by omega) (by omega) (by omega) bytes
  refine ⟨data, converted, groups, ?_⟩
  rw [convertBits_strict_iff (by omega) (by omega) (by omega)]
  refine ⟨groups, bytes, free, few, by omega, count.symm, number⟩

/-- The bytes that symbols convert to convert back to the symbols. -/
theorem symbols_of_payload {data payload : List UInt8}
    (converted : convertBits data 5 8 false = .ok payload) (isKey : payload.length = 32) :
    convertBits payload 8 5 true = .ok data := by
  obtain ⟨groups, bytes, free, few, -, count, number⟩ :=
    (convertBits_strict_iff (by omega) (by omega) (by omega)).mp converted
  obtain ⟨data', free', converted', few', groups', count', number'⟩ :=
    convertBits_padded (show 5 ≤ 8 by omega) (by omega) (by omega) bytes
  rw [converted']
  have sameFree : free' = free := by omega
  have sameLength : data'.length = data.length := by omega
  subst sameFree
  congr 1
  refine values_injective (eq_of_value_eq (by omega) ?_ groups' groups ?_)
  · rw [length_values, length_values, sameLength]
  · exact number'.trans number.symm

/-! ## The round trips -/

/-- What `DecodeNpub` does with a string that decodes as bech32. -/
theorem decodeNpub_of_payload {unicode : CaseTables} {s : Bytes} {data : List UInt8}
    {pubkey : Pubkey} (decoded : bech32Decode unicode s = .ok (npubHrp, data))
    (converted : convertBits data 5 8 false = .ok pubkey.toList) :
    decodeNpub unicode s =
      if validXOnly pubkey then .ok pubkey else .error .invalidPubkey := by
  have isKey : pubkey.toList.length = 32 := by simp
  have same : (⟨pubkey.toList.toArray, by simp⟩ : Pubkey) = pubkey := by
    cases pubkey
    rfl
  simp only [decodeNpub, decoded, converted, ne_eq, not_true_eq_false, if_false, dif_pos isKey, same]

/-- An accepted string is the bech32 form of 52 symbols that convert to its key. -/
theorem bech32_of_decodeNpub {unicode : CaseTables} {s : Bytes} {pubkey : Pubkey}
    (decoded : decodeNpub unicode s = .ok pubkey) :
    validXOnly pubkey = true ∧ ∃ data, bech32Decode unicode s = .ok (npubHrp, data) ∧
      convertBits data 5 8 false = .ok pubkey.toList := by
  rw [decodeNpub] at decoded
  cases parsed : bech32Decode unicode s with
  | error e => simp [parsed] at decoded
  | ok result =>
      obtain ⟨hrp, data⟩ := result
      simp only [parsed] at decoded
      split at decoded
      · cases decoded
      rename_i isNpub
      rw [ne_eq, not_not] at isNpub
      cases converted : convertBits data 5 8 false with
      | error e => simp [converted] at decoded
      | ok payload =>
          simp only [converted] at decoded
          split at decoded
          · split at decoded
            · rename_i isValid
              cases decoded
              exact ⟨isValid, data, by rw [isNpub], by simp [converted]⟩
            · cases decoded
          · cases decoded

theorem decodeNpub_encodeNpub (unicode : CaseTables) (pubkey : Pubkey) :
    decodeNpub unicode (encodeNpub pubkey) =
      if validXOnly pubkey then .ok pubkey else .error .invalidPubkey := by
  obtain ⟨data, converted, groups, back⟩ := payload_of_symbols pubkey
  refine decodeNpub_of_payload ?_ back
  have plain : ∀ b ∈ npubHrp, b < 0x80 ∧ lowerByte b = b := by simp [npubHrp, lowerByte]
  rw [encodeNpub, converted]
  exact bech32Decode_encode unicode (by decide) plain groups

theorem encodeNpub_of_decodeNpub {unicode : CaseTables} {s : Bytes} {pubkey : Pubkey}
    (decoded : decodeNpub unicode s = .ok pubkey) : encodeNpub pubkey = unicode.lower s := by
  obtain ⟨-, data, parsed, converted⟩ := bech32_of_decodeNpub decoded
  rw [encodeNpub, symbols_of_payload converted (by simp)]
  exact (bech32Encode_of_decode parsed).1

/-- The lower-case form of an accepted string determines its key. -/
theorem pubkey_eq_of_lower_eq {unicode : CaseTables} {s t : Bytes} {pubkey pubkey' : Pubkey}
    (decoded : decodeNpub unicode s = .ok pubkey) (decoded' : decodeNpub unicode t = .ok pubkey')
    (same : unicode.lower s = unicode.lower t) : pubkey = pubkey' := by
  have encoded : encodeNpub pubkey = encodeNpub pubkey' := by
    rw [encodeNpub_of_decodeNpub decoded, encodeNpub_of_decodeNpub decoded', same]
  have back := congrArg (decodeNpub unicode) encoded
  rw [decodeNpub_encodeNpub, decodeNpub_encodeNpub, if_pos (bech32_of_decodeNpub decoded).1,
    if_pos (bech32_of_decodeNpub decoded').1] at back
  exact Except.ok.inj back

/-- **The npub codec round-trips in both directions.**  A key is decoded from its npub if
it is valid and refused as invalid otherwise; an accepted string has the npub of its key
as its lower-case form.  So the spellings of one identity share their lower-case form, and
those of different identities do not. -/
theorem npub_codec_roundtrip (unicode : CaseTables) :
    (∀ pubkey, decodeNpub unicode (encodeNpub pubkey) =
      if validXOnly pubkey then .ok pubkey else .error .invalidPubkey) ∧
    (∀ s pubkey, decodeNpub unicode s = .ok pubkey → encodeNpub pubkey = unicode.lower s) ∧
    (∀ s t pubkey pubkey', decodeNpub unicode s = .ok pubkey → decodeNpub unicode t = .ok pubkey' →
      (unicode.lower s = unicode.lower t ↔ pubkey = pubkey')) := by
  refine ⟨decodeNpub_encodeNpub unicode, fun s pubkey => encodeNpub_of_decodeNpub, ?_⟩
  intro s t pubkey pubkey' decoded decoded'
  constructor
  · exact pubkey_eq_of_lower_eq decoded decoded'
  · rintro rfl
    rw [← encodeNpub_of_decodeNpub decoded, encodeNpub_of_decodeNpub decoded']

example :
    ((decodeNpub asciiTables
        (utf8 "npub180cvv07tjdrrgpa0j7j7tmnyl2yr6yr7l8j4s3evf6u64th6gkwsyjh6w6")).toOption.map
      fun pubkey => setBytes pubkey.toList) =
        some 0x3bf0c63fcb93463407af97a5e5ee64fa883d107ef9e558472c4eb9aaaefa459d := by
  decide +kernel

end FipsExitGate.Fipsaddr
