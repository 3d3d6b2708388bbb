import FipsExitGate.Fipsaddr.Address

/-!
# The spellings of an npub

An npub is `npub1` and 58 characters of the bech32 alphabet, in lower case or in upper case
throughout.  `DecodeNpub` does not check that directly.  It refuses a string that differs both
from its lower-case form and from its upper-case form, and decodes the lower-case form; and these
are the forms of `strings.ToLower` and `strings.ToUpper`, which map the runes of Unicode.

Two runes beyond ASCII have a lower-case form in ASCII.  One is U+0130, whose `i` is not in the
alphabet.  The other is the Kelvin sign, U+212A: it is its own upper-case form, so it passes as
upper case, and its lower-case form is `k`, which is in the alphabet.  A string in upper case
with the sign in place of a `K` is accepted.

## Main results

* `npub_grammar_iff` — an accepted string is an npub exactly if there is no Kelvin sign in it
* `kelvin_npub_accepted` — the npub of a test vector, with the sign in it
-/

namespace FipsExitGate.Fipsaddr

open Digits

/-- The Kelvin sign. -/
def kelvin : Char := Char.ofNat 0x212a

/-- The capital I with a dot. -/
def dottedI : Char := Char.ofNat 0x130

/-- What else is used of the tables of package `unicode`: which runes beyond ASCII have
a lower-case form in ASCII. -/
structure UnicodeTables extends CaseTables where
  toLower_kelvin : toLower kelvin = 'k'
  toUpper_kelvin : toUpper kelvin = kelvin
  toLower_dottedI : toLower dottedI = 'i'
  ascii_of_toLower : ∀ c, (toLower c).toNat < 0x80 → c.toNat < 0x80 ∨ c = kelvin ∨ c = dottedI

/-- An npub in lower case: `npub1` and 58 characters of the alphabet. -/
def IsLowerNpub (s : Bytes) : Prop :=
  ∃ body : Bytes, s = npubHrp ++ 0x31 :: body ∧ body.length = 58 ∧ ∀ b ∈ body, b ∈ bech32Charset

/-- **The npub grammar.** -/
def IsNpub (s : Bytes) : Prop :=
  IsLowerNpub s ∨ ∃ t, IsLowerNpub t ∧ s = t.map upperByte

/-! ## The lower-case form of an accepted string -/

theorem charOf_mem {d : UInt8} (isGroup : d.toNat < 32) : charOf d ∈ bech32Charset := by
  have inside : d.toNat < bech32Charset.length := isGroup
  rw [charOf, List.getD_eq_getElem _ 0 inside]
  exact List.getElem_mem inside

/-- 32 bytes are 52 symbols. -/
theorem length_of_payload {data payload : List UInt8}
    (converted : convertBits data 5 8 false = .ok payload) (isKey : payload.length = 32) :
    data.length = 52 := by
  obtain ⟨-, -, free, few, -, count, -⟩ :=
    (convertBits_strict_iff (by omega) (by omega) (by omega)).mp converted
  omega

/-- **The lower-case form is an npub.** -/
theorem isLowerNpub_lower {unicode : CaseTables} {s : Bytes} {pubkey : Pubkey}
    (decoded : decodeNpub unicode s = .ok pubkey) : IsLowerNpub (unicode.lower s) := by
  obtain ⟨-, data, parsed, converted⟩ := bech32_of_decodeNpub decoded
  obtain ⟨encoded, groups⟩ := bech32Encode_of_decode parsed
  have isData : data.length = 52 := length_of_payload converted (by simp)
  refine ⟨(data ++ checksum npubHrp data).map charOf, ?_, ?_, ?_⟩
  · rw [← encoded, bech32Encode, List.map_append]
  · simp [isData, length_checksum]
  · intro b member
    obtain ⟨d, isIn, rfl⟩ := List.mem_map.mp member
    exact charOf_mem (groups_append groups (checksum_groups npubHrp data) _
      (List.mem_map_of_mem isIn))

/-- An accepted string is its lower-case form or its upper-case form. -/
theorem case_of_decodeNpub {unicode : CaseTables} {s : Bytes} {pubkey : Pubkey}
    (decoded : decodeNpub unicode s = .ok pubkey) : unicode.lower s = s ∨ unicode.upper s = s := by
  obtain ⟨-, data, parsed, -⟩ := bech32_of_decodeNpub decoded
  by_contra mixed
  rw [not_or] at mixed
  rw [bech32Decode, if_pos mixed] at parsed
  cases parsed

theorem alphabet_spec {b : UInt8} (member : b ∈ bech32Charset) : b < 0x80 ∧ b ≠ 0x69 := by
  have all : bech32Charset.all (fun b => decide (b < 0x80) && decide (b ≠ 0x69)) = true := by
    decide
  simpa using List.all_eq_true.mp all b member

/-- The bytes of an npub in lower case. -/
theorem IsLowerNpub.bytes {s : Bytes} (isNpub : IsLowerNpub s) :
    ∀ b ∈ s, b < 0x80 ∧ b ≠ 0x69 := by
  obtain ⟨body, rfl, -, alphabet⟩ := isNpub
  have hrp : ∀ b ∈ npubHrp, b < 0x80 ∧ b ≠ 0x69 := by simp [npubHrp]
  intro b member
  rcases List.mem_append.mp member with isHrp | rest
  · exact hrp b isHrp
  · rcases List.mem_cons.mp rest with rfl | isBody
    · decide
    · exact alphabet_spec (alphabet b isBody)

/-! ## Strings of ASCII -/

theorem upperByte_spec (b : UInt8) :
    upperByte (lowerByte b) = upperByte b ∧ (b < 0x80 → upperByte b < 0x80) := by
  have all : ∀ n < 256, upperByte (lowerByte (UInt8.ofNat n)) = upperByte (UInt8.ofNat n) ∧
      (UInt8.ofNat n < 0x80 → upperByte (UInt8.ofNat n) < 0x80) := by decide +kernel
  have here := all b.toNat b.toNat_lt
  rwa [UInt8.ofNat_toNat] at here

theorem IsNpub.isASCII {s : Bytes} (isNpub : IsNpub s) : FipsExitGate.isASCII s = true := by
  rw [FipsExitGate.isASCII, List.all_eq_true]
  intro b member
  rw [decide_eq_true_eq]
  rcases isNpub with lower | ⟨t, lower, rfl⟩
  · exact (lower.bytes b member).1
  · obtain ⟨c, isIn, rfl⟩ := List.mem_map.mp member
    exact (upperByte_spec c).2 (lower.bytes c isIn).1

/-- A string of ASCII that is accepted is an npub. -/
theorem isNpub_of_ascii {unicode : CaseTables} {s : Bytes} {pubkey : Pubkey}
    (decoded : decodeNpub unicode s = .ok pubkey) (ascii : isASCII s = true) : IsNpub s := by
  have lower := isLowerNpub_lower decoded
  rcases case_of_decodeNpub decoded with isLower | isUpper
  · exact .inl (isLower ▸ lower)
  · refine .inr ⟨_, lower, ?_⟩
    rw [CaseTables.upper, if_pos ascii] at isUpper
    rw [CaseTables.lower, if_pos ascii, List.map_map]
    refine isUpper.symm.trans (List.map_congr_left fun b _ => ?_)
    exact (upperByte_spec b).1.symm

/-- A byte beyond ASCII belongs to a rune beyond ASCII. -/
theorem exists_rune_of_not_ascii {s : Bytes} (other : isASCII s = false) :
    ∃ c ∈ runesFrom 0 s, 0x80 ≤ c.toNat := by
  induction s with
  | nil => cases other
  | cons b s ih =>
      rw [runesFrom]
      cases decoded : ByteArray.utf8DecodeChar? (b :: s).toByteArray 0 with
      | none => exact ⟨runeError, List.mem_cons_self, by decide⟩
      | some c =>
          by_cases ascii : c.toNat < 0x80
          · -- the rune is the byte, and the others are read next
            have single := utf8EncodeChar_of_ascii ascii
            have size : c.utf8Size = 1 := by
              rw [← String.length_utf8EncodeChar, single, List.length_singleton]
            obtain ⟨rest, isText⟩ := ByteArray.exists_of_utf8DecodeChar?_eq_some decoded
            have bytes := congrArg (fun text => text.data.toList) isText
            simp only [single, ByteArray.data_append, List.data_toByteArray, Array.toList_append,
              List.singleton_append, List.cons.injEq] at bytes
            have isAscii : b < 0x80 := by
              rw [bytes.1, UInt8.lt_iff_toNat_lt, UInt8.toNat_ofNat_of_lt' (by change _ < 256; omega)]
              exact ascii
            have later : isASCII s = false := by
              simpa [isASCII, isAscii] using other
            obtain ⟨c', member, beyond⟩ := ih later
            show ∃ c' ∈ c :: runesFrom (c.utf8Size - 1) s, 0x80 ≤ c'.toNat
            rw [size]
            exact ⟨c', List.mem_cons_of_mem c member, beyond⟩
          · exact ⟨c, List.mem_cons_self, Nat.not_lt.mp ascii⟩

/-- The runes of a string of ASCII. -/
theorem kelvin_notMem_of_ascii {s : Bytes} (ascii : isASCII s = true) :
    kelvin ∉ runesFrom 0 s := by
  rw [isASCII, List.all_eq_true] at ascii
  let cs : List Char := s.map fun b => Char.ofNat b.toNat
  have small : ∀ n < 128, (Char.ofNat n).toNat = n := by decide
  have isByte : ∀ b ∈ s, (Char.ofNat b.toNat).toNat = b.toNat := fun b member =>
    small _ (UInt8.lt_iff_toNat_lt.mp (of_decide_eq_true (ascii b member)))
  have isText : cs.flatMap String.utf8EncodeChar = s := by
    rw [List.flatMap_map]
    refine Eq.trans ?_ (List.flatMap_singleton' s)
    refine List.flatMap_congr fun b member => ?_
    have low := UInt8.lt_iff_toNat_lt.mp (of_decide_eq_true (ascii b member))
    rw [utf8EncodeChar_of_ascii (by rw [isByte b member]; exact low), isByte b member,
      UInt8.ofNat_toNat]
  have runes := runesFrom_utf8 cs
  rw [isText] at runes
  rw [runes]
  intro member
  obtain ⟨b, isIn, isKelvin⟩ := List.mem_map.mp member
  have low := UInt8.lt_iff_toNat_lt.mp (of_decide_eq_true (ascii b isIn))
  have code := congrArg Char.toNat isKelvin
  rw [isByte b isIn] at code
  rw [code] at low
  exact absurd low (by decide)

/-- **What else is accepted has the Kelvin sign in it.** -/
theorem kelvin_mem_of_not_ascii (unicode : UnicodeTables) {s : Bytes} {pubkey : Pubkey}
    (decoded : decodeNpub unicode.toCaseTables s = .ok pubkey) (other : isASCII s = false) :
    kelvin ∈ runesFrom 0 s := by
  obtain ⟨c, member, beyond⟩ := exists_rune_of_not_ascii other
  have lower := (isLowerNpub_lower decoded).bytes
  rw [CaseTables.lower, other, if_neg Bool.false_ne_true] at lower
  have bytes : ∀ b ∈ String.utf8EncodeChar (unicode.toLower c), b < 0x80 ∧ b ≠ 0x69 :=
    fun b isByte => lower b (List.mem_flatMap.mpr ⟨c, member, isByte⟩)
  have low : (unicode.toLower c).toNat < 0x80 :=
    ascii_of_utf8EncodeChar fun b isByte => (bytes b isByte).1
  rcases unicode.ascii_of_toLower c low with ascii | rfl | rfl
  · omega
  · exact member
  · rw [unicode.toLower_dottedI] at bytes
    exact absurd rfl (bytes 0x69 (by decide)).2

/-- **`DecodeNpub` accepts npubs only, but for the Kelvin sign.** -/
theorem npub_grammar_iff (unicode : UnicodeTables) {s : Bytes} {pubkey : Pubkey}
    (decoded : decodeNpub unicode.toCaseTables s = .ok pubkey) :
    kelvin ∉ runesFrom 0 s ↔ isASCII s = true ∧ IsNpub s := by
  constructor
  · intro absent
    have ascii : isASCII s = true := by
      rw [← Bool.not_eq_false]
      exact fun other => absent (kelvin_mem_of_not_ascii unicode decoded other)
    exact ⟨ascii, isNpub_of_ascii decoded ascii⟩
  · exact fun isNpub => kelvin_notMem_of_ascii isNpub.1

/-! ## The Kelvin sign is accepted -/

/-- The key of the first test vector. -/
def firstPubkey : Pubkey :=
  ⟨(Sha256.beBytes 32 0x3bf0c63fcb93463407af97a5e5ee64fa883d107ef9e558472c4eb9aaaefa459d).toArray,
    by simp [Sha256.beBytes]⟩

/-- `firstNpub` in upper case, with the Kelvin sign for its `K`. -/
def kelvinNpub : String := "NPUB180CVV07TJDRRGPA0J7J7TMNYL2YR6YR7L8J4S3EVF6U64TH6G\u212aWSYJH6W6"

theorem encodeNpub_firstPubkey : encodeNpub firstPubkey = utf8 firstNpub := by decide +kernel

theorem validXOnly_firstPubkey : validXOnly firstPubkey = true := by decide +kernel

/-- It decodes, and is in lower case. -/
theorem decodeNpub_firstNpub (unicode : CaseTables) :
    decodeNpub unicode (utf8 firstNpub) = .ok firstPubkey ∧
      unicode.lower (utf8 firstNpub) = utf8 firstNpub := by
  have decoded : decodeNpub unicode (utf8 firstNpub) = .ok firstPubkey := by
    rw [← encodeNpub_firstPubkey, decodeNpub_encodeNpub, if_pos validXOnly_firstPubkey]
  exact ⟨decoded, by rw [← encodeNpub_of_decodeNpub decoded, encodeNpub_firstPubkey]⟩

/-- A string in upper case is decoded as its lower-case form. -/
theorem decodeNpub_of_upper {unicode : CaseTables} {s : Bytes} {pubkey : Pubkey}
    (valid : validXOnly pubkey = true) (isUpper : unicode.upper s = s)
    (lower : unicode.lower s = encodeNpub pubkey) : decodeNpub unicode s = .ok pubkey := by
  have decoded : decodeNpub unicode (encodeNpub pubkey) = .ok pubkey := by
    rw [decodeNpub_encodeNpub, if_pos valid]
  have plain : unicode.lower (encodeNpub pubkey) = encodeNpub pubkey :=
    (encodeNpub_of_decodeNpub decoded).symm
  have same : bech32Decode unicode s = bech32Decode unicode (encodeNpub pubkey) := by
    simp only [bech32Decode, isUpper, lower, plain, ne_eq, not_true_eq_false, and_false,
      false_and, if_false]
  rw [← decoded, decodeNpub, decodeNpub, same]

section Kelvin

variable (unicode : UnicodeTables)

/-- What is evaluated of the string: in upper case but for the Kelvin sign, and `firstNpub` in lower
case. -/
theorem kelvinNpub_runes :
    kelvinNpub.toList.all (fun c =>
        decide (c = kelvin) || decide (c.toNat < 0x80) && decide (c.toUpper = c)) = true ∧
      kelvinNpub.toList.map (fun c => if c = kelvin then 'k' else c.toLower) = firstNpub.toList ∧
      isASCII (utf8 kelvinNpub) = false := by
  decide +kernel

theorem kelvin_or_upper {c : Char} (member : c ∈ kelvinNpub.toList) :
    c = kelvin ∨ c.toNat < 0x80 ∧ c.toUpper = c := by
  simpa using List.all_eq_true.mp kelvinNpub_runes.1 c member

theorem lower_kelvinNpub :
    unicode.toCaseTables.lower (utf8 kelvinNpub) = encodeNpub firstPubkey := by
  have runes : kelvinNpub.toList.map unicode.toLower = firstNpub.toList := by
    refine (List.map_congr_left fun c member => ?_).trans kelvinNpub_runes.2.1
    by_cases isKelvin : c = kelvin
    · rw [if_pos isKelvin, isKelvin, unicode.toLower_kelvin]
    · rw [if_neg isKelvin]
      exact unicode.toLower_ascii c ((kelvin_or_upper member).resolve_left isKelvin).1
  rw [utf8_eq_flatMap, utf8_lower, runes, encodeNpub_firstPubkey, utf8_eq_flatMap]

theorem upper_kelvinNpub : unicode.toCaseTables.upper (utf8 kelvinNpub) = utf8 kelvinNpub := by
  have other := kelvinNpub_runes.2.2
  have runes : kelvinNpub.toList.map unicode.toUpper = kelvinNpub.toList := by
    refine (List.map_congr_left fun c member => ?_).trans (List.map_id _)
    rcases kelvin_or_upper member with rfl | ⟨ascii, isUpper⟩
    · exact unicode.toUpper_kelvin
    · rw [unicode.toUpper_ascii c ascii, isUpper, id]
  rw [CaseTables.upper, other, if_neg Bool.false_ne_true, mapRunes, utf8_eq_flatMap,
    runesFrom_utf8, ← List.flatMap_map, runes]

/-- **A string with a rune beyond ASCII is accepted**, whatever else the tables say. -/
theorem decodeNpub_kelvinNpub :
    decodeNpub unicode.toCaseTables (utf8 kelvinNpub) = .ok firstPubkey ∧
      isASCII (utf8 kelvinNpub) = false ∧ ¬ IsNpub (utf8 kelvinNpub) := by
  have other := kelvinNpub_runes.2.2
  refine ⟨?_, other, fun isNpub => ?_⟩
  · exact decodeNpub_of_upper validXOnly_firstPubkey (upper_kelvinNpub unicode)
      (lower_kelvinNpub unicode)
  · rw [isNpub.isASCII] at other
    cases other

end Kelvin

/-- The two runes, on top of ASCII. -/
def twoRuneLower (c : Char) : Char :=
  if c = kelvin then 'k' else if c = dottedI then 'i' else c.toLower

theorem twoRuneLower_cases (c : Char) :
    c = kelvin ∧ twoRuneLower c = 'k' ∨ c = dottedI ∧ twoRuneLower c = 'i' ∨
      c ≠ kelvin ∧ c ≠ dottedI ∧ twoRuneLower c = c.toLower := by
  unfold twoRuneLower
  split
  · next isKelvin => exact .inl ⟨isKelvin, rfl⟩
  · next noKelvin =>
      split
      · next isDotted => exact .inr (.inl ⟨isDotted, rfl⟩)
      · next noDotted => exact .inr (.inr ⟨noKelvin, noDotted, rfl⟩)

theorem toNat_ne_of_twoRune {c : Char} (ascii : c.toNat < 0x80) : c ≠ kelvin ∧ c ≠ dottedI := by
  constructor <;>
  · rintro rfl
    exact absurd ascii (by decide)

theorem ascii_of_toLower_ascii {c : Char} (low : c.toLower.toNat < 0x80) : c.toNat < 0x80 := by
  rw [toNat_toLower] at low
  split at low <;> omega

/-- The least tables. -/
def twoRuneTables : UnicodeTables where
  toLower := twoRuneLower
  toUpper := Char.toUpper
  toLower_ascii c ascii := by
    have ne := toNat_ne_of_twoRune ascii
    rw [twoRuneLower, if_neg ne.1, if_neg ne.2]
  toUpper_ascii := asciiTables.toUpper_ascii
  toLower_toLower c := by
    rcases twoRuneLower_cases c with ⟨-, isK⟩ | ⟨-, isI⟩ | ⟨noKelvin, noDotted, isLower⟩
    · rw [isK]
      decide
    · rw [isI]
      decide
    · rw [isLower]
      -- a lower-case form of ASCII tables is neither of the two runes, unless it is the rune itself
      by_cases ascii : c.toNat < 0x80
      · have low : c.toLower.toNat < 0x80 := by
          rw [toNat_toLower]
          split <;> omega
        have ne := toNat_ne_of_twoRune low
        rw [twoRuneLower, if_neg ne.1, if_neg ne.2, toLower_toLower_ascii]
      · have same : c.toLower = c := by
          apply Char.toNat_inj.mp
          rw [toNat_toLower, if_neg (by omega)]
        rw [same, isLower, same]
  isSpace_toLower c := by
    rcases twoRuneLower_cases c with ⟨rfl, isK⟩ | ⟨rfl, isI⟩ | ⟨-, -, isLower⟩
    · rw [isK]
      decide
    · rw [isI]
      decide
    · rw [isLower, isSpace_toLower_ascii]
  toLower_kelvin := by decide
  toUpper_kelvin := by decide
  toLower_dottedI := by decide
  ascii_of_toLower c low := by
    rcases twoRuneLower_cases c with ⟨isKelvin, -⟩ | ⟨isDotted, -⟩ | ⟨-, -, isLower⟩
    · exact .inr (.inl isKelvin)
    · exact .inr (.inr isDotted)
    · exact .inl (ascii_of_toLower_ascii (isLower ▸ low))

/-- One of the tables it is accepted with. -/
theorem kelvin_npub_accepted :
    decodeNpub twoRuneTables.toCaseTables (utf8 kelvinNpub) = .ok firstPubkey ∧
      isASCII (utf8 kelvinNpub) = false ∧ ¬ IsNpub (utf8 kelvinNpub) :=
  decodeNpub_kelvinNpub twoRuneTables

theorem npub_grammar_iff_first :
    decodeNpub twoRuneTables.toCaseTables (utf8 firstNpub) = .ok firstPubkey ∧
      IsNpub (utf8 firstNpub) := by
  obtain ⟨decoded, isLower⟩ := decodeNpub_firstNpub twoRuneTables.toCaseTables
  have isNpub : IsNpub (utf8 firstNpub) := .inl (isLower ▸ isLowerNpub_lower decoded)
  have absent := kelvin_notMem_of_ascii isNpub.isASCII
  exact ⟨decoded, ((npub_grammar_iff twoRuneTables decoded).mp absent).2⟩

end FipsExitGate.Fipsaddr
