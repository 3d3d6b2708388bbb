import FipsExitGate.Fipsaddr.Npub
import FipsExitGate.Fipsaddr.Sha256
import FipsExitGate.Store.Basic
import Mathlib.Data.List.DropRight

/-!
# Identities

`fipsaddr.go` and `normNpub`: the address derived from an npub, and the spelling in which
the store keeps npubs.  Together they are the identity scheme `npubIdentity` of a store.

`DecodeNpub` reads bytes and the store compares texts.  Lowering a text and lowering its
bytes is the same thing (`utf8_lower`), and an accepted npub has no space in it; so its
canonical spelling is the npub of its key (`utf8_normNpub`), and deriving the address from
the canonical spelling changes nothing (`fromNpub_normNpub`).
-/

namespace FipsExitGate

open Fipsaddr

/-! ## Texts and their bytes -/

theorem utf8_eq_flatMap (s : String) : utf8 s = s.toList.flatMap String.utf8EncodeChar := by
  rw [utf8, ← String.utf8Encode_toList, List.utf8Encode]
  simp

theorem utf8_ofList (cs : List Char) :
    utf8 (String.ofList cs) = cs.flatMap String.utf8EncodeChar := by
  rw [utf8_eq_flatMap, String.toList_ofList]

theorem runesFrom_append {skip : Nat} {front : Bytes} (length : front.length = skip) (s : Bytes) :
    runesFrom skip (front ++ s) = runesFrom 0 s := by
  induction front generalizing skip with
  | nil =>
      subst length
      rfl
  | cons b front ih =>
      subst length
      exact ih rfl

/-- A text is read back from its bytes. -/
theorem runesFrom_utf8 (cs : List Char) :
    runesFrom 0 (cs.flatMap String.utf8EncodeChar) = cs := by
  induction cs with
  | nil => rfl
  | cons c cs ih =>
      have decoded : ByteArray.utf8DecodeChar?
          (String.utf8EncodeChar c ++ cs.flatMap String.utf8EncodeChar).toByteArray 0 = some c := by
        rw [List.toByteArray_append]
        exact ByteArray.utf8DecodeChar?_utf8EncodeChar_append
      have size := String.length_utf8EncodeChar c
      -- the encoding has a first byte, and the others are the ones skipped
      cases encoded : String.utf8EncodeChar c with
      | nil =>
          have := c.utf8Size_pos
          rw [encoded, List.length_nil] at size
          omega
      | cons b rest =>
          rw [encoded, List.length_cons] at size
          rw [encoded, List.cons_append] at decoded
          rw [List.flatMap_cons, encoded, List.cons_append, runesFrom, decoded]
          show c :: runesFrom (c.utf8Size - 1) (rest ++ _) = c :: cs
          rw [runesFrom_append (by omega), ih]

/-- Different texts have different bytes. -/
theorem utf8_inj {s t : String} (same : utf8 s = utf8 t) : s = t := by
  have runes := congrArg (runesFrom 0) same
  rw [utf8_eq_flatMap, utf8_eq_flatMap, runesFrom_utf8, runesFrom_utf8] at runes
  exact String.toList_inj.mp runes

theorem utf8EncodeChar_of_ascii {c : Char} (ascii : c.toNat < 0x80) :
    String.utf8EncodeChar c = [UInt8.ofNat c.toNat] := by
  rw [String.utf8EncodeChar_eq_singleton]
  · rfl
  · rw [Char.utf8Size_eq_one_iff, UInt32.le_iff_toNat_le]
    exact Nat.le_of_lt_succ ascii

/-- The last byte of a longer encoding is a continuation byte. -/
theorem ascii_of_utf8EncodeChar {c : Char} (plain : ∀ b ∈ String.utf8EncodeChar c, b < 0x80) :
    c.toNat < 0x80 := by
  have high : ¬ UInt8.ofNat (c.val.toNat % 64 + 128) < 0x80 := by
    rw [UInt8.lt_iff_toNat_lt, UInt8.toNat_ofNat_of_lt' (by change _ < 256; omega)]
    exact Nat.not_lt.mpr (Nat.le_add_left _ _)
  unfold String.utf8EncodeChar at plain
  dsimp only at plain
  split at plain
  · rename_i small
    rw [Char.toNat_val] at small
    omega
  · split at plain
    · exact absurd (plain _ (by simp)) high
    · split at plain <;> exact absurd (plain _ (by simp)) high

theorem lowerByte_of_ascii {c : Char} (ascii : c.toNat < 0x80) :
    lowerByte (UInt8.ofNat c.toNat) = UInt8.ofNat c.toLower.toNat := by
  have all : ∀ n < 0x80, lowerByte (UInt8.ofNat n) =
      UInt8.ofNat (if 65 ≤ n ∧ n ≤ 90 then n + 32 else n) := by decide
  rw [all _ ascii, toNat_toLower]

/-- **Lowering a text is lowering its bytes.** -/
theorem utf8_lower (unicode : CaseTables) (cs : List Char) :
    unicode.lower (cs.flatMap String.utf8EncodeChar) =
      (cs.map unicode.toLower).flatMap String.utf8EncodeChar := by
  rw [CaseTables.lower, List.flatMap_map]
  split
  · rename_i ascii
    rw [isASCII, List.all_eq_true] at ascii
    rw [List.map_flatMap]
    refine List.flatMap_congr fun c member => ?_
    have isAscii : c.toNat < 0x80 := ascii_of_utf8EncodeChar fun b isByte =>
      of_decide_eq_true (ascii b (List.mem_flatMap.mpr ⟨c, member, isByte⟩))
    have lowAscii : c.toLower.toNat < 0x80 := by
      rw [toNat_toLower]
      split <;> omega
    rw [unicode.toLower_ascii c isAscii, utf8EncodeChar_of_ascii isAscii,
      utf8EncodeChar_of_ascii lowAscii, List.map_singleton, lowerByte_of_ascii isAscii]
  · rw [mapRunes, runesFrom_utf8]

/-! ## The canonical spelling -/

/-- A text without the spaces at its ends. -/
def trimmed (cs : List Char) : List Char := (cs.dropWhile isSpace).rdropWhile isSpace

theorem trimSpace_eq_trimmed (s : String) : trimSpace s = String.ofList (trimmed s.toList) := rfl

/-- What is left after trimming starts with no space, so there is nothing more to trim. -/
theorem trimmed_trimmed (cs : List Char) : trimmed (trimmed cs) = trimmed cs := by
  have front : (trimmed cs).dropWhile isSpace = trimmed cs := by
    rw [List.dropWhile_eq_self_iff]
    intro nonempty
    have isPrefix : trimmed cs <+: cs.dropWhile isSpace := List.rdropWhile_prefix _ _
    rw [isPrefix.getElem nonempty]
    exact List.dropWhile_get_zero_not isSpace cs _
  rw [trimmed, front]
  exact List.rdropWhile_idempotent _ _

theorem trimmed_map {f : Char → Char} (same : ∀ c, isSpace (f c) = isSpace c) (cs : List Char) :
    trimmed (cs.map f) = (trimmed cs).map f := by
  have comp : isSpace ∘ f = isSpace := funext same
  rw [trimmed, trimmed, List.rdropWhile, List.rdropWhile, List.dropWhile_map, comp,
    ← List.map_reverse, List.dropWhile_map, comp, List.map_reverse]

theorem trimmed_eq_self {cs : List Char} (plain : ∀ c ∈ cs, isSpace c = false) :
    trimmed cs = cs := by
  have front : cs.dropWhile isSpace = cs := by
    rw [List.dropWhile_eq_self_iff]
    intro nonempty
    simp [plain _ (List.getElem_mem nonempty)]
  rw [trimmed, front, List.rdropWhile_eq_self_iff]
  intro nonempty
  simp [plain _ (List.getLast_mem nonempty)]

/-- `normNpub`: `strings.ToLower(strings.TrimSpace(s))`. -/
def normNpub (unicode : CaseTables) (s : String) : String :=
  String.ofList ((trimSpace s).toList.map unicode.toLower)

theorem toList_normNpub (unicode : CaseTables) (s : String) :
    (normNpub unicode s).toList = (trimmed s.toList).map unicode.toLower := by
  rw [normNpub, trimSpace_eq_trimmed, String.toList_ofList, String.toList_ofList]

theorem normNpub_normNpub (unicode : CaseTables) (s : String) :
    normNpub unicode (normNpub unicode s) = normNpub unicode s := by
  have lowered : unicode.toLower ∘ unicode.toLower = unicode.toLower :=
    funext unicode.toLower_toLower
  apply String.toList_inj.mp
  rw [toList_normNpub, toList_normNpub, trimmed_map unicode.isSpace_toLower, trimmed_trimmed,
    List.map_map, lowered]

/-! ## The address of an npub -/

/-- `NodeAddr`: the first 16 bytes of the key's digest. -/
def nodeAddr (pubkey : Pubkey) : Bytes := (Sha256.sum256 pubkey.toList).take 16

/-- `FromPubkey`. -/
def fromPubkey (pubkey : Pubkey) : Addr :=
  .v6 (BitVec.ofNat 128 (setBytes (0xfd :: (nodeAddr pubkey).take 15)))

/-- `FromNpub`. -/
def fromNpub (unicode : CaseTables) (npub : String) : Option Addr :=
  match decodeNpub unicode (utf8 npub) with
  | .ok pubkey => some (fromPubkey pubkey)
  | .error _ => none

example : [firstNpub, secondNpub, thirdNpub].map (fromNpub asciiTables) =
    [some firstAddr, some secondAddr, some thirdAddr] := by
  decide +kernel

/-- The characters an npub is written in are printable. -/
theorem printable_encodeNpub (pubkey : Pubkey) :
    ∀ b ∈ encodeNpub pubkey, 0x20 < b ∧ b < 0x80 := by
  obtain ⟨data, converted, groups, -⟩ := payload_of_symbols pubkey
  have body := groups_append groups (checksum_groups npubHrp data)
  have alphabet : ∀ n < 32, 0x20 < bech32Charset.getD n 0 ∧ bech32Charset.getD n 0 < 0x80 := by
    decide
  intro b member
  rw [encodeNpub, converted] at member
  change b ∈ npubHrp ++ 0x31 :: (data.map charOf ++ (checksum npubHrp data).map charOf) at member
  rw [← List.map_append, List.mem_append, List.mem_cons, List.mem_map] at member
  rcases member with isHrp | rfl | ⟨d, isIn, rfl⟩
  · have all : ∀ b ∈ npubHrp, 0x20 < b ∧ b < 0x80 := by simp [npubHrp]
    exact all b isHrp
  · decide
  · exact alphabet d.toNat (body _ (List.mem_map_of_mem isIn))

theorem not_isSpace_of_printable {c : Char}
    (printable : ∀ b ∈ String.utf8EncodeChar c, 0x20 < b ∧ b < 0x80) : isSpace c = false := by
  have ascii := ascii_of_utf8EncodeChar fun b member => (printable b member).2
  have low := (printable (UInt8.ofNat c.toNat) (by simp [utf8EncodeChar_of_ascii ascii])).1
  rw [UInt8.lt_iff_toNat_lt, UInt8.toNat_ofNat_of_lt' (by change _ < 256; omega)] at low
  change 32 < c.toNat at low
  simp [isSpace]
  omega

/-- **The canonical spelling of an accepted npub is the npub of its key.** -/
theorem utf8_normNpub {unicode : CaseTables} {npub : String} {pubkey : Pubkey}
    (decoded : decodeNpub unicode (utf8 npub) = .ok pubkey) :
    utf8 (normNpub unicode npub) = encodeNpub pubkey := by
  have lowered := encodeNpub_of_decodeNpub decoded
  rw [utf8_eq_flatMap, utf8_lower] at lowered
  have plain : ∀ c ∈ npub.toList, isSpace c = false := by
    intro c member
    rw [← unicode.isSpace_toLower]
    refine not_isSpace_of_printable fun b isByte => printable_encodeNpub pubkey b ?_
    rw [lowered]
    exact List.mem_flatMap.mpr ⟨_, List.mem_map_of_mem member, isByte⟩
  rw [utf8_eq_flatMap, toList_normNpub, trimmed_eq_self plain, lowered]

/-- Deriving an address from the canonical spelling changes nothing. -/
theorem fromNpub_normNpub {unicode : CaseTables} {npub : String} {addr : Addr}
    (derived : fromNpub unicode npub = some addr) :
    fromNpub unicode (normNpub unicode npub) = some addr := by
  rw [fromNpub] at derived
  cases decoded : decodeNpub unicode (utf8 npub) with
  | error e => simp [decoded] at derived
  | ok pubkey =>
      rw [decoded] at derived
      rw [fromNpub, utf8_normNpub decoded, decodeNpub_encodeNpub,
        if_pos (bech32_of_decodeNpub decoded).1]
      exact derived

/-- The identity scheme of the backend. -/
def npubIdentity (unicode : CaseTables) : Identity where
  normNpub := normNpub unicode
  fromNpub := fromNpub unicode
  norm_idem := normNpub_normNpub unicode

end FipsExitGate
