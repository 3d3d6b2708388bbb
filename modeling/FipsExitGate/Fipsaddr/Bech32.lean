import FipsExitGate.Fipsaddr.ConvertBits
import FipsExitGate.Fipsaddr.Strings
import FipsExitGate.Lib.ShiftRegister

/-!
# Bech32

`bech32Polymod`, `bech32Decode` and `bech32Encode` of `npub.go`.

## The argument

The checksum register is linear, so the state after the data and six more symbols is the
state after the data and six zeros, plus the state six symbols lead to from zero.  The
latter is the number whose digits in base 32 the symbols are, since six symbols do not
reach the feedback (`register_of_short`).  Hence there is one choice of six symbols for
which the register ends at 1, the digits of what the zeros lead to, with the last bit
flipped, and those are the six symbols `bech32Encode` writes (`polymod_eq_one_iff`).

## Main results

* `bech32Decode_encode` — what is encoded is decoded again
* `bech32Encode_of_decode` — what is decoded is encoded as its lower-case form
-/

namespace FipsExitGate.Fipsaddr

open Digits ShiftRegister

/-- `bech32Charset`. -/
def bech32Charset : Bytes :=
  "qpzry9x8gf2tvdw0s3jn54khce6mua7l".toList.map fun c => UInt8.ofNat c.toNat

/-- The table `gen`. -/
def gen : List (BitVec 32) := [0x3b6a57b2, 0x26508e6d, 0x1ea119fa, 0x3d4233dd, 0x2a1462b3]

/-- One turn of the inner loop of `bech32Polymod`, with `b` the bits that were shifted out. -/
def feedbackStep (b chk : BitVec 32) (g : BitVec 32 × Nat) : BitVec 32 :=
  if (b >>> g.2) &&& 1 = 1 then chk ^^^ g.1 else chk

/-- The inner loop of `bech32Polymod`. -/
def feedback (b chk : BitVec 32) : BitVec 32 :=
  gen.zipIdx.foldl (feedbackStep b) chk

/-- One turn of the loop of `bech32Polymod`. -/
def polymodStep (chk v : BitVec 32) : BitVec 32 :=
  feedback (chk >>> 25) ((chk &&& 0x1ffffff) <<< 5 ^^^ v)

/-- A symbol as a `uint32`. -/
def symbol (v : UInt8) : BitVec 32 := v.toBitVec.setWidth 32

/-- `bech32Polymod`. -/
def bech32Polymod (values : List UInt8) : BitVec 32 :=
  (values.map symbol).foldl polymodStep 1

/-- `bech32HrpExpand`. -/
def bech32HrpExpand (hrp : Bytes) : List UInt8 :=
  hrp.map (fun c : UInt8 => c >>> 5) ++ 0 :: hrp.map fun c : UInt8 => c &&& 31

/-- The errors of `DecodeNpub`. -/
inductive NpubErr where
  | mixedCase
  | malformed
  | invalidCharacter (c : UInt8)
  | checksum
  | notNpub
  | convert (e : ConvertErr)
  | payloadLength (n : Nat)
  | invalidPubkey
  deriving DecidableEq, Repr

/-- The verb `%q` for a byte: a quoted rune. -/
def quoteRune (c : UInt8) : String :=
  let hex := String.ofList (Nat.toDigits 16 c.toNat)
  let hex := if c < 16 then "0" ++ hex else hex
  let rune :=
    match c.toNat with
    | 0x07 => "\\a"
    | 0x08 => "\\b"
    | 0x09 => "\\t"
    | 0x0a => "\\n"
    | 0x0b => "\\v"
    | 0x0c => "\\f"
    | 0x0d => "\\r"
    | 0x27 => "\\'"
    | 0x5c => "\\\\"
    | n =>
        if 0x20 ≤ n ∧ n < 0x7f ∨ 0xa1 ≤ n ∧ n ≠ 0xad then String.singleton (Char.ofNat n)
        else if n < 0x80 then "\\x" ++ hex
        else "\\u00" ++ hex
  "'" ++ rune ++ "'"

def NpubErr.text : NpubErr → String
  | .mixedCase => "fipsaddr: bech32 string uses mixed case"
  | .malformed => "fipsaddr: malformed bech32 string"
  | .invalidCharacter c => "fipsaddr: invalid bech32 character " ++ quoteRune c
  | .checksum => "fipsaddr: bech32 checksum mismatch"
  | .notNpub => "fipsaddr: not an npub (wrong bech32 prefix)"
  | .convert e => "fipsaddr: " ++ e.text
  | .payloadLength n => s!"fipsaddr: npub payload is {n} bytes, want 32"
  | .invalidPubkey => "fipsaddr: payload is not a valid secp256k1 x-only pubkey"

/-- `strings.IndexByte(bech32Charset, c)` for each byte. -/
def symbolsOf : Bytes → Except NpubErr (List UInt8)
  | [] => .ok []
  | c :: s =>
      match bech32Charset.idxOf? c with
      | none => .error (.invalidCharacter c)
      | some idx =>
          match symbolsOf s with
          | .error e => .error e
          | .ok data => .ok (UInt8.ofNat idx :: data)

/-- `bech32Decode`. -/
def bech32Decode (unicode : CaseTables) (s : Bytes) : Except NpubErr (Bytes × List UInt8) :=
  if unicode.lower s ≠ s ∧ unicode.upper s ≠ s then .error .mixedCase
  else
    let s := unicode.lower s
    match lastIndexByte s 0x31 with
    | none => .error .malformed
    | some pos =>
        if pos < 1 ∨ s.length < pos + 7 then .error .malformed
        else
          let hrp := s.take pos
          match symbolsOf (s.drop (pos + 1)) with
          | .error e => .error e
          | .ok data =>
              if bech32Polymod (bech32HrpExpand hrp ++ data) ≠ 1 then .error .checksum
              else .ok (hrp, data.take (data.length - 6))

/-- `bech32Charset[d]`. -/
def charOf (d : UInt8) : UInt8 := bech32Charset.getD d.toNat 0

/-- The six symbols that `bech32Encode` writes behind the data. -/
def checksum (hrp : Bytes) (data : List UInt8) : List UInt8 :=
  let polymod := bech32Polymod (bech32HrpExpand hrp ++ data ++ [0, 0, 0, 0, 0, 0]) ^^^ 1
  (List.range 6).map fun i => UInt8.ofNat ((polymod >>> (5 * (5 - i))) &&& 31).toNat

/-- `bech32Encode`. -/
def bech32Encode (hrp : Bytes) (data : List UInt8) : Bytes :=
  hrp ++ 0x31 :: (data.map charOf ++ (checksum hrp data).map charOf)

/-! ## The checksum -/

theorem bech32Polymod_append (vs ws : List UInt8) :
    bech32Polymod (vs ++ ws) = (ws.map symbol).foldl polymodStep (bech32Polymod vs) := by
  rw [bech32Polymod, List.map_append, List.foldl_append, bech32Polymod]

theorem and_one_eq_one_iff (b : BitVec 32) : b &&& 1 = 1 ↔ b.getLsbD 0 = true := by
  rw [show (1 : BitVec 32) = 1#32 from rfl, BitVec.and_one_eq_setWidth_ofBool_getLsbD]
  cases b.getLsbD 0 <;> decide

theorem feedbackStep_xor (a b c d : BitVec 32) (g : BitVec 32 × Nat) :
    feedbackStep (a ^^^ b) (c ^^^ d) g = feedbackStep a c g ^^^ feedbackStep b d g := by
  simp only [feedbackStep, and_one_eq_one_iff, BitVec.getLsbD_ushiftRight, BitVec.getLsbD_xor,
    Nat.add_zero]
  cases a.getLsbD g.2 <;> cases b.getLsbD g.2
  · rfl
  · simpa using BitVec.xor_assoc c d g.1
  · show c ^^^ d ^^^ g.1 = c ^^^ g.1 ^^^ d
    ac_rfl
  · show c ^^^ d = c ^^^ g.1 ^^^ (d ^^^ g.1)
    rw [show c ^^^ g.1 ^^^ (d ^^^ g.1) = c ^^^ d ^^^ (g.1 ^^^ g.1) by ac_rfl, BitVec.xor_self,
      BitVec.xor_zero]

theorem feedback_xor (a b c d : BitVec 32) :
    feedback (a ^^^ b) (c ^^^ d) = feedback a c ^^^ feedback b d := by
  rw [feedback, feedback, feedback]
  generalize gen.zipIdx = gens
  induction gens generalizing c d with
  | nil => rfl
  | cons g gens ih =>
      rw [List.foldl_cons, List.foldl_cons, List.foldl_cons, feedbackStep_xor]
      exact ih _ _

theorem and_xor_distrib (s t mask : BitVec 32) :
    (s ^^^ t) &&& mask = (s &&& mask) ^^^ (t &&& mask) := by
  ext i
  simp [Bool.and_xor_distrib_right]

/-- **The checksum register is linear.** -/
theorem polymodStep_linear : Linear polymodStep := by
  intro s t v x
  rw [polymodStep, polymodStep, polymodStep, ← feedback_xor, BitVec.ushiftRight_xor_distrib,
    and_xor_distrib, BitVec.shiftLeft_xor_distrib]
  congr 1
  ac_rfl

theorem two_pow_mul_xor {k n v : Nat} (small : v < 2 ^ k) : 2 ^ k * n ^^^ v = 2 ^ k * n + v := by
  apply Nat.eq_of_testBit_eq
  intro i
  rw [Nat.testBit_xor, Nat.testBit_two_pow_mul_add _ small, Nat.testBit_two_pow_mul]
  by_cases low : i < k
  · simp [low, Nat.not_le.mpr low]
  · have high : v.testBit i = false :=
      Nat.testBit_lt_two_pow (small.trans_le (Nat.pow_le_pow_right (by omega) (by omega)))
    simp [low, Nat.not_lt.mp low, high]

/-- A register whose upper bits are clear shifts a symbol in and feeds nothing back. -/
theorem polymodStep_of_short {chk v : BitVec 32} (short : chk.toNat < 2 ^ 25)
    (isSymbol : v.toNat < 32) : (polymodStep chk v).toNat = chk.toNat * 32 + v.toNat := by
  have noFeedback : chk >>> 25 = 0#32 := by
    apply BitVec.eq_of_toNat_eq
    rw [BitVec.toNat_ushiftRight, Nat.shiftRight_eq_div_pow, Nat.div_eq_of_lt short]
    rfl
  have kept : chk &&& 0x1ffffff = chk := by
    apply BitVec.eq_of_toNat_eq
    rw [BitVec.toNat_and]
    exact (Nat.and_two_pow_sub_one_eq_mod chk.toNat 25).trans (Nat.mod_eq_of_lt short)
  have shifted : chk.toNat <<< 5 % 2 ^ 32 = 2 ^ 5 * chk.toNat := by
    rw [Nat.shiftLeft_eq, Nat.mod_eq_of_lt (by omega), Nat.mul_comm]
  rw [polymodStep, noFeedback, kept]
  show (chk <<< 5 ^^^ v).toNat = _
  rw [BitVec.toNat_xor, BitVec.toNat_shiftLeft, shifted, two_pow_mul_xor isSymbol, Nat.mul_comm]
  rfl

/-- **Six symbols from zero** leave the number whose digits they are. -/
theorem register_of_short {ds : List UInt8} (length : ds.length ≤ 6)
    (groups : ∀ d ∈ values ds, d < 32) :
    ((ds.map symbol).foldl polymodStep 0).toNat = value 32 (values ds) := by
  induction ds using List.reverseRecOn with
  | nil => rfl
  | append_singleton ds d ih =>
      rw [List.length_append, List.length_singleton] at length
      have earlier : ∀ d' ∈ values ds, d' < 32 := by
        intro d' member
        exact groups d' (by simp [values_concat, member])
      have before := ih (by omega) earlier
      have isSymbol : (symbol d).toNat < 32 := by
        have isGroup : d.toNat < 32 := groups _ (by simp [values_concat])
        simpa [symbol, Nat.mod_eq_of_lt (isGroup.trans (by norm_num : 32 < 2 ^ 32))] using isGroup
      have short : ((ds.map symbol).foldl polymodStep 0).toNat < 2 ^ 25 := by
        rw [before]
        refine (value_lt earlier).trans_le ?_
        rw [length_values, show (32 : Nat) = 2 ^ 5 from rfl, ← pow_mul]
        exact Nat.pow_le_pow_right (by omega) (by omega)
      rw [List.map_append, List.foldl_append, List.map_cons, List.map_nil, List.foldl_cons,
        List.foldl_nil, polymodStep_of_short short isSymbol, before, values_concat, value_concat]
      simp [symbol]

theorem feedback_lt {b chk : BitVec 32} (low : chk.toNat < 2 ^ 30) :
    (feedback b chk).toNat < 2 ^ 30 := by
  have table : ∀ g ∈ gen.zipIdx, g.1.toNat < 2 ^ 30 := by decide
  rw [feedback]
  generalize gen.zipIdx = gens at table
  induction gens generalizing chk with
  | nil => exact low
  | cons g gens ih =>
      refine ih ?_ fun g' member => table g' (List.mem_cons_of_mem _ member)
      rw [feedbackStep]
      split
      · rw [BitVec.toNat_xor]
        exact Nat.xor_lt_two_pow low (table g (by simp))
      · exact low

/-- The register has thirty bits. -/
theorem polymodStep_lt (chk : BitVec 32) {v : BitVec 32} (isSymbol : v.toNat < 32) :
    (polymodStep chk v).toNat < 2 ^ 30 := by
  apply feedback_lt
  have masked : (chk &&& 0x1ffffff).toNat < 2 ^ 25 := by
    rw [BitVec.toNat_and]
    exact Nat.and_lt_two_pow _ (by decide)
  rw [BitVec.toNat_xor, BitVec.toNat_shiftLeft, Nat.shiftLeft_eq, Nat.mod_eq_of_lt (by omega)]
  exact Nat.xor_lt_two_pow (by omega) (by omega)

/-- What `bech32Encode` cuts into symbols. -/
def target (hrp : Bytes) (data : List UInt8) : BitVec 32 :=
  bech32Polymod (bech32HrpExpand hrp ++ data ++ [0, 0, 0, 0, 0, 0]) ^^^ 1

theorem target_lt (hrp : Bytes) (data : List UInt8) : (target hrp data).toNat < 2 ^ 30 := by
  rw [target, BitVec.toNat_xor]
  refine Nat.xor_lt_two_pow ?_ (by decide)
  rw [bech32Polymod_append]
  exact polymodStep_lt _ (by decide)

theorem length_checksum (hrp : Bytes) (data : List UInt8) : (checksum hrp data).length = 6 := rfl

/-- The symbols of the checksum. -/
theorem values_checksum (hrp : Bytes) (data : List UInt8) :
    values (checksum hrp data) =
      (List.range 6).map fun i => (target hrp data).toNat / 2 ^ (5 * (5 - i)) % 32 := by
  have group (i : Nat) : (UInt8.ofNat ((target hrp data >>> (5 * (5 - i))) &&& 31).toNat).toNat =
      (target hrp data).toNat / 2 ^ (5 * (5 - i)) % 32 := by
    rw [BitVec.toNat_and, BitVec.toNat_ushiftRight, Nat.shiftRight_eq_div_pow,
      show (31 : BitVec 32).toNat = 2 ^ 5 - 1 from rfl, Nat.and_two_pow_sub_one_eq_mod,
      UInt8.toNat_ofNat']
    exact Nat.mod_eq_of_lt (by omega)
  rw [values, checksum, List.map_map]
  exact List.map_congr_left fun i _ => group i

theorem checksum_groups (hrp : Bytes) (data : List UInt8) :
    ∀ d ∈ values (checksum hrp data), d < 32 := by
  intro d member
  rw [values_checksum, List.mem_map] at member
  obtain ⟨i, -, rfl⟩ := member
  exact Nat.mod_lt _ (by omega)

theorem value_checksum (hrp : Bytes) (data : List UInt8) :
    value 32 (values (checksum hrp data)) = (target hrp data).toNat := by
  have bound := target_lt hrp data
  rw [values_checksum]
  simp only [value, List.range, List.range.loop, List.map_cons, List.map_nil, List.foldl_cons,
    List.foldl_nil]
  omega

theorem xor_eq_iff (a b c : BitVec 32) : a ^^^ b = c ↔ b = a ^^^ c := by
  constructor
  · rintro rfl
    rw [← BitVec.xor_assoc, BitVec.xor_self, BitVec.zero_xor]
  · rintro rfl
    rw [← BitVec.xor_assoc, BitVec.xor_self, BitVec.zero_xor]

/-- **The checksum is the one choice of six symbols** behind which the register ends at 1. -/
theorem polymod_eq_one_iff {hrp : Bytes} {data cs : List UInt8} (length : cs.length = 6)
    (groups : ∀ d ∈ values cs, d < 32) :
    bech32Polymod (bech32HrpExpand hrp ++ data ++ cs) = 1 ↔ cs = checksum hrp data := by
  have split : bech32Polymod (bech32HrpExpand hrp ++ data ++ cs) =
      bech32Polymod (bech32HrpExpand hrp ++ data ++ [0, 0, 0, 0, 0, 0]) ^^^
        (cs.map symbol).foldl polymodStep 0 := by
    rw [bech32Polymod_append, bech32Polymod_append _ [0, 0, 0, 0, 0, 0],
      foldl_eq_xor polymodStep_linear, List.length_map, length]
    rfl
  have register := register_of_short (by omega) groups
  rw [split, xor_eq_iff, ← BitVec.toNat_inj, register]
  show value 32 (values cs) = (target hrp data).toNat ↔ _
  rw [← value_checksum]
  constructor
  · intro same
    refine values_injective (eq_of_value_eq (by omega) ?_ groups (checksum_groups hrp data) same)
    rw [length_values, length_values, length, length_checksum]
  · rintro rfl
    rfl

/-! ## The characters -/

/-- A symbol is read back from its character. -/
theorem idxOf_charOf {d : UInt8} (isGroup : d.toNat < 32) :
    bech32Charset.idxOf? (charOf d) = some d.toNat := by
  have all : ∀ n < 32, bech32Charset.idxOf? (bech32Charset.getD n 0) = some n := by decide
  exact all d.toNat isGroup

theorem charOf_of_idxOf {c : UInt8} {idx : Nat} (found : bech32Charset.idxOf? c = some idx) :
    idx < 32 ∧ charOf (UInt8.ofNat idx) = c := by
  rw [List.idxOf?, List.findIdx?_eq_some_iff_getElem] at found
  obtain ⟨inside, isIt, -⟩ := found
  have isGroup : idx < 32 := inside
  have isByte : (UInt8.ofNat idx).toNat = idx := by
    rw [UInt8.toNat_ofNat']
    exact Nat.mod_eq_of_lt (by omega)
  refine ⟨isGroup, ?_⟩
  rw [charOf, isByte, List.getD_eq_getElem _ _ inside]
  exact beq_iff_eq.mp isIt

theorem symbolsOf_map_charOf {data : List UInt8} (groups : ∀ d ∈ values data, d < 32) :
    symbolsOf (data.map charOf) = .ok data := by
  induction data with
  | nil => rfl
  | cons d data ih =>
      have isGroup : d.toNat < 32 := groups _ (by simp [values])
      have rest := ih fun d' member => groups d' (List.mem_cons_of_mem _ member)
      simp [symbolsOf, idxOf_charOf isGroup, rest]

/-- What is read as symbols is their characters. -/
theorem map_charOf_of_symbolsOf {s : Bytes} {data : List UInt8} (read : symbolsOf s = .ok data) :
    s = data.map charOf ∧ ∀ d ∈ values data, d < 32 := by
  induction s generalizing data with
  | nil =>
      cases read
      exact ⟨rfl, by simp⟩
  | cons c s ih =>
      rw [symbolsOf] at read
      cases found : bech32Charset.idxOf? c with
      | none => simp [found] at read
      | some idx =>
          cases later : symbolsOf s with
          | error e => simp [found, later] at read
          | ok rest =>
              simp only [found, later, Except.ok.injEq] at read
              subst read
              obtain ⟨rfl, groups⟩ := ih later
              obtain ⟨isGroup, isChar⟩ := charOf_of_idxOf found
              refine ⟨by rw [List.map_cons, isChar], ?_⟩
              intro d member
              rcases List.mem_cons.mp member with rfl | member
              · rw [UInt8.toNat_ofNat']
                exact (Nat.mod_le _ _).trans_lt isGroup
              · exact groups d member

/-! ## The two directions -/

/-- A character of the alphabet is no separator, and lower case. -/
theorem charOf_spec (d : UInt8) (isGroup : d.toNat < 32) :
    charOf d ≠ 0x31 ∧ charOf d < 0x80 ∧ lowerByte (charOf d) = charOf d := by
  have all : ∀ n < 32, bech32Charset.getD n 0 ≠ 0x31 ∧ bech32Charset.getD n 0 < 0x80 ∧
      lowerByte (bech32Charset.getD n 0) = bech32Charset.getD n 0 := by decide
  exact all d.toNat isGroup

theorem groups_append {ds es : List UInt8} (groups : ∀ d ∈ values ds, d < 32)
    (groups' : ∀ d ∈ values es, d < 32) : ∀ d ∈ values (ds ++ es), d < 32 := by
  intro d member
  rw [values, List.map_append, List.mem_append] at member
  exact member.elim (groups d) (groups' d)

/-- A string of lower-case ASCII characters is its own lower-case form. -/
theorem lower_eq_self (unicode : CaseTables) {s : Bytes}
    (plain : ∀ b ∈ s, b < 0x80 ∧ lowerByte b = b) : unicode.lower s = s := by
  have ascii : isASCII s = true := by
    rw [isASCII, List.all_eq_true]
    intro b member
    exact decide_eq_true (plain b member).1
  rw [CaseTables.lower, if_pos ascii]
  exact (List.map_congr_left fun b member => (plain b member).2).trans (List.map_id s)

/-- What `bech32Decode` does with the characters of symbols, behind a prefix of lower-case ASCII. -/
theorem bech32Decode_symbols (unicode : CaseTables) {hrp : Bytes} {all : List UInt8}
    (nonempty : hrp ≠ []) (plain : ∀ b ∈ hrp, b < 0x80 ∧ lowerByte b = b)
    (groups : ∀ d ∈ values all, d < 32) (enough : 6 ≤ all.length) :
    bech32Decode unicode (hrp ++ 0x31 :: all.map charOf) =
      if bech32Polymod (bech32HrpExpand hrp ++ all) ≠ 1 then .error .checksum
      else .ok (hrp, all.take (all.length - 6)) := by
  have chars : ∀ b ∈ all.map charOf, b ≠ 0x31 ∧ b < 0x80 ∧ lowerByte b = b := by
    intro b member
    obtain ⟨d, isIn, rfl⟩ := List.mem_map.mp member
    exact charOf_spec d (groups _ (List.mem_map_of_mem isIn))
  have isLower : unicode.lower (hrp ++ 0x31 :: all.map charOf) = hrp ++ 0x31 :: all.map charOf := by
    apply lower_eq_self
    intro b member
    rw [List.mem_append, List.mem_cons] at member
    rcases member with member | rfl | member
    · exact plain b member
    · decide
    · exact (chars b member).2
  have found : lastIndexByte (hrp ++ 0x31 :: all.map charOf) 0x31 = some hrp.length :=
    lastIndexByte_append fun member => (chars _ member).1 rfl
  have positive : 0 < hrp.length := List.length_pos_iff.mpr nonempty
  have read : symbolsOf ((hrp ++ 0x31 :: all.map charOf).drop (hrp.length + 1)) = .ok all := by
    rw [← List.drop_drop, List.drop_left, List.drop_one, List.tail_cons,
      symbolsOf_map_charOf groups]
  have long : ¬ (hrp.length < 1 ∨ (hrp ++ 0x31 :: all.map charOf).length < hrp.length + 7) := by
    simp only [List.length_append, List.length_cons, List.length_map]
    omega
  simp only [bech32Decode, isLower, ne_eq, not_true_eq_false, false_and, if_false, found,
    if_neg long, List.take_left, read]

/-- **What is encoded is decoded again**, under a prefix of lower-case ASCII. -/
theorem bech32Decode_encode (unicode : CaseTables) {hrp : Bytes} {data : List UInt8}
    (nonempty : hrp ≠ []) (plain : ∀ b ∈ hrp, b < 0x80 ∧ lowerByte b = b)
    (groups : ∀ d ∈ values data, d < 32) :
    bech32Decode unicode (bech32Encode hrp data) = .ok (hrp, data) := by
  have body := groups_append groups (checksum_groups hrp data)
  have isOne : bech32Polymod (bech32HrpExpand hrp ++ (data ++ checksum hrp data)) = 1 := by
    rw [← List.append_assoc]
    exact (polymod_eq_one_iff (length_checksum hrp data) (checksum_groups hrp data)).mpr rfl
  rw [bech32Encode, ← List.map_append, bech32Decode_symbols unicode nonempty plain body
    (by simp [length_checksum]), if_neg (not_not.mpr isOne), List.length_append, length_checksum,
    Nat.add_sub_cancel, List.take_left]

/-- **What is decoded is encoded as its lower-case form.** -/
theorem bech32Encode_of_decode {unicode : CaseTables} {s hrp : Bytes} {data : List UInt8}
    (decoded : bech32Decode unicode s = .ok (hrp, data)) :
    bech32Encode hrp data = unicode.lower s ∧ ∀ d ∈ values data, d < 32 := by
  rw [bech32Decode] at decoded
  generalize unicode.lower s = t at decoded ⊢
  split at decoded
  · cases decoded
  dsimp only at decoded
  cases found : lastIndexByte t 0x31 with
  | none => simp [found] at decoded
  | some pos =>
      simp only [found] at decoded
      split at decoded
      · cases decoded
      rename_i long
      cases read : symbolsOf (t.drop (pos + 1)) with
      | error e => simp [read] at decoded
      | ok all =>
          simp only [read] at decoded
          split at decoded
          · cases decoded
          rename_i isOne
          cases decoded
          obtain ⟨chars, groups⟩ := map_charOf_of_symbolsOf read
          obtain ⟨before, after, rfl, rfl⟩ := exists_of_lastIndexByte found
          have isAfter : after = all.map charOf := by
            rw [← chars, ← List.drop_drop, List.drop_left, List.drop_one, List.tail_cons]
          have enough : 6 ≤ all.length := by
            have lengths := congrArg List.length isAfter
            simp only [List.length_map, List.length_append, List.length_cons] at lengths long
            omega
          -- the symbols read are the data and the checksum
          obtain ⟨front, rear, rfl, isSix⟩ : ∃ front rear, all = front ++ rear ∧ rear.length = 6 :=
            ⟨_, _, (List.take_append_drop (all.length - 6) all).symm, by simp; omega⟩
          have isFront : (front ++ rear).take ((front ++ rear).length - 6) = front := by
            rw [List.length_append, isSix, Nat.add_sub_cancel, List.take_left]
          rw [List.take_left, ← List.append_assoc] at isOne
          have groups' : ∀ d ∈ values rear, d < 32 := fun d member =>
            groups d (by rw [values, List.map_append]; exact List.mem_append_right _ member)
          have isChecksum := (polymod_eq_one_iff isSix groups').mp (not_not.mp isOne)
          rw [List.take_left, isFront]
          refine ⟨?_, fun d member =>
            groups d (by rw [values, List.map_append]; exact List.mem_append_left _ member)⟩
          rw [bech32Encode, ← isChecksum, ← List.map_append, isAfter]

end FipsExitGate.Fipsaddr
