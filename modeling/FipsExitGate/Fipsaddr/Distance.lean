import FipsExitGate.Fipsaddr.Grammar
import FipsExitGate.Lib.TripleCheck

/-!
# Mistyped npubs

The thirty bits of the checksum register are six symbols of five bits, and with the symbols
taken as elements of the field with 32 elements the register of `bech32Polymod` is that of a
cyclic check: a turn shifts a symbol in and adds a multiple of the generator, which is the first
entry of the table `gen`, by the symbol that falls out (`digits_polymodStep`).  The other entries
of the table are its products with the powers of `X`.

Two npubs of which both are accepted differ by a word that leads from zero to zero.  No word of 58
symbols does so with one to four symbols other than zero, which comes down to the columns of the
57 positions before the last one; those are computed with `polymodStep` itself
(`columns_independent`).

## Main results

* `mistyped_npub_rejected` — an npub with one to four characters replaced is refused
-/

namespace FipsExitGate.Fipsaddr

open Digits Gf32 LinearCode ShiftRegister

/-! ## The register over the field -/

/-- What is fed back for a one. -/
def generator : Fin 6 → Gf32 := digits 6 0x3b6a57b2

theorem feedback_zero (chk : BitVec 32) : feedback 0#32 chk = chk := rfl

theorem digits_feedback {b : BitVec 32} (isSymbol : b.toNat < 32) :
    digits 6 (feedback b 0).toNat = ofCode b.toNat • generator := by
  have all : ∀ n < 32, ∀ j, digits 6 (feedback (BitVec.ofNat 32 n) 0).toNat j =
      ofCode n * generator j := by decide +kernel
  funext j
  have here := all b.toNat isSymbol j
  rwa [BitVec.ofNat_toNat, BitVec.setWidth_eq] at here

/-- The symbols of a register that is shifted without feedback. -/
theorem digits_shifted {chk v : BitVec 32} (isSymbol : v.toNat < 32) :
    digits 6 ((chk &&& 0x1ffffff) <<< 5 ^^^ v).toNat =
      (Fin.cons (ofCode v.toNat) (Fin.init (digits 6 chk.toNat)) : Fin 6 → Gf32) := by
  have masked : (chk &&& 0x1ffffff).toNat = chk.toNat % 2 ^ 25 :=
    (BitVec.toNat_and _ _).trans (Nat.and_two_pow_sub_one_eq_mod chk.toNat 25)
  have moved : ((chk &&& 0x1ffffff) <<< 5 ^^^ v).toNat =
      2 ^ 5 * (chk.toNat % 2 ^ 25) + v.toNat := by
    rw [BitVec.toNat_xor, BitVec.toNat_shiftLeft, masked, Nat.shiftLeft_eq,
      Nat.mod_eq_of_lt (by omega), Nat.mul_comm, two_pow_mul_xor isSymbol]
  rw [moved]
  funext j
  refine Fin.cases ?_ (fun j => ?_) j
  · exact ofCode_eq_iff.mpr (Nat.mul_add_mod _ _ _)
  · rw [digits_succ, Fin.cons_succ]
    refine ofCode_eq_iff.mpr ?_
    simp only [Nat.shiftRight_eq_div_pow, Fin.val_castSucc]
    fin_cases j <;> simp <;> omega

/-- **A turn of the register is a step of the check.** -/
theorem digits_polymodStep {chk v : BitVec 32} (low : chk.toNat < 2 ^ 30)
    (isSymbol : v.toNat < 32) : digits 6 (polymodStep chk v).toNat =
      step generator (digits 6 chk.toNat) (ofCode v.toNat) := by
  have top : (chk >>> 25).toNat < 32 := by
    rw [BitVec.toNat_ushiftRight, Nat.shiftRight_eq_div_pow]
    omega
  have split : polymodStep chk v =
      (chk &&& 0x1ffffff) <<< 5 ^^^ v ^^^ feedback (chk >>> 25) 0 := by
    have both := feedback_xor 0#32 (chk >>> 25) ((chk &&& 0x1ffffff) <<< 5 ^^^ v) 0#32
    rwa [BitVec.zero_xor, BitVec.xor_zero, feedback_zero] at both
  rw [split, BitVec.toNat_xor, digits_xor, digits_shifted isSymbol, digits_feedback top]
  rfl

/-- The word of a list of symbols. -/
def word (ds : List UInt8) : List Gf32 := ds.map fun d => ofCode d.toNat

theorem toNat_symbol (d : UInt8) : (symbol d).toNat = d.toNat := by simp [symbol]

/-- **The register ends where the check does.** -/
theorem digits_foldl {ds : List UInt8} (groups : ∀ d ∈ values ds, d < 32) :
    digits 6 ((ds.map symbol).foldl polymodStep 0#32).toNat = run generator (word ds) ∧
      ((ds.map symbol).foldl polymodStep 0#32).toNat < 2 ^ 30 := by
  induction ds using List.reverseRecOn with
  | nil => exact ⟨by decide, by decide⟩
  | append_singleton ds d ih =>
      rw [values_concat] at groups
      obtain ⟨same, low⟩ := ih fun d' member => groups d' (List.mem_append_left _ member)
      have isSymbol : (symbol d).toNat < 32 := by
        rw [toNat_symbol]
        exact groups _ (by simp)
      rw [List.map_append, List.foldl_append]
      refine ⟨?_, polymodStep_lt _ isSymbol⟩
      show digits 6 (polymodStep _ (symbol d)).toNat = _
      rw [digits_polymodStep low isSymbol, same, toNat_symbol]
      simp [run, word]

/-! ## The columns -/

/-- The register after a one and `p` zeros. -/
def ray (p : Nat) : BitVec 32 := (polymodStep · 0#32)^[p] 1#32

theorem ray_succ (p : Nat) : ray (p + 1) = polymodStep (ray p) 0#32 :=
  Function.iterate_succ_apply' _ _ _

theorem ray_lt (p : Nat) : (ray p).toNat < 2 ^ 30 := by
  cases p with
  | zero => decide
  | succ p => exact ray_succ p ▸ polymodStep_lt _ (by decide)

theorem digits_ray (p : Nat) : digits 6 (ray p).toNat = column generator p := by
  induction p with
  | zero => decide
  | succ p ih =>
      rw [ray_succ, digits_polymodStep (ray_lt p) (by decide), ih, column_succ]
      rfl

/-- The columns above the lowest symbol, of `k` positions from `chk` on. -/
def columnsFrom : Nat → BitVec 32 → List Nat
  | 0, _ => []
  | k + 1, chk => chk.toNat >>> 5 :: columnsFrom k (polymodStep chk 0#32)

theorem length_columnsFrom (k : Nat) (chk : BitVec 32) : (columnsFrom k chk).length = k := by
  induction k generalizing chk with
  | zero => rfl
  | succ k ih => rw [columnsFrom, List.length_cons, ih]

theorem getElem_columnsFrom {k i : Nat} (p : Nat) (inside : i < (columnsFrom k (ray p)).length) :
    (columnsFrom k (ray p))[i] = (ray (p + i)).toNat >>> 5 := by
  induction k generalizing p i with
  | zero => exact absurd inside (Nat.not_lt_zero i)
  | succ k ih =>
      cases i with
      | zero => rfl
      | succ i =>
          simp only [columnsFrom, List.getElem_cons_succ, ← ray_succ]
          rw [ih, Nat.add_right_comm, Nat.add_assoc]

/-- **No three columns are dependent** above the lowest symbol.  Modulo 20003 no two of the
directions to compare are the same. -/
theorem columns_independent : triplesOk 20003 5 (columnsFrom 57 (ray 1)) = true := by
  decide +kernel

theorem independent_of_positions {a b c : Nat} (a_pos : 0 < a) (a_lt : a < b) (b_lt : b < c)
    (c_lt : c < 58) (x y z : Gf32)
    (zero : ∀ j : Fin 5, x * column generator a j.succ + y * column generator b j.succ +
      z * column generator c j.succ = 0) : x = 0 ∧ y = 0 ∧ z = 0 := by
  have triple := List.triplewise_iff_getElem.mp (triplewise_of_triplesOk columns_independent)
    (a - 1) (b - 1) (c - 1) (by omega) (by omega) (by rw [length_columnsFrom]; omega)
  simp only [getElem_columnsFrom, show 1 + (a - 1) = a by omega, show 1 + (b - 1) = b by omega,
    show 1 + (c - 1) = c by omega] at triple
  have above (p : Nat) (j : Fin 5) :
      digits 5 ((ray p).toNat >>> 5) j = column generator p j.succ := by
    rw [← digits_ray]
    exact (digits_succ 5 _ j).symm
  refine triple x y z fun j => ?_
  simpa only [above] using zero j

/-- **The code has distance five**, on words of up to 58 symbols. -/
theorem run_generator_ne_zero {e : List Gf32} (length : e.length ≤ 58)
    (few : e.countP (· ≠ 0) ≤ 4) (different : ∃ v ∈ e, v ≠ 0) : run generator e ≠ 0 :=
  run_ne_zero (by decide) (fun _ isIn four => linearIndepOn_of_triples (by decide)
    (fun _ _ _ => independent_of_positions) isIn four) length few different

/-! ## Two words -/

/-- In how many places two strings differ. -/
def differences (s t : Bytes) : Nat := (s.zip t).countP fun p => p.1 ≠ p.2

theorem differences_append (common s t : Bytes) :
    differences (common ++ s) (common ++ t) = differences s t := by
  induction common with
  | nil => rfl
  | cons b common ih => simpa [differences] using ih

theorem charOf_inj {d d' : UInt8} (isGroup : d.toNat < 32) (isGroup' : d'.toNat < 32) :
    charOf d = charOf d' ↔ d = d' := by
  constructor
  · intro same
    have found := idxOf_charOf isGroup
    rw [same, idxOf_charOf isGroup', Option.some.injEq] at found
    exact UInt8.toNat_inj.mp found.symm
  · rintro rfl
    rfl

/-- The sum of two symbols is zero if they are the same. -/
theorem ofCode_xor_eq_zero_iff {d d' : UInt8} (isGroup : d.toNat < 32) (isGroup' : d'.toNat < 32) :
    ofCode (d ^^^ d').toNat = 0 ↔ d = d' := by
  rw [UInt8.toNat_xor, ofCode_xor, ← sub_neg_eq_add, sub_eq_zero]
  show ofCode d.toNat = ofCode d'.toNat ↔ _
  rw [ofCode_eq_iff, Nat.mod_eq_of_lt isGroup, Nat.mod_eq_of_lt isGroup', UInt8.toNat_inj]

/-- The sum of two words has a symbol other than zero where their characters differ. -/
theorem countP_word {ds es : List UInt8} (sameLength : ds.length = es.length)
    (groups : ∀ d ∈ values ds, d < 32) (groups' : ∀ d ∈ values es, d < 32) :
    (word (List.zipWith (· ^^^ ·) ds es)).countP (· ≠ 0) =
      differences (ds.map charOf) (es.map charOf) := by
  induction ds generalizing es with
  | nil =>
      obtain rfl := List.eq_nil_of_length_eq_zero sameLength.symm
      rfl
  | cons d ds ih =>
      cases es with
      | nil => cases sameLength
      | cons e es =>
          have isGroup : d.toNat < 32 := groups _ (by simp [values])
          have isGroup' : e.toNat < 32 := groups' _ (by simp [values])
          have rest := ih (Nat.succ.inj sameLength)
            (fun d member => groups d (List.mem_cons_of_mem _ member))
            (fun d member => groups' d (List.mem_cons_of_mem _ member))
          simp only [differences, word] at rest ⊢
          simp only [List.zipWith_cons_cons, List.map_cons, List.zip_cons_cons, List.countP_cons,
            rest, ne_eq, ofCode_xor_eq_zero_iff isGroup isGroup', charOf_inj isGroup isGroup']

/-- **Two words that differ in one to four symbols** are not both behind the same prefix. -/
theorem polymod_ne_one {common ds es : List UInt8} (sameLength : ds.length = es.length)
    (length : ds.length ≤ 58) (groups : ∀ d ∈ values ds, d < 32)
    (groups' : ∀ d ∈ values es, d < 32)
    (changed : 1 ≤ differences (ds.map charOf) (es.map charOf))
    (few : differences (ds.map charOf) (es.map charOf) ≤ 4)
    (isOne : bech32Polymod (common ++ ds) = 1) : bech32Polymod (common ++ es) ≠ 1 := by
  intro isOne'
  rw [bech32Polymod_append] at isOne isOne'
  have symbols : (List.zipWith (· ^^^ ·) ds es).map symbol =
      List.zipWith (· ^^^ ·) (ds.map symbol) (es.map symbol) := by
    rw [List.map_zipWith, List.zipWith_map]
    rfl
  have sumGroups : ∀ d ∈ values (List.zipWith (· ^^^ ·) ds es), d < 32 := by
    intro n member
    obtain ⟨_, isIn, rfl⟩ := List.mem_map.mp member
    rw [← List.map_uncurry_zip_eq_zipWith] at isIn
    obtain ⟨p, isPair, rfl⟩ := List.mem_map.mp isIn
    rw [Function.uncurry, UInt8.toNat_xor]
    exact Nat.xor_lt_two_pow (n := 5)
      (groups _ (List.mem_map_of_mem (List.of_mem_zip isPair).1))
      (groups' _ (List.mem_map_of_mem (List.of_mem_zip isPair).2))
  have zero : ((List.zipWith (· ^^^ ·) ds es).map symbol).foldl polymodStep 0#32 = 0#32 := by
    have lengths : (ds.map symbol).length = (es.map symbol).length := by simpa using sameLength
    have both := foldl_zipWith_xor polymodStep_linear (bech32Polymod common) (bech32Polymod common)
      lengths
    rw [isOne, isOne', BitVec.xor_self, BitVec.xor_self] at both
    rw [symbols]
    exact both
  have count := countP_word sameLength groups groups'
  refine run_generator_ne_zero (e := word (List.zipWith (· ^^^ ·) ds es)) ?_ (count.trans_le few) ?_ ?_
  · rw [word, List.length_map, List.length_zipWith]
    omega
  · have positive : 0 < (word (List.zipWith (· ^^^ ·) ds es)).countP (· ≠ 0) := by omega
    simpa using List.countP_pos_iff.mp positive
  · rw [← (digits_foldl sumGroups).1, zero]
    decide

/-! ## Npubs -/

/-- A string of the alphabet is the characters of symbols. -/
theorem exists_symbols {body : Bytes} (alphabet : ∀ b ∈ body, b ∈ bech32Charset) :
    ∃ es : List UInt8, body = es.map charOf ∧ ∀ d ∈ values es, d < 32 := by
  have read : ∃ es, symbolsOf body = .ok es := by
    induction body with
    | nil => exact ⟨[], rfl⟩
    | cons b body ih =>
        obtain ⟨es, later⟩ := ih fun b' member => alphabet b' (List.mem_cons_of_mem _ member)
        have known := alphabet b List.mem_cons_self
        rw [symbolsOf]
        cases found : bech32Charset.idxOf? b with
        | none => exact absurd known (by simpa [List.idxOf?_eq_none_iff] using found)
        | some idx => exact ⟨UInt8.ofNat idx :: es, by simp [later]⟩
  obtain ⟨es, read⟩ := read
  exact ⟨es, map_charOf_of_symbolsOf read⟩

/-- **A mistyped npub is refused**: one to four of the 58 characters of a valid npub in lower case
are replaced by others of the alphabet. -/
theorem mistyped_npub_rejected (unicode : CaseTables) {s t : Bytes} {pubkey : Pubkey}
    (valid : decodeNpub unicode s = .ok pubkey) (isLower : unicode.lower s = s)
    (sameLength : t.length = s.length) (sameHead : t.take 5 = s.take 5)
    (alphabet : ∀ b ∈ t.drop 5, b ∈ bech32Charset) (changed : 1 ≤ differences s t)
    (few : differences s t ≤ 4) :
    IsLowerNpub s ∧ IsLowerNpub t ∧ decodeNpub unicode t = .error .checksum := by
  have isNpub := isLowerNpub_lower valid
  rw [isLower] at isNpub
  obtain ⟨body, rfl, isBody, known⟩ := id isNpub
  have tSplit : t = npubHrp ++ 0x31 :: t.drop 5 := by
    have parts := List.take_append_drop 5 t
    rw [sameHead] at parts
    exact parts.symm
  obtain ⟨ds, isDs, groups⟩ := exists_symbols known
  obtain ⟨es, isEs, groups'⟩ := exists_symbols alphabet
  rw [isEs] at tSplit
  subst tSplit isDs
  rw [List.length_map] at isBody
  have lengthEs : es.length = 58 := by
    simp only [List.length_append, List.length_cons, List.length_map] at sameLength
    omega
  have plain : ∀ b ∈ npubHrp, b < 0x80 ∧ lowerByte b = b := by simp [npubHrp, lowerByte]
  have isOne : bech32Polymod (bech32HrpExpand npubHrp ++ ds) = 1 := by
    obtain ⟨-, data, parsed, -⟩ := bech32_of_decodeNpub valid
    rw [bech32Decode_symbols unicode (by decide) plain groups (by omega)] at parsed
    by_contra mismatch
    rw [if_pos mismatch] at parsed
    cases parsed
  rw [List.append_cons _ _ (ds.map charOf), List.append_cons _ _ (es.map charOf),
    differences_append] at changed few
  have mismatch := polymod_ne_one (isBody.trans lengthEs.symm) isBody.le groups groups' changed few isOne
  refine ⟨isNpub, ⟨_, rfl, by simpa using lengthEs, ?_⟩, ?_⟩
  · intro b member
    exact alphabet b member
  · rw [decodeNpub, bech32Decode_symbols unicode (by decide) plain groups' (by omega),
      if_pos mismatch]

/-- `firstNpub` with four characters replaced. -/
def mistypedNpub : String := "npub19peuv07tjdrrgpa0j7j7tmnyl2yr6yr7l8j4s3evf6u64th6gkwsyjh6w6"

theorem mistyped_npub_rejected_first :
    differences (utf8 firstNpub) (utf8 mistypedNpub) = 4 ∧
      decodeNpub twoRuneTables.toCaseTables (utf8 mistypedNpub) = .error .checksum := by
  have four : differences (utf8 firstNpub) (utf8 mistypedNpub) = 4 := by decide +kernel
  obtain ⟨decoded, isLower⟩ := decodeNpub_firstNpub twoRuneTables.toCaseTables
  have alphabet : ((utf8 mistypedNpub).drop 5).all bech32Charset.contains = true := by
    decide +kernel
  refine ⟨four, (mistyped_npub_rejected twoRuneTables.toCaseTables decoded isLower
    (by decide +kernel) (by decide +kernel) (fun b member => ?_) (by omega) (by omega)).2.2⟩
  exact List.contains_iff_mem.mp (List.all_eq_true.mp alphabet b member)

end FipsExitGate.Fipsaddr
