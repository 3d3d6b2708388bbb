import Mathlib.Algebra.Group.Nat.Defs
import Mathlib.Data.List.Basic
import Mathlib.Data.List.GetD
import Mathlib.Tactic.Common

/-!
# Base64

The package `encoding/base64`: three bytes are four characters, and what is left at the end is two
or three characters, with or without padding.  An error is the offset it was found at.

Decoding skips line breaks anywhere.  Unless it is strict, it does not look at the bits that are
left over in the last character, so different texts decode to the same bytes.  A strict decoder
takes no text without line breaks but the one that encoding gives (`decode_eq_ok_iff`).

## Design notes

* `Decode` reads eight or four characters at once where all of them are in the alphabet, and
  otherwise quantum by quantum; `decodeFrom` reads character by character, with the digits of the
  open quantum as its state.
* The bytes before an error are not returned.
-/

namespace Base64

abbrev Text := List UInt8

/-- The padding character. -/
def pad : UInt8 := 0x3d

/-- A line break. -/
def isBreak (c : UInt8) : Bool := decide (c = 0x0a) || decide (c = 0x0d)

/-- `Encoding`, with what `NewEncoding` requires of the alphabet. -/
structure Encoding where
  alphabet : List UInt8
  length_alphabet : alphabet.length = 64
  nodup : alphabet.Nodup
  plain : ∀ c ∈ alphabet, isBreak c = false ∧ c ≠ pad
  padded : Bool
  strict : Bool

variable (enc : Encoding)

namespace Encoding

/-- The character of a digit. -/
def char (n : Nat) : UInt8 := enc.alphabet.getD n 0

/-- The digit of a character. -/
def value (c : UInt8) : Option Nat := enc.alphabet.idxOf? c

end Encoding

/-! ## Encoding -/

/-- The four digits of three bytes. -/
def digits (a b c : UInt8) : List Nat :=
  let v := a.toNat * 2 ^ 16 + b.toNat * 2 ^ 8 + c.toNat
  [v / 2 ^ 18, v / 2 ^ 12 % 64, v / 2 ^ 6 % 64, v % 64]

/-- The padding behind the last quantum. -/
def padding (n : Nat) : Text := if enc.padded then List.replicate n pad else []

/-- `EncodeToString`. -/
def encode : Text → Text
  | [] => []
  | [a] => ((digits a 0 0).take 2).map enc.char ++ padding enc 2
  | [a, b] => ((digits a b 0).take 3).map enc.char ++ padding enc 1
  | a :: b :: c :: rest => (digits a b c).map enc.char ++ encode rest

/-! ## Decoding -/

/-- The number of the digits of a quantum. -/
def quantum (ds : List Nat) : Nat :=
  ds.getD 0 0 * 2 ^ 18 + ds.getD 1 0 * 2 ^ 12 + ds.getD 2 0 * 2 ^ 6 + ds.getD 3 0

/-- The three bytes of a quantum. -/
def bytes (val : Nat) : Text := [UInt8.ofNat (val / 2 ^ 16), UInt8.ofNat (val / 2 ^ 8), UInt8.ofNat val]

/-- The end of `decodeQuantum`, at offset `si`: one byte less than there are digits, and the bits
of the others are zero if the decoder is strict. -/
def finish (si : Nat) (ds : List Nat) : Except Nat Text :=
  let dbuf := bytes (quantum ds)
  if enc.strict ∧ ds.length = 3 ∧ dbuf.getD 2 0 ≠ 0 then .error (si - 1)
  else if enc.strict ∧ ds.length = 2 ∧ (dbuf.getD 1 0 ≠ 0 ∨ dbuf.getD 2 0 ≠ 0) then .error (si - 2)
  else .ok (dbuf.take (ds.length - 1))

/-- Behind the padding there are only line breaks. -/
def ending (total : Nat) (ds : List Nat) (src : Text) : Except Nat Text :=
  let after := src.dropWhile isBreak
  let si := total - after.length
  match finish enc si ds with
  | .error e => .error e
  | .ok dst => if after = [] then .ok dst else .error si

/-- What follows the first padding character. -/
def padded (total : Nat) (ds : List Nat) (src : Text) : Except Nat Text :=
  if ds.length ≤ 1 then .error (total - src.length - 1)
  else if ds.length = 2 then
    match src.dropWhile isBreak with
    | [] => .error total
    | c :: rest => if c ≠ pad then .error (total - rest.length - 2) else ending enc total ds rest
  else ending enc total ds src

/-- Decoding, with the digits of the open quantum. -/
def decodeFrom (total : Nat) : List Nat → Text → Except Nat Text
  | ds, [] =>
      if ds.length = 0 then .ok []
      else if ds.length = 1 ∨ enc.padded then .error (total - ds.length)
      else finish enc total ds
  | ds, c :: src =>
      match enc.value c with
      | some v =>
          if ds.length = 3 then
            match decodeFrom total [] src with
            | .error e => .error e
            | .ok dst => .ok (bytes (quantum (ds ++ [v])) ++ dst)
          else decodeFrom total (ds ++ [v]) src
      | none =>
          if isBreak c then decodeFrom total ds src
          else if enc.padded ∧ c = pad then padded enc total ds src
          else .error (total - src.length - 1)

/-- `DecodeString`. -/
def decode (s : Text) : Except Nat Text := decodeFrom enc s.length [] s

/-! ## The alphabet -/

section Alphabet

variable {enc : Encoding}

theorem value_char {n : Nat} (small : n < 64) : enc.value (enc.char n) = some n := by
  have inside : n < enc.alphabet.length := by rw [enc.length_alphabet]; exact small
  rw [Encoding.value, Encoding.char, List.getD_eq_getElem _ _ inside, List.idxOf?_eq_some_iff]
  refine ⟨inside, rfl, fun m before same => ?_⟩
  have := (List.getElem_inj enc.nodup).mp same
  omega

theorem of_value {c : UInt8} {n : Nat} (found : enc.value c = some n) :
    n < 64 ∧ enc.char n = c := by
  obtain ⟨inside, isIt, -⟩ := List.idxOf?_eq_some_iff.mp found
  refine ⟨enc.length_alphabet ▸ inside, ?_⟩
  rw [Encoding.char, List.getD_eq_getElem _ _ inside, isIt]

theorem value_pad : enc.value pad = none := by
  rw [Encoding.value, List.idxOf?_eq_none_iff]
  exact fun member => (enc.plain pad member).2 rfl

theorem char_mem {n : Nat} (small : n < 64) : enc.char n ∈ enc.alphabet := by
  have inside : n < enc.alphabet.length := by rw [enc.length_alphabet]; exact small
  rw [Encoding.char, List.getD_eq_getElem _ _ inside]
  exact List.getElem_mem inside

end Alphabet

/-! ## Bytes and digits -/

theorem digits_lt (a b c : UInt8) : ∀ d ∈ digits a b c, d < 64 := by
  have := a.toNat_lt
  have := b.toNat_lt
  have := c.toNat_lt
  simp only [digits, List.mem_cons, List.not_mem_nil, or_false, forall_eq_or_imp, forall_eq]
  omega

theorem ofNat_eq {n : Nat} {b : UInt8} (same : n % 256 = b.toNat) : UInt8.ofNat n = b := by
  rw [← UInt8.toNat_inj, UInt8.toNat_ofNat']
  exact same

theorem toNat_ofNat (n : Nat) : (UInt8.ofNat n).toNat = n % 256 := UInt8.toNat_ofNat'

/-- Three bytes are the bytes of their digits. -/
theorem bytes_quantum_digits (a b c : UInt8) : bytes (quantum (digits a b c)) = [a, b, c] := by
  have := a.toNat_lt
  have := b.toNat_lt
  have := c.toNat_lt
  have whole : quantum (digits a b c) = a.toNat * 2 ^ 16 + b.toNat * 2 ^ 8 + c.toNat := by
    simp only [quantum, digits, List.getD_cons_zero, List.getD_cons_succ]
    omega
  rw [bytes, whole, ofNat_eq (b := a) (by omega), ofNat_eq (b := b) (by omega),
    ofNat_eq (b := c) (by omega)]

/-- Four digits are the digits of their bytes. -/
theorem digits_bytes_quantum {w x y z : Nat} (small : ∀ d ∈ [w, x, y, z], d < 64) :
    ∃ a b c, bytes (quantum [w, x, y, z]) = [a, b, c] ∧ digits a b c = [w, x, y, z] := by
  simp only [List.mem_cons, List.not_mem_nil, or_false, forall_eq_or_imp, forall_eq] at small
  refine ⟨_, _, _, rfl, ?_⟩
  simp only [digits, quantum, toNat_ofNat, List.getD_cons_zero, List.getD_cons_succ, List.cons.injEq,
    and_true]
  omega

theorem finish_two (si : Nat) (a : UInt8) : finish enc si ((digits a 0 0).take 2) = .ok [a] := by
  have := a.toNat_lt
  have whole : quantum ((digits a 0 0).take 2) = a.toNat * 2 ^ 16 := by
    simp only [quantum, digits, List.take_succ_cons, List.take_zero, List.getD_cons_zero,
      List.getD_cons_succ, List.getD_nil, UInt8.toNat_zero]
    omega
  have dbuf : bytes (quantum ((digits a 0 0).take 2)) = [a, 0, 0] := by
    rw [bytes, whole, ofNat_eq (b := a) (by omega), ofNat_eq (b := 0) (show _ = 0 by omega),
      ofNat_eq (b := 0) (show _ = 0 by omega)]
  rw [finish, dbuf]
  simp [digits]

theorem finish_three (si : Nat) (a b : UInt8) :
    finish enc si ((digits a b 0).take 3) = .ok [a, b] := by
  have := a.toNat_lt
  have := b.toNat_lt
  have whole : quantum ((digits a b 0).take 3) = a.toNat * 2 ^ 16 + b.toNat * 2 ^ 8 := by
    simp only [quantum, digits, List.take_succ_cons, List.take_zero, List.getD_cons_zero,
      List.getD_cons_succ, List.getD_nil, UInt8.toNat_zero]
    omega
  have dbuf : bytes (quantum ((digits a b 0).take 3)) = [a, b, 0] := by
    rw [bytes, whole, ofNat_eq (b := a) (by omega), ofNat_eq (b := b) (by omega),
      ofNat_eq (b := 0) (show _ = 0 by omega)]
  rw [finish, dbuf]
  simp [digits]

theorem of_finish (strict : enc.strict = true) {si : Nat} {ds : List Nat} {dst : Text}
    (done : finish enc si ds = .ok dst) :
    dst = (bytes (quantum ds)).take (ds.length - 1) ∧
      (ds.length = 3 → (bytes (quantum ds)).getD 2 0 = 0) ∧
      (ds.length = 2 → (bytes (quantum ds)).getD 1 0 = 0 ∧ (bytes (quantum ds)).getD 2 0 = 0) := by
  rw [finish] at done
  split at done
  · cases done
  next last =>
    split at done
    · cases done
    next lastTwo =>
      cases done
      refine ⟨rfl, fun three => ?_, fun two => ?_⟩
      · by_contra nonzero
        exact last ⟨strict, three, nonzero⟩
      · by_contra nonzero
        exact lastTwo ⟨strict, two, not_and_or.mp nonzero⟩

/-- A strict decoder takes the digits of bytes only. -/
theorem encode_of_finish (strict : enc.strict = true) {si : Nat} {ds : List Nat} {dst : Text}
    (small : ∀ d ∈ ds, d < 64) (short : ds.length = 2 ∨ ds.length = 3)
    (done : finish enc si ds = .ok dst) :
    encode enc dst = ds.map enc.char ++ padding enc (4 - ds.length) := by
  obtain ⟨rfl, spare, spares⟩ := of_finish enc strict done
  rcases short with two | three
  · obtain ⟨x, y, rfl⟩ := List.length_eq_two.mp two
    obtain ⟨second, third⟩ := spares rfl
    simp only [List.mem_cons, List.not_mem_nil, or_false, forall_eq_or_imp, forall_eq] at small
    simp only [bytes, quantum, List.getD_cons_zero, List.getD_cons_succ, List.getD_nil,
      ← UInt8.toNat_inj, toNat_ofNat, UInt8.toNat_zero] at second third
    have same : (digits (UInt8.ofNat (quantum [x, y] / 2 ^ 16)) 0 0).take 2 = [x, y] := by
      simp only [digits, quantum, toNat_ofNat, List.getD_cons_zero, List.getD_cons_succ,
        List.getD_nil, UInt8.toNat_zero, List.take_succ_cons, List.take_zero, List.cons.injEq,
        and_true]
      omega
    show encode enc [UInt8.ofNat (quantum [x, y] / 2 ^ 16)] = _
    rw [encode, same]
    rfl
  · obtain ⟨x, y, z, rfl⟩ := List.length_eq_three.mp three
    have third := spare rfl
    simp only [List.mem_cons, List.not_mem_nil, or_false, forall_eq_or_imp, forall_eq] at small
    simp only [bytes, quantum, List.getD_cons_zero, List.getD_cons_succ, List.getD_nil,
      ← UInt8.toNat_inj, toNat_ofNat, UInt8.toNat_zero] at third
    have same : (digits (UInt8.ofNat (quantum [x, y, z] / 2 ^ 16))
        (UInt8.ofNat (quantum [x, y, z] / 2 ^ 8)) 0).take 3 = [x, y, z] := by
      simp only [digits, quantum, toNat_ofNat, List.getD_cons_zero, List.getD_cons_succ,
        List.getD_nil, UInt8.toNat_zero, List.take_succ_cons, List.take_zero, List.cons.injEq,
        and_true]
      omega
    show encode enc [UInt8.ofNat (quantum [x, y, z] / 2 ^ 16),
      UInt8.ofNat (quantum [x, y, z] / 2 ^ 8)] = _
    rw [encode, same]
    rfl

/-! ## The round trip -/

theorem decodeFrom_char (total : Nat) {ds : List Nat} (room : ds.length < 3) {n : Nat}
    (small : n < 64) (src : Text) :
    decodeFrom enc total ds (enc.char n :: src) = decodeFrom enc total (ds ++ [n]) src := by
  rw [decodeFrom, value_char small]
  exact if_neg (by omega)

/-- Characters that do not fill the quantum. -/
theorem decodeFrom_map_char (total : Nat) {ds es : List Nat} (room : ds.length + es.length ≤ 3)
    (small : ∀ d ∈ es, d < 64) (src : Text) :
    decodeFrom enc total ds (es.map enc.char ++ src) = decodeFrom enc total (ds ++ es) src := by
  induction es generalizing ds with
  | nil => simp
  | cons e es ih =>
      rw [List.length_cons] at room
      rw [List.map_cons, List.cons_append, decodeFrom_char enc total (by omega) (small e (by simp)),
        ih (by simp; omega) fun d member => small d (List.mem_cons_of_mem _ member),
        List.append_assoc, List.singleton_append]

/-- Four characters are three bytes. -/
theorem decodeFrom_group (total : Nat) (a b c : UInt8) {src dst : Text}
    (rest : decodeFrom enc total [] src = .ok dst) :
    decodeFrom enc total [] ((digits a b c).map enc.char ++ src) = .ok (a :: b :: c :: dst) := by
  have small := digits_lt a b c
  obtain ⟨w, x, y, z, isDigits⟩ : ∃ w x y z, digits a b c = [w, x, y, z] := ⟨_, _, _, _, rfl⟩
  have split : (digits a b c).map enc.char ++ src = [w, x, y].map enc.char ++ enc.char z :: src := by
    rw [isDigits]
    rfl
  have last : enc.value (enc.char z) = some z := value_char (small z (by simp [isDigits]))
  have whole : bytes (quantum ([w, x, y] ++ [z])) = [a, b, c] := by
    rw [← bytes_quantum_digits a b c, isDigits]
    rfl
  rw [split, decodeFrom_map_char enc total (by simp) fun d member => small d (by
      rw [isDigits]
      exact List.mem_append_left [z] member),
    List.nil_append, decodeFrom, last]
  simp only [List.length_cons, List.length_nil, if_true, rest, whole]
  rfl

/-- The padding ends the quantum. -/
theorem decodeFrom_padding (total : Nat) {ds : List Nat} (short : ds.length = 2 ∨ ds.length = 3)
    {dst : Text} (done : ∀ si, finish enc si ds = .ok dst) :
    decodeFrom enc total ds (padding enc (4 - ds.length)) = .ok dst := by
  have noBreak : isBreak pad = false := by decide
  by_cases isPadded : enc.padded = true
  · rcases short with two | three
    · simp [padding, isPadded, two, List.replicate_succ, decodeFrom, value_pad, noBreak, padded,
        ending, done]
    · simp [padding, isPadded, three, decodeFrom, value_pad, noBreak, padded, ending, done]
  · rcases short with two | three
    · simp [padding, isPadded, two, decodeFrom, done]
    · simp [padding, isPadded, three, decodeFrom, done]

/-- **What is encoded is decoded again.** -/
theorem decode_encode (bs : Text) : decode enc (encode enc bs) = .ok bs := by
  rw [decode]
  generalize (encode enc bs).length = total
  induction bs using encode.induct with
  | case1 => rfl
  | case2 a =>
      rw [encode, decodeFrom_map_char enc total (by simp [digits])
        fun d member => digits_lt a 0 0 d (List.mem_of_mem_take member)]
      exact decodeFrom_padding enc total (.inl rfl) fun si => finish_two enc si a
  | case3 a b =>
      rw [encode, decodeFrom_map_char enc total (by simp [digits])
        fun d member => digits_lt a b 0 d (List.mem_of_mem_take member)]
      exact decodeFrom_padding enc total (.inr rfl) fun si => finish_three enc si a b
  | case4 a b c rest ih =>
      rw [encode]
      exact decodeFrom_group enc total a b c ih

/-! ## Strict decoding -/

theorem dropWhile_isBreak {src : Text} (noBreak : ∀ c ∈ src, isBreak c = false) :
    src.dropWhile isBreak = src := by
  cases src with
  | nil => rfl
  | cons c src => exact List.dropWhile_cons_of_neg (by simp [noBreak c (by simp)])

theorem of_ending {total : Nat} {ds : List Nat} {src dst : Text}
    (noBreak : ∀ c ∈ src, isBreak c = false) (done : ending enc total ds src = .ok dst) :
    src = [] ∧ ∃ si, finish enc si ds = .ok dst := by
  rw [ending, dropWhile_isBreak noBreak] at done
  split at done
  · cases done
  · next dst' finished =>
      split at done
      · next isNil =>
          cases done
          exact ⟨isNil, _, finished⟩
      · cases done

/-- Behind the first padding character, the rest of the padding is all there is. -/
theorem of_padded {total : Nat} {ds : List Nat} {src dst : Text} (room : ds.length ≤ 3)
    (noBreak : ∀ c ∈ src, isBreak c = false) (done : padded enc total ds src = .ok dst) :
    (ds.length = 2 ∨ ds.length = 3) ∧ src = List.replicate (3 - ds.length) pad ∧
      ∃ si, finish enc si ds = .ok dst := by
  rw [padded, dropWhile_isBreak noBreak] at done
  split at done
  · cases done
  next long =>
    split at done
    · next two =>
        split at done
        · cases done
        next c rest =>
          split at done
          · cases done
          next isPad =>
            obtain ⟨rfl, finished⟩ := of_ending enc
              (fun c member => noBreak c (List.mem_cons_of_mem _ member)) done
            refine ⟨.inl two, ?_, finished⟩
            rw [two, not_not.mp isPad]
            rfl
    · next notTwo =>
        have three : ds.length = 3 := by omega
        obtain ⟨rfl, finished⟩ := of_ending enc noBreak done
        exact ⟨.inr three, by rw [three]; rfl, finished⟩

/-- What a strict decoder takes of a text without line breaks, the digits of the open quantum in
front of it, is what the bytes are encoded as. -/
theorem encode_of_decodeFrom (strict : enc.strict = true) {total : Nat} {ds : List Nat}
    {src dst : Text} (room : ds.length ≤ 3) (small : ∀ d ∈ ds, d < 64)
    (noBreak : ∀ c ∈ src, isBreak c = false) (done : decodeFrom enc total ds src = .ok dst) :
    encode enc dst = ds.map enc.char ++ src := by
  induction src generalizing ds dst with
  | nil =>
      rw [decodeFrom] at done
      split at done
      · next isNil =>
          cases done
          rw [List.length_eq_zero_iff.mp isNil]
          rfl
      next nonempty =>
        split at done
        · cases done
        next rest =>
          rw [not_or] at rest
          rw [encode_of_finish enc strict small (by omega) done, padding, if_neg rest.2]
  | cons c src ih =>
      have later : ∀ c ∈ src, isBreak c = false := fun c member =>
        noBreak c (List.mem_cons_of_mem _ member)
      rw [decodeFrom] at done
      cases found : enc.value c with
      | some v =>
          obtain ⟨v_lt, rfl⟩ := of_value found
          have small' : ∀ d ∈ ds ++ [v], d < 64 := by
            intro d member
            rcases List.mem_append.mp member with before | last
            · exact small d before
            · exact List.mem_singleton.mp last ▸ v_lt
          rw [found] at done
          dsimp only at done
          split at done
          · next three =>
              -- the quantum is full
              split at done
              · cases done
              next dst' rest =>
                cases done
                obtain ⟨w, x, y, rfl⟩ := List.length_eq_three.mp three
                obtain ⟨a, b, c, isBytes, isDigits⟩ := digits_bytes_quantum small'
                have tail : encode enc dst' = [].map enc.char ++ src :=
                  ih (by simp) (by simp) later rest
                rw [show [w, x, y] ++ [v] = [w, x, y, v] from rfl, isBytes, List.cons_append,
                  List.cons_append, List.cons_append, List.nil_append, encode, isDigits, tail]
                rfl
          · next notThree =>
              rw [ih (by simp; omega) small' later done, List.map_append, List.append_assoc]
              rfl
      | none =>
          rw [found] at done
          dsimp only at done
          rw [if_neg (by simp [noBreak c (by simp)])] at done
          split at done
          · next isPad =>
              obtain ⟨isPadded, rfl⟩ := isPad
              obtain ⟨short, rfl, si, finished⟩ := of_padded enc room later done
              rw [encode_of_finish enc strict small short finished, padding, if_pos isPadded,
                ← List.replicate_succ, show 3 - ds.length + 1 = 4 - ds.length by omega]
          · cases done

/-- **A strict decoder takes what encoding gives**, of the texts without line breaks. -/
theorem decode_eq_ok_iff (strict : enc.strict = true) {s bs : Text}
    (noBreak : ∀ c ∈ s, isBreak c = false) : decode enc s = .ok bs ↔ s = encode enc bs := by
  constructor
  · intro decoded
    exact (encode_of_decodeFrom enc strict (by simp) (by simp) noBreak decoded).symm
  · rintro rfl
    exact decode_encode enc bs

/-! ## What is written -/

theorem mem_encode {bs : Text} {c : UInt8} (member : c ∈ encode enc bs) :
    c ∈ enc.alphabet ∨ c = pad := by
  have ofPadding {n : Nat} (member : c ∈ padding enc n) : c = pad := by
    rw [padding] at member
    split at member
    · exact List.eq_of_mem_replicate member
    · cases member
  have ofDigits {ds : List Nat} (small : ∀ d ∈ ds, d < 64) (member : c ∈ ds.map enc.char) :
      c ∈ enc.alphabet := by
    obtain ⟨d, isDigit, rfl⟩ := List.mem_map.mp member
    exact char_mem (small d isDigit)
  induction bs using encode.induct with
  | case1 => cases member
  | case2 a =>
      exact (List.mem_append.mp member).imp
        (ofDigits fun d isIn => digits_lt a 0 0 d (List.mem_of_mem_take isIn)) ofPadding
  | case3 a b =>
      exact (List.mem_append.mp member).imp
        (ofDigits fun d isIn => digits_lt a b 0 d (List.mem_of_mem_take isIn)) ofPadding
  | case4 a b c' rest ih =>
      rcases List.mem_append.mp member with here | later
      · exact .inl (ofDigits (digits_lt a b c') here)
      · exact ih later

theorem length_encode_of_padded (isPadded : enc.padded = true) (bs : Text) :
    (encode enc bs).length = 4 * ((bs.length + 2) / 3) := by
  induction bs using encode.induct with
  | case1 => rfl
  | case2 a => simp [encode, digits, padding, isPadded]
  | case3 a b => simp [encode, digits, padding, isPadded]
  | case4 a b c rest ih =>
      simp only [encode, List.length_append, List.length_map, digits, List.length_cons,
        List.length_nil, ih]
      omega

/-- Two bytes more than a multiple of three are three digits more than a multiple of four, of which
the last has two bits to spare. -/
theorem exists_digits {m : Nat} {bs : Text} (length : bs.length = 3 * m + 2) :
    ∃ ds : List Nat, ds.length = 4 * m + 3 ∧ (∀ d ∈ ds, d < 64) ∧ (∀ d ∈ ds.getLast?, d % 4 = 0) ∧
      encode enc bs = ds.map enc.char ++ padding enc 1 := by
  induction m generalizing bs with
  | zero =>
      obtain ⟨a, b, rfl⟩ := List.length_eq_two.mp length
      refine ⟨(digits a b 0).take 3, rfl, fun d member => ?_, ?_, rfl⟩
      · exact digits_lt a b 0 d (List.mem_of_mem_take member)
      · intro d isLast
        have third (w x y z : Nat) : ([w, x, y, z].take 3).getLast? = some y := rfl
        rw [digits, third, Option.mem_some_iff, UInt8.toNat_zero] at isLast
        omega
  | succ m ih =>
      match bs, length with
      | a :: b :: c :: rest, length =>
          have isRest : rest.length = 3 * m + 2 := by simp at length; omega
          obtain ⟨ds, isLength, small, last, encoded⟩ := ih isRest
          have nonempty : ds ≠ [] := by
            rintro rfl
            simp at isLength
          refine ⟨digits a b c ++ ds, by simp [digits, isLength]; omega, ?_, ?_, ?_⟩
          · intro d member
            exact (List.mem_append.mp member).elim (digits_lt a b c d) (small d)
          · rwa [List.getLast?_append_of_ne_nil _ nonempty]
          · rw [encode, encoded, List.map_append, List.append_assoc]

/-- The other way around. -/
theorem exists_bytes (strict : enc.strict = true) {m : Nat} {ds : List Nat}
    (length : ds.length = 4 * m + 3) (small : ∀ d ∈ ds, d < 64)
    (last : ∀ d ∈ ds.getLast?, d % 4 = 0) :
    ∃ bs : Text, bs.length = 3 * m + 2 ∧ encode enc bs = ds.map enc.char ++ padding enc 1 := by
  induction m generalizing ds with
  | zero =>
      obtain ⟨x, y, z, rfl⟩ := List.length_eq_three.mp length
      have spare : z % 4 = 0 := last z rfl
      have third : UInt8.ofNat (quantum [x, y, z]) = 0 := by
        refine ofNat_eq (show _ = 0 from ?_)
        simp only [quantum, List.getD_cons_zero, List.getD_cons_succ, List.getD_nil]
        omega
      have finished : finish enc 0 [x, y, z] =
          .ok [UInt8.ofNat (quantum [x, y, z] / 2 ^ 16), UInt8.ofNat (quantum [x, y, z] / 2 ^ 8)] := by
        simp [finish, bytes, third]
      exact ⟨_, rfl, encode_of_finish enc strict small (.inr rfl) finished⟩
  | succ m ih =>
      match ds, length with
      | w :: x :: y :: z :: rest, length =>
          have isRest : rest.length = 4 * m + 3 := by simp at length; omega
          have nonempty : rest ≠ [] := by
            rintro rfl
            simp at isRest
          have split : w :: x :: y :: z :: rest = [w, x, y, z] ++ rest := rfl
          rw [split, List.getLast?_append_of_ne_nil _ nonempty] at last
          obtain ⟨bs, isLength, encoded⟩ := ih isRest
            (fun d member => small d (List.mem_append_right [w, x, y, z] member)) last
          obtain ⟨a, b, c, -, isDigits⟩ := digits_bytes_quantum
            fun d member => small d (List.mem_append_left rest member)
          refine ⟨a :: b :: c :: bs, by simp [isLength]; omega, ?_⟩
          rw [encode, isDigits, encoded, split, List.map_append, List.append_assoc]

end Base64
