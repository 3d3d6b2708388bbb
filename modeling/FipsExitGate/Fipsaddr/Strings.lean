import Mathlib.Data.List.Basic
import Mathlib.Tactic.SplitIfs

/-!
# Strings

The functions of the standard library that identities pass through: `strings.ToLower`,
`strings.ToUpper`, `strings.TrimSpace`, `strings.Split` and the index functions.  A string is its bytes.
The case of a string of ASCII bytes is mapped byte by byte; any other string is read
rune by rune, where a byte that starts no valid encoding is read as U+FFFD, and is
mapped with the tables of package `unicode`.

The tables themselves are a parameter, `CaseTables`, with what is used of them.
-/

namespace FipsExitGate

/-- A Go string. -/
abbrev Bytes := List UInt8

/-- `unicode.IsSpace`. -/
def isSpace (c : Char) : Bool :=
  decide (c.toNat ∈ [0x09, 0x0a, 0x0b, 0x0c, 0x0d, 0x20, 0x85, 0xa0, 0x1680, 0x2028, 0x2029, 0x202f,
    0x205f, 0x3000]) || (decide (0x2000 ≤ c.toNat) && decide (c.toNat ≤ 0x200a))

/-- `strings.TrimSpace`. -/
def trimSpace (s : String) : String :=
  String.ofList ((s.toList.dropWhile isSpace).reverse.dropWhile isSpace).reverse

/-- `unicode.ToLower` and `unicode.ToUpper`: the simple case mappings of runes. -/
structure CaseTables where
  toLower : Char → Char
  toUpper : Char → Char
  /-- The ASCII range has the mapping of ASCII. -/
  toLower_ascii : ∀ c, c.toNat < 0x80 → toLower c = c.toLower
  toUpper_ascii : ∀ c, c.toNat < 0x80 → toUpper c = c.toUpper
  /-- A lower-case form is its own lower-case form. -/
  toLower_toLower : ∀ c, toLower (toLower c) = toLower c
  /-- Spaces are no letters, and no letter becomes one. -/
  isSpace_toLower : ∀ c, isSpace (toLower c) = isSpace c

/-- The rune a byte that starts no valid encoding is read as. -/
def runeError : Char := Char.ofNat 0xfffd

/-- The runes of a `range` over a string, the first `skip` bytes left out: they belong to
the rune read before. -/
def runesFrom : Nat → Bytes → List Char
  | _, [] => []
  | skip + 1, _ :: s => runesFrom skip s
  | 0, b :: s =>
      match ByteArray.utf8DecodeChar? (b :: s).toByteArray 0 with
      | some c => c :: runesFrom (c.utf8Size - 1) s
      | none => runeError :: runesFrom 0 s

/-- `strings.Map`. -/
def mapRunes (f : Char → Char) (s : Bytes) : Bytes :=
  (runesFrom 0 s).flatMap fun c => String.utf8EncodeChar (f c)

/-- The bytes below `utf8.RuneSelf`. -/
def isASCII (s : Bytes) : Bool := s.all (· < 0x80)

def lowerByte (b : UInt8) : UInt8 := if 0x41 ≤ b ∧ b ≤ 0x5a then b + 0x20 else b

def upperByte (b : UInt8) : UInt8 := if 0x61 ≤ b ∧ b ≤ 0x7a then b - 0x20 else b

/-- `strings.ToLower`. -/
def CaseTables.lower (unicode : CaseTables) (s : Bytes) : Bytes :=
  if isASCII s then s.map lowerByte else mapRunes unicode.toLower s

/-- `strings.ToUpper`. -/
def CaseTables.upper (unicode : CaseTables) (s : Bytes) : Bytes :=
  if isASCII s then s.map upperByte else mapRunes unicode.toUpper s

/-- `strings.LastIndexByte`; `none` is its `-1`. -/
def lastIndexByte (s : Bytes) (c : UInt8) : Option Nat :=
  match s with
  | [] => none
  | b :: s =>
      match lastIndexByte s c with
      | some i => some (i + 1)
      | none => if b = c then some 0 else none

theorem lastIndexByte_eq_none_iff {s : Bytes} {c : UInt8} : lastIndexByte s c = none ↔ c ∉ s := by
  induction s with
  | nil => simp [lastIndexByte]
  | cons b s ih =>
      rw [lastIndexByte, List.mem_cons, not_or]
      cases found : lastIndexByte s c with
      | some i => simp [← ih, found]
      | none => simp [← ih, found, eq_comm]

/-- The last occurrence is the one behind which there is none. -/
theorem lastIndexByte_append {before after : Bytes} {c : UInt8} (last : c ∉ after) :
    lastIndexByte (before ++ c :: after) c = some before.length := by
  induction before with
  | nil => simp [lastIndexByte, lastIndexByte_eq_none_iff.mpr last]
  | cons b before ih => simp [lastIndexByte, ih]

theorem exists_of_lastIndexByte {s : Bytes} {c : UInt8} {pos : Nat}
    (found : lastIndexByte s c = some pos) :
    ∃ before after, s = before ++ c :: after ∧ before.length = pos := by
  induction s generalizing pos with
  | nil => simp [lastIndexByte] at found
  | cons b s ih =>
      rw [lastIndexByte] at found
      cases later : lastIndexByte s c with
      | some i =>
          obtain ⟨before, after, rfl, rfl⟩ := ih later
          rw [later, Option.some.injEq] at found
          exact ⟨b :: before, after, rfl, by simpa using found⟩
      | none =>
          rw [later] at found
          simp only [Option.ite_none_right_eq_some, Option.some.injEq] at found
          obtain ⟨rfl, rfl⟩ := found
          exact ⟨[], s, rfl, rfl⟩

/-- `strings.Split` at a separator of one byte. -/
def splitByte (sep : UInt8) : Bytes → List Bytes
  | [] => [[]]
  | b :: s =>
      if b = sep then [] :: splitByte sep s
      else
        match splitByte sep s with
        | [] => [[b]]
        | head :: tail => (b :: head) :: tail

theorem splitByte_of_not_mem {sep : UInt8} {s : Bytes} (absent : sep ∉ s) :
    splitByte sep s = [s] := by
  induction s with
  | nil => rfl
  | cons b s ih =>
      rw [List.mem_cons, not_or] at absent
      rw [splitByte, if_neg (Ne.symm absent.1), ih absent.2]

theorem splitByte_ne_nil (sep : UInt8) (s : Bytes) : splitByte sep s ≠ [] := by
  cases s with
  | nil => simp [splitByte]
  | cons b s =>
      rw [splitByte]
      split
      · simp
      · split <;> simp

/-- No part has the separator in it. -/
theorem not_mem_of_mem_splitByte {sep : UInt8} {s part : Bytes} (isPart : part ∈ splitByte sep s) :
    sep ∉ part := by
  induction s generalizing part with
  | nil =>
      obtain rfl := List.mem_singleton.mp isPart
      exact List.not_mem_nil
  | cons b s ih =>
      obtain ⟨head, tail, split⟩ := List.exists_cons_of_ne_nil (splitByte_ne_nil sep s)
      rw [splitByte, split] at isPart
      rw [split] at ih
      by_cases isSep : b = sep
      · rw [if_pos isSep] at isPart
        rcases List.mem_cons.mp isPart with rfl | later
        · exact List.not_mem_nil
        · exact ih later
      · rw [if_neg isSep] at isPart
        rcases List.mem_cons.mp isPart with rfl | later
        · intro member
          rcases List.mem_cons.mp member with isIt | inside
          · exact isSep isIt.symm
          · exact ih List.mem_cons_self inside
        · exact ih (List.mem_cons_of_mem head later)

/-- A separator splits a string into what is before it and what is behind it. -/
theorem splitByte_append (sep : UInt8) (before after : Bytes) :
    splitByte sep (before ++ sep :: after) = splitByte sep before ++ splitByte sep after := by
  induction before with
  | nil => simp [splitByte]
  | cons b before ih =>
      rw [List.cons_append, splitByte, splitByte, ih]
      by_cases isSep : b = sep
      · simp [isSep]
      · rw [if_neg isSep, if_neg isSep]
        obtain ⟨head, tail, split⟩ := List.exists_cons_of_ne_nil (splitByte_ne_nil sep before)
        simp [split]

/-- `strings.Join` with a separator of one byte. -/
def joinByte (sep : UInt8) : List Bytes → Bytes
  | [] => []
  | [s] => s
  | s :: t :: rest => s ++ sep :: joinByte sep (t :: rest)

/-- **What is joined is split again**, if no part has the separator in it. -/
theorem splitByte_joinByte {sep : UInt8} {parts : List Bytes} (some : parts ≠ [])
    (absent : ∀ s ∈ parts, sep ∉ s) : splitByte sep (joinByte sep parts) = parts := by
  induction parts with
  | nil => exact absurd rfl some
  | cons s rest ih =>
      have first := absent s List.mem_cons_self
      cases rest with
      | nil => exact splitByte_of_not_mem first
      | cons t rest =>
          rw [joinByte, splitByte_append, splitByte_of_not_mem first,
            ih (List.cons_ne_nil t rest) fun s' member => absent s' (List.mem_cons_of_mem s member)]
          rfl

/-- **What is split is joined again.** -/
theorem joinByte_splitByte (sep : UInt8) (s : Bytes) : joinByte sep (splitByte sep s) = s := by
  induction s with
  | nil => rfl
  | cons b s ih =>
      obtain ⟨head, tail, split⟩ := List.exists_cons_of_ne_nil (splitByte_ne_nil sep s)
      rw [split] at ih
      rw [splitByte, split]
      by_cases isSep : b = sep
      · rw [if_pos isSep, joinByte, ih, isSep]
        rfl
      · rw [if_neg isSep]
        cases tail with
        | nil => exact congrArg (b :: ·) ih
        | cons t tail => exact congrArg (b :: ·) ih

/-- The first separator tells what is before it from what is behind it. -/
theorem append_sep_inj {sep : UInt8} {before before' after after' : Bytes}
    (absent : sep ∉ before) (absent' : sep ∉ before')
    (same : before ++ sep :: after = before' ++ sep :: after') :
    before = before' ∧ after = after' := by
  have parts := congrArg (splitByte sep) same
  rw [splitByte_append, splitByte_append, splitByte_of_not_mem absent,
    splitByte_of_not_mem absent', List.singleton_append, List.singleton_append,
    List.cons.injEq] at parts
  obtain ⟨first, rest⟩ := parts
  refine ⟨first, ?_⟩
  rw [← joinByte_splitByte sep after, rest, joinByte_splitByte]

/-- Bytes of a join: those of the parts, and the separator. -/
theorem mem_joinByte {sep b : UInt8} {parts : List Bytes} {s : Bytes} (isPart : s ∈ parts)
    (member : b ∈ s) : b ∈ joinByte sep parts := by
  induction parts with
  | nil => cases isPart
  | cons t rest ih =>
      cases rest with
      | nil =>
          obtain rfl := List.mem_singleton.mp isPart
          exact member
      | cons t' rest =>
          rw [joinByte, List.mem_append]
          rcases List.mem_cons.mp isPart with rfl | later
          · exact .inl member
          · exact .inr (List.mem_cons_of_mem sep (ih later))

theorem of_mem_joinByte {sep b : UInt8} {parts : List Bytes} (member : b ∈ joinByte sep parts) :
    b = sep ∨ ∃ s ∈ parts, b ∈ s := by
  induction parts with
  | nil => cases member
  | cons t rest ih =>
      cases rest with
      | nil => exact .inr ⟨t, List.mem_cons_self, member⟩
      | cons t' rest =>
          rw [joinByte, List.mem_append, List.mem_cons] at member
          rcases member with here | isSep | later
          · exact .inr ⟨t, List.mem_cons_self, here⟩
          · exact .inl isSep
          · rcases ih later with isSep | ⟨s, isPart, inside⟩
            · exact .inl isSep
            · exact .inr ⟨s, List.mem_cons_of_mem t isPart, inside⟩

/-- `strings.TrimRight` with a cutset of one byte. -/
def trimRightByte (b : UInt8) (s : Bytes) : Bytes :=
  (s.reverse.dropWhile (· == b)).reverse

/-- A line that does not end in the byte is what is left when the byte is put behind it. -/
theorem trimRightByte_concat {b c : UInt8} {s : Bytes} (other : c ≠ b) :
    trimRightByte b (s ++ [c] ++ [b]) = s ++ [c] := by
  simp [trimRightByte, other]

theorem joinByte_eq_concat {sep b : UInt8} {parts : List Bytes} (some : parts ≠ [])
    (nonempty : ∀ s ∈ parts, s ≠ []) (absent : ∀ s ∈ parts, b ∉ s) :
    ∃ s c, joinByte sep parts = s ++ [c] ∧ c ≠ b := by
  induction parts with
  | nil => exact absurd rfl some
  | cons t rest ih =>
      cases rest with
      | nil =>
          have ends := List.dropLast_append_getLast (nonempty t List.mem_cons_self)
          refine ⟨_, _, ends.symm, fun same => absent t List.mem_cons_self ?_⟩
          exact same ▸ List.getLast_mem _
      | cons t' rest =>
          obtain ⟨s, c, ends, other⟩ := ih (List.cons_ne_nil t' rest)
            (fun s member => nonempty s (List.mem_cons_of_mem t member))
            fun s member => absent s (List.mem_cons_of_mem t member)
          exact ⟨t ++ sep :: s, c, by simp [joinByte, ends], other⟩

/-- **The lines of a text** whose last line is ended too. -/
theorem splitByte_trimRightByte {sep : UInt8} {parts : List Bytes} (some : parts ≠ [])
    (nonempty : ∀ s ∈ parts, s ≠ []) (absent : ∀ s ∈ parts, sep ∉ s) :
    splitByte sep (trimRightByte sep (joinByte sep parts ++ [sep])) = parts := by
  obtain ⟨s, c, ends, other⟩ := joinByte_eq_concat some nonempty absent
  rw [ends, trimRightByte_concat other, ← ends, splitByte_joinByte some absent]

/-- Where the parts of a string are: the first at its front, the others between separators. -/
theorem parts_infix {sep : UInt8} {s head : Bytes} {tail : List Bytes}
    (split : splitByte sep s = head :: tail) :
    (head ++ [sep]) <+: (s ++ [sep]) ∧ ∀ c ∈ tail, (sep :: c ++ [sep]) <:+: (s ++ [sep]) := by
  induction s generalizing head tail with
  | nil =>
      cases split
      exact ⟨List.prefix_rfl, fun c member => by cases member⟩
  | cons b s ih =>
      obtain ⟨head', tail', split'⟩ := List.exists_cons_of_ne_nil (splitByte_ne_nil sep s)
      obtain ⟨front, others⟩ := ih split'
      have later : ∀ c ∈ tail', (sep :: c ++ [sep]) <:+: (b :: s ++ [sep]) := fun c member =>
        (others c member).trans (List.suffix_cons b (s ++ [sep])).isInfix
      rw [splitByte, split'] at split
      by_cases isSep : b = sep
      · rw [if_pos isSep] at split
        cases split
        refine ⟨⟨s ++ [sep], by simp [isSep]⟩, fun c member => ?_⟩
        rcases List.mem_cons.mp member with rfl | isLater
        · rw [isSep]
          exact ((List.prefix_cons_inj sep).mpr front).isInfix
        · exact later c isLater
      · rw [if_neg isSep] at split
        cases split
        exact ⟨(List.prefix_cons_inj b).mpr front, later⟩

/-- **A search for a delimited word** finds the parts of the string. -/
theorem infix_sep_iff {sep : UInt8} {c s : Bytes} (absent : sep ∉ c) :
    (sep :: c ++ [sep]) <:+: (sep :: s ++ [sep]) ↔ c ∈ splitByte sep s := by
  constructor
  · rintro ⟨before, after, whole⟩
    have parts := congrArg (splitByte sep) whole
    have left : before ++ (sep :: c ++ [sep]) ++ after = before ++ sep :: (c ++ sep :: after) := by
      simp
    have right : sep :: s ++ [sep] = [] ++ sep :: (s ++ sep :: []) := rfl
    rw [left, right, splitByte_append, splitByte_append, splitByte_append, splitByte_append,
      splitByte_of_not_mem absent] at parts
    -- the word is neither the empty part in front nor the one behind
    obtain ⟨front, xs, isFront⟩ := List.exists_cons_of_ne_nil (splitByte_ne_nil sep before)
    obtain ⟨ys, back, isBack⟩ : ∃ ys back, splitByte sep after = ys ++ [back] :=
      ⟨_, _, (List.dropLast_append_getLast (splitByte_ne_nil sep after)).symm⟩
    rw [isFront, isBack] at parts
    have inner : xs ++ (c :: ys) ++ [back] = splitByte sep s ++ [[]] := by
      simpa [splitByte] using (List.cons.inj parts).2
    rw [← (List.append_inj' inner rfl).1]
    simp
  · intro member
    obtain ⟨head, tail, split⟩ := List.exists_cons_of_ne_nil (splitByte_ne_nil sep s)
    obtain ⟨front, others⟩ := parts_infix split
    rw [split] at member
    rcases List.mem_cons.mp member with rfl | isLater
    · exact ((List.prefix_cons_inj sep).mpr front).isInfix
    · exact (others c isLater).trans (List.suffix_cons sep (s ++ [sep])).isInfix

/-! ## Tables that know ASCII only -/

theorem toNat_toLower (c : Char) :
    c.toLower.toNat = if 65 ≤ c.toNat ∧ c.toNat ≤ 90 then c.toNat + 32 else c.toNat := by
  have bounds : (c.val ≥ 'A'.val ∧ c.val ≤ 'Z'.val) ↔ 65 ≤ c.toNat ∧ c.toNat ≤ 90 := by
    simp [UInt32.le_iff_toNat_le]
  delta Char.toLower
  split
  · rename_i upper
    rw [if_pos (bounds.mp upper)]
    show (c.val + ('a'.val - 'A'.val)).toNat = c.val.toNat + 32
    have isUpper := bounds.mp upper
    rw [← Char.toNat_val] at isUpper
    rw [UInt32.toNat_add]
    show (c.val.toNat + 32) % 2 ^ 32 = _
    omega
  · rename_i other
    rw [if_neg (fun isUpper => other (bounds.mpr isUpper))]

theorem toLower_toLower_ascii (c : Char) : c.toLower.toLower = c.toLower := by
  apply Char.toNat_inj.mp
  rw [toNat_toLower, toNat_toLower]
  split_ifs <;> omega

theorem isSpace_toLower_ascii (c : Char) : isSpace c.toLower = isSpace c := by
  rw [isSpace, isSpace, toNat_toLower]
  split
  · rename_i upper
    rw [Bool.eq_iff_iff]
    simp
    omega
  · rfl

/-- The case mapping of ASCII, with which that of `unicode` agrees on ASCII. -/
def asciiTables : CaseTables where
  toLower := Char.toLower
  toUpper := Char.toUpper
  toLower_ascii _ _ := rfl
  toUpper_ascii _ _ := rfl
  toLower_toLower := toLower_toLower_ascii
  isSpace_toLower := isSpace_toLower_ascii

/-- The bytes of a string. -/
def utf8 (s : String) : Bytes := s.toByteArray.data.toList

end FipsExitGate
