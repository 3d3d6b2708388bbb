import Mathlib.Data.List.TakeWhile
import Mathlib.Tactic.IntervalCases

/-!
# IP addresses in text

The textual forms of IPv4 and IPv6 addresses, and a parser for them, as package `netip` of Go
has it.

An IPv6 address is eight groups of 16 bits.  Its text gives them in hexadecimal, separated by
colons; one run of zero groups may be left out, and the last two groups may be given as an IPv4
address.  So an address has many texts.  `Spells s gs` says that `s` is one of them, and the parser
reads every one (`parseIPv6_of_spells`); which of them a printer chooses, here `string6`, does not
matter to whoever reads it.

## Main results

* `parseIPv4_string4` — what is printed of an IPv4 address is read back
* `parseAddr_of_spells` — every text of an IPv6 address is read as it
* `spells_string6` — what is printed of an IPv6 address is a text of it
-/

namespace Inet

/-- A text, as its bytes. -/
abbrev Text := List UInt8

/-! ## Digits -/

/-- The digit for a number below 16. -/
def digit (d : Nat) : UInt8 := UInt8.ofNat (if d < 10 then 0x30 + d else 0x57 + d)

/-- The value of a hexadecimal digit of either case. -/
def hexValue (c : UInt8) : Option Nat :=
  if 0x30 ≤ c ∧ c ≤ 0x39 then some (c.toNat - 0x30)
  else if 0x61 ≤ c ∧ c ≤ 0x66 then some (c.toNat - 0x61 + 10)
  else if 0x41 ≤ c ∧ c ≤ 0x46 then some (c.toNat - 0x41 + 10)
  else none

/-- A hexadecimal digit. -/
def isHex (c : UInt8) : Bool := (hexValue c).isSome

/-- A decimal digit. -/
def isDigit (c : UInt8) : Bool := decide (0x30 ≤ c) && decide (c ≤ 0x39)

theorem hexValue_digit {d : Nat} (small : d < 16) : hexValue (digit d) = some d := by
  interval_cases d <;> rfl

theorem isDigit_digit {d : Nat} (small : d < 10) :
    isDigit (digit d) = true ∧ (digit d).toNat - 0x30 = d := by
  interval_cases d <;> decide

/-- The number that hexadecimal digits stand for. -/
def readHex (s : Text) : Option Nat :=
  s.foldlM (fun acc c => (hexValue c).map (acc * 16 + ·)) 0

theorem isHex_of_foldlM {s : Text} {acc v : Nat}
    (read : s.foldlM (fun acc c => (hexValue c).map (acc * 16 + ·)) acc = some v) :
    ∀ c ∈ s, isHex c = true := by
  induction s generalizing acc with
  | nil => simp
  | cons c s ih =>
      rw [List.foldlM_cons, Option.bind_eq_bind, Option.bind_eq_some_iff] at read
      obtain ⟨acc', first, rest⟩ := read
      obtain ⟨d, isDigit, -⟩ := Option.map_eq_some_iff.mp first
      intro c' member
      rcases List.mem_cons.mp member with rfl | later
      · rw [isHex, isDigit, Option.isSome_some]
      · exact ih rest c' later

/-! ## IPv4 -/

/-- The decimal text of a byte. -/
def appendDecimal (x : UInt8) : Text :=
  (if 100 ≤ x.toNat then [digit (x.toNat / 100)] else []) ++
    (if 10 ≤ x.toNat then [digit (x.toNat / 10 % 10)] else []) ++ [digit (x.toNat % 10)]

/-- Four bytes. -/
structure Octets where
  a : UInt8
  b : UInt8
  c : UInt8
  d : UInt8
  deriving DecidableEq, Repr

/-- The dotted form. -/
def string4 (q : Octets) : Text :=
  appendDecimal q.a ++ 0x2e :: (appendDecimal q.b ++ 0x2e :: (appendDecimal q.c ++
    0x2e :: appendDecimal q.d))

/-- The loop over a dotted form: the fields that are complete, the value and the number of digits
of the one that is read, and the text that is left. -/
def ipv4Loop : List UInt8 → Nat → Nat → Text → Option (List UInt8)
  | fields, val, _, [] => if fields.length < 3 then none else some (fields ++ [UInt8.ofNat val])
  | fields, val, digLen, c :: s =>
      if isDigit c then
        -- no leading zero, and no more than a byte
        if digLen = 1 ∧ val = 0 then none
        else if 255 < val * 10 + (c.toNat - 0x30) then none
        else ipv4Loop fields (val * 10 + (c.toNat - 0x30)) (digLen + 1) s
      else if c = 0x2e then
        if digLen = 0 ∨ s = [] then none
        else if fields.length = 3 then none
        else ipv4Loop (fields ++ [UInt8.ofNat val]) 0 0 s
      else none

/-- `parseIPv4`. -/
def parseIPv4 (s : Text) : Option Octets :=
  match ipv4Loop [] 0 0 s with
  | some [a, b, c, d] => some ⟨a, b, c, d⟩
  | _ => none

/-- A byte in decimal is read as this byte, with the digits it has. -/
theorem ipv4Loop_appendDecimal (fields : List UInt8) (x : UInt8) (s : Text) :
    ∃ digLen, 0 < digLen ∧
      ipv4Loop fields 0 0 (appendDecimal x ++ s) = ipv4Loop fields x.toNat digLen s := by
  have small := x.toNat_lt
  obtain ⟨isLast, last⟩ := isDigit_digit (d := x.toNat % 10) (by omega)
  obtain ⟨isMid, mid⟩ := isDigit_digit (d := x.toNat / 10 % 10) (by omega)
  unfold appendDecimal
  by_cases three : 100 ≤ x.toNat
  · obtain ⟨isFirst, first⟩ := isDigit_digit (d := x.toNat / 100) (by omega)
    refine ⟨3, by omega, ?_⟩
    rw [if_pos three, if_pos (by omega)]
    simp only [List.cons_append, List.nil_append]
    rw [ipv4Loop, if_pos isFirst, first, if_neg (by omega), if_neg (by omega), ipv4Loop,
      if_pos isMid, mid, if_neg (by omega), if_neg (by omega), ipv4Loop, if_pos isLast, last,
      if_neg (by omega), if_neg (by omega)]
    congr 1
    omega
  · by_cases two : 10 ≤ x.toNat
    · refine ⟨2, by omega, ?_⟩
      rw [if_neg three, if_pos two]
      simp only [List.cons_append, List.nil_append]
      rw [ipv4Loop, if_pos isMid, mid, if_neg (by omega), if_neg (by omega), ipv4Loop,
        if_pos isLast, last, if_neg (by omega), if_neg (by omega)]
      congr 1
      omega
    · refine ⟨1, by omega, ?_⟩
      rw [if_neg three, if_neg two]
      simp only [List.cons_append, List.nil_append]
      rw [ipv4Loop, if_pos isLast, last, if_neg (by omega), if_neg (by omega)]
      congr 1
      omega

theorem appendDecimal_ne_nil (x : UInt8) : appendDecimal x ≠ [] := by
  simp [appendDecimal]

/-- A field that ends at a dot. -/
theorem ipv4Loop_field {fields : List UInt8} {s : Text} (x : UInt8) (room : fields.length < 3)
    (more : s ≠ []) :
    ipv4Loop fields 0 0 (appendDecimal x ++ 0x2e :: s) = ipv4Loop (fields ++ [x]) 0 0 s := by
  obtain ⟨digLen, isDigits, read⟩ := ipv4Loop_appendDecimal fields x (0x2e :: s)
  have notDigit : ¬ isDigit 0x2e = true := by decide
  rw [read, ipv4Loop, if_neg notDigit, if_pos rfl, if_neg (by simp [more]; omega),
    if_neg (by omega), UInt8.ofNat_toNat]

/-- **What is printed is read back.** -/
theorem parseIPv4_string4 (q : Octets) : parseIPv4 (string4 q) = some q := by
  obtain ⟨digLen, -, read⟩ := ipv4Loop_appendDecimal [q.a, q.b, q.c] q.d []
  have ends : ipv4Loop [q.a, q.b, q.c] 0 0 (appendDecimal q.d) = some [q.a, q.b, q.c, q.d] := by
    rw [List.append_nil] at read
    rw [read, ipv4Loop, if_neg (by simp), UInt8.ofNat_toNat]
    rfl
  rw [parseIPv4, string4, ipv4Loop_field q.a (by simp) (by simp [appendDecimal_ne_nil]),
    ipv4Loop_field q.b (by simp) (by simp [appendDecimal_ne_nil]),
    ipv4Loop_field q.c (by simp) (appendDecimal_ne_nil q.d)]
  simp only [List.nil_append, List.cons_append]
  rw [ends]

/-! ## IPv6 -/

/-- The hexadecimal text of a group. -/
def appendHex (x : Nat) : Text :=
  (if 0x1000 ≤ x then [digit (x / 0x1000)] else []) ++
    (if 0x100 ≤ x then [digit (x / 0x100 % 16)] else []) ++
    (if 0x10 ≤ x then [digit (x / 0x10 % 16)] else []) ++ [digit (x % 16)]

/-- A text of one group: up to four digits, leading zeros included. -/
structure IsGroup (s : Text) (v : Nat) : Prop where
  nonempty : s ≠ []
  short : s.length ≤ 4
  value : readHex s = some v

theorem isGroup_appendHex {x : Nat} (small : x < 0x10000) : IsGroup (appendHex x) x := by
  have d0 := hexValue_digit (d := x % 16) (by omega)
  have d1 := hexValue_digit (d := x / 0x10 % 16) (by omega)
  have d2 := hexValue_digit (d := x / 0x100 % 16) (by omega)
  have d3 := hexValue_digit (d := x / 0x1000) (by omega)
  refine ⟨by simp [appendHex], ?_, ?_⟩
  · unfold appendHex
    split <;> split <;> split <;> simp
  · unfold appendHex readHex
    by_cases four : 0x1000 ≤ x
    · rw [if_pos four, if_pos (by omega), if_pos (by omega)]
      simp [d0, d1, d2, d3]
      omega
    by_cases three : 0x100 ≤ x
    · rw [if_neg four, if_pos three, if_pos (by omega)]
      simp [d0, d1, d2]
      omega
    by_cases two : 0x10 ≤ x
    · rw [if_neg four, if_neg three, if_pos two]
      simp [d0, d1]
      omega
    · rw [if_neg four, if_neg three, if_neg two]
      simp [d0]
      omega

/-- The two groups an IPv4 address stands for. -/
def Octets.groups (q : Octets) : List Nat :=
  [q.a.toNat * 256 + q.b.toNat, q.c.toNat * 256 + q.d.toNat]

/-- The loop over the groups: how many more fit, the groups that were read, where the ellipsis
was, and the text that is left. -/
def groupLoop : Nat → List Nat → Option Nat → Text → Option (List Nat × Option Nat × Text)
  | 0, gs, ellipsis, s => some (gs, ellipsis, s)
  | n + 1, gs, ellipsis, s =>
      let digits := s.takeWhile isHex
      if digits.length = 0 ∨ 4 < digits.length then none
      else
        let gs' := gs ++ [(readHex digits).getD 0]
        match s.dropWhile isHex with
        | [] => some (gs', ellipsis, [])
        | c :: rest =>
            if c = 0x2e then
              -- an IPv4 address at the end
              if (ellipsis = none ∧ gs.length ≠ 6) ∨ 6 < gs.length then none
              else (parseIPv4 s).map fun q => (gs ++ q.groups, ellipsis, [])
            else if c ≠ 0x3a then none
            else
              match rest with
              | [] => none
              | c' :: rest' =>
                  if c' = 0x3a then
                    if ellipsis.isSome then none
                    else if rest' = [] then some (gs', some gs'.length, [])
                    else groupLoop n gs' (some gs'.length) rest'
                  else groupLoop n gs' ellipsis rest

/-- What the loop found, as eight groups. -/
def expand : List Nat × Option Nat × Text → Option (List Nat)
  | (gs, ellipsis, s) =>
      if s ≠ [] then none
      else if gs.length < 8 then
        ellipsis.map fun e => gs.take e ++ List.replicate (8 - gs.length) 0 ++ gs.drop e
      else if ellipsis.isSome then none
      else some gs

/-- An address and its zone. -/
inductive Parsed where
  | v4 (q : Octets)
  | v6 (groups : List Nat) (zone : Text)
  deriving DecidableEq, Repr

/-- The part of `parseIPv6` after the zone has been split off. -/
def parseGroups (s : Text) : Option (List Nat) :=
  match s with
  | 0x3a :: 0x3a :: rest =>
      if rest = [] then some (List.replicate 8 0)
      else (groupLoop 8 [] (some 0) rest).bind expand
  | s => (groupLoop 8 [] none s).bind expand

/-- `parseIPv6`. -/
def parseIPv6 (s : Text) : Option Parsed :=
  match s.dropWhile (· ≠ 0x25) with
  | [] => (parseGroups s).map fun gs => .v6 gs []
  | _ :: zone =>
      if zone = [] then none
      else (parseGroups (s.takeWhile (· ≠ 0x25))).map fun gs => .v6 gs zone

/-- `ParseAddr`: the first dot, colon or percent sign decides. -/
def parseAddr (s : Text) : Option Parsed :=
  match s.find? fun c => decide (c = 0x2e) || decide (c = 0x3a) || decide (c = 0x25) with
  | some 0x2e => (parseIPv4 s).map .v4
  | some 0x3a => parseIPv6 s
  | _ => none

/-! ## The texts of an IPv6 address -/

/-- Texts of hexadecimal groups, and their values. -/
inductive Groups : List Text → List Nat → Prop
  | nil : Groups [] []
  | cons {s : Text} {v : Nat} {texts : List Text} {vs : List Nat} :
      IsGroup s v → Groups texts vs → Groups (s :: texts) (v :: vs)

/-- The same, with an IPv4 address at the end or not. -/
inductive Items : List Text → List Nat → Prop
  | nil : Items [] []
  | quad (q : Octets) : Items [string4 q] q.groups
  | cons {s : Text} {v : Nat} {texts : List Text} {vs : List Nat} :
      IsGroup s v → Items texts vs → Items (s :: texts) (v :: vs)

/-- Texts separated by colons. -/
def colons (texts : List Text) : Text := List.intercalate [0x3a] texts

/-- **The texts of an IPv6 address**: all groups, or those before and after a run of zeros. -/
inductive Spells : Text → List Nat → Prop
  | full {texts : List Text} {vs : List Nat} :
      Items texts vs → vs.length = 8 → Spells (colons texts) vs
  | elided {texts texts' : List Text} {vs vs' : List Nat} :
      Groups texts vs → Items texts' vs' → vs.length + vs'.length < 8 →
      Spells (colons texts ++ 0x3a :: 0x3a :: colons texts')
        (vs ++ List.replicate (8 - (vs.length + vs'.length)) 0 ++ vs')

/-! ## Reading a text -/

section Reading

variable {s r : Text} {v n : Nat} {gs vs : List Nat} {e : Option Nat} {texts : List Text}

theorem IsGroup.isHex (isGroup : IsGroup s v) : ∀ c ∈ s, Inet.isHex c = true :=
  isHex_of_foldlM isGroup.value

theorem IsGroup.length (isGroup : IsGroup s v) : ¬ (s.length = 0 ∨ 4 < s.length) := by
  have nonempty := List.length_pos_iff.mpr isGroup.nonempty
  have short := isGroup.short
  omega

/-- Where digits end. -/
theorem span_isHex (digits : ∀ c ∈ s, isHex c = true) (ends : ∀ c ∈ r.head?, isHex c = false) :
    (s ++ r).takeWhile isHex = s ∧ (s ++ r).dropWhile isHex = r := by
  rw [List.takeWhile_append_of_pos digits, List.dropWhile_append_of_pos digits]
  cases r with
  | nil => simp
  | cons c r =>
      have stops := ends c rfl
      simp [stops]

/-- The last group. -/
theorem groupLoop_last (isGroup : IsGroup s v) :
    groupLoop (n + 1) gs e s = some (gs ++ [v], e, []) := by
  obtain ⟨digits, rest⟩ := span_isHex (r := []) isGroup.isHex (by simp)
  rw [List.append_nil] at digits rest
  rw [groupLoop, digits, rest, if_neg isGroup.length, isGroup.value]
  rfl

/-- A group and a colon. -/
theorem groupLoop_colon (isGroup : IsGroup s v) {c : UInt8} (other : c ≠ 0x3a) :
    groupLoop (n + 1) gs e (s ++ 0x3a :: c :: r) = groupLoop n (gs ++ [v]) e (c :: r) := by
  obtain ⟨digits, rest⟩ := span_isHex (r := 0x3a :: c :: r) isGroup.isHex (by simp; decide)
  rw [groupLoop, digits, rest, if_neg isGroup.length, isGroup.value]
  simp [other]

/-- A group and the ellipsis. -/
theorem groupLoop_ellipsis (isGroup : IsGroup s v) :
    groupLoop (n + 1) gs none (s ++ 0x3a :: 0x3a :: r) =
      if r = [] then some (gs ++ [v], some (gs.length + 1), [])
      else groupLoop n (gs ++ [v]) (some (gs.length + 1)) r := by
  obtain ⟨digits, rest⟩ := span_isHex (r := 0x3a :: 0x3a :: r) isGroup.isHex (by simp; decide)
  rw [groupLoop, digits, rest, if_neg isGroup.length, isGroup.value]
  simp

theorem colons_cons_cons (s t : Text) (texts : List Text) :
    colons (s :: t :: texts) = s ++ 0x3a :: colons (t :: texts) := by
  simp [colons, List.intercalate_cons_cons]

/-- A text that starts with a digit. -/
def StartsHex (s : Text) : Prop := ∃ c r, s = c :: r ∧ isHex c = true

theorem IsGroup.startsHex (isGroup : IsGroup s v) (r : Text) : StartsHex (s ++ r) := by
  obtain ⟨c, s', isCons⟩ := List.exists_cons_of_ne_nil isGroup.nonempty
  have isHead : c ∈ s := by
    rw [isCons]
    exact List.mem_cons_self
  exact ⟨c, s' ++ r, by rw [isCons]; rfl, isGroup.isHex c isHead⟩

theorem isHex_of_mem_appendDecimal {x c : UInt8} (member : c ∈ appendDecimal x) :
    isHex c = true := by
  have small := x.toNat_lt
  have hex {d : Nat} (below : d < 10) : isHex (digit d) = true := by
    rw [isHex, hexValue_digit (by omega)]
    rfl
  simp only [appendDecimal, List.mem_append, List.mem_singleton, List.mem_ite_nil_right] at member
  rcases member with (⟨-, rfl⟩ | ⟨-, rfl⟩) | rfl
  · exact hex (by omega)
  · exact hex (by omega)
  · exact hex (by omega)

theorem startsHex_string4 (q : Octets) : StartsHex (string4 q) := by
  obtain ⟨c, s, isCons⟩ := List.exists_cons_of_ne_nil (appendDecimal_ne_nil q.a)
  refine ⟨c, _, by rw [string4, isCons]; rfl, isHex_of_mem_appendDecimal (x := q.a) ?_⟩
  rw [isCons]
  exact List.mem_cons_self

theorem Items.startsHex (items : Items texts vs) (some : texts ≠ []) :
    StartsHex (colons texts) := by
  cases items with
  | nil => exact absurd rfl some
  | quad q => simpa [colons] using startsHex_string4 q
  | @cons s v texts vs isGroup rest =>
      cases texts with
      | nil => simpa [colons] using isGroup.startsHex []
      | cons t texts =>
          rw [colons_cons_cons]
          exact isGroup.startsHex _

theorem length_appendDecimal_le (x : UInt8) : (appendDecimal x).length ≤ 3 := by
  unfold appendDecimal
  split <;> split <;> simp

/-- An IPv4 address where the last two groups may be. -/
theorem groupLoop_quad (q : Octets) (place : e ≠ none ∨ gs.length = 6) (room : gs.length ≤ 6) :
    groupLoop (n + 1) gs e (string4 q) = some (gs ++ q.groups, e, []) := by
  obtain ⟨digits, rest⟩ := span_isHex (s := appendDecimal q.a)
    (r := 0x2e :: (appendDecimal q.b ++ 0x2e :: (appendDecimal q.c ++ 0x2e :: appendDecimal q.d)))
    (fun c member => isHex_of_mem_appendDecimal member) (by simp; decide)
  have length : ¬ ((appendDecimal q.a).length = 0 ∨ 4 < (appendDecimal q.a).length) := by
    have nonempty := List.length_pos_iff.mpr (appendDecimal_ne_nil q.a)
    have short := length_appendDecimal_le q.a
    omega
  have allowed : ¬ ((e = none ∧ gs.length ≠ 6) ∨ 6 < gs.length) := by
    rintro (⟨isNone, other⟩ | many)
    · exact place.elim (fun isSome => isSome isNone) other
    · omega
  have read := parseIPv4_string4 q
  rw [string4] at read ⊢
  rw [groupLoop, digits, rest, if_neg length]
  simp only [if_true, if_neg allowed, read, Option.map_some]

/-- **Items up to the end of the text.** -/
theorem groupLoop_items (items : Items texts vs) (some : texts ≠ [])
    (room : gs.length + vs.length ≤ 8) (fuel : n = 8 - gs.length)
    (place : e ≠ none ∨ gs.length + vs.length = 8) :
    groupLoop n gs e (colons texts) = Option.some (gs ++ vs, e, []) := by
  induction items generalizing n gs with
  | nil => exact absurd rfl some
  | quad q =>
      have two : q.groups.length = 2 := rfl
      obtain ⟨n, rfl⟩ : ∃ m, n = m + 1 := ⟨7 - gs.length, by omega⟩
      rw [colons, List.intercalate_singleton]
      exact groupLoop_quad q (place.imp_right fun _ => by omega) (by omega)
  | @cons s v texts vs isGroup rest ih =>
      rw [List.length_cons] at room place
      obtain ⟨n, rfl⟩ : ∃ m, n = m + 1 := ⟨7 - gs.length, by omega⟩
      cases texts with
      | nil =>
          cases rest
          rw [colons, List.intercalate_singleton]
          exact groupLoop_last isGroup
      | cons t texts =>
          obtain ⟨c, r, starts, hex⟩ := rest.startsHex (List.cons_ne_nil t texts)
          have other : c ≠ 0x3a := by
            rintro rfl
            exact absurd hex (by decide)
          rw [colons_cons_cons, starts, groupLoop_colon isGroup other, ← starts,
            ih (List.cons_ne_nil t texts) (by simp; omega) (by simp; omega)
              (place.imp_right fun _ => by simp; omega)]
          simp

/-- **Groups up to the ellipsis.** -/
theorem groupLoop_groups (groups : Groups texts vs) (some : texts ≠ [])
    (room : gs.length + vs.length < 8) (fuel : n = 8 - gs.length) :
    groupLoop n gs none (colons texts ++ 0x3a :: 0x3a :: r) =
      if r = [] then Option.some (gs ++ vs, Option.some (gs.length + vs.length), [])
      else groupLoop (n - vs.length) (gs ++ vs) (Option.some (gs.length + vs.length)) r := by
  induction groups generalizing n gs with
  | nil => exact absurd rfl some
  | @cons s v texts vs isGroup rest ih =>
      rw [List.length_cons] at room
      obtain ⟨n, rfl⟩ : ∃ m, n = m + 1 := ⟨7 - gs.length, by omega⟩
      cases rest with
      | nil =>
          rw [colons, List.intercalate_singleton, groupLoop_ellipsis isGroup]
          rfl
      | @cons t v' texts vs isGroup' rest =>
          obtain ⟨c, r', starts, hex⟩ : StartsHex (colons (t :: texts)) := by
            cases texts with
            | nil => simpa [colons] using isGroup'.startsHex []
            | cons t' texts =>
                rw [colons_cons_cons]
                exact isGroup'.startsHex _
          have other : c ≠ 0x3a := by
            rintro rfl
            exact absurd hex (by decide)
          have count : (gs ++ [v]).length + (v' :: vs).length =
              gs.length + (v :: v' :: vs).length := by
            simp
            omega
          have left : n + 1 - (v :: v' :: vs).length = n - (v' :: vs).length := by simp
          have more : groupLoop n (gs ++ [v]) none (colons (t :: texts) ++ 0x3a :: 0x3a :: r) = _ :=
            ih (List.cons_ne_nil t texts) (by rw [count]; exact room) (by simp; omega)
          rw [starts, List.cons_append] at more
          rw [colons_cons_cons, starts, List.append_assoc, List.cons_append, List.cons_append,
            groupLoop_colon isGroup other, more, count, left]
          simp

theorem Groups.items (groups : Groups texts vs) : Items texts vs := by
  induction groups with
  | nil => exact .nil
  | cons isGroup _ ih => exact .cons isGroup ih

theorem parseGroups_of_startsHex (starts : StartsHex s) :
    parseGroups s = (groupLoop 8 [] none s).bind expand := by
  obtain ⟨c, r, rfl, hex⟩ := starts
  have other : c ≠ 0x3a := by
    rintro rfl
    exact absurd hex (by decide)
  unfold parseGroups
  split
  · next isColon => exact absurd (List.cons.inj isColon).1 other
  · rfl

/-- **Every text of an address is read as it.** -/
theorem parseGroups_of_spells (spells : Spells s gs) : parseGroups s = some gs := by
  cases spells with
  | @full texts _ items eight =>
      have nonempty : texts ≠ [] := by
        rintro rfl
        cases items
        cases eight
      have read : groupLoop 8 [] none (colons texts) = some ([] ++ gs, none, []) :=
        groupLoop_items items nonempty (by simp [eight]) rfl (.inr (by simp [eight]))
      rw [parseGroups_of_startsHex (items.startsHex nonempty), read]
      simp [expand, eight]
  | @elided texts texts' vs vs' groups items room =>
      cases texts with
      | nil =>
          cases groups
          rw [List.length_nil, Nat.zero_add] at room ⊢
          rw [colons, List.intercalate_nil, List.nil_append, parseGroups]
          cases texts' with
          | nil =>
              cases items
              rfl
          | cons t' texts' =>
              obtain ⟨c, r, starts, -⟩ := items.startsHex (List.cons_ne_nil t' texts')
              have read : groupLoop 8 [] (some 0) (colons (t' :: texts')) =
                  some ([] ++ vs', some 0, []) :=
                groupLoop_items items (List.cons_ne_nil t' texts') (by simp; omega) rfl
                  (.inl (Option.some_ne_none 0))
              rw [if_neg (by rw [starts]; exact List.cons_ne_nil c r), read]
              simp [expand, room]
      | cons t texts =>
          have starts : StartsHex (colons (t :: texts) ++ 0x3a :: 0x3a :: colons texts') := by
            obtain ⟨c, r, isCons, hex⟩ := groups.items.startsHex (List.cons_ne_nil t texts)
            exact ⟨c, r ++ 0x3a :: 0x3a :: colons texts', by rw [isCons]; rfl, hex⟩
          have fewer : vs.length < 8 := by omega
          have before :
              groupLoop 8 [] none (colons (t :: texts) ++ 0x3a :: 0x3a :: colons texts') = _ :=
            groupLoop_groups groups (List.cons_ne_nil t texts) (by simpa using fewer) rfl
          rw [parseGroups_of_startsHex starts, before, List.length_nil, Nat.zero_add,
            List.nil_append]
          cases texts' with
          | nil =>
              cases items
              rw [if_pos (by rfl)]
              simp [expand, fewer]
          | cons t' texts' =>
              obtain ⟨c, r, isCons, -⟩ := items.startsHex (List.cons_ne_nil t' texts')
              rw [if_neg (by rw [isCons]; exact List.cons_ne_nil c r),
                groupLoop_items items (List.cons_ne_nil t' texts') (by omega) rfl
                  (.inl (Option.some_ne_none vs.length))]
              simp [expand, room]

theorem of_mem_colons {c : UInt8} (member : c ∈ colons texts) :
    c = 0x3a ∨ ∃ t ∈ texts, c ∈ t := by
  induction texts with
  | nil => simp [colons] at member
  | cons t texts ih =>
      cases texts with
      | nil => exact .inr ⟨t, List.mem_cons_self, by simpa [colons] using member⟩
      | cons t' texts =>
          rw [colons_cons_cons, List.mem_append, List.mem_cons] at member
          rcases member with here | isColon | later
          · exact .inr ⟨t, List.mem_cons_self, here⟩
          · exact .inl isColon
          · rcases ih later with isColon | ⟨t'', isText, inside⟩
            · exact .inl isColon
            · exact .inr ⟨t'', List.mem_cons_of_mem t isText, inside⟩

/-- The bytes of a text: digits, dots and colons. -/
theorem Items.bytes (items : Items texts vs) {t : Text} (isText : t ∈ texts) {c : UInt8}
    (member : c ∈ t) : isHex c = true ∨ c = 0x2e := by
  induction items with
  | nil => cases isText
  | quad q =>
      obtain rfl := List.mem_singleton.mp isText
      simp only [string4, List.mem_append, List.mem_cons] at member
      rcases member with inA | rfl | inB | rfl | inC | rfl | inD
      · exact .inl (isHex_of_mem_appendDecimal inA)
      · exact .inr rfl
      · exact .inl (isHex_of_mem_appendDecimal inB)
      · exact .inr rfl
      · exact .inl (isHex_of_mem_appendDecimal inC)
      · exact .inr rfl
      · exact .inl (isHex_of_mem_appendDecimal inD)
  | cons isGroup _ ih =>
      rcases List.mem_cons.mp isText with rfl | later
      · exact .inl (isGroup.isHex c member)
      · exact ih later

theorem Spells.bytes (spells : Spells s gs) {c : UInt8} (member : c ∈ s) :
    isHex c = true ∨ c = 0x2e ∨ c = 0x3a := by
  have ofColons {texts : List Text} {vs : List Nat} (items : Items texts vs)
      (member : c ∈ colons texts) : isHex c = true ∨ c = 0x2e ∨ c = 0x3a := by
    rcases of_mem_colons member with isColon | ⟨t, isText, inside⟩
    · exact .inr (.inr isColon)
    · exact (items.bytes isText inside).imp_right .inl
  cases spells with
  | full items _ => exact ofColons items member
  | elided groups items _ =>
      simp only [List.mem_append, List.mem_cons] at member
      rcases member with before | rfl | rfl | after
      · exact ofColons groups.items before
      · exact .inr (.inr rfl)
      · exact .inr (.inr rfl)
      · exact ofColons items after

/-- A colon comes first of what is not a digit. -/
theorem Spells.starts (spells : Spells s gs) :
    ∃ digits rest, s = digits ++ 0x3a :: rest ∧ ∀ c ∈ digits, isHex c = true := by
  cases spells with
  | full items eight =>
      cases items with
      | nil => cases eight
      | quad q => cases eight
      | @cons s v texts vs isGroup rest =>
          cases texts with
          | nil =>
              cases rest
              cases eight
          | cons t texts => exact ⟨s, _, colons_cons_cons s t texts, isGroup.isHex⟩
  | @elided _ texts' _ _ groups _ _ =>
      cases groups with
      | nil => exact ⟨[], _, rfl, by simp⟩
      | @cons s v texts vs isGroup rest =>
          cases texts with
          | nil => exact ⟨s, _, by rw [colons, List.intercalate_singleton], isGroup.isHex⟩
          | cons t texts =>
              refine ⟨s, colons (t :: texts) ++ 0x3a :: 0x3a :: colons texts', ?_, isGroup.isHex⟩
              rw [colons_cons_cons, List.append_assoc, List.cons_append]

/-- **The parser reads every text of an address**, without a zone. -/
theorem parseAddr_of_spells (spells : Spells s gs) : parseAddr s = some (.v6 gs []) := by
  have noZone : s.dropWhile (· ≠ 0x25) = [] := by
    rw [List.dropWhile_eq_nil_iff]
    intro c member
    rw [decide_eq_true_eq]
    rintro rfl
    rcases spells.bytes member with hex | isDot | isColon
    · exact absurd hex (by decide)
    · exact absurd isDot (by decide)
    · exact absurd isColon (by decide)
  have first : s.find? (fun c => decide (c = 0x2e) || decide (c = 0x3a) || decide (c = 0x25)) =
      some 0x3a := by
    obtain ⟨digits, rest, rfl, hex⟩ := spells.starts
    rw [List.find?_append, List.find?_eq_none.mpr]
    · simp
    · intro c member special
      have isHex := hex c member
      simp only [Bool.or_eq_true, decide_eq_true_eq] at special
      rcases special with (rfl | rfl) | rfl
      · exact absurd isHex (by decide)
      · exact absurd isHex (by decide)
      · exact absurd isHex (by decide)
  rw [parseAddr, first]
  simp only [parseIPv6, noZone, parseGroups_of_spells spells, Option.map_some]

/-- **The parser reads a dotted form.** -/
theorem parseAddr_string4 (q : Octets) : parseAddr (string4 q) = some (.v4 q) := by
  have first : (string4 q).find?
      (fun c => decide (c = 0x2e) || decide (c = 0x3a) || decide (c = 0x25)) = some 0x2e := by
    rw [string4, List.find?_append, List.find?_eq_none.mpr]
    · simp
    · intro c member special
      have isHex := isHex_of_mem_appendDecimal member
      simp only [Bool.or_eq_true, decide_eq_true_eq] at special
      rcases special with (rfl | rfl) | rfl
      · exact absurd isHex (by decide)
      · exact absurd isHex (by decide)
      · exact absurd isHex (by decide)
  rw [parseAddr, first]
  simp only [parseIPv4_string4, Option.map_some]

end Reading

/-! ## Printing -/

/-- The run of zeros to leave out, as its first group and the group after it: the longest of two
groups or more, and the first of those. -/
def zeroRun (gs : List Nat) : Nat × Nat :=
  (List.range gs.length).foldl (fun best i =>
    let run := ((gs.drop i).takeWhile (· = 0)).length
    if 2 ≤ run ∧ best.2 - best.1 < run then (i, i + run) else best) (gs.length, gs.length)

/-- The text of an IPv6 address: lower-case digits without leading zeros, and `::` for the run of
zeros. -/
def string6 (gs : List Nat) : Text :=
  let run := zeroRun gs
  if run.1 = gs.length then colons (gs.map appendHex)
  else colons ((gs.take run.1).map appendHex) ++
    0x3a :: 0x3a :: colons ((gs.drop run.2).map appendHex)

theorem groups_map_appendHex {gs : List Nat} (small : ∀ g ∈ gs, g < 0x10000) :
    Groups (gs.map appendHex) gs := by
  induction gs with
  | nil => exact .nil
  | cons g gs ih =>
      exact .cons (isGroup_appendHex (small g List.mem_cons_self))
        (ih fun g' member => small g' (List.mem_cons_of_mem g member))

/-- What is known of the run: there is none, or it is one of zeros. -/
def IsZeroRun (gs : List Nat) (run : Nat × Nat) : Prop :=
  run.1 = gs.length ∨
    ∃ n, 2 ≤ n ∧ run.2 = run.1 + n ∧ gs = gs.take run.1 ++ List.replicate n 0 ++ gs.drop run.2

theorem isZeroRun_takeWhile (gs : List Nat) (i : Nat)
    (long : 2 ≤ ((gs.drop i).takeWhile (· = 0)).length) :
    IsZeroRun gs (i, i + ((gs.drop i).takeWhile (· = 0)).length) := by
  refine .inr ⟨_, long, rfl, ?_⟩
  have zeros : (gs.drop i).takeWhile (· = 0) =
      List.replicate ((gs.drop i).takeWhile (· = 0)).length 0 :=
    List.eq_replicate_iff.mpr ⟨rfl, fun g member => by simpa using List.mem_takeWhile_imp member⟩
  have rest : (gs.drop i).dropWhile (· = 0) =
      gs.drop (i + ((gs.drop i).takeWhile (· = 0)).length) := by
    have skipped : ((gs.drop i).takeWhile (· = 0) ++ (gs.drop i).dropWhile (· = 0)).drop
        ((gs.drop i).takeWhile (· = 0)).length = (gs.drop i).dropWhile (· = 0) := List.drop_left ..
    rw [← List.drop_drop, ← skipped, List.takeWhile_append_dropWhile]
  calc gs = gs.take i ++ gs.drop i := (List.take_append_drop i gs).symm
    _ = gs.take i ++ ((gs.drop i).takeWhile (· = 0) ++ (gs.drop i).dropWhile (· = 0)) := by
        rw [List.takeWhile_append_dropWhile]
    _ = _ := by rw [rest, ← zeros, List.append_assoc]

theorem isZeroRun_zeroRun (gs : List Nat) : IsZeroRun gs (zeroRun gs) := by
  unfold zeroRun
  generalize List.range gs.length = is
  have walk : ∀ best, IsZeroRun gs best → IsZeroRun gs (is.foldl (fun best i =>
      if 2 ≤ ((gs.drop i).takeWhile (· = 0)).length ∧
          best.2 - best.1 < ((gs.drop i).takeWhile (· = 0)).length then
        (i, i + ((gs.drop i).takeWhile (· = 0)).length) else best) best) := by
    induction is with
    | nil => exact fun best isRun => isRun
    | cons i is ih =>
        intro best isRun
        rw [List.foldl_cons]
        refine ih _ ?_
        split
        · next better => exact isZeroRun_takeWhile gs i better.1
        · exact isRun
  exact walk _ (.inl rfl)

/-- **What is printed of an address is a text of it.** -/
theorem spells_string6 {gs : List Nat} (eight : gs.length = 8) (small : ∀ g ∈ gs, g < 0x10000) :
    Spells (string6 gs) gs := by
  unfold string6
  rcases isZeroRun_zeroRun gs with noRun | ⟨n, long, ends, isRun⟩
  · rw [if_pos noRun]
    exact .full (groups_map_appendHex small).items eight
  · by_cases noRun : (zeroRun gs).1 = gs.length
    · rw [if_pos noRun]
      exact .full (groups_map_appendHex small).items eight
    · rw [if_neg noRun]
      have before : Groups ((gs.take (zeroRun gs).1).map appendHex) (gs.take (zeroRun gs).1) :=
        groups_map_appendHex fun g member => small g (List.mem_of_mem_take member)
      have after : Groups ((gs.drop (zeroRun gs).2).map appendHex) (gs.drop (zeroRun gs).2) :=
        groups_map_appendHex fun g member => small g (List.mem_of_mem_drop member)
      have count := congrArg List.length isRun
      rw [List.length_append, List.length_append, List.length_replicate, eight] at count
      have spells := Spells.elided before after.items (by omega)
      have zeros : 8 - ((gs.take (zeroRun gs).1).length + (gs.drop (zeroRun gs).2).length) = n := by
        omega
      rw [zeros, ← isRun] at spells
      exact spells

/-! ## Addresses as bytes -/

/-- Bytes in pairs, the high byte first. -/
def groupsOf : List UInt8 → List Nat
  | hi :: lo :: rest => (hi.toNat * 256 + lo.toNat) :: groupsOf rest
  | _ => []

/-- The bytes of groups. -/
def bytesOf (gs : List Nat) : List UInt8 :=
  gs.flatMap fun g => [UInt8.ofNat (g / 256), UInt8.ofNat (g % 256)]

/-- The bytes of an IPv4 address. -/
def Octets.bytes (q : Octets) : List UInt8 := [q.a, q.b, q.c, q.d]

theorem bytesOf_groupsOf {ip : List UInt8} {n : Nat} (even : ip.length = 2 * n) :
    bytesOf (groupsOf ip) = ip := by
  induction n generalizing ip with
  | zero => rw [List.length_eq_zero_iff.mp even]; rfl
  | succ n ih =>
      obtain ⟨hi, lo, rest, rfl⟩ : ∃ hi lo rest, ip = hi :: lo :: rest := by
        match ip, even with
        | hi :: lo :: rest, _ => exact ⟨hi, lo, rest, rfl⟩
      have low := lo.toNat_lt
      have quotient : (hi.toNat * 256 + lo.toNat) / 256 = hi.toNat := by omega
      have remainder : (hi.toNat * 256 + lo.toNat) % 256 = lo.toNat := by omega
      have later : bytesOf (groupsOf rest) = rest := ih (by simp at even; omega)
      rw [groupsOf, bytesOf, List.flatMap_cons, ← bytesOf, later, quotient, remainder,
        UInt8.ofNat_toNat, UInt8.ofNat_toNat]
      rfl

theorem length_groupsOf {ip : List UInt8} {n : Nat} (even : ip.length = 2 * n) :
    (groupsOf ip).length = n := by
  induction n generalizing ip with
  | zero => rw [List.length_eq_zero_iff.mp even]; rfl
  | succ n ih =>
      match ip, even with
      | hi :: lo :: rest, even =>
          rw [groupsOf, List.length_cons, ih (by simp at even; omega)]

theorem groupsOf_lt (ip : List UInt8) : ∀ g ∈ groupsOf ip, g < 0x10000 := by
  induction ip using groupsOf.induct with
  | case1 hi lo rest ih =>
      intro g member
      have high := hi.toNat_lt
      have low := lo.toNat_lt
      rcases List.mem_cons.mp member with rfl | later
      · omega
      · exact ih g later
  | case2 ip other =>
      intro g member
      rw [groupsOf] at member
      · cases member
      · exact other

/-- What an IPv4 address has in front of it as an IPv6 one. -/
def v4InV6 : List UInt8 := [0, 0, 0, 0, 0, 0, 0, 0, 0, 0, 0xff, 0xff]

/-- `To4`: an IPv4 address in either form. -/
def to4 (ip : List UInt8) : Option Octets :=
  match ip with
  | [a, b, c, d] => some ⟨a, b, c, d⟩
  | ip =>
      match ip.take 12, ip.drop 12 with
      | front, [a, b, c, d] => if front = v4InV6 then some ⟨a, b, c, d⟩ else none
      | _, _ => none

/-- `IP.String`, for addresses of 4 and of 16 bytes. -/
def ipString (ip : List UInt8) : Text :=
  match to4 ip with
  | some q => string4 q
  | none => string6 (groupsOf ip)

/-- `ParseIP`: 16 bytes. -/
def parseIP (s : Text) : Option (List UInt8) :=
  match parseAddr s with
  | some (.v4 q) => some (v4InV6 ++ q.bytes)
  | some (.v6 gs []) => some (bytesOf gs)
  | _ => none

/-- The 16 bytes of an IPv4 address that has them. -/
theorem eq_of_to4 {ip : List UInt8} {q : Octets} (long : ip.length = 16)
    (mapped : to4 ip = some q) : ip = v4InV6 ++ q.bytes := by
  unfold to4 at mapped
  split at mapped
  · simp at long
  · split at mapped
    · next _ front a b c d isFront isBack =>
        rw [Option.ite_none_right_eq_some, Option.some.injEq] at mapped
        obtain ⟨isPrefix, rfl⟩ := mapped
        rw [← List.take_append_drop 12 ip, isBack, isPrefix]
        rfl
    · cases mapped

theorem to4_bytes (q : Octets) : to4 q.bytes = some q := rfl

theorem to4_v4InV6 (q : Octets) : to4 (v4InV6 ++ q.bytes) = some q := rfl

/-- **The text of 16 bytes is read as these bytes**, also where it is that of an IPv4 address. -/
theorem parseIP_ipString {ip : List UInt8} (long : ip.length = 16) :
    parseIP (ipString ip) = some ip := by
  unfold ipString
  cases mapped : to4 ip with
  | some q => rw [parseIP, parseAddr_string4, eq_of_to4 long mapped]
  | none =>
      have spells : Spells (string6 (groupsOf ip)) (groupsOf ip) :=
        spells_string6 (length_groupsOf long) (groupsOf_lt ip)
      rw [parseIP, parseAddr_of_spells spells]
      exact congrArg some (bytesOf_groupsOf (n := 8) long)

/-- The text of 4 bytes is read as their 16 bytes. -/
theorem parseIP_ipString_bytes (q : Octets) :
    parseIP (ipString q.bytes) = some (v4InV6 ++ q.bytes) := by
  rw [ipString, to4_bytes, parseIP, parseAddr_string4]

end Inet
