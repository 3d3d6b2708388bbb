import FipsExitGate.Lib.Decimal
import Mathlib.Data.List.Nodup
import Mathlib.Tactic.IntervalCases

/-!
# JSON, as Go reads and writes it

A value after its text has been split into tokens, what `encoding/json` makes of it when it is
decoded into a variable, the text of a value, and how much of a text a decoder needs.

What is decoded depends on the variable's type, so there is one decoder for each type, and the
decoder of a struct is put together from those of its fields.  A decoder takes the value that the
variable has, because `null` leaves most variables alone and an object changes only the fields
that it names.  An error does not stop the decoding, but whoever gets one looks at nothing else,
so a decoder with an error has no result.

A member of an object is decoded into the field of its name.  Where there is none it goes to a
field whose name differs in case only, so that a decoder is also fooled by `VAL` for `val`.
`Has` says that an object has certain members and others that are no field's, in any order;
`field_of_has` reads the field off.

A decoder that reads from a stream returns with the bracket that closes the value (`complete`).
If the stream is cut off before, it fails.

## Design notes

* Texts are bytes.  A number is kept as the text of its literal, which is what is parsed.
* A part that is decoded later (`json.RawMessage`) is the subtree.
* The elements of an array are decoded into fresh variables.  A second member of the same name
  would find those of the first.
* `complete` counts brackets.  It is for texts that are an object or an array to begin with.

## Main results

* `field_of_has`, `field_of_has_not` — a field of an object whose other members are no field's
* `length_encode_arr` — the length of an array is that of its elements
* `complete_take_encode` — a decoder needs every byte of an object, and no more
-/

/-- A JSON value. -/
inductive Json where
  | null
  | bool (b : Bool)
  | num (literal : List UInt8)
  | str (s : List UInt8)
  | arr (elems : List Json)
  | obj (members : List (List UInt8 × Json))

namespace Json

/-- A text, as its bytes. -/
abbrev Text := List UInt8

/-- The members of an object. -/
abbrev Members := List (Text × Json)

/-! ## Decoders -/

/-- Decode into a variable that has a value; `none` is an error. -/
abbrev Decoder (α : Type) := α → Json → Option α

/-- An unsigned integer of so many bits. -/
def uint (bits : Nat) : Decoder Nat
  | n, .null => some n
  | _, .num literal => (Decimal.parseNat literal).filter (· < 2 ^ bits)
  | _, _ => none

def string : Decoder Text
  | s, .null => some s
  | _, .str s => some s
  | _, _ => none

/-- A part that is kept as it is, `null` as well. -/
def raw : Decoder (Option Json) := fun _ j => some (some j)

/-- A pointer: `null` makes it nil, and what is decoded into nil is decoded into a new variable. -/
def pointer {α : Type} (zero : α) (d : Decoder α) : Decoder (Option α)
  | _, .null => some none
  | p, j => (d (p.getD zero) j).map some

/-- A slice: `null` makes it nil. -/
def slice {α : Type} (zero : α) (d : Decoder α) : Decoder (Option (List α))
  | _, .null => some none
  | _, .arr elems => (elems.mapM (d zero)).map some
  | _, _ => none

/-- `json.Unmarshal` of a part that was kept; there is nothing in one that is nil. -/
def unmarshal {α : Type} (d : Decoder α) (zero : α) (part : Option Json) : Option α :=
  part.bind (d zero)

/-- What is decoded into a struct: no member for `null`. -/
def members : Json → Option Members
  | .null => some []
  | .obj ms => some ms
  | _ => none

/-- A slice of elements that can all be decoded. -/
theorem slice_map {ι α : Type} {zero : α} {d : Decoder α} {elems : List ι} {j : ι → Json}
    {a : ι → α} (decodes : ∀ i ∈ elems, d zero (j i) = some (a i)) (v : Option (List α)) :
    slice zero d v (.arr (elems.map j)) = some (some (elems.map a)) := by
  have mapped : (elems.map j).mapM (d zero) = some (elems.map a) := by
    induction elems with
    | nil => rfl
    | cons i elems ih =>
        obtain ⟨first, rest⟩ := List.forall_mem_cons.mp decodes
        rw [List.map_cons, List.mapM_cons, first, ih rest]
        rfl
  rw [slice, mapped, Option.map_some]

/-! ## Fields -/

/-- `foldName`, up to what no ASCII name has: ASCII letters in upper case, and the two other
letters that have an ASCII one in their orbit, `ſ` and the Kelvin sign. -/
def foldName : Text → Text
  | [] => []
  | 0xc5 :: 0xbf :: s => 0x53 :: foldName s
  | 0xe2 :: 0x84 :: 0xaa :: s => 0x4b :: foldName s
  | b :: s => (if 0x61 ≤ b ∧ b ≤ 0x7a then b - 0x20 else b) :: foldName s

/-- The field of a struct with these names that a member is for. -/
def fieldFor (names : List Text) (key : Text) : Option Text :=
  if key ∈ names then some key else names.find? fun name => foldName name = foldName key

/-- The field is decoded from each member that is for it. -/
def field {α : Type} (names : List Text) (name : Text) (d : Decoder α) (ms : Members) (v : α) :
    Option α :=
  (ms.filter fun m => fieldFor names m.1 = some name).foldlM (fun v m => d v m.2) v

/-- **The members `known`, and others**, in any order.  Those known are fields of the struct, each
once; the others are for none. -/
structure Has (names : List Text) (ms known : Members) : Prop where
  nodup : (known.map Prod.fst).Nodup
  isField : ∀ m ∈ known, m.1 ∈ names
  others : ∃ rest : Members, ms.Perm (known ++ rest) ∧
    ∀ m ∈ rest, foldName m.1 ∉ names.map foldName

section Fields

variable {α : Type} {names : List Text} {ms known : Members} {name : Text}

theorem fieldFor_of_mem (isName : name ∈ names) : fieldFor names name = some name :=
  if_pos isName

theorem fieldFor_eq_none {key : Text} (other : foldName key ∉ names.map foldName) :
    fieldFor names key = none := by
  rw [fieldFor, if_neg fun isName => other (List.mem_map_of_mem isName), List.find?_eq_none]
  intro n isName same
  exact other (List.mem_map.mpr ⟨n, isName, of_decide_eq_true same⟩)

theorem has_nil (names : List Text) : Has names [] [] :=
  ⟨List.nodup_nil, nofun, [], .nil, nofun⟩

/-- One more member that is no field's. -/
theorem Has.other (has : Has names ms known) (j : Json)
    (other : foldName name ∉ names.map foldName) : Has names ((name, j) :: ms) known := by
  obtain ⟨rest, perm, others⟩ := has.others
  refine ⟨has.nodup, has.isField, (name, j) :: rest, ?_, List.forall_mem_cons.mpr ⟨other, others⟩⟩
  exact (perm.cons _).trans List.perm_middle.symm

/-- One more member that is a field's. -/
theorem Has.add (has : Has names ms known) (j : Json) (isName : name ∈ names)
    (fresh : name ∉ known.map Prod.fst) : Has names ((name, j) :: ms) ((name, j) :: known) := by
  obtain ⟨rest, perm, others⟩ := has.others
  exact ⟨List.nodup_cons.mpr ⟨fresh, has.nodup⟩, List.forall_mem_cons.mpr ⟨isName, has.isField⟩,
    rest, perm.cons _, others⟩

/-- The members for a field are among the known ones. -/
theorem Has.filter_perm (has : Has names ms known) (name : Text) :
    (ms.filter fun m => fieldFor names m.1 = some name).Perm
      (known.filter fun m => m.1 = name) := by
  obtain ⟨rest, perm, others⟩ := has.others
  have ofRest : (rest.filter fun m => fieldFor names m.1 = some name) = [] := by
    rw [List.filter_eq_nil_iff]
    intro m member
    simp [fieldFor_eq_none (others m member)]
  have ofKnown : (known.filter fun m => fieldFor names m.1 = some name) =
      known.filter fun m => m.1 = name := by
    refine List.filter_congr fun m member => ?_
    simp only [fieldFor_of_mem (has.isField m member), Option.some.injEq]
  refine (perm.filter _).trans ?_
  rw [List.filter_append, ofRest, List.append_nil, ofKnown]

/-- **A field that the object has** is decoded from its one member. -/
theorem field_of_has (has : Has names ms known) {j : Json} (member : (name, j) ∈ known)
    (d : Decoder α) (v : α) : field names name d ms v = d v j := by
  have once : (known.filter fun m => m.1 = name) = [(name, j)] := by
    have nodup := List.inj_on_of_nodup_map has.nodup
    have isSingle : (known.filter fun m => m.1 = name).Nodup :=
      (List.Nodup.of_map _ has.nodup).filter _
    refine List.perm_singleton.mp ((List.perm_ext_iff_of_nodup isSingle
      (List.nodup_singleton _)).mpr fun m => ?_)
    rw [List.mem_filter, List.mem_singleton, decide_eq_true_eq]
    constructor
    · rintro ⟨isKnown, same⟩
      exact nodup isKnown member same
    · rintro rfl
      exact ⟨member, rfl⟩
  have perm := has.filter_perm name
  rw [once] at perm
  rw [field, List.perm_singleton.mp perm, List.foldlM_cons]
  exact bind_pure _

/-- A field that the object does not have keeps its value. -/
theorem field_of_has_not (has : Has names ms known) (absent : name ∉ known.map Prod.fst)
    (d : Decoder α) (v : α) : field names name d ms v = some v := by
  have noMember : (known.filter fun m => m.1 = name) = [] := by
    rw [List.filter_eq_nil_iff]
    intro m member same
    exact absent (List.mem_map.mpr ⟨m, member, of_decide_eq_true same⟩)
  have perm := has.filter_perm name
  rw [noMember] at perm
  rw [field, perm.eq_nil]
  rfl

end Fields

/-! ## Encoding -/

/-- The digit of a nibble. -/
def hexDigit (n : UInt8) : UInt8 := if n < 10 then 0x30 + n else 0x57 + n

/-- A byte of a string: quotes, backslashes, control characters and what HTML reads are escaped. -/
def escapeByte (b : UInt8) : Text :=
  if b = 0x22 ∨ b = 0x5c then [0x5c, b]
  else if b = 0x08 then [0x5c, 0x62]
  else if b = 0x0c then [0x5c, 0x66]
  else if b = 0x0a then [0x5c, 0x6e]
  else if b = 0x0d then [0x5c, 0x72]
  else if b = 0x09 then [0x5c, 0x74]
  else if b < 0x20 ∨ b = 0x3c ∨ b = 0x3e ∨ b = 0x26 then
    [0x5c, 0x75, 0x30, 0x30, hexDigit (b / 16), hexDigit (b % 16)]
  else [b]

/-- A string that is valid UTF-8; the two separators that JavaScript takes for a new line are
escaped as well. -/
def escape : Text → Text
  | [] => []
  | 0xe2 :: 0x80 :: 0xa8 :: s => [0x5c, 0x75, 0x32, 0x30, 0x32, 0x38] ++ escape s
  | 0xe2 :: 0x80 :: 0xa9 :: s => [0x5c, 0x75, 0x32, 0x30, 0x32, 0x39] ++ escape s
  | b :: s => escapeByte b ++ escape s

def quote (s : Text) : Text := 0x22 :: (escape s ++ [0x22])

mutual

/-- `json.Marshal`: no blanks. -/
def encode : Json → Text
  | .null => [0x6e, 0x75, 0x6c, 0x6c]
  | .bool true => [0x74, 0x72, 0x75, 0x65]
  | .bool false => [0x66, 0x61, 0x6c, 0x73, 0x65]
  | .num literal => literal
  | .str s => quote s
  | .arr elems => 0x5b :: (encodeElems elems ++ [0x5d])
  | .obj members => 0x7b :: (encodeMembers members ++ [0x7d])

def encodeElems : List Json → Text
  | [] => []
  | [j] => encode j
  | j :: j' :: elems => encode j ++ 0x2c :: encodeElems (j' :: elems)

def encodeMembers : List (Text × Json) → Text
  | [] => []
  | [(key, j)] => quote key ++ 0x3a :: encode j
  | (key, j) :: m :: members =>
      quote key ++ 0x3a :: (encode j ++ 0x2c :: encodeMembers (m :: members))

end

theorem length_quote (s : Text) : (quote s).length = (escape s).length + 2 := by
  simp [quote]

/-- Every element has a comma behind it, or the closing bracket. -/
theorem length_encode_arr {elems : List Json} (notEmpty : elems ≠ []) :
    (encode (.arr elems)).length = 1 + (elems.map fun j => (encode j).length + 1).sum := by
  have length : (encodeElems elems).length + 1 =
      (elems.map fun j => (encode j).length + 1).sum := by
    induction elems with
    | nil => exact absurd rfl notEmpty
    | cons j elems ih =>
        cases elems with
        | nil => simp [encodeElems]
        | cons j' elems =>
            have later := ih (List.cons_ne_nil j' elems)
            rw [encodeElems, List.map_cons, List.sum_cons, ← later]
            simp
            omega
  rw [encode, List.length_cons, List.length_append, ← length]
  simp
  omega

/-! ## The end of a value -/

/-- Where a decoder is in the text of an object or an array. -/
structure Scan where
  depth : Nat
  inString : Bool
  escaped : Bool

/-- The decoder before the first byte. -/
def Scan.start : Scan := ⟨0, false, false⟩

/-- The decoder in the brackets, and not in a string. -/
def Scan.inside (depth : Nat) : Scan := ⟨depth + 1, false, false⟩

def Scan.next (s : Scan) (b : UInt8) : Scan :=
  if s.inString then
    if s.escaped then { s with escaped := false }
    else if b = 0x5c then { s with escaped := true }
    else if b = 0x22 then { s with inString := false }
    else s
  else if b = 0x22 then { s with inString := true }
  else if b = 0x5b ∨ b = 0x7b then { s with depth := s.depth + 1 }
  else if b = 0x5d ∨ b = 0x7d then { s with depth := s.depth - 1 }
  else s

/-- The byte closes the value. -/
def Scan.closes (s : Scan) (b : UInt8) : Bool :=
  !s.inString && (b = 0x5d || b = 0x7d) && (s.next b).depth = 0

/-- The text of an object or an array is all there: `Decode` returns with the bracket that closes
it, and waits for more without. -/
def complete (s : Scan) : Text → Bool
  | [] => false
  | b :: text => s.closes b || complete (s.next b) text

theorem complete_append {s : Scan} {text : Text} (isComplete : complete s text = true)
    (rest : Text) : complete s (text ++ rest) = true := by
  induction text generalizing s with
  | nil => cases isComplete
  | cons b text ih =>
      rw [complete, Bool.or_eq_true] at isComplete
      rw [List.cons_append, complete, Bool.or_eq_true]
      exact isComplete.imp id ih

/-- A byte that is neither a quote nor a bracket. -/
def IsPlain (b : UInt8) : Prop := b ≠ 0x22 ∧ b ≠ 0x5b ∧ b ≠ 0x7b ∧ b ≠ 0x5d ∧ b ≠ 0x7d

instance (b : UInt8) : Decidable (IsPlain b) := inferInstanceAs (Decidable (_ ∧ _))

theorem complete_inside_cons (depth : Nat) {b : UInt8} (text : Text) (plain : IsPlain b) :
    complete (.inside depth) (b :: text) = complete (.inside depth) text := by
  obtain ⟨quote, bracket, brace, bracket', brace'⟩ := plain
  simp [complete, Scan.closes, Scan.next, Scan.inside, quote, bracket, brace, bracket', brace']

/-- The decoder in a string. -/
def Scan.quoted (depth : Nat) : Scan := ⟨depth + 1, true, false⟩

theorem complete_quoted_cons (depth : Nat) {b : UInt8} (text : Text)
    (plain : b ≠ 0x22 ∧ b ≠ 0x5c) :
    complete (.quoted depth) (b :: text) = complete (.quoted depth) text := by
  simp [complete, Scan.closes, Scan.next, Scan.quoted, plain.1, plain.2]

/-- What is escaped does not end the string. -/
theorem complete_quoted_escaped (depth : Nat) (b : UInt8) (text : Text) :
    complete (.quoted depth) (0x5c :: b :: text) = complete (.quoted depth) text := by
  simp [complete, Scan.closes, Scan.next, Scan.quoted]

/-- A character that is escaped by its number. -/
theorem complete_quoted_unicode (depth : Nat) (digits : Text)
    (plain : ∀ b ∈ digits, b ≠ 0x22 ∧ b ≠ 0x5c) (text : Text) :
    complete (.quoted depth) (0x5c :: 0x75 :: (digits ++ text)) =
      complete (.quoted depth) text := by
  rw [complete_quoted_escaped]
  induction digits with
  | nil => rfl
  | cons b digits ih =>
      obtain ⟨first, rest⟩ := List.forall_mem_cons.mp plain
      rw [List.cons_append, complete_quoted_cons depth _ first, ih rest]

theorem hexDigit_plain {n : UInt8} (small : n < 16) : hexDigit n ≠ 0x22 ∧ hexDigit n ≠ 0x5c := by
  rw [UInt8.lt_iff_toNat_lt] at small
  have isNibble : n = UInt8.ofNat n.toNat := UInt8.ofNat_toNat.symm
  rw [isNibble]
  generalize n.toNat = k at small
  change k < 16 at small
  interval_cases k <;> decide

/-- In a string, nothing closes the value. -/
theorem complete_escapeByte (depth : Nat) (b : UInt8) (text : Text) :
    complete (.quoted depth) (escapeByte b ++ text) = complete (.quoted depth) text := by
  have high : b / 16 < 16 := by
    rw [UInt8.lt_iff_toNat_lt, UInt8.toNat_div]
    have := b.toNat_lt
    exact Nat.div_lt_of_lt_mul this
  have low : b % 16 < 16 := by
    rw [UInt8.lt_iff_toNat_lt, UInt8.toNat_mod]
    exact Nat.mod_lt _ (by decide)
  unfold escapeByte
  split_ifs with special _ _ _ _ _ _
  all_goals try exact complete_quoted_escaped depth _ text
  · refine complete_quoted_unicode depth [0x30, 0x30, _, _] ?_ text
    simp [hexDigit_plain high, hexDigit_plain low]
  · exact complete_quoted_cons depth text (not_or.mp special)

theorem complete_escape (depth : Nat) (s text : Text) :
    complete (.quoted depth) (escape s ++ text) = complete (.quoted depth) text := by
  induction s using escape.induct with
  | case1 => rfl
  | case2 s ih =>
      have separator := complete_quoted_unicode depth [0x32, 0x30, 0x32, 0x38]
        (by simp) (escape s ++ text)
      exact separator.trans ih
  | case3 s ih =>
      have separator := complete_quoted_unicode depth [0x32, 0x30, 0x32, 0x39]
        (by simp) (escape s ++ text)
      exact separator.trans ih
  | case4 b s other other' ih =>
      rw [escape, List.append_assoc, complete_escapeByte, ih]
      · exact other
      · exact other'

/-- **A string is passed over.** -/
theorem complete_quote (depth : Nat) (s text : Text) :
    complete (.inside depth) (quote s ++ text) = complete (.inside depth) text := by
  have opens : ∀ text, complete (.inside depth) (0x22 :: text) = complete (.quoted depth) text :=
    fun _ => rfl
  have ends : ∀ text, complete (.quoted depth) (0x22 :: text) = complete (.inside depth) text :=
    fun _ => rfl
  rw [quote, List.cons_append, opens, List.append_assoc, complete_escape]
  exact ends text

mutual

/-- The numbers of the value are numbers, as far as quotes and brackets go. -/
def PlainNumbers : Json → Prop
  | .num literal => ∀ b ∈ literal, IsPlain b
  | .arr elems => PlainElems elems
  | .obj members => PlainMembers members
  | _ => True

def PlainElems : List Json → Prop
  | [] => True
  | j :: elems => PlainNumbers j ∧ PlainElems elems

def PlainMembers : List (Text × Json) → Prop
  | [] => True
  | (_, j) :: members => PlainNumbers j ∧ PlainMembers members

end

theorem complete_plain (depth : Nat) {s : Text} (plain : ∀ b ∈ s, IsPlain b) (text : Text) :
    complete (.inside depth) (s ++ text) = complete (.inside depth) text := by
  induction s with
  | nil => rfl
  | cons b s ih =>
      obtain ⟨first, rest⟩ := List.forall_mem_cons.mp plain
      rw [List.cons_append, complete_inside_cons depth _ first, ih rest]

/-- A bracket in the value opens one more level, and one less is left when it closes. -/
theorem complete_closes (depth : Nat) {b : UInt8} (closing : b = 0x5d ∨ b = 0x7d) (text : Text) :
    complete (.inside (depth + 1)) (b :: text) = complete (.inside depth) text := by
  rcases closing with rfl | rfl <;> rfl

mutual

/-- **A value in the brackets is passed over.** -/
theorem complete_encode (depth : Nat) (j : Json) (plain : PlainNumbers j) (text : Text) :
    complete (.inside depth) (encode j ++ text) = complete (.inside depth) text := by
  cases j with
  | null => exact complete_plain depth (by simp [encode, IsPlain]) text
  | bool b => cases b <;> exact complete_plain depth (by simp [encode, IsPlain]) text
  | num literal => exact complete_plain depth plain text
  | str s => exact complete_quote depth s text
  | arr elems =>
      have opens : ∀ text, complete (.inside depth) (0x5b :: text) =
        complete (.inside (depth + 1)) text := fun _ => rfl
      rw [encode, List.cons_append, opens, List.append_assoc, complete_encodeElems _ _ plain]
      exact complete_closes depth (.inl rfl) text
  | obj members =>
      have opens : ∀ text, complete (.inside depth) (0x7b :: text) =
        complete (.inside (depth + 1)) text := fun _ => rfl
      rw [encode, List.cons_append, opens, List.append_assoc, complete_encodeMembers _ _ plain]
      exact complete_closes depth (.inr rfl) text

theorem complete_encodeElems (depth : Nat) (elems : List Json) (plain : PlainElems elems)
    (text : Text) :
    complete (.inside depth) (encodeElems elems ++ text) = complete (.inside depth) text := by
  match elems, plain with
  | [], _ => rfl
  | [j], plain => exact complete_encode depth j plain.1 text
  | j :: j' :: elems, plain =>
      rw [encodeElems, List.append_assoc, complete_encode depth j plain.1, List.cons_append,
        complete_inside_cons depth _ (by decide),
        complete_encodeElems depth (j' :: elems) plain.2]

theorem complete_encodeMembers (depth : Nat) (members : List (Text × Json))
    (plain : PlainMembers members) (text : Text) :
    complete (.inside depth) (encodeMembers members ++ text) = complete (.inside depth) text := by
  match members, plain with
  | [], _ => rfl
  | [(key, j)], plain =>
      rw [encodeMembers, List.append_assoc, complete_quote, List.cons_append,
        complete_inside_cons depth _ (by decide), complete_encode depth j plain.1]
  | (key, j) :: m :: members, plain =>
      rw [encodeMembers, List.append_assoc, complete_quote, List.cons_append,
        complete_inside_cons depth _ (by decide), List.append_assoc,
        complete_encode depth j plain.1, List.cons_append,
        complete_inside_cons depth _ (by decide),
        complete_encodeMembers depth (m :: members) plain.2]

end

/-- **The decoder needs every byte of an object**, and no more. -/
theorem complete_take_encode {members : Members} (plain : PlainMembers members) (n : Nat) :
    complete .start ((encode (.obj members)).take n) = true ↔
      (encode (.obj members)).length ≤ n := by
  have opens : ∀ text, complete .start (0x7b :: text) = complete (.inside 0) text := fun _ => rfl
  have isText : encode (.obj members) = (0x7b :: encodeMembers members) ++ [0x7d] := rfl
  constructor
  · intro isComplete
    by_contra short
    -- what is read is a part of the text without its last byte, which is not complete
    have cut : (encode (.obj members)).take n =
        (0x7b :: encodeMembers members).take n := by
      rw [isText, List.take_append_of_le_length]
      rw [isText, List.length_append, List.length_singleton] at short
      omega
    have isPart := complete_append (cut ▸ isComplete) ((0x7b :: encodeMembers members).drop n)
    rw [List.take_append_drop, opens, ← List.append_nil (encodeMembers members),
      complete_encodeMembers 0 members plain] at isPart
    cases isPart
  · intro whole
    rw [List.take_of_length_le whole, isText, List.cons_append, opens,
      complete_encodeMembers 0 members plain]
    rfl

end Json
