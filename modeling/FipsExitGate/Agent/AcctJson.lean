import FipsExitGate.Agent.AddrText
import FipsExitGate.Agent.Usage
import FipsExitGate.Lib.Json
import FipsExitGate.Lib.LastWriter

/-!
# Reading the accounting set

`ReadAcct` of `firewall.go`.  The agent runs `nft -j list set` and takes the counters out of the
JSON that nft prints.  An element that is not of an expected form is skipped without an error, by
the decoder of the element, by that of its key, by that of the port, or by that of the address.
So a form that nft prints and the agent does not expect costs the traffic of every element that
has it.

There is one: a port that is printed by the name of its service.  The comment of `parsePort` has
it ("for well-known ports, a service name string"), and its code reads the string as the port of
`[::]:<string>`, which takes digits only.

## The argument

A `Printed` is an element of the set with a text that nft may print for it, and a `Listing` is a
set with such a text for each of its elements.  Both carry what makes them so.  The decoders are
followed through every form: `unmarshalJSON_printed`, `concatParts_isVal` and `readEntry_eq` say
what is read of one element, and that is the element, or nothing if its port is a name.

## Design notes

* The address is any text of the address, not only that which `inet_ntop` prints.
* Objects may have members that the agent does not know, in any order.
* The table of the agent is two words, and the output of nft is that of its run without an error.
* `netip.Addr` is `Inet.Parsed`, so that an address with a zone has its own key.

## Main results

* `acct_complete_iff` — what is read is the set, unless a port is printed as a name
* `socks_by_name_lost` — with the example of the comment, the traffic is lost
-/

namespace FipsExitGate.Agent

open Json

/-! ## Decoding -/

/-- The key of `ReadAcct`'s result: `acctKey`. -/
structure NetipKey where
  addr : Inet.Parsed
  port : BitVec 16
  deriving DecidableEq, Repr

/-- The result of `ReadAcct`. -/
abbrev NetipCounters := AList fun _ : NetipKey => Nat

/-- `strconv.ParseUint` in base 10, at 16 bits. -/
def parseUint16 (s : Text) : Option (BitVec 16) :=
  ((Decimal.parseNat s).filter (· < 2 ^ 16)).map (BitVec.ofNat 16)

/-- `splitAddrPort`: the address, the port, and whether the address is in brackets. -/
def splitAddrPort (s : Text) : Option (Text × Text × Bool) :=
  (lastIndexByte s 0x3a).bind fun i =>
    let ip := s.take i
    let port := s.drop (i + 1)
    if ip = [] then none
    else if port = [] then none
    else if ip.head? = some 0x5b then
      if ip.length < 2 ∨ ip.getLast? ≠ some 0x5d then none
      else some (ip.tail.dropLast, port, true)
    else some (ip, port, false)

/-- `netip.ParseAddrPort`. -/
def parseAddrPort (s : Text) : Option (Inet.Parsed × BitVec 16) := do
  let (ip, port, v6) ← splitAddrPort s
  let port ← parseUint16 port
  match ← Inet.parseAddr ip with
  | .v4 q => if v6 then none else some (.v4 q, port)
  | .v6 groups zone => if v6 then some (.v6 groups zone, port) else none

/-- `nftElemWrapper.Elem`. -/
structure NftElem where
  val : Option Json
  counter : Option Nat

/-- `nftElemWrapper`. -/
structure NftElemWrapper where
  elem : Option NftElem
  bare : Option Json

structure NftSet where
  name : Text
  elem : Option (List NftElemWrapper)

def counterNames : List Text := [utf8 "bytes"]
def elemNames : List Text := [utf8 "val", utf8 "counter"]
def wrapperNames : List Text := [utf8 "elem"]
def setNames : List Text := [utf8 "name", utf8 "elem"]
def itemNames : List Text := [utf8 "set"]
def docNames : List Text := [utf8 "nftables"]
def concatNames : List Text := [utf8 "concat"]

def decodeCounter : Decoder Nat := fun bytes j => do
  let ms ← members j
  field counterNames (utf8 "bytes") (uint 64) ms bytes

def decodeElem : Decoder NftElem := fun e j => do
  let ms ← members j
  let val ← field elemNames (utf8 "val") raw ms e.val
  let counter ← field elemNames (utf8 "counter") (pointer 0 decodeCounter) ms e.counter
  pure ⟨val, counter⟩

/-- The `alias` of `UnmarshalJSON`; its `Bare` is no member. -/
def decodeAlias : Decoder (Option NftElem) := fun elem j => do
  let ms ← members j
  field wrapperNames (utf8 "elem") (pointer ⟨none, none⟩ decodeElem) ms elem

/-- `nftElemWrapper.UnmarshalJSON`. -/
def unmarshalJSON (b : Json) : NftElemWrapper :=
  match decodeAlias none b with
  | some (some elem) => ⟨some elem, none⟩
  | _ => ⟨none, some b⟩

def decodeSet : Decoder NftSet := fun set j => do
  let ms ← members j
  let name ← field setNames (utf8 "name") string ms set.name
  let elem ← field setNames (utf8 "elem")
    (slice ⟨none, none⟩ fun _ b => some (unmarshalJSON b)) ms set.elem
  pure ⟨name, elem⟩

def decodeItem : Decoder (Option NftSet) := fun set j => do
  let ms ← members j
  field itemNames (utf8 "set") (pointer ⟨[], none⟩ decodeSet) ms set

/-- `nftJSON`: the sets of `Nftables`, nil ones as well. -/
def decodeDoc : Decoder (Option (List (Option NftSet))) := fun nftables j => do
  let ms ← members j
  field docNames (utf8 "nftables") (slice none decodeItem) ms nftables

/-- `listSet`, from the output of nft; `none` is an error. -/
def listSet (out : Option Json) : Option (Option (List (Option NftSet))) :=
  unmarshal decodeDoc none out

def decodeConcat : Decoder (Option (List (Option Json))) := fun concat j => do
  let ms ← members j
  field concatNames (utf8 "concat") (slice none raw) ms concat

/-- `concatParts`. -/
def concatParts (val : Option Json) : Option (List (Option Json)) :=
  match unmarshal decodeConcat none val with
  | some (some parts) => some parts
  | _ => (unmarshal (slice none raw) none val).map fun arr => arr.getD []

/-- `parsePort`. -/
def parsePort (part : Option Json) : Option (BitVec 16) :=
  match unmarshal (uint 16) 0 part with
  | some n => some (BitVec.ofNat 16 n)
  | none => do
      let s ← unmarshal string [] part
      let (_, port) ← parseAddrPort (utf8 "[::]:" ++ s)
      pure port

/-- The body of `ReadAcct`'s loop: what is entered, if the element is not skipped. -/
def readEntry (e : NftElemWrapper) : Option (NetipKey × Nat) :=
  match e.elem with
  | some ⟨val, some bytes⟩ => do
      match ← concatParts val with
      | [addr, port] => do
          let addrStr ← unmarshal string [] addr
          let port ← parsePort port
          let addr ← Inet.parseAddr addrStr
          pure (⟨addr, port⟩, bytes)
      | _ => none
  | _ => none

/-- The elements that the loops of `ReadAcct` visit. -/
def visited (nftables : Option (List (Option NftSet))) : List NftElemWrapper :=
  (nftables.getD []).flatMap fun set => (set.bind NftSet.elem).getD []

/-- `ReadAcct`. -/
def readAcct (out : Option Json) : Option NetipCounters :=
  (listSet out).map fun nftables =>
    ((visited nftables).filterMap readEntry).foldl (fun acct entry => acct.insert entry.1 entry.2) ∅

/-! ## What nft prints -/

/-- The service names that a system knows.  A service name is not a number. -/
structure Services where
  names : BitVec 16 → List Text
  notNumber : ∀ port, ∀ s ∈ names port, ∃ c ∈ s, Decimal.isDigit c = false

/-- How a port is printed. -/
inductive PortText (services : Services) (port : BitVec 16) where
  | number
  | decimal (s : Text) (reads : Decimal.parseNat s = some port.toNat)
  | name (s : Text) (isName : s ∈ services.names port)

def PortText.json {services : Services} {port : BitVec 16} : PortText services port → Json
  | .number => .num (Decimal.formatNat port.toNat)
  | .decimal s _ => .str s
  | .name s _ => .str s

/-- The port is printed by the name of its service. -/
def PortText.IsName {services : Services} {port : BitVec 16} : PortText services port → Prop
  | .name .. => True
  | _ => False

/-- The forms of a key: an object with a `concat`, or an array. -/
inductive IsVal (addr port : Json) : Json → Prop
  | concat {ms : Members} :
      Has concatNames ms [(utf8 "concat", .arr [addr, port])] → IsVal addr port (.obj ms)
  | bare : IsVal addr port (.arr [addr, port])

/-- An element of the accounting set, with a text that nft may print for it. -/
structure Printed (services : Services) where
  addr : BitVec 128
  port : BitVec 16
  bytes : Nat
  bytes_lt : bytes < 2 ^ 64
  addrText : Text
  spells : Inet.Spells addrText (groups addr)
  portText : PortText services port
  val : Json
  isVal : IsVal (.str addrText) portText.json val
  counter : Members
  hasBytes : Has counterNames counter [(utf8 "bytes", .num (Decimal.formatNat bytes))]
  inner : Members
  hasVal : Has elemNames inner [(utf8 "val", val), (utf8 "counter", .obj counter)]
  outer : Members
  hasElem : Has wrapperNames outer [(utf8 "elem", .obj inner)]

def AcctKey.netip (k : AcctKey) : NetipKey := ⟨Agent.netip k.addr, k.port⟩

section Printed

variable {services : Services}

/-- The element that was printed. -/
def Printed.reading (e : Printed services) : Reading := ⟨⟨.v6 e.addr, e.port⟩, e.bytes⟩

def Printed.json (e : Printed services) : Json := .obj e.outer

/-! ## What is read of one element -/

theorem uint_formatNat {bits n : Nat} (small : n < 2 ^ bits) (v : Nat) :
    uint bits v (.num (Decimal.formatNat n)) = some n := by
  rw [uint, Decimal.parseNat_formatNat, Option.filter_some, if_pos (decide_eq_true small)]

theorem decodeCounter_printed (e : Printed services) (v : Nat) :
    decodeCounter v (.obj e.counter) = some e.bytes := by
  show field counterNames (utf8 "bytes") (uint 64) e.counter v = some e.bytes
  rw [field_of_has e.hasBytes List.mem_cons_self, uint_formatNat e.bytes_lt]

theorem decodeElem_printed (e : Printed services) (v : NftElem) :
    decodeElem v (.obj e.inner) = some ⟨some e.val, some e.bytes⟩ := by
  have val := field_of_has e.hasVal List.mem_cons_self raw v.val
  have counter := field_of_has e.hasVal (List.mem_cons_of_mem _ List.mem_cons_self)
    (pointer 0 decodeCounter) v.counter
  have isCounter : pointer 0 decodeCounter v.counter (.obj e.counter) = some (some e.bytes) := by
    rw [pointer, decodeCounter_printed, Option.map_some]
    exact nofun
  simp only [decodeElem, members, Option.bind_eq_bind, Option.bind_some, val, raw, counter,
    isCounter, Option.pure_def]

/-- **The wrapper is recognised.** -/
theorem unmarshalJSON_printed (e : Printed services) :
    unmarshalJSON e.json = ⟨some ⟨some e.val, some e.bytes⟩, none⟩ := by
  have isAlias : decodeAlias none e.json = some (some ⟨some e.val, some e.bytes⟩) := by
    show field wrapperNames (utf8 "elem") (pointer ⟨none, none⟩ decodeElem) e.outer none = _
    rw [field_of_has e.hasElem List.mem_cons_self, pointer, decodeElem_printed, Option.map_some]
    exact nofun
  rw [unmarshalJSON, isAlias]

/-- **Both forms of the key** have the two parts. -/
theorem concatParts_isVal {addr port val : Json} (isVal : IsVal addr port val) :
    concatParts (some val) = some [some addr, some port] := by
  have parts : ∀ v : Option (List (Option Json)),
      slice none raw v (.arr [addr, port]) = some (some [some addr, some port]) := fun _ => rfl
  cases isVal with
  | @concat ms has =>
      have isConcat : ∀ v, decodeConcat v (.obj ms) = some (some [some addr, some port]) := by
        intro v
        show field concatNames (utf8 "concat") (slice none raw) ms v = _
        rw [field_of_has has List.mem_cons_self, parts]
      rw [concatParts, unmarshal, Option.bind_some, isConcat]
  | bare => rfl

end Printed

/-! ## Ports -/

/-- What is split at the last colon. -/
theorem splitAddrPort_last (ip : Text) {port : Text} (noColon : 0x3a ∉ port) :
    splitAddrPort (ip ++ 0x3a :: port) =
      if ip = [] then none
      else if port = [] then none
      else if ip.head? = some 0x5b then
        if ip.length < 2 ∨ ip.getLast? ≠ some 0x5d then none
        else some (ip.tail.dropLast, port, true)
      else some (ip, port, false) := by
  have behind : (ip ++ 0x3a :: port).drop (ip.length + 1) = port := by
    rw [← List.drop_drop, List.drop_left, List.drop_one, List.tail_cons]
  rw [splitAddrPort, lastIndexByte_append noColon, Option.bind_some, List.take_left, behind]

/-- A text that has no colon is the port. -/
theorem splitAddrPort_bracketed {s : Text} (noColon : 0x3a ∉ s) (notEmpty : s ≠ []) :
    splitAddrPort (utf8 "[::]:" ++ s) = some ([0x3a, 0x3a], s, true) := by
  show splitAddrPort ([0x5b, 0x3a, 0x3a, 0x5d] ++ 0x3a :: s) = _
  rw [splitAddrPort_last _ noColon]
  simp [notEmpty]

/-- Digits are read as the port. -/
theorem parseAddrPort_decimal {s : Text} {port : BitVec 16}
    (reads : Decimal.parseNat s = some port.toNat) :
    parseAddrPort (utf8 "[::]:" ++ s) = some (.v6 (List.replicate 8 0) [], port) := by
  have isPort : parseUint16 s = some port := by
    rw [parseUint16, reads, Option.filter_some, if_pos (decide_eq_true port.isLt), Option.map_some,
      BitVec.ofNat_toNat, BitVec.setWidth_eq]
  rw [Decimal.parseNat, Option.ite_none_right_eq_some] at reads
  obtain ⟨⟨notEmpty, digits⟩, -⟩ := reads
  have noColon : 0x3a ∉ s := fun member =>
    absurd (List.all_eq_true.mp digits 0x3a member) (by decide)
  have isAddr : Inet.parseAddr [0x3a, 0x3a] = some (.v6 (List.replicate 8 0) []) := rfl
  rw [parseAddrPort, splitAddrPort_bracketed noColon notEmpty]
  simp [isPort, isAddr]

/-- There is no address that goes on with a bracket after its first two colons. -/
theorem parseAddr_bracket (s : Text) : Inet.parseAddr (0x3a :: 0x3a :: 0x5d :: s) = none := by
  have noGroups : ∀ s, Inet.parseGroups (0x3a :: 0x3a :: 0x5d :: s) = none := fun _ => rfl
  show Inet.parseIPv6 (0x3a :: 0x3a :: 0x5d :: s) = none
  rw [Inet.parseIPv6]
  split
  · rw [noGroups, Option.map_none]
  · split
    · rfl
    · have head : (0x3a :: 0x3a :: 0x5d :: s).takeWhile (· ≠ 0x25) =
          0x3a :: 0x3a :: 0x5d :: s.takeWhile (· ≠ 0x25) := by
        simp
      rw [head, noGroups, Option.map_none]

/-- A text that has a colon leaves no address in front of its last one. -/
theorem splitAddrPort_colon {s : Text} (colon : 0x3a ∈ s) :
    splitAddrPort (utf8 "[::]:" ++ s) = none ∨
      ∃ inner port, splitAddrPort (utf8 "[::]:" ++ s) =
        some (0x3a :: 0x3a :: 0x5d :: inner, port, true) := by
  obtain ⟨port, front, isReverse, noColon⟩ :=
    List.eq_append_cons_of_mem (List.mem_reverse.mpr colon)
  have isAppend : s = front.reverse ++ 0x3a :: port.reverse := by
    rw [← List.reverse_reverse s, isReverse]
    simp
  have whole : utf8 "[::]:" ++ s =
      (0x5b :: 0x3a :: 0x3a :: 0x5d :: 0x3a :: front.reverse) ++ 0x3a :: port.reverse := by
    rw [isAppend]
    rfl
  rw [whole, splitAddrPort_last _ (by simpa using noColon)]
  by_cases noPort : port = []
  · simp [noPort]
  cases front with
  | nil => simp
  | cons last front =>
      by_cases bracket : last = 0x5d
      · right
        refine ⟨0x3a :: front.reverse, port.reverse, ?_⟩
        simp [noPort, bracket, List.getLast?_cons, List.dropLast_cons_of_ne_nil]
      · left
        simp [bracket, List.getLast?_cons]

/-- **A name is not read**: a port has digits only, and behind another colon there is no address
in front. -/
theorem parseAddrPort_name {s : Text} {c : UInt8} (member : c ∈ s)
    (notDigit : Decimal.isDigit c = false) : parseAddrPort (utf8 "[::]:" ++ s) = none := by
  by_cases colon : 0x3a ∈ s
  · rcases splitAddrPort_colon colon with isNone | ⟨inner, port, isSome⟩
    · rw [parseAddrPort, isNone]
      rfl
    · rw [parseAddrPort, isSome]
      cases parseUint16 port <;> simp [parseAddr_bracket]
  · have noPort : parseUint16 s = none := by
      have notAll : ¬ (s ≠ [] ∧ s.all Decimal.isDigit = true) := by
        rintro ⟨-, digits⟩
        exact absurd (List.all_eq_true.mp digits c member) (by rw [notDigit]; exact nofun)
      rw [parseUint16, Decimal.parseNat, if_neg notAll]
      rfl
    rw [parseAddrPort, splitAddrPort_bracketed colon (List.ne_nil_of_mem member)]
    simp [noPort]

section Listing

variable {services : Services}

theorem parsePort_printed {port : BitVec 16} {text : PortText services port}
    (notName : ¬ text.IsName) : parsePort (some text.json) = some port := by
  cases text with
  | number =>
      have isNumber : unmarshal (uint 16) 0 (some (.num (Decimal.formatNat port.toNat))) =
          some port.toNat := uint_formatNat port.isLt 0
      rw [PortText.json, parsePort, isNumber]
      simp
  | decimal s reads =>
      have noNumber : unmarshal (uint 16) 0 (some (.str s)) = none := rfl
      have isString : unmarshal string [] (some (.str s)) = some s := rfl
      rw [PortText.json, parsePort, noNumber]
      simp [isString, parseAddrPort_decimal reads]
  | name s isName => exact absurd trivial notName

theorem parsePort_isName {port : BitVec 16} {text : PortText services port}
    (named : text.IsName) : parsePort (some text.json) = none := by
  cases text with
  | number => exact named.elim
  | decimal s reads => exact named.elim
  | name s isName =>
      obtain ⟨c, member, notDigit⟩ := services.notNumber port s isName
      have noNumber : unmarshal (uint 16) 0 (some (.str s)) = none := rfl
      have isString : unmarshal string [] (some (.str s)) = some s := rfl
      rw [PortText.json, parsePort, noNumber]
      simp [isString, parseAddrPort_name member notDigit]

/-- What is read of an element, up to its port. -/
theorem readEntry_eq (e : Printed services) :
    readEntry (unmarshalJSON e.json) = (parsePort (some e.portText.json)).map fun port =>
      (⟨.v6 (groups e.addr) [], port⟩, e.bytes) := by
  have isString : unmarshal string [] (some (.str e.addrText)) = some e.addrText := rfl
  have parts := concatParts_isVal e.isVal
  rw [unmarshalJSON_printed]
  cases isPort : parsePort (some e.portText.json) <;>
    simp [readEntry, parts, isString, isPort, Inet.parseAddr_of_spells e.spells]

/-- **An element is read as it is**, whatever its form, if its port is not a name. -/
theorem readEntry_printed {e : Printed services} (notName : ¬ e.portText.IsName) :
    readEntry (unmarshalJSON e.json) = some (e.reading.1.netip, e.bytes) := by
  rw [readEntry_eq, parsePort_printed notName, Option.map_some]
  rfl

theorem readEntry_isName {e : Printed services} (named : e.portText.IsName) :
    readEntry (unmarshalJSON e.json) = none := by
  rw [readEntry_eq, parsePort_isName named, Option.map_none]

/-! ## What is read of a set -/

/-- A set with a document that nft may print for it: the set is one of the items, and the others
are not sets. -/
structure Listing (services : Services) (kernel : Counters) where
  elems : List (Printed services)
  isSet : (elems.map Printed.reading).Perm kernel.entries
  name : Text
  set : Members
  /-- A set that is empty may be without its elements. -/
  hasElem : Has setNames set
      [(utf8 "name", .str name), (utf8 "elem", .arr (elems.map Printed.json))] ∨
    elems = [] ∧ Has setNames set [(utf8 "name", .str name)]
  item : Members
  hasSet : Has itemNames item [(utf8 "set", .obj set)]
  before : List Members
  after : List Members
  noSet : ∀ ms ∈ before ++ after, Has itemNames ms []
  doc : Members
  hasItems : Has docNames doc
    [(utf8 "nftables", .arr ((before ++ item :: after).map .obj))]

variable {kernel : Counters}

def Listing.json (l : Listing services kernel) : Json := .obj l.doc

theorem decodeSet_listing (l : Listing services kernel) (v : NftSet) (fresh : v.elem = none) :
    ∃ set, decodeSet v (.obj l.set) = some set ∧
      set.elem.getD [] = l.elems.map fun e => unmarshalJSON e.json := by
  have isString : string v.name (.str l.name) = some l.name := rfl
  rcases l.hasElem with has | ⟨empty, has⟩
  · have name := field_of_has has List.mem_cons_self string v.name
    have elem := field_of_has has (List.mem_cons_of_mem _ List.mem_cons_self)
      (slice ⟨none, none⟩ fun _ b => some (unmarshalJSON b)) v.elem
    have isElem : slice ⟨none, none⟩ (fun _ b => some (unmarshalJSON b)) v.elem
        (.arr (l.elems.map Printed.json)) =
          some (some (l.elems.map fun e => unmarshalJSON e.json)) :=
      slice_map (fun _ _ => rfl) v.elem
    exact ⟨⟨l.name, some (l.elems.map fun e => unmarshalJSON e.json)⟩,
      by simp [decodeSet, members, name, isString, elem, isElem], rfl⟩
  · have name := field_of_has has List.mem_cons_self string v.name
    have noElem : utf8 "elem" ∉ [utf8 "name"] := by decide
    have elem := field_of_has_not has noElem
      (slice ⟨none, none⟩ fun _ b => some (unmarshalJSON b)) v.elem
    rw [fresh] at elem
    exact ⟨⟨l.name, none⟩, by simp [decodeSet, members, name, isString, elem, fresh],
      by simp [empty]⟩

theorem decodeItem_listing (l : Listing services kernel) :
    ∃ set, decodeItem none (.obj l.item) = some (some set) ∧
      set.elem.getD [] = l.elems.map fun e => unmarshalJSON e.json := by
  obtain ⟨set, isSet, elems⟩ := decodeSet_listing l ⟨[], none⟩ rfl
  refine ⟨set, ?_, elems⟩
  show field itemNames (utf8 "set") (pointer ⟨[], none⟩ decodeSet) l.item none = _
  rw [field_of_has l.hasSet List.mem_cons_self, pointer, Option.getD_none, isSet, Option.map_some]
  exact nofun

theorem decodeItem_noSet {ms : Members} (noSet : Has itemNames ms []) :
    decodeItem none (.obj ms) = some none :=
  field_of_has_not noSet (List.not_mem_nil) _ _

/-- **Every element is visited**, and nothing else. -/
theorem visited_listing (l : Listing services kernel) :
    ∃ nftables, listSet (some l.json) = some nftables ∧
      visited nftables = l.elems.map fun e => unmarshalJSON e.json := by
  obtain ⟨set, isSet, elems⟩ := decodeItem_listing l
  have noSet : ∀ ms ∈ l.before ++ l.after, decodeItem none (.obj ms) = some none :=
    fun ms member => decodeItem_noSet (l.noSet ms member)
  rw [List.forall_mem_append] at noSet
  let sets (ms : Members) : Option NftSet := (decodeItem none (.obj ms)).join
  have decodes : ∀ ms ∈ l.before ++ l.item :: l.after,
      decodeItem none (.obj ms) = some (sets ms) := by
    rw [List.forall_mem_append, List.forall_mem_cons]
    refine ⟨fun ms member => ?_, ?_, fun ms member => ?_⟩
    · simp only [sets, noSet.1 ms member, Option.join_some]
    · simp only [sets, isSet, Option.join_some]
    · simp only [sets, noSet.2 ms member, Option.join_some]
  have skipped : ∀ items : List Members, (∀ ms ∈ items, decodeItem none (.obj ms) = some none) →
      (items.flatMap fun ms => ((sets ms).bind NftSet.elem).getD []) = [] := by
    intro items none
    rw [List.flatMap_eq_nil_iff]
    intro ms member
    simp [sets, none ms member]
  refine ⟨some ((l.before ++ l.item :: l.after).map sets), ?_, ?_⟩
  · show field docNames (utf8 "nftables") (slice none decodeItem) l.doc none = _
    rw [field_of_has l.hasItems List.mem_cons_self, slice_map decodes]
  · rw [visited, Option.getD_some, List.flatMap_map, List.flatMap_append, List.flatMap_cons,
      skipped _ noSet.1, skipped _ noSet.2, List.nil_append, List.append_nil, ← elems]
    simp only [sets, isSet, Option.join_some, Option.bind_some]

/-- **Exactly the set is read**: one entry for each element, with its count, and no other. -/
def ReadsExactly (kernel : Counters) (acct : Option NetipCounters) : Prop :=
  ∃ m, acct = some m ∧ (∀ k n, kernel.lookup k = some n → m.lookup k.netip = some n) ∧
    ∀ k ∈ m, ∃ k' ∈ kernel, k'.netip = k

/-- Printed elements have the key that the agent reads, and no two have the same. -/
theorem Printed.key_eq {e e' : Printed services}
    (same : e.reading.1.netip = e'.reading.1.netip) : e.reading.1 = e'.reading.1 := by
  obtain ⟨addr, port⟩ := NetipKey.mk.inj same
  have bits : e.addr = e'.addr := groups_inj (Inet.Parsed.v6.inj addr).1
  have ports : e.port = e'.port := port
  rw [reading, reading, bits, ports]

namespace Listing

variable (l : Listing services kernel)

/-- The elements are told apart by their keys. -/
theorem eq_of_key {e e' : Printed services} (member : e ∈ l.elems) (member' : e' ∈ l.elems)
    (same : e.reading.1 = e'.reading.1) : e = e' := by
  have nodup : (l.elems.map fun e => e.reading.1).Nodup := by
    have keys := (l.isSet.map Sigma.fst).nodup_iff.mpr kernel.nodupKeys
    rwa [List.map_map] at keys
  exact List.inj_on_of_nodup_map nodup member member' same

theorem lookup_iff {k : AcctKey} {n : Nat} :
    kernel.lookup k = some n ↔ ∃ e ∈ l.elems, e.reading = ⟨k, n⟩ := by
  rw [← Option.mem_def, AList.mem_lookup_iff, ← l.isSet.mem_iff, List.mem_map]

/-- The entries that are made. -/
theorem mem_entries {entry : NetipKey × Nat} :
    entry ∈ (l.elems.map fun e => unmarshalJSON e.json).filterMap readEntry ↔
      ∃ e ∈ l.elems, ¬ e.portText.IsName ∧ (e.reading.1.netip, e.bytes) = entry := by
  rw [List.filterMap_map, List.mem_filterMap]
  refine exists_congr fun e => and_congr_right fun _ => ?_
  rw [Function.comp_apply]
  by_cases named : e.portText.IsName
  · simp [readEntry_isName named, named]
  · simp [readEntry_printed named, named]

/-- **What is read**: the elements whose port is not a name. -/
theorem lookup_readAcct :
    ∃ m, readAcct (some l.json) = some m ∧ ∀ k n, m.lookup k = some n ↔
      ∃ e ∈ l.elems, ¬ e.portText.IsName ∧ e.reading.1.netip = k ∧ e.bytes = n := by
  obtain ⟨nftables, parsed, elems⟩ := visited_listing l
  refine ⟨_, by rw [readAcct, parsed, Option.map_some, elems], fun k n => ?_⟩
  have agree : ∀ entry ∈ (l.elems.map fun e => unmarshalJSON e.json).filterMap readEntry,
      ∀ entry' ∈ (l.elems.map fun e => unmarshalJSON e.json).filterMap readEntry,
      entry.1 = entry'.1 → entry.2 = entry'.2 := by
    intro entry made entry' made' same
    obtain ⟨e, member, -, rfl⟩ := l.mem_entries.mp made
    obtain ⟨e', member', -, rfl⟩ := l.mem_entries.mp made'
    rw [l.eq_of_key member member' (Printed.key_eq same)]
  rw [LastWriter.lookup_foldl_insert_eq_some Prod.fst agree]
  constructor
  · rintro ⟨_, made, rfl, rfl⟩
    obtain ⟨e, member, notName, rfl⟩ := l.mem_entries.mp made
    exact ⟨e, member, notName, rfl, rfl⟩
  · rintro ⟨e, member, notName, rfl, rfl⟩
    exact ⟨_, l.mem_entries.mpr ⟨e, member, notName, rfl⟩, rfl, rfl⟩

end Listing

/-- **Readings are complete unless a port is printed as a name.**  For every content of the set
and every form in which nft prints it. -/
theorem acct_complete_iff (services : Services) (kernel : Counters)
    (l : Listing services kernel) :
    ReadsExactly kernel (readAcct (some l.json)) ↔ ∀ e ∈ l.elems, ¬ e.portText.IsName := by
  obtain ⟨m, isMap, lookup⟩ := l.lookup_readAcct
  rw [isMap]
  constructor
  · rintro ⟨m', same, complete, -⟩ e member named
    obtain rfl := Option.some.inj same
    have inKernel : kernel.lookup e.reading.1 = some e.bytes := l.lookup_iff.mpr ⟨e, member, rfl⟩
    obtain ⟨e', member', notName, key, -⟩ := (lookup _ _).mp (complete _ _ inKernel)
    obtain rfl := l.eq_of_key member' member (Printed.key_eq key)
    exact notName named
  · intro noName
    refine ⟨m, rfl, fun k n inKernel => ?_, fun k inMap => ?_⟩
    · obtain ⟨e, member, isReading⟩ := l.lookup_iff.mp inKernel
      obtain ⟨rfl, rfl⟩ := Sigma.mk.inj isReading
      exact (lookup _ _).mpr ⟨e, member, noName e member, rfl, rfl⟩
    · obtain ⟨n, isEntry⟩ := Option.isSome_iff_exists.mp (AList.lookup_isSome.mpr inMap)
      obtain ⟨e, member, -, rfl, -⟩ := (lookup k n).mp isEntry
      have inKernel : kernel.lookup e.reading.1 = some e.bytes := l.lookup_iff.mpr ⟨e, member, rfl⟩
      exact ⟨e.reading.1, AList.lookup_isSome.mp (Option.isSome_iff_exists.mpr ⟨_, inKernel⟩), rfl⟩

end Listing

/-! ## Listings -/

section Plain

variable {services : Services}

/-- The counter of an element. -/
def plainCounter (bytes : Nat) : Members :=
  [(utf8 "packets", .num (Decimal.formatNat 1)), (utf8 "bytes", .num (Decimal.formatNat bytes))]

/-- The key of an element. -/
def plainVal (addr port : Json) : Members := [(utf8 "concat", .arr [addr, port])]

/-- An element as nft prints it, with any of the texts of its port. -/
def plainElem (addr : BitVec 128) (bytes : Nat) (bytes_lt : bytes < 2 ^ 64) {port : BitVec 16}
    (portText : PortText services port) : Printed services :=
  let val : Json := .obj (plainVal (.str (Inet.string6 (groups addr))) portText.json)
  let counter : Json := .obj (plainCounter bytes)
  let inner : Members := [(utf8 "val", val), (utf8 "counter", counter)]
  { addr, port, bytes, bytes_lt, portText, val, inner
    addrText := Inet.string6 (groups addr)
    spells := spells_groups addr
    isVal := .concat ((has_nil _).add _ (by decide) (by decide))
    counter := plainCounter bytes
    hasBytes := ((has_nil _).add _ (by decide) (by decide)).other _ (by decide)
    hasVal := ((has_nil _).add counter (by decide) (by decide)).add val (by decide)
      (show utf8 "val" ∉ [utf8 "counter"] by decide)
    outer := [(utf8 "elem", .obj inner)]
    hasElem := (has_nil _).add _ (by decide) (by decide) }

/-- The document that nft prints for the set. -/
def plainListing {kernel : Counters} (elems : List (Printed services))
    (isSet : (elems.map Printed.reading).Perm kernel.entries) : Listing services kernel :=
  let name : Json := .str (utf8 "acct")
  let set : Members := [(utf8 "family", .str (utf8 "inet")),
    (utf8 "table", .str (utf8 "fips_exit")), (utf8 "name", name),
    (utf8 "elem", .arr (elems.map Printed.json))]
  let metainfo : Members := [(utf8 "version", .str (utf8 "1.0.9"))]
  let item : Members := [(utf8 "set", .obj set)]
  let before : List Members := [[(utf8 "metainfo", .obj metainfo)]]
  { elems, isSet, set, item, before
    name := utf8 "acct"
    hasElem := .inl ((((has_nil _).add _ (by decide) (by decide)).add name (by decide)
      (show utf8 "name" ∉ [utf8 "elem"] by decide)).other _ (by decide) |>.other _ (by decide))
    hasSet := (has_nil _).add _ (by decide) (by decide)
    after := []
    noSet := List.forall_mem_singleton.mpr ((has_nil _).other _ (by decide))
    doc := [(utf8 "nftables", .arr ((before ++ [item]).map .obj))]
    hasItems := (has_nil _).add _ (by decide) (by decide) }

end Plain

/-- The service of the comment. -/
def wellKnown : Services where
  names port := if port = 1080 then [utf8 "socks"] else []
  notNumber port s isName := by
    rw [List.mem_ite_nil_right, List.mem_singleton] at isName
    rw [isName.2]
    decide

def socksElem : AcctKey := ⟨firstAddr, 1080⟩

/-- One customer's traffic on the SOCKS port. -/
def socksTraffic : Counters := AList.singleton socksElem 123456

/-- The set, with its port printed by name. -/
def socksByName : Listing wellKnown socksTraffic :=
  plainListing [plainElem 0xfd1093b285866046e42dc0893228ccff#128 123456 (by decide)
    (.name (utf8 "socks") (by decide))] (.refl _)

/-- The traffic is not read. -/
theorem socks_by_name_lost :
    readAcct (some socksByName.json) = some ∅ ∧
      ¬ ReadsExactly socksTraffic (readAcct (some socksByName.json)) := by
  have empty : readAcct (some socksByName.json) = some ∅ := rfl
  refine ⟨empty, ?_⟩
  rw [empty]
  rintro ⟨m, same, complete, -⟩
  obtain rfl := Option.some.inj same
  have read := complete socksElem 123456 rfl
  cases read

end FipsExitGate.Agent
