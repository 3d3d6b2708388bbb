import FipsExitGate.Gate.Render

/-!
# The catalog behind the lists

The script keeps the ports of the catalog as text, and reads this text in two ways: `nft`
takes a list for a set of numbers, the guard loop searches it for a word.  Both are related
here to the entries of `services.conf`.

The two readings differ.  A port set is about numbers and a protocol; the search is about
spellings, and its text is both lists, one after the other.

## Main results

* `collect_eq` — what the loop over `services.conf` leaves in the two lists
* `portSet_joined` — a port set has the ports of the lines it was collected from
* `listed_lists`, `listed_joined` — the search for a guarded port finds the words of the lists
* `portSet_ungatedPorts` — the ports that the guard loop refuses
-/

namespace FipsExitGate.Gate

open Nft

/-! ## Entries -/

/-- An entry of the catalog. -/
structure Service where
  port : Bytes
  proto : Proto
  deriving DecidableEq

/-- The entry of a line; comments and blank lines have none. -/
def serviceOf (line : Bytes) : Option Service :=
  let key := (words line).getD 0 []
  if key = [] ∨ key.head? = some 0x23 then none
  else some ⟨(words line).getD 1 [], if (words line).getD 2 [] = udpWord then .udp else .tcp⟩

def catalog (services : Bytes) : List Service := (linesOf services).filterMap serviceOf

/-- The port words of one protocol. -/
def portsOf (proto : Proto) (entries : List Service) : List Bytes :=
  (entries.filter fun svc => svc.proto = proto).map (·.port)

/-- **A port of the catalog**: some entry of the protocol has a word that `nft` reads so. -/
def Catalogued (services : Bytes) (proto : Proto) (port : Nat) : Prop :=
  ∃ svc ∈ catalog services, svc.proto = proto ∧ nftPort svc.port = some port

theorem mem_portsOf {proto : Proto} {entries : List Service} {word : Bytes} :
    word ∈ portsOf proto entries ↔ ∃ svc ∈ entries, svc.proto = proto ∧ svc.port = word := by
  simp [portsOf, and_assoc]

/-- A word that passes the script's test for a port. -/
def IsNumeral (word : Bytes) : Prop := word ≠ [] ∧ word.all Decimal.isDigit = true

theorem IsNumeral.not_mem {word : Bytes} {b : UInt8} (numeral : IsNumeral word)
    (noDigit : Decimal.isDigit b = false) : b ∉ word := by
  intro member
  rw [List.all_eq_true.mp numeral.2 b member] at noDigit
  cases noDigit

theorem isNumeral_of_nftPort {word : Bytes} {port : Nat} (reads : nftPort word = some port) :
    IsNumeral word := by
  by_contra notNumeral
  have fails : word = [] ∨ (!word.all Decimal.isDigit) = true := by
    by_contra neither
    rw [not_or] at neither
    exact notNumeral ⟨neither.1, by simpa using neither.2⟩
  simp only [nftPort, nftNumber, if_pos fails, Option.filter_none] at reads
  cases reads

/-- A list as the loop builds it. -/
def joined (ports : List Bytes) : Bytes := ports.foldl addPort []

/-! ## The loop over `services.conf` -/

/-- What an entry adds. -/
def PortLists.add (lists : PortLists) (svc : Service) : PortLists :=
  match svc.proto with
  | .tcp => { lists with tcp := addPort lists.tcp svc.port }
  | .udp => { lists with udp := addPort lists.udp svc.port }

theorem collectLine_ok {lists lists' : PortLists} {line : Bytes}
    (ok : collectLine lists line = .ok lists') :
    (serviceOf line = none ∧ lists' = lists) ∨
      ∃ svc, serviceOf line = some svc ∧ IsNumeral svc.port ∧ lists' = lists.add svc := by
  unfold collectLine at ok
  unfold serviceOf
  dsimp only at ok ⊢
  split at ok
  · rename_i comment
    cases ok
    exact .inl ⟨if_pos comment, rfl⟩
  · rename_i isEntry
    rw [if_neg isEntry]
    split at ok
    · cases ok
    · rename_i isPort
      have numeral : IsNumeral ((words line).getD 1 []) := by
        rw [not_or] at isPort
        exact ⟨isPort.1, by simpa using isPort.2⟩
      refine .inr ⟨_, rfl, numeral, ?_⟩
      split at ok
      · rename_i isTcp
        have notUdp : (words line).getD 2 [] ≠ udpWord := by
          rcases isTcp with omitted | named
          · rw [omitted]; decide
          · rw [named]; decide
        cases ok
        rw [if_neg notUdp]
        rfl
      · split at ok
        · rename_i isUdp
          cases ok
          rw [if_pos isUdp]
          rfl
        · cases ok

theorem foldlM_collectLine {lines : List Bytes} {lists lists' : PortLists}
    (ok : lines.foldlM collectLine lists = .ok lists') :
    lists' = (lines.filterMap serviceOf).foldl PortLists.add lists ∧
      ∀ svc ∈ lines.filterMap serviceOf, IsNumeral svc.port := by
  induction lines generalizing lists with
  | nil =>
      cases ok
      exact ⟨rfl, fun svc member => by cases member⟩
  | cons line lines ih =>
      rw [List.foldlM_cons] at ok
      cases first : collectLine lists line with
      | error e =>
          rw [first] at ok
          cases ok
      | ok next =>
          rw [first] at ok
          obtain ⟨folded, numerals⟩ := ih ok
          rcases collectLine_ok first with ⟨noEntry, rfl⟩ | ⟨svc, isEntry, numeral, rfl⟩
          · rw [List.filterMap_cons_none noEntry]
            exact ⟨folded, numerals⟩
          · rw [List.filterMap_cons_some isEntry, List.foldl_cons]
            exact ⟨folded, List.forall_mem_cons.mpr ⟨numeral, numerals⟩⟩

theorem foldl_add (entries : List Service) (lists : PortLists) :
    entries.foldl PortLists.add lists =
      ⟨(portsOf .tcp entries).foldl addPort lists.tcp,
        (portsOf .udp entries).foldl addPort lists.udp⟩ := by
  induction entries generalizing lists with
  | nil => rfl
  | cons svc entries ih =>
      rw [List.foldl_cons, ih]
      cases isProto : svc.proto <;> simp [PortLists.add, portsOf, isProto]

/-- **What the loop leaves**: one list for each protocol, in the order of the lines. -/
theorem collect_eq {services : Bytes} {lists : PortLists} (ok : collect services = .ok lists) :
    lists = ⟨joined (portsOf .tcp (catalog services)), joined (portsOf .udp (catalog services))⟩ ∧
      ∀ svc ∈ catalog services, IsNumeral svc.port := by
  unfold collect at ok
  cases folded : (linesOf services).foldlM collectLine ⟨[], []⟩ with
  | error e =>
      rw [folded] at ok
      cases ok
  | ok final =>
      rw [folded] at ok
      obtain ⟨isFold, numerals⟩ := foldlM_collectLine folded
      have isFinal : final = lists := by
        change (if final.tcp = [] then Except.error RenderErr.noTcpServices
          else Except.ok final) = Except.ok lists at ok
        split at ok
        · cases ok
        · cases ok
          rfl
      rw [← isFinal, isFold]
      exact ⟨foldl_add _ _, numerals⟩

/-! ## Lists as sets of numbers -/

theorem joined_concat (ports : List Bytes) (port : Bytes) :
    joined (ports ++ [port]) = addPort (joined ports) port := by
  simp [joined]

theorem words_numeral {word : Bytes} (numeral : IsNumeral word) : words word = [word] := by
  have noTab : (word.map fun b => if b = 0x09 then 0x20 else b) = word := by
    conv_rhs => rw [← List.map_id word]
    refine List.map_congr_left fun b member => if_neg ?_
    rintro rfl
    exact numeral.not_mem (by decide) member
  rw [words, noTab, splitByte_of_not_mem (numeral.not_mem (by decide))]
  simp [numeral.1]

theorem words_blank_numeral {word : Bytes} (numeral : IsNumeral word) :
    words (0x20 :: word) = [word] := by
  have same : words (0x20 :: word) = words word := by
    simp [words, splitByte]
  rw [same, words_numeral numeral]

theorem portSet_addPort {list word : Bytes} (numeral : IsNumeral word) (port : Nat) :
    portSet (addPort list word) port =
      (portSet list port || decide (nftPort word = some port)) := by
  have single : ∀ element : Bytes, 0x2c ∉ element → words element = [word] →
      portSet element port = decide (nftPort word = some port) := by
    intro element noComma isWord
    simp [portSet, splitByte_of_not_mem noComma, isWord]
  have noComma : (0x2c : UInt8) ∉ word := numeral.not_mem (by decide)
  unfold addPort
  split
  · rename_i isEmpty
    rw [single word noComma (words_numeral numeral), isEmpty]
    have none : portSet [] port = false := rfl
    rw [none, Bool.false_or]
  · have cut : list ++ comma ++ word = list ++ 0x2c :: (0x20 :: word) := by simp [comma]
    have last := single (0x20 :: word) (by simp [noComma]) (words_blank_numeral numeral)
    unfold portSet at last ⊢
    rw [cut, splitByte_append, List.any_append, last]

/-- **A port set** has the ports of the words it was built from. -/
theorem portSet_joined {ports : List Bytes} (numerals : ∀ word ∈ ports, IsNumeral word)
    (port : Nat) : portSet (joined ports) port = true ↔
      ∃ word ∈ ports, nftPort word = some port := by
  induction ports using List.reverseRecOn with
  | nil => simp [joined, portSet, splitByte, words]
  | append_singleton ports word ih =>
      rw [joined_concat, portSet_addPort (numerals word (by simp)), Bool.or_eq_true,
        ih fun w member => numerals w (by simp [member])]
      simp [or_and_right, exists_or]

/-! ## Lists as texts that are searched -/

theorem listed_iff {gp list : Bytes} (noComma : 0x2c ∉ gp) :
    listed gp list = true ↔ (0x20 :: gp) ∈ splitByte 0x2c (0x20 :: list) := by
  rw [← infix_sep_iff (by simp [noComma])]
  exact decide_eq_true_iff

/-- The parts of a list are its words, each behind a blank. -/
theorem splitByte_joined {ports : List Bytes} (numerals : ∀ word ∈ ports, IsNumeral word)
    (nonempty : ports ≠ []) :
    splitByte 0x2c (0x20 :: joined ports) = ports.map (0x20 :: ·) ∧ joined ports ≠ [] := by
  induction ports using List.reverseRecOn with
  | nil => exact absurd rfl nonempty
  | append_singleton ports word ih =>
      have numeral := numerals word (by simp)
      have noComma : (0x2c : UInt8) ∉ (0x20 :: word) := by
        simp [numeral.not_mem (b := 0x2c) (by decide)]
      rw [joined_concat]
      cases ports with
      | nil =>
          rw [show addPort (joined []) word = word from rfl, splitByte_of_not_mem noComma]
          exact ⟨rfl, numeral.1⟩
      | cons first rest =>
          obtain ⟨parts, isList⟩ :=
            ih (fun w member => numerals w (List.mem_append_left [word] member)) (by simp)
          have cut : (0x20 : UInt8) :: addPort (joined (first :: rest)) word =
              (0x20 :: joined (first :: rest)) ++ 0x2c :: (0x20 :: word) := by
            simp [addPort, isList, comma]
          rw [cut, splitByte_append, parts, splitByte_of_not_mem noComma]
          exact ⟨by simp, by simp [addPort, isList, comma]⟩

theorem mem_splitByte_joined {ports : List Bytes} {gp : Bytes}
    (numerals : ∀ word ∈ ports, IsNumeral word) (nonempty : gp ≠ []) :
    (0x20 :: gp) ∈ splitByte 0x2c (0x20 :: joined ports) ↔ gp ∈ ports := by
  by_cases none : ports = []
  · subst none
    simp [joined, splitByte, nonempty]
  · rw [(splitByte_joined numerals none).1]
    simp

/-- **The search in one list.** -/
theorem listed_joined {ports : List Bytes} {gp : Bytes}
    (numerals : ∀ word ∈ ports, IsNumeral word) (numeral : IsNumeral gp) :
    listed gp (joined ports) = true ↔ gp ∈ ports := by
  rw [listed_iff (numeral.not_mem (by decide)), mem_splitByte_joined numerals numeral.1]

/-- **The search in the catalog** finds a word under either protocol. -/
theorem listed_lists {services gp : Bytes} {lists : PortLists}
    (ok : collect services = .ok lists) (numeral : IsNumeral gp) :
    listed gp (lists.tcp ++ comma ++ lists.udp) = true ↔
      ∃ svc ∈ catalog services, svc.port = gp := by
  obtain ⟨isLists, numerals⟩ := collect_eq ok
  have ofProto : ∀ proto, ∀ word ∈ portsOf proto (catalog services), IsNumeral word := by
    intro proto word member
    obtain ⟨svc, isEntry, -, rfl⟩ := mem_portsOf.mp member
    exact numerals svc isEntry
  have cut : (0x20 : UInt8) :: (lists.tcp ++ comma ++ lists.udp) =
      (0x20 :: lists.tcp) ++ 0x2c :: (0x20 :: lists.udp) := by
    simp [comma]
  rw [listed_iff (numeral.not_mem (by decide)), cut, splitByte_append, List.mem_append, isLists,
    mem_splitByte_joined (ofProto .tcp) numeral.1, mem_splitByte_joined (ofProto .udp) numeral.1,
    mem_portsOf, mem_portsOf]
  constructor
  · rintro (⟨svc, isEntry, -, isWord⟩ | ⟨svc, isEntry, -, isWord⟩) <;>
      exact ⟨svc, isEntry, isWord⟩
  · rintro ⟨svc, isEntry, isWord⟩
    cases isProto : svc.proto with
    | tcp => exact .inl ⟨svc, isEntry, isProto, isWord⟩
    | udp => exact .inr ⟨svc, isEntry, isProto, isWord⟩

/-! ## Port sets of the ruleset -/

/-- The port sets of the rules are the catalog's ports. -/
theorem portSet_collect {services : Bytes} {lists : PortLists}
    (ok : collect services = .ok lists) (port : Nat) :
    (portSet lists.tcp port = true ↔ Catalogued services .tcp port) ∧
      (portSet lists.udp port = true ↔ Catalogued services .udp port) := by
  obtain ⟨isLists, numerals⟩ := collect_eq ok
  have ofProto : ∀ proto, portSet (joined (portsOf proto (catalog services))) port = true ↔
      Catalogued services proto port := by
    intro proto
    rw [portSet_joined]
    · simp [mem_portsOf, Catalogued, and_assoc]
    · intro word member
      obtain ⟨svc, isEntry, -, rfl⟩ := mem_portsOf.mp member
      exact numerals svc isEntry
  rw [isLists]
  exact ⟨ofProto .tcp, ofProto .udp⟩

/-- The guard loop, over words: those that are not in the catalog, each once. -/
theorem ungatedPorts_eq {services : Bytes} {lists : PortLists} {guards : List Bytes}
    (ok : collect services = .ok lists) (numerals : ∀ gp ∈ guards, IsNumeral gp) :
    ∃ refused : List Bytes, ungatedPorts lists guards = joined refused ∧
      ∀ gp, gp ∈ refused ↔ gp ∈ guards ∧ ∀ svc ∈ catalog services, svc.port ≠ gp := by
  induction guards using List.reverseRecOn with
  | nil => exact ⟨[], rfl, by simp⟩
  | append_singleton guards gp ih =>
      obtain ⟨refused, isJoined, member⟩ := ih fun g isIn => numerals g (by simp [isIn])
      have numeral := numerals gp (by simp)
      have ofRefused : ∀ word ∈ refused, IsNumeral word := fun word isIn =>
        numerals word (by simp [((member word).mp isIn).1])
      have step : ungatedPorts lists (guards ++ [gp]) =
          if listed gp (lists.tcp ++ comma ++ lists.udp) then joined refused
          else if listed gp (joined refused) then joined refused
          else addPort (joined refused) gp := by
        rw [← isJoined]
        simp [ungatedPorts]
      rw [step]
      by_cases inCatalog : ∃ svc ∈ catalog services, svc.port = gp
      · rw [if_pos ((listed_lists ok numeral).mpr inCatalog)]
        obtain ⟨svc, isEntry, rfl⟩ := inCatalog
        refine ⟨refused, rfl, fun word => ?_⟩
        rw [member]
        constructor
        · rintro ⟨isIn, absent⟩
          exact ⟨by simp [isIn], absent⟩
        · rintro ⟨isIn, absent⟩
          rcases List.mem_append.mp isIn with old | last
          · exact ⟨old, absent⟩
          · exact absurd (List.mem_singleton.mp last).symm (absent svc isEntry)
      · have absent : ∀ svc ∈ catalog services, svc.port ≠ gp := fun svc isEntry same =>
          inCatalog ⟨svc, isEntry, same⟩
        rw [if_neg (mt (listed_lists ok numeral).mp inCatalog)]
        by_cases again : gp ∈ refused
        · rw [if_pos ((listed_joined ofRefused numeral).mpr again)]
          refine ⟨refused, rfl, fun word => ?_⟩
          have old := ((member gp).mp again).1
          rw [member]
          simp only [List.mem_append, List.mem_singleton]
          grind
        · rw [if_neg (mt (listed_joined ofRefused numeral).mp again), ← joined_concat]
          refine ⟨refused ++ [gp], rfl, fun word => ?_⟩
          simp only [List.mem_append, List.mem_singleton, member]
          grind

/-- **The ports that the guard loop refuses**: those of the guarded words that are no word of
the catalog. -/
theorem portSet_ungatedPorts {services : Bytes} {lists : PortLists} {guards : List Bytes}
    (ok : collect services = .ok lists) (numerals : ∀ gp ∈ guards, IsNumeral gp) (port : Nat) :
    portSet (ungatedPorts lists guards) port = true ↔
      ∃ gp ∈ guards, nftPort gp = some port ∧ ∀ svc ∈ catalog services, svc.port ≠ gp := by
  obtain ⟨refused, isJoined, member⟩ := ungatedPorts_eq ok numerals
  rw [isJoined, portSet_joined fun word isIn => numerals word ((member word).mp isIn).1]
  constructor
  · rintro ⟨gp, isIn, reads⟩
    exact ⟨gp, ((member gp).mp isIn).1, reads, ((member gp).mp isIn).2⟩
  · rintro ⟨gp, isGuard, reads, absent⟩
    exact ⟨gp, (member gp).mpr ⟨isGuard, absent⟩, reads⟩

end FipsExitGate.Gate
