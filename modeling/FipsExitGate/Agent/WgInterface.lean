import FipsExitGate.Fipsaddr.Strings
import FipsExitGate.Lib.LastWriter
import FipsExitGate.Lib.Ownership
import Mathlib.Data.List.Sort

/-!
# Peers on the interface

`wg.go`: the agent reads the peers of the WireGuard interface from `wg show dump` (`parseWgDump`),
turns the backend's table into the same form (`desiredPeers`), and computes what differs
(`diffPeers`).

## The interface

The interface obeys the rules of cryptokey routing: a prefix belongs to one peer, so to allow it
to a peer takes it away from any other.  `WgDevice.holdings` is the view of it as exclusive
ownership (`Lib.Ownership`), where setting and removing a peer are changes.

## Texts

The agent and `wg` talk in text, and the agent compares texts to decide what differs.  How `wg`
prints and reads a prefix is a parameter, `WgTexts`, with what is used of it: a printed prefix is
read back, and can be told apart in a line of the dump.

## Main results

* `mem_add_diffPeers`, `mem_del_diffPeers` — what differs
* `holdings_allow`, `holdings_remove` — the interface refines exclusive ownership
* `lookup_parseWgDump` — the dump is read as it is
-/

namespace FipsExitGate.Agent

open Ownership LastWriter

/-! ## The table and the interface's view of it -/

/-- `wgPeer`. -/
structure WgPeerConf where
  pubkey : Bytes
  allowedIPs : List Bytes
  deriving DecidableEq

/-- `wgPeerInfo`. -/
structure WgPeerInfo where
  pubkey : Bytes
  ip4 : Bytes
  ip6 : Bytes

/-- `wgPeersResponse`. -/
structure WgPeersResponse where
  etag : Bytes
  peers : List WgPeerInfo

/-- A `map[string]wgPeer`. -/
abbrev PeerMap := AList fun _ : Bytes => WgPeerConf

/-- `sort.Strings`. -/
def sortStrings (ss : List Bytes) : List Bytes := ss.insertionSort (· ≤ ·)

/-- A row of the table as a peer: the addresses it has, sorted. -/
def WgPeerInfo.conf (p : WgPeerInfo) : WgPeerConf :=
  ⟨p.pubkey, sortStrings ([p.ip4, p.ip6].filter (· ≠ []))⟩

/-- `desiredPeers`. -/
def desiredPeers (resp : WgPeersResponse) : PeerMap :=
  resp.peers.foldl (fun m p => m.insert p.pubkey p.conf) ∅

/-- The text `SetPeers` gives as `allowed-ips`, by which peers are compared too. -/
def WgPeerConf.joined (p : WgPeerConf) : Bytes := joinByte 0x2c p.allowedIPs

/-- `diffPeers`. -/
def diffPeers (current desired : PeerMap) : List WgPeerConf × List Bytes :=
  let add := desired.entries.filterMap fun ⟨k, want⟩ =>
    match current.lookup k with
    | none => some want
    | some conf => if conf.joined = want.joined then none else some want
  let del := current.keys.filter (· ∉ desired)
  (add.insertionSort fun p q => p.pubkey ≤ q.pubkey, sortStrings del)

/-- A line of `wg show dump` after the first. -/
def parsePeerLine (line : Bytes) : Option WgPeerConf :=
  if line = [] then none
  else
    match splitByte 0x09 line with
    | key :: _ :: _ :: ips :: _ =>
        -- "(none)" stands for no prefix
        if ips ≠ [0x28, 0x6e, 0x6f, 0x6e, 0x65, 0x29] ∧ ips ≠ [] then
          some ⟨key, sortStrings (splitByte 0x2c ips)⟩
        else some ⟨key, []⟩
    | _ => none

/-- `parseWgDump`. -/
def parseWgDump (dump : Bytes) : PeerMap :=
  let lines := splitByte 0x0a (trimRightByte 0x0a dump)
  collapse WgPeerConf.pubkey (lines.tail.filterMap parsePeerLine)

section Diff

variable {current desired : PeerMap} {want : WgPeerConf} {k : Bytes}

theorem mem_add_diffPeers :
    want ∈ (diffPeers current desired).1 ↔ ∃ k, desired.lookup k = some want ∧
      ∀ conf, current.lookup k = some conf → conf.joined ≠ want.joined := by
  simp only [diffPeers, List.mem_insertionSort, List.mem_filterMap]
  constructor
  · rintro ⟨⟨k, want'⟩, member, kept⟩
    dsimp only at kept
    have listed : desired.lookup k = some want' := AList.mem_lookup_iff.mpr member
    split at kept
    · next absent =>
        cases kept
        exact ⟨k, listed, by simp [absent]⟩
    · next conf present =>
        simp only [Option.ite_none_left_eq_some, Option.some.injEq] at kept
        obtain ⟨differs, rfl⟩ := kept
        refine ⟨k, listed, fun conf' same => ?_⟩
        cases present.symm.trans same
        exact differs
  · rintro ⟨k, listed, differs⟩
    refine ⟨⟨k, want⟩, AList.mem_lookup_iff.mp listed, ?_⟩
    dsimp only
    cases present : current.lookup k with
    | none => rfl
    | some conf => exact if_neg (differs conf present)

theorem mem_del_diffPeers :
    k ∈ (diffPeers current desired).2 ↔ k ∈ current ∧ k ∉ desired := by
  simp [diffPeers, sortStrings, List.mem_insertionSort, AList.mem_keys]

/-- Nothing differs from itself. -/
theorem diffPeers_self (m : PeerMap) : diffPeers m m = ([], []) := by
  refine Prod.ext (List.eq_nil_iff_forall_not_mem.mpr fun want member => ?_)
    (List.eq_nil_iff_forall_not_mem.mpr fun k member => ?_)
  · obtain ⟨k, listed, differs⟩ := mem_add_diffPeers.mp member
    exact differs want listed rfl
  · obtain ⟨present, absent⟩ := mem_del_diffPeers.mp member
    exact absent present

end Diff

/-- A row of the table, in the map. -/
theorem lookup_desiredPeers {resp : WgPeersResponse}
    (distinct : (resp.peers.map WgPeerInfo.pubkey).Nodup) {k : Bytes} {want : WgPeerConf} :
    (desiredPeers resp).lookup k = some want ↔
      ∃ p ∈ resp.peers, p.pubkey = k ∧ p.conf = want := by
  refine lookup_foldl_insert_eq_some _ fun p member p' member' same => ?_
  rw [List.inj_on_of_nodup_map distinct member member' same]

/-! ## The interface -/

/-- A text that can stand in a field of the dump. -/
def Plain (s : Bytes) : Prop := 0x09 ∉ s ∧ 0x0a ∉ s

instance (s : Bytes) : Decidable (Plain s) := inferInstanceAs (Decidable (_ ∧ _))

/-- How `wg` prints and reads the prefixes of type `Route`. -/
structure WgTexts (Route : Type) where
  print : Route → Bytes
  read : Bytes → Option Route
  read_print : ∀ r, read (print r) = some r
  plain : ∀ r, Plain (print r)
  noComma : ∀ r, 0x2c ∉ print r
  /-- The slash before the length. -/
  slash : ∀ r, 0x2f ∈ print r

/-- What the lines of a dump have besides keys and prefixes. -/
structure WgShow where
  header : Bytes
  presharedKey : Bytes → Bytes
  endpoint : Bytes → Bytes
  /-- The fields after the prefixes. -/
  rest : Bytes → Bytes
  header_ne : header ≠ []
  plainHeader : 0x0a ∉ header
  plainPresharedKey : ∀ k, Plain (presharedKey k)
  plainEndpoint : ∀ k, Plain (endpoint k)
  plainRest : ∀ k, 0x0a ∉ rest k

section Device

variable {Route : Type} [DecidableEq Route]

/-- A map with a function applied to its values. -/
def mapValues {β γ : Type} (f : β → γ) (m : AList fun _ : Bytes => β) :
    AList fun _ : Bytes => γ where
  entries := m.entries.map fun e => ⟨e.1, f e.2⟩
  nodupKeys := by
    have keys : (m.entries.map fun e => (⟨e.1, f e.2⟩ : Σ _ : Bytes, γ)).keys = m.entries.keys := by
      simp [List.keys, Function.comp_def]
    rw [List.NodupKeys, keys]
    exact m.nodupKeys

theorem lookup_mapValues {β γ : Type} (f : β → γ) (m : AList fun _ : Bytes => β) (k : Bytes) :
    (mapValues f m).lookup k = (m.lookup k).map f := by
  have walk : ∀ entries : List (Σ _ : Bytes, β),
      (entries.map fun e => (⟨e.1, f e.2⟩ : Σ _ : Bytes, γ)).dlookup k =
        (entries.dlookup k).map f := by
    intro entries
    induction entries with
    | nil => rfl
    | cons e rest ih =>
        obtain ⟨j, v⟩ := e
        by_cases same : j = k
        · subst same
          rw [List.map_cons, List.dlookup_cons_eq, List.dlookup_cons_eq, Option.map_some]
        · rw [List.map_cons, List.dlookup_cons_ne _ _ (Ne.symm same),
            List.dlookup_cons_ne _ _ (Ne.symm same), ih]
  exact walk m.entries

theorem keys_mapValues {β γ : Type} (f : β → γ) (m : AList fun _ : Bytes => β) :
    (mapValues f m).keys = m.keys := by
  simp [AList.keys, mapValues, List.keys, Function.comp_def]

/-- A WireGuard interface: its peers, and what each may use. -/
structure WgDevice (Route : Type) where
  peers : AList fun _ : Bytes => List Route
  plainKeys : ∀ k ∈ peers, Plain k

/-- The view of the interface as ownership. -/
def WgDevice.holdings (d : WgDevice Route) : Holdings Bytes Route := fun k =>
  (d.peers.lookup k).map List.toFinset

/-- The list of a peer is replaced, and its prefixes are taken away from the others. -/
def WgDevice.allow (d : WgDevice Route) (key : Bytes) (plain : Plain key) (routes : List Route) :
    WgDevice Route where
  peers := (mapValues (List.filter fun r => decide (r ∉ routes)) d.peers).insert key routes
  plainKeys k member := by
    rw [AList.mem_insert] at member
    rcases member with rfl | old
    · exact plain
    · rw [AList.mem_keys, keys_mapValues] at old
      exact d.plainKeys k old

/-- A peer is removed. -/
def WgDevice.remove (d : WgDevice Route) (key : Bytes) : WgDevice Route where
  peers := d.peers.erase key
  plainKeys k member := d.plainKeys k (AList.mem_erase.mp member).2

theorem holdings_allow (d : WgDevice Route) (key : Bytes) (plain : Plain key)
    (routes : List Route) :
    (d.allow key plain routes).holdings =
      Change.apply d.holdings (.assign key routes.toFinset) := by
  funext k
  rw [Change.apply]
  split
  · next same =>
      cases same
      simp [WgDevice.holdings, WgDevice.allow, Change.outcome, Change.owner]
  · next other =>
      have away : (d.allow key plain routes).peers.lookup k =
          (d.peers.lookup k).map (List.filter fun r => decide (r ∉ routes)) :=
        (AList.lookup_insert_ne other).trans (lookup_mapValues ..)
      rw [WgDevice.holdings, away, WgDevice.holdings, Option.map_map, Option.map_map]
      congr 1
      funext held
      ext r
      simp [Change.taken]

theorem holdings_remove (d : WgDevice Route) (key : Bytes) :
    (d.remove key).holdings = Change.apply d.holdings (.remove key) := by
  funext k
  rw [Change.apply]
  split
  · next same =>
      cases same
      simp [WgDevice.holdings, WgDevice.remove, Change.outcome, Change.owner]
  · next other =>
      have away : (d.remove key).peers.lookup k = d.peers.lookup k := AList.lookup_erase_ne other
      simp [WgDevice.holdings, Change.taken, away, Function.comp_def]

/-! ## The dump -/

/-- The prefixes of a peer, in a line of the dump. -/
def WgTexts.field (w : WgTexts Route) (routes : List Route) : Bytes :=
  if routes = [] then [0x28, 0x6e, 0x6f, 0x6e, 0x65, 0x29] else joinByte 0x2c (routes.map w.print)

/-- The line of a peer. -/
def WgShow.line (o : WgShow) (w : WgTexts Route) (k : Bytes) (routes : List Route) : Bytes :=
  joinByte 0x09 [k, o.presharedKey k, o.endpoint k, w.field routes, o.rest k]

/-- `wg show dump`. -/
def WgShow.dump (o : WgShow) (w : WgTexts Route) (d : WgDevice Route) : Bytes :=
  joinByte 0x0a (o.header :: d.peers.entries.map fun e => o.line w e.1 e.2) ++ [0x0a]

/-- What `parsePeerLine` makes of the line of a peer. -/
def WgTexts.conf (w : WgTexts Route) (k : Bytes) (routes : List Route) : WgPeerConf :=
  ⟨k, sortStrings (routes.map w.print)⟩

variable {w : WgTexts Route} {o : WgShow} {d : WgDevice Route} {k : Bytes} {routes : List Route}

omit [DecidableEq Route] in
theorem plain_field : Plain (w.field routes) := by
  unfold WgTexts.field
  split
  · decide
  · refine ⟨fun tab => ?_, fun newline => ?_⟩
    · rcases of_mem_joinByte tab with isSep | ⟨s, isPart, inside⟩
      · exact absurd isSep (by decide)
      · obtain ⟨r, -, rfl⟩ := List.mem_map.mp isPart
        exact (w.plain r).1 inside
    · rcases of_mem_joinByte newline with isSep | ⟨s, isPart, inside⟩
      · exact absurd isSep (by decide)
      · obtain ⟨r, -, rfl⟩ := List.mem_map.mp isPart
        exact (w.plain r).2 inside

omit [DecidableEq Route] in
/-- The field of a peer with prefixes is not what stands for none. -/
theorem slash_mem_field (some : routes ≠ []) : 0x2f ∈ w.field routes := by
  obtain ⟨r, rest, rfl⟩ := List.exists_cons_of_ne_nil some
  rw [WgTexts.field, if_neg some]
  exact mem_joinByte List.mem_cons_self (w.slash r)

omit [DecidableEq Route] in
theorem parsePeerLine_line (plain : Plain k) :
    parsePeerLine (o.line w k routes) = some (w.conf k routes) := by
  have nonempty : o.line w k routes ≠ [] :=
    List.append_ne_nil_of_right_ne_nil _ (List.cons_ne_nil _ _)
  have fields : splitByte 0x09 (o.line w k routes) =
      k :: o.presharedKey k :: o.endpoint k :: w.field routes :: splitByte 0x09 (o.rest k) := by
    show splitByte 0x09 (k ++ 0x09 :: (o.presharedKey k ++ 0x09 :: (o.endpoint k ++
      0x09 :: (w.field routes ++ 0x09 :: o.rest k)))) = _
    rw [splitByte_append, splitByte_append, splitByte_append, splitByte_append,
      splitByte_of_not_mem plain.1, splitByte_of_not_mem (o.plainPresharedKey k).1,
      splitByte_of_not_mem (o.plainEndpoint k).1, splitByte_of_not_mem plain_field.1]
    rfl
  rw [parsePeerLine, if_neg nonempty, fields]
  by_cases isNil : routes = []
  · subst isNil
    simp [WgTexts.field, WgTexts.conf, sortStrings]
  · have slash := slash_mem_field (w := w) isNil
    have shown : w.field routes ≠ [0x28, 0x6e, 0x6f, 0x6e, 0x65, 0x29] ∧ w.field routes ≠ [] := by
      constructor
      · intro isNone
        rw [isNone] at slash
        exact absurd slash (by decide)
      · exact List.ne_nil_of_mem slash
    dsimp only
    rw [if_pos shown, WgTexts.field, if_neg isNil, splitByte_joinByte (by simpa using isNil)]
    · rfl
    · intro s isPart
      obtain ⟨r, -, rfl⟩ := List.mem_map.mp isPart
      exact w.noComma r

omit [DecidableEq Route] in
theorem newline_notMem_line (plain : Plain k) : 0x0a ∉ o.line w k routes := by
  intro newline
  rcases of_mem_joinByte newline with isSep | ⟨s, isPart, inside⟩
  · exact absurd isSep (by decide)
  · simp only [List.mem_cons, List.not_mem_nil, or_false] at isPart
    rcases isPart with rfl | rfl | rfl | rfl | rfl
    · exact plain.2 inside
    · exact (o.plainPresharedKey k).2 inside
    · exact (o.plainEndpoint k).2 inside
    · exact plain_field.2 inside
    · exact o.plainRest k inside

omit [DecidableEq Route] in
/-- **The dump is read as it is**: each peer of the interface, with its prefixes in print. -/
theorem lookup_parseWgDump (o : WgShow) (w : WgTexts Route) (d : WgDevice Route) (k : Bytes) :
    (parseWgDump (o.dump w d)).lookup k = (d.peers.lookup k).map (w.conf k) := by
  have plain : ∀ e ∈ d.peers.entries, Plain e.1 := fun e member =>
    d.plainKeys e.1 (AList.mem_keys.mpr (List.mem_keys_of_mem member))
  have lines : splitByte 0x0a (trimRightByte 0x0a (o.dump w d)) =
      o.header :: d.peers.entries.map fun e => o.line w e.1 e.2 := by
    refine splitByte_trimRightByte (List.cons_ne_nil _ _) (fun s member => ?_) fun s member => ?_
    · rcases List.mem_cons.mp member with rfl | isLine
      · exact o.header_ne
      · obtain ⟨e, -, rfl⟩ := List.mem_map.mp isLine
        exact List.append_ne_nil_of_right_ne_nil _ (List.cons_ne_nil _ _)
    · rcases List.mem_cons.mp member with rfl | isLine
      · exact o.plainHeader
      · obtain ⟨e, isEntry, rfl⟩ := List.mem_map.mp isLine
        exact newline_notMem_line (plain e isEntry)
  have parsed : (d.peers.entries.map fun e => o.line w e.1 e.2).filterMap parsePeerLine =
      d.peers.entries.map fun e => w.conf e.1 e.2 := by
    rw [List.filterMap_map, ← List.filterMap_eq_map]
    exact List.filterMap_congr fun e member => parsePeerLine_line (plain e member)
  have read : ∀ conf, (parseWgDump (o.dump w d)).lookup k = some conf ↔
      ∃ e ∈ d.peers.entries, e.1 = k ∧ w.conf e.1 e.2 = conf := by
    intro conf
    rw [parseWgDump, lines, List.tail_cons, parsed]
    rw [lookup_collapse_eq_some]
    · constructor
      · rintro ⟨member, rfl⟩
        obtain ⟨e, isEntry, rfl⟩ := List.mem_map.mp member
        exact ⟨e, isEntry, rfl, rfl⟩
      · rintro ⟨e, isEntry, rfl, rfl⟩
        exact ⟨List.mem_map.mpr ⟨e, isEntry, rfl⟩, rfl⟩
    · simp only [List.mem_map]
      rintro _ ⟨⟨j, rs⟩, member, rfl⟩ _ ⟨⟨j', rs'⟩, member', rfl⟩ same
      cases (show j = j' from same)
      rw [List.NodupKeys.eq_of_mk_mem d.peers.nodupKeys member member']
  ext conf
  rw [read, Option.map_eq_some_iff]
  constructor
  · rintro ⟨⟨j, rs⟩, member, rfl, isConf⟩
    exact ⟨rs, AList.mem_lookup_iff.mpr member, isConf⟩
  · rintro ⟨rs, present, isConf⟩
    exact ⟨⟨k, rs⟩, AList.mem_lookup_iff.mp present, rfl, isConf⟩

end Device

end FipsExitGate.Agent
