import FipsExitGate.Agent.AddrText
import FipsExitGate.Lib.Ini
import FipsExitGate.Portal.Challenge
import FipsExitGate.Wireguard.Keys
import Mathlib.Data.List.Sort

/-!
# Client configurations

`renderWgConfig` of `wg.go`, and the announcements it renders: `SetNodeWg`, `ClearNodeWg` and
`WgNodes` on the table `exit_nodes`.  A configuration is an INI file with texts in it that come from
a customer, from the operator of a node and from the node itself.

Some of the texts go through `iniSafe`, which drops the control characters, and among them line
breaks.  The key of a node does not: it was checked when it was announced, and base64 has neither
line breaks nor spaces.  The endpoint is checked and goes through `iniSafe`.

## The argument

What is rendered is the text of fourteen lines (`renderWgConfig_eq`), and none of them has a line
break in its parts (`plain_template`).  So what is read of it are those lines, each with its own
value.
For the announced values, `Announced` is kept by every operation on the table.

## Design notes

* The names of nodes and the identities of peers are strings of bytes.  Announcements come as
  JSON, whose strings are valid.
* An endpoint may have a number sign in it.  It is part of the value here.

## Main results

* `rendered_config_read` — every configuration is read as the lines of the template
-/

namespace FipsExitGate

open Agent Nostr

/-! ## Endpoints -/

/-- `net.SplitHostPort`; `none` is an error. -/
def splitHostPort (hostport : Bytes) : Option (Bytes × Bytes) :=
  match lastIndexByte hostport 0x3a with
  | none => none
  | some i =>
      -- no bracket in what is behind the positions `j` and `k`
      let finish (host : Bytes) (j k : Nat) : Option (Bytes × Bytes) :=
        if 0x5b ∈ hostport.drop j ∨ 0x5d ∈ hostport.drop k then none
        else some (host, hostport.drop (i + 1))
      if hostport.head? = some 0x5b then
        match hostport.idxOf? 0x5d with
        | none => none
        | some last =>
            if last + 1 ≠ i then none else finish ((hostport.take last).drop 1) 1 (last + 1)
      else if 0x3a ∈ hostport.take i then none
      else finish (hostport.take i) 0 0

/-- `validWgEndpoint`. -/
def validWgEndpoint (e : Bytes) : Bool :=
  if e = [] ∨ 253 < e.length ∨
      e.any fun c => c = 0x20 ∨ c = 0x09 ∨ c = 0x0d ∨ c = 0x0a ∨ c = 0x00 then false
  else
    match splitHostPort e with
    | none => false
    | some (host, port) =>
        if host = [] then false
        else
          match parseInt64 port with
          | none => false
          | some n => decide (0 < n) && decide (n < 65536)

example : validWgEndpoint (utf8 "[fd00::1]:51820") = true ∧
    validWgEndpoint (utf8 "fd00::1:51820") = false := by
  decide +kernel

/-! ## The table of nodes -/

/-- What is used of a row of `exit_nodes`. -/
structure ExitNode where
  id : String
  name : Bytes
  wgPubkey : Option String
  wgEndpoint : Option String
  wgSeenAt : Option Time

/-- `WgNode`. -/
structure WgNode where
  id : String
  name : Bytes
  pubkey : String
  endpoint : String
  deriving DecidableEq, Repr

/-- The errors of `SetNodeWg`. -/
inductive AnnounceErr where
  | wgBadKey
  | wgBadEndpoint
  deriving DecidableEq, Repr

def AnnounceErr.text : AnnounceErr → String
  | .wgBadKey => "store: invalid WireGuard public key"
  | .wgBadEndpoint => "store: invalid WireGuard endpoint"

/-- `SetNodeWg`. -/
def setNodeWg (now : Time) (nodes : List ExitNode) (nodeID pubkey endpoint : String) :
    Except AnnounceErr (List ExitNode) :=
  let pubkey := trimSpace pubkey
  let endpoint := trimSpace endpoint
  if !validWgKey pubkey then .error .wgBadKey
  else if !validWgEndpoint (utf8 endpoint) then .error .wgBadEndpoint
  else
    .ok (nodes.map fun n =>
      if n.id = nodeID then
        { n with wgPubkey := some pubkey, wgEndpoint := some endpoint, wgSeenAt := some now }
      else n)

/-- `ClearNodeWg`. -/
def clearNodeWg (nodes : List ExitNode) (nodeID : String) : List ExitNode :=
  nodes.map fun n =>
    if n.id = nodeID ∧ n.wgPubkey ≠ none then
      { n with wgPubkey := none, wgEndpoint := none, wgSeenAt := none }
    else n

/-- `wgNodeFreshness`. -/
def wgNodeFreshness : Time := 15 * 60 * 1000000

/-- The rows that `WgNodes` selects. -/
def ExitNode.offered (now : Time) (n : ExitNode) : Option WgNode :=
  match n.wgPubkey, n.wgEndpoint, n.wgSeenAt with
  | some pubkey, some endpoint, some seen =>
      if endpoint ≠ "" ∧ now - wgNodeFreshness < seen then some ⟨n.id, n.name, pubkey, endpoint⟩
      else none
  | _, _, _ => none

/-- `WgNodes`, with the order of names. -/
def wgNodes (byName : Bytes → Bytes → Bool) (now : Time) (nodes : List ExitNode) : List WgNode :=
  (nodes.filterMap (ExitNode.offered now)).insertionSort fun n m => byName n.name m.name

/-- What is done to the table: a node is enrolled, and heartbeats with an announcement or without
one. -/
inductive NodeOp where
  | enroll (id : String) (name : Bytes)
  | announce (now : Time) (id pubkey endpoint : String)
  | clear (id : String)

def NodeOp.step (nodes : List ExitNode) : NodeOp → List ExitNode
  | .enroll id name => nodes ++ [⟨id, name, none, none, none⟩]
  | .announce now id pubkey endpoint =>
      (setNodeWg now nodes id pubkey endpoint).toOption.getD nodes
  | .clear id => clearNodeWg nodes id

/-- The table after a run. -/
def nodesAfter (ops : List NodeOp) : List ExitNode := ops.foldl NodeOp.step []

/-- What a node has announced was accepted. -/
structure ExitNode.Announced (n : ExitNode) : Prop where
  pubkey : ∀ k ∈ n.wgPubkey, validWgKey k = true
  endpoint : ∀ e ∈ n.wgEndpoint, validWgEndpoint (utf8 e) = true

/-- Inversion of an announcement: both values were checked, and every row has them or is as it
was. -/
theorem of_setNodeWg {now : Time} {nodes nodes' : List ExitNode} {nodeID pubkey endpoint : String}
    (accepted : setNodeWg now nodes nodeID pubkey endpoint = .ok nodes') {n : ExitNode}
    (member : n ∈ nodes') :
    n ∈ nodes ∨ n.wgPubkey = some (trimSpace pubkey) ∧ n.wgEndpoint = some (trimSpace endpoint) ∧
      validWgKey (trimSpace pubkey) = true ∧ validWgEndpoint (utf8 (trimSpace endpoint)) = true := by
  rw [setNodeWg] at accepted
  split at accepted
  · cases accepted
  next isKey =>
    split at accepted
    · cases accepted
    next isEndpoint =>
      cases accepted
      obtain ⟨m, isIn, rfl⟩ := List.mem_map.mp member
      split
      · exact .inr ⟨rfl, rfl, by simpa using isKey, by simpa using isEndpoint⟩
      · exact .inl isIn

theorem announced_step {nodes : List ExitNode} (announced : ∀ n ∈ nodes, n.Announced)
    (op : NodeOp) : ∀ n ∈ op.step nodes, n.Announced := by
  intro n member
  cases op with
  | enroll id name =>
      rcases List.mem_append.mp member with before | new
      · exact announced n before
      · obtain rfl := List.mem_singleton.mp new
        exact ⟨by simp, by simp⟩
  | announce now id pubkey endpoint =>
      rw [NodeOp.step] at member
      cases accepted : setNodeWg now nodes id pubkey endpoint with
      | error e =>
          rw [accepted] at member
          exact announced n member
      | ok nodes' =>
          rw [accepted] at member
          rcases of_setNodeWg accepted member with before | ⟨isKey, isEndpoint, validKey, valid⟩
          · exact announced n before
          · refine ⟨fun k isSome => ?_, fun e isSome => ?_⟩
            · obtain rfl := Option.some.inj (isKey.symm.trans isSome)
              exact validKey
            · obtain rfl := Option.some.inj (isEndpoint.symm.trans isSome)
              exact valid
  | clear id =>
      obtain ⟨m, isIn, rfl⟩ := List.mem_map.mp member
      split
      · exact ⟨by simp, by simp⟩
      · exact announced m isIn

theorem announced_nodesAfter (ops : List NodeOp) : ∀ n ∈ nodesAfter ops, n.Announced := by
  induction ops using List.reverseRecOn with
  | nil => exact fun n member => absurd member List.not_mem_nil
  | append_singleton ops op ih =>
      rw [nodesAfter, List.foldl_concat]
      exact announced_step ih op

/-- A node that is offered has announced a key and an endpoint. -/
theorem of_mem_wgNodes {byName : Bytes → Bytes → Bool} {now : Time} {nodes : List ExitNode}
    {node : WgNode} (listed : node ∈ wgNodes byName now nodes) :
    ∃ n ∈ nodes, n.wgPubkey = some node.pubkey ∧ n.wgEndpoint = some node.endpoint := by
  obtain ⟨n, isIn, isOffered⟩ := List.mem_filterMap.mp ((List.mem_insertionSort _).mp listed)
  refine ⟨n, isIn, ?_⟩
  rw [ExitNode.offered] at isOffered
  split at isOffered
  · next pubkey endpoint seen isKey isEndpoint isSeen =>
      rw [Option.ite_none_right_eq_some, Option.some.injEq] at isOffered
      obtain ⟨-, rfl⟩ := isOffered
      exact ⟨isKey, isEndpoint⟩
  · cases isOffered

/-! ## Rendering -/

/-- What is used of `wgSettings`. -/
structure WgSettings where
  dns4 : Addr
  dns6 : Addr
  mtu : Int

/-- What is used of a `store.WgPeer`. -/
structure ConfigPeer where
  npub : Bytes
  fipsAddr : Addr
  ip4 : Addr
  ip6 : Addr

/-- `wgAllowedIPs`. -/
def wgAllowedIPs : Bytes :=
  utf8 "0.0.0.0/0, ::/1, 8000::/2, c000::/3, e000::/4, f000::/5, f800::/6, fc00::/8, fe00::/7"

/-- `iniSafe`. -/
def iniSafe (v : Bytes) : Bytes :=
  (runesFrom 0 v).flatMap fun r =>
    if r.toNat < 0x20 ∨ r.toNat = 0x7f then [] else String.utf8EncodeChar r

/-- `renderWgConfig`. -/
def renderWgConfig (priv : Bytes) (peer : ConfigPeer) (node : WgNode) (s : WgSettings)
    (portalURL : Bytes) : Bytes :=
  utf8 "[Interface]\n" ++
  (utf8 "# fips-exit WireGuard, issued to " ++ iniSafe peer.npub ++ utf8 " (" ++
    addrString peer.fipsAddr ++ utf8 "). One config per device.\n") ++
  (utf8 "# Portal: " ++ iniSafe portalURL ++
    utf8 "/dashboard  (reachable over fips while the tunnel is up: fd00::/8 is excluded below)\n") ++
  (utf8 "PrivateKey = " ++ priv ++ utf8 "\n") ++
  (utf8 "Address = " ++ addrString peer.ip4 ++ utf8 "/32, " ++ addrString peer.ip6 ++
    utf8 "/128\n") ++
  (utf8 "DNS = " ++ addrString s.dns4 ++ utf8 ", " ++ addrString s.dns6 ++ utf8 "\n") ++
  (utf8 "MTU = " ++ Decimal.formatInt s.mtu ++ utf8 "\n\n") ++
  (utf8 "[Peer]\n# " ++ iniSafe node.name ++ utf8 "\n") ++
  (utf8 "PublicKey = " ++ utf8 node.pubkey ++ utf8 "\n") ++
  (utf8 "Endpoint = " ++ iniSafe (utf8 node.endpoint) ++ utf8 "\n") ++
  (utf8 "AllowedIPs = " ++ wgAllowedIPs ++ utf8 "\n") ++
  utf8 "PersistentKeepalive = 25\n"

/-- The lines of a configuration. -/
def template (priv : Bytes) (peer : ConfigPeer) (node : WgNode) (s : WgSettings)
    (portalURL : Bytes) : List Ini.Line :=
  [.header (utf8 "Interface"),
    .comment (utf8 " fips-exit WireGuard, issued to " ++ iniSafe peer.npub ++ utf8 " (" ++
      addrString peer.fipsAddr ++ utf8 "). One config per device."),
    .comment (utf8 " Portal: " ++ iniSafe portalURL ++
      utf8 "/dashboard  (reachable over fips while the tunnel is up: fd00::/8 is excluded below)"),
    .entry (utf8 "PrivateKey") priv,
    .entry (utf8 "Address")
      (addrString peer.ip4 ++ utf8 "/32, " ++ addrString peer.ip6 ++ utf8 "/128"),
    .entry (utf8 "DNS") (addrString s.dns4 ++ utf8 ", " ++ addrString s.dns6),
    .entry (utf8 "MTU") (Decimal.formatInt s.mtu),
    .blank,
    .header (utf8 "Peer"),
    .comment (0x20 :: iniSafe node.name),
    .entry (utf8 "PublicKey") (utf8 node.pubkey),
    .entry (utf8 "Endpoint") (iniSafe (utf8 node.endpoint)),
    .entry (utf8 "AllowedIPs") wgAllowedIPs,
    .entry (utf8 "PersistentKeepalive") (utf8 "25")]

/-- **What is rendered is the text of the lines.** -/
theorem renderWgConfig_eq (priv : Bytes) (peer : ConfigPeer) (node : WgNode) (s : WgSettings)
    (portalURL : Bytes) :
    renderWgConfig priv peer node s portalURL = Ini.write (template priv peer node s portalURL) := by
  have interface : utf8 "[Interface]\n" = 0x5b :: (utf8 "Interface" ++ [0x5d, 0x0a]) := by
    decide +kernel
  have issued : utf8 "# fips-exit WireGuard, issued to " =
      0x23 :: utf8 " fips-exit WireGuard, issued to " := by decide +kernel
  have device : utf8 "). One config per device.\n" = utf8 "). One config per device." ++ [0x0a] := by
    decide +kernel
  have portal : utf8 "# Portal: " = 0x23 :: utf8 " Portal: " := by decide +kernel
  have dashboard :
      utf8 "/dashboard  (reachable over fips while the tunnel is up: fd00::/8 is excluded below)\n" =
      utf8 "/dashboard  (reachable over fips while the tunnel is up: fd00::/8 is excluded below)" ++
        [0x0a] := by decide +kernel
  have privateKey : utf8 "PrivateKey = " = utf8 "PrivateKey" ++ [0x20, 0x3d, 0x20] := by
    decide +kernel
  have address : utf8 "Address = " = utf8 "Address" ++ [0x20, 0x3d, 0x20] := by decide +kernel
  have bits : utf8 "/128\n" = utf8 "/128" ++ [0x0a] := by decide +kernel
  have dns : utf8 "DNS = " = utf8 "DNS" ++ [0x20, 0x3d, 0x20] := by decide +kernel
  have mtu : utf8 "MTU = " = utf8 "MTU" ++ [0x20, 0x3d, 0x20] := by decide +kernel
  have peer : utf8 "[Peer]\n# " = 0x5b :: (utf8 "Peer" ++ [0x5d, 0x0a, 0x23, 0x20]) := by
    decide +kernel
  have publicKey : utf8 "PublicKey = " = utf8 "PublicKey" ++ [0x20, 0x3d, 0x20] := by decide +kernel
  have endpoint : utf8 "Endpoint = " = utf8 "Endpoint" ++ [0x20, 0x3d, 0x20] := by decide +kernel
  have allowed : utf8 "AllowedIPs = " = utf8 "AllowedIPs" ++ [0x20, 0x3d, 0x20] := by decide +kernel
  have keepalive : utf8 "PersistentKeepalive = 25\n" =
      utf8 "PersistentKeepalive" ++ 0x20 :: 0x3d :: 0x20 :: (utf8 "25" ++ [0x0a]) := by decide +kernel
  have newline : utf8 "\n" = [0x0a] := by decide +kernel
  have newlines : utf8 "\n\n" = [0x0a, 0x0a] := by decide +kernel
  simp only [renderWgConfig, template, Ini.write, Ini.Line.text, interface, issued, device, portal,
    dashboard, privateKey, address, bits, dns, mtu, peer, publicKey, endpoint, allowed, keepalive,
    newline, newlines, List.flatMap_cons, List.flatMap_nil, List.append_assoc, List.cons_append,
    List.nil_append, List.append_nil]

/-! ## The values -/

/-- A byte of an encoding is the rune itself, or beyond ASCII. -/
theorem of_mem_utf8EncodeChar {r : Char} {b : UInt8} (member : b ∈ String.utf8EncodeChar r) :
    r.toNat < 0x80 ∧ b.toNat = r.toNat ∨ 0x80 ≤ b := by
  by_cases ascii : r.toNat < 0x80
  · rw [utf8EncodeChar_of_ascii ascii, List.mem_singleton] at member
    rw [member, UInt8.toNat_ofNat', Nat.mod_eq_of_lt (by omega)]
    exact .inl ⟨ascii, rfl⟩
  · right
    have high {n : Nat} (low : 0x80 ≤ n) (small : n < 0x100) : 0x80 ≤ UInt8.ofNat n := by
      rw [UInt8.le_iff_toNat_le, UInt8.toNat_ofNat_of_lt' small]
      exact low
    have value : r.val.toNat = r.toNat := rfl
    unfold String.utf8EncodeChar at member
    dsimp only at member
    split at member
    · omega
    · split at member
      · simp only [List.mem_cons, List.not_mem_nil, or_false] at member
        rcases member with rfl | rfl <;> exact high (by omega) (by omega)
      · split at member <;> simp only [List.mem_cons, List.not_mem_nil, or_false] at member
        · rcases member with rfl | rfl | rfl <;> exact high (by omega) (by omega)
        · rcases member with rfl | rfl | rfl | rfl <;> exact high (by omega) (by omega)

theorem of_mem_iniSafe {v : Bytes} {c : UInt8} (member : c ∈ iniSafe v) :
    0x20 ≤ c ∧ (c < 0x80 → ∃ r ∈ runesFrom 0 v, r.toNat = c.toNat) := by
  obtain ⟨r, isRune, inside⟩ := List.mem_flatMap.mp member
  split at inside
  · cases inside
  next kept =>
    rcases of_mem_utf8EncodeChar inside with ⟨-, same⟩ | high
    · refine ⟨?_, fun _ => ⟨r, isRune, same.symm⟩⟩
      rw [UInt8.le_iff_toNat_le, same]
      change 0x20 ≤ r.toNat
      omega
    · exact ⟨UInt8.le_trans (show (0x20 : UInt8) ≤ 0x80 by decide) high, fun low =>
        absurd high (UInt8.not_le.mpr low)⟩

theorem newline_notMem_iniSafe (v : Bytes) : 0x0a ∉ iniSafe v := fun member =>
  absurd (of_mem_iniSafe member).1 (by decide)

/-- A text without control characters and spaces. -/
def Solid (s : Bytes) : Prop := ∀ c ∈ s, 0x20 < c

theorem Solid.unbroken {s : Bytes} (solid : Solid s) : 0x0a ∉ s := fun member =>
  absurd (solid _ member) (by decide)

theorem Solid.head {s : Bytes} (solid : Solid s) : s.head? ≠ some 0x20 := fun isHead =>
  absurd (solid _ (List.mem_of_head? isHead)) (by decide)

theorem Solid.head_append {s : Bytes} (solid : Solid s) {c : UInt8} (other : c ≠ 0x20)
    (t : Bytes) : (s ++ c :: t).head? ≠ some 0x20 := by
  cases s with
  | nil => exact fun isHead => other (Option.some.inj isHead)
  | cons d s => exact solid.head

theorem solid_of_hex {s : Bytes}
    (digits : ∀ c ∈ s, Inet.isHex c = true ∨ c = 0x2e ∨ c = 0x3a) : Solid s := by
  intro c member
  have all : ∀ n < 256, Inet.isHex (UInt8.ofNat n) = true → 0x20 < UInt8.ofNat n := by
    decide +kernel
  rcases digits c member with hex | rfl | rfl
  · have here := all c.toNat c.toNat_lt
    rw [UInt8.ofNat_toNat] at here
    exact here hex
  · decide
  · decide

theorem solid_addrString (a : Addr) : Solid (addrString a) :=
  solid_of_hex fun _ member => mem_addrString member

theorem solid_formatInt (n : Int) : Solid (Decimal.formatInt n) := by
  intro c member
  rcases Decimal.mem_formatInt member with rfl | digit
  · decide
  · simp only [Decimal.isDigit, Bool.and_eq_true, decide_eq_true_eq] at digit
    exact UInt8.lt_of_lt_of_le (show (0x20 : UInt8) < 0x30 by decide) digit.1

theorem solid_encode (bs : Bytes) : Solid (Base64.encode stdEncoding bs) := by
  intro c member
  rw [encode_std] at member
  exact UInt8.lt_of_lt_of_le (show (0x20 : UInt8) < 0x2b by decide)
    (of_mem_alphabet (Base64.mem_encode strictEncoding member)).1

theorem solid_validWgKey {k : String} (valid : validWgKey k = true) : Solid (utf8 k) :=
  fun _ member => UInt8.lt_of_lt_of_le (show (0x20 : UInt8) < 0x2b by decide)
    (of_mem_validWgKey valid member).1

/-- There is no space in a valid endpoint. -/
theorem space_notMem_of_validWgEndpoint {e : Bytes} (valid : validWgEndpoint e = true) :
    0x20 ∉ e := by
  intro member
  rw [validWgEndpoint, if_pos] at valid
  · cases valid
  · exact .inr (.inr (List.any_eq_true.mpr ⟨0x20, member, by decide⟩))

theorem solid_endpoint {e : String} (valid : validWgEndpoint (utf8 e) = true) :
    Solid (iniSafe (utf8 e)) := by
  intro c member
  obtain ⟨printable, isRune⟩ := of_mem_iniSafe member
  refine UInt8.lt_of_le_of_ne printable ?_
  rintro rfl
  obtain ⟨r, isIn, isSpace⟩ := isRune (by decide)
  rw [utf8_eq_flatMap, runesFrom_utf8] at isIn
  refine space_notMem_of_validWgEndpoint valid ?_
  rw [utf8_eq_flatMap]
  refine List.mem_flatMap.mpr ⟨r, isIn, ?_⟩
  rw [utf8EncodeChar_of_ascii (by rw [isSpace]; decide), isSpace]
  decide

/-! ## The lines -/

theorem plain_entry {key : String} {value : Bytes}
    (word : (utf8 key ≠ [] ∧ (utf8 key).all Ini.isLetter = true)) (unbroken : 0x0a ∉ value)
    (head : value.head? ≠ some 0x20) : (Ini.Line.entry (utf8 key) value).Plain :=
  ⟨word.1, List.all_eq_true.mp word.2, unbroken, head⟩

section Template

variable {priv : Bytes} {peer : ConfigPeer} {node : WgNode} {s : WgSettings} {portalURL : Bytes}

/-- **No line has a line break in it**, if the keys have none and the endpoint was accepted. -/
theorem plain_template (privSolid : Solid priv) (isKey : validWgKey node.pubkey = true)
    (isEndpoint : validWgEndpoint (utf8 node.endpoint) = true) :
    ∀ l ∈ template priv peer node s portalURL, l.Plain := by
  have texts : 0x0a ∉ utf8 " fips-exit WireGuard, issued to " ∧ 0x0a ∉ utf8 " (" ∧
      0x0a ∉ utf8 "). One config per device." ∧ 0x0a ∉ utf8 " Portal: " ∧
      0x0a ∉ utf8 "/dashboard  (reachable over fips while the tunnel is up: fd00::/8 is excluded below)" ∧
      0x0a ∉ utf8 "/32, " ∧ 0x0a ∉ utf8 "/128" ∧ 0x0a ∉ utf8 ", " := by decide +kernel
  obtain ⟨issued, paren, device, portal, dashboard, bits4, bits6, comma⟩ := texts
  have unbroken (a : Addr) : 0x0a ∉ addrString a := (solid_addrString a).unbroken
  have safe := newline_notMem_iniSafe
  simp only [template, List.mem_cons, List.not_mem_nil, or_false, forall_eq_or_imp, forall_eq]
  refine ⟨show _ ∧ _ by decide +kernel, ?_, ?_, ?_, ?_, ?_, ?_, trivial, show _ ∧ _ by decide +kernel,
    ?_, ?_, ?_, ?_, ?_⟩
  · simpa [Ini.Line.Plain, issued, paren, device, unbroken] using safe peer.npub
  · simpa [Ini.Line.Plain, portal, dashboard] using safe portalURL
  · exact plain_entry (by decide +kernel) privSolid.unbroken privSolid.head
  · refine plain_entry (by decide +kernel) (by simp [unbroken, bits4, bits6]) ?_
    rw [List.append_assoc, List.append_assoc, show utf8 "/32, " = 0x2f :: utf8 "32, " by decide +kernel]
    exact (solid_addrString peer.ip4).head_append (by decide) _
  · refine plain_entry (by decide +kernel) (by simp [unbroken, comma]) ?_
    rw [List.append_assoc, show utf8 ", " = 0x2c :: utf8 " " by decide +kernel]
    exact (solid_addrString s.dns4).head_append (by decide) _
  · exact plain_entry (by decide +kernel) (solid_formatInt s.mtu).unbroken (solid_formatInt s.mtu).head
  · simpa [Ini.Line.Plain] using safe node.name
  · have solid := solid_validWgKey isKey
    exact plain_entry (by decide +kernel) solid.unbroken solid.head
  · have solid := solid_endpoint isEndpoint
    exact plain_entry (by decide +kernel) solid.unbroken solid.head
  · exact plain_entry (by decide +kernel) (by decide +kernel) (by decide +kernel)
  · exact plain_entry (by decide +kernel) (by decide +kernel) (by decide +kernel)

end Template

/-- **A configuration is read as the lines of the template**: fourteen of them, each key with its
own value, whatever the names, the identity and the address of the portal are. -/
theorem rendered_config_read (ops : List NodeOp) (byName : Bytes → Bytes → Bool) (now : Time)
    {node : WgNode} (listed : node ∈ wgNodes byName now (nodesAfter ops)) {priv : Bytes}
    (isPriv : priv = [] ∨ ∃ publicKey k, priv = (genWgKeypair publicKey k).1) (peer : ConfigPeer)
    (s : WgSettings) (portalURL : Bytes) :
    Ini.read (renderWgConfig priv peer node s portalURL) = template priv peer node s portalURL ∧
      (Ini.linesFrom [] (renderWgConfig priv peer node s portalURL)).length = 14 := by
  obtain ⟨n, member, isKey, isEndpoint⟩ := of_mem_wgNodes listed
  have announced := announced_nodesAfter ops n member
  have privSolid : Solid priv := by
    rcases isPriv with rfl | ⟨publicKey, k, rfl⟩
    · exact fun c member => absurd member List.not_mem_nil
    · exact solid_encode k.toList
  have plain : ∀ l ∈ template priv peer node s portalURL, l.Plain :=
    plain_template privSolid (announced.pubkey _ isKey) (announced.endpoint _ isEndpoint)
  rw [renderWgConfig_eq, Ini.linesFrom_write plain]
  exact ⟨Ini.read_write plain, rfl⟩

/-- A node with a line break and a key of the file in its name. -/
def brokenNode : WgNode :=
  ⟨"1", utf8 "exit\nPostUp = reboot", "AAAAAAAAAAAAAAAAAAAAAAAAAAAAAAAAAAAAAAAAAAA=",
    "exit.fips:51820"⟩

def brokenOps : List NodeOp :=
  [.enroll "1" brokenNode.name, .announce 0 "1" brokenNode.pubkey " exit.fips:51820\n"]

/-- A peer whose identity has a section in it. -/
def brokenPeer : ConfigPeer :=
  ⟨utf8 "npub\n[Interface]", .v6 0xfd000000000000000000000000000001, .v4 0x0a400002,
    .v6 0xfd640000000000000000000000000002⟩

theorem rendered_config_read_broken :
    brokenNode ∈ wgNodes (fun _ _ => true) 0 (nodesAfter brokenOps) ∧
      Ini.read (renderWgConfig [] brokenPeer brokenNode
          ⟨.v4 0x0a400001, .v6 0xfd640000000000000000000000000001, 1280⟩ (utf8 "http://a\nb")) =
        template [] brokenPeer brokenNode
          ⟨.v4 0x0a400001, .v6 0xfd640000000000000000000000000001, 1280⟩ (utf8 "http://a\nb") := by
  have nodes : wgNodes (fun _ _ => true) 0 (nodesAfter brokenOps) = [brokenNode] := by
    decide +kernel
  have listed : brokenNode ∈ wgNodes (fun _ _ => true) 0 (nodesAfter brokenOps) := by
    rw [nodes]
    exact List.mem_singleton_self _
  exact ⟨listed, (rendered_config_read brokenOps (fun _ _ => true) 0 listed (.inl rfl) brokenPeer _
    _).1⟩

end FipsExitGate
