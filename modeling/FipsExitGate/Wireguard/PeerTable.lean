import FipsExitGate.Agent.AddrText
import FipsExitGate.Agent.WgSync
import FipsExitGate.Wireguard.AddressPlan
import FipsExitGate.Wireguard.Keys

/-!
# The etag of the peer table

`WgPeerTable` lists all peers by key, and hashes a line for each: the key and the two inner
addresses, with a `|` between them.  The handler `wgPeers` answers 204 to an agent that gives the
hash of the table as it is.

A key is base64 and an address has hexadecimal digits, dots and colons, so neither has a `|` or a
line break in it, and the bytes that are hashed are those of one list of lines only.  The keys are
distinct, so that the order of the list is that of the set.  What else a row has, its label, its
owner and its number, is in no line.

## Main results

* `keyedPeers_step` — every table that calls lead to has valid keys, each once
* `eq_of_message_eq`, `eq_of_mem_iff` — the lines are those of the message, and of the set
* `etag_eq_iff` — equal etags are equal tables, and 204 means that nothing differs
-/

namespace FipsExitGate

open Table

/-! ## The table -/

/-- The order of a text column: a database sorts by the rules of some language, and breaks ties by
the bytes. -/
structure Collation where
  le : String → String → Bool
  total : ∀ a b, le a b = true ∨ le b a = true
  trans : ∀ a b c, le a b = true → le b c = true → le a c = true
  antisymm : ∀ a b, le a b = true → le b a = true → a = b

/-- What an agent is told of a peer. -/
@[ext] structure PeerRow where
  pubkey : String
  ip4 : BitVec 32
  ip6 : BitVec 128
  deriving DecidableEq

/-- The part of a peer that agents see. -/
def IssuedPeer.row (q : IssuedPeer) : PeerRow := ⟨q.peer.pubkey, q.ip4, q.ip6⟩

/-- The line of a peer, `"%s|%s|%s\n"`. -/
def PeerRow.line (r : PeerRow) : Bytes :=
  utf8 r.pubkey ++ 0x7c :: (Agent.addrString (.v4 r.ip4) ++ 0x7c ::
    (Agent.addrString (.v6 r.ip6) ++ [0x0a]))

/-- What is hashed. -/
def peersMessage (peers : List IssuedPeer) : Bytes := peers.flatMap fun q => q.row.line

/-- `WgPeerTable`, on the database that its query reads: the peers and the etag. -/
def Store.wgPeerTable (s : Store) (order : Collation) (db : Db) : List IssuedPeer × String :=
  let peers := (db.wgPeers.insertionSort fun p q => order.le p.pubkey q.pubkey = true).map
    s.fillPeerIPs
  (peers, Authzhash.encodeToString (Authzhash.digest (peersMessage peers)))

/-- A row in the answer. -/
def PeerRow.info (r : PeerRow) : Agent.WgPeerInfo where
  pubkey := utf8 r.pubkey
  ip4 := Agent.addrString (.v4 r.ip4) ++ utf8 "/32"
  ip6 := Agent.addrString (.v6 r.ip6) ++ utf8 "/128"

/-- The answer with the table in it. -/
def Store.wgPeersBody (s : Store) (order : Collation) (db : Db) : Agent.WgPeersResponse :=
  let (peers, etag) := s.wgPeerTable order db
  ⟨utf8 etag, peers.map fun q => q.row.info⟩

/-- The handler `wgPeers`, with the etag of the request; `none` is 204. -/
def Store.wgPeers (s : Store) (order : Collation) (etag : Bytes) (db : Db) :
    Option Agent.WgPeersResponse :=
  if utf8 (s.wgPeerTable order db).2 = etag then none else some (s.wgPeersBody order db)

/-! ## Keys -/

/-- **The invariant of the keys.** -/
structure Db.KeyedPeers (db : Db) : Prop where
  valid : ∀ p ∈ db.wgPeers, validWgKey p.pubkey = true
  distinct : (db.wgPeers.map WgPeer.pubkey).Nodup

/-- **Step**: every call keeps the keys valid and distinct. -/
theorem keyedPeers_step {s : Store} {db db' : Db} {e : PlanEvent} (keyed : db.KeyedPeers)
    (stepped : s.planStep db e = some db') : db'.KeyedPeers := by
  cases stepped
  rcases peersTo_call s { db with wgPeerAlloc := (e.sequence : Int) } e.call with
    fewer | ⟨peer, issues, appended⟩
  · exact ⟨fun p member => keyed.valid p (fewer.subset member),
      keyed.distinct.sublist (fewer.map _)⟩
  · refine ⟨fun p member => ?_, ?_⟩
    · rw [appended, List.mem_append, List.mem_singleton] at member
      rcases member with old | rfl
      · exact keyed.valid p old
      · exact issues.validKey
    · rw [appended]
      exact nodup_append_singleton keyed.distinct issues.freshKey

/-- **Run**: so do the calls of a run. -/
theorem keyedPeers_of_visits {s : Store} {db db' : Db} {events : List PlanEvent}
    (noPeers : db.wgPeers = []) (visited : Machine.Visits s.planStep db events db') :
    db'.KeyedPeers := by
  have base : db.KeyedPeers := ⟨by simp [noPeers], by simp [noPeers]⟩
  exact Machine.visits_invariant (fun _ _ _ keyed stepped => keyedPeers_step keyed stepped) base
    visited

/-! ## The rows of a table -/

/-- The rows of the table, in order. -/
def Store.peerRows (s : Store) (order : Collation) (db : Db) : List PeerRow :=
  (s.wgPeerTable order db).1.map IssuedPeer.row

/-- The rows of the table, as a set. -/
def Store.HasPeerRow (s : Store) (db : Db) (r : PeerRow) : Prop :=
  ∃ p ∈ db.wgPeers, (s.fillPeerIPs p).row = r

section Rows

variable {s s' : Store} {order : Collation} {db db' : Db}

theorem mem_peerRows (order : Collation) {r : PeerRow} :
    r ∈ s.peerRows order db ↔ s.HasPeerRow db r := by
  simp [Store.peerRows, Store.wgPeerTable, Store.HasPeerRow, List.mem_insertionSort]

theorem pubkey_peerRows (s : Store) (order : Collation) (db : Db) :
    (s.peerRows order db).map PeerRow.pubkey =
      (db.wgPeers.insertionSort fun p q => order.le p.pubkey q.pubkey = true).map
        WgPeer.pubkey := by
  simp [Store.peerRows, Store.wgPeerTable, IssuedPeer.row, Store.fillPeerIPs, Function.comp_def]

theorem nodup_pubkey_peerRows (s : Store) (order : Collation) (keyed : db.KeyedPeers) :
    ((s.peerRows order db).map PeerRow.pubkey).Nodup := by
  rw [pubkey_peerRows]
  exact ((List.perm_insertionSort _ _).map _).nodup_iff.mpr keyed.distinct

theorem pairwise_peerRows (s : Store) (order : Collation) (db : Db) :
    (s.peerRows order db).Pairwise fun r r' => order.le r.pubkey r'.pubkey = true := by
  have _ : Std.Total fun p q : WgPeer => order.le p.pubkey q.pubkey = true :=
    ⟨fun p q => order.total p.pubkey q.pubkey⟩
  have _ : IsTrans WgPeer fun p q => order.le p.pubkey q.pubkey = true :=
    ⟨fun p q r => order.trans p.pubkey q.pubkey r.pubkey⟩
  have sorted : ((s.peerRows order db).map PeerRow.pubkey).Pairwise
      fun k k' => order.le k k' = true := by
    rw [pubkey_peerRows, List.pairwise_map]
    exact List.pairwise_insertionSort _ _
  exact List.pairwise_map.mp sorted

/-- **The order is that of the set**: each key is in one row. -/
theorem eq_of_mem_iff (keyed : db.KeyedPeers) (keyed' : db'.KeyedPeers)
    (same : ∀ r, s.HasPeerRow db r ↔ s'.HasPeerRow db' r) :
    s.peerRows order db = s'.peerRows order db' := by
  have distinct := nodup_pubkey_peerRows s order keyed
  have perm : (s.peerRows order db).Perm (s'.peerRows order db') := by
    refine (List.perm_ext_iff_of_nodup distinct.of_map
      (nodup_pubkey_peerRows s' order keyed').of_map).mpr fun r => ?_
    rw [mem_peerRows order, mem_peerRows order, same]
  refine perm.eq_of_pairwise (fun r r' member member' le ge => ?_) (pairwise_peerRows s order db)
    (pairwise_peerRows s' order db')
  exact List.inj_on_of_nodup_map distinct member (perm.mem_iff.mpr member')
    (order.antisymm _ _ le ge)

/-! ## The lines of a message -/

/-- Neither separator is in a key. -/
theorem not_mem_key {k : String} (valid : validWgKey k = true) : (0x7c : UInt8) ∉ utf8 k :=
  fun member => absurd (of_mem_validWgKey valid member).2 (by decide)

theorem not_mem_addrString (a : Addr) :
    (0x7c : UInt8) ∉ Agent.addrString a ∧ (0x0a : UInt8) ∉ Agent.addrString a :=
  ⟨fun member => absurd (Agent.mem_addrString member) (by decide),
    fun member => absurd (Agent.mem_addrString member) (by decide)⟩

/-- **The rows are those of the message.** -/
theorem eq_of_message_eq {rows rows' : List PeerRow}
    (valid : ∀ r ∈ rows, validWgKey r.pubkey = true)
    (valid' : ∀ r ∈ rows', validWgKey r.pubkey = true)
    (same : rows.flatMap PeerRow.line = rows'.flatMap PeerRow.line) : rows = rows' := by
  have starts (r : PeerRow) (rest : Bytes) : r.line ++ rest =
      utf8 r.pubkey ++ 0x7c :: (Agent.addrString (.v4 r.ip4) ++ 0x7c ::
        (Agent.addrString (.v6 r.ip6) ++ 0x0a :: rest)) := by
    simp [PeerRow.line]
  induction rows generalizing rows' with
  | nil =>
      cases rows' with
      | nil => rfl
      | cons r' rows' => simp [starts] at same
  | cons r rows ih =>
      cases rows' with
      | nil => simp [starts] at same
      | cons r' rows' =>
          rw [List.forall_mem_cons] at valid valid'
          rw [List.flatMap_cons, List.flatMap_cons, starts, starts] at same
          obtain ⟨keys, same⟩ := append_sep_inj (not_mem_key valid.1) (not_mem_key valid'.1) same
          obtain ⟨v4s, same⟩ :=
            append_sep_inj (not_mem_addrString _).1 (not_mem_addrString _).1 same
          obtain ⟨v6s, same⟩ :=
            append_sep_inj (not_mem_addrString _).2 (not_mem_addrString _).2 same
          have row : r = r' := PeerRow.ext (utf8_inj keys)
            (Addr.v4.inj (Agent.addrString_inj v4s)) (Addr.v6.inj (Agent.addrString_inj v6s))
          rw [row, ih valid.2 valid'.2 same]

theorem peersMessage_wgPeerTable (s : Store) (order : Collation) (db : Db) :
    peersMessage (s.wgPeerTable order db).1 = (s.peerRows order db).flatMap PeerRow.line := by
  simp [peersMessage, Store.peerRows, List.flatMap_map]

theorem validKey_peerRows (s : Store) (order : Collation) (keyed : db.KeyedPeers) :
    ∀ r ∈ s.peerRows order db, validWgKey r.pubkey = true := by
  intro r member
  obtain ⟨p, isPeer, rfl⟩ := (mem_peerRows order).mp member
  exact keyed.valid p isPeer

/-! ## The etag -/

/-- **The etag is that of the set**, without a collision. -/
theorem etag_iff_rows (keyed : db.KeyedPeers) (keyed' : db'.KeyedPeers)
    (free : Authzhash.CollisionFree (peersMessage (s.wgPeerTable order db).1)
      (peersMessage (s'.wgPeerTable order db').1)) :
    (s.wgPeerTable order db).2 = (s'.wgPeerTable order db').2 ↔
      s.peerRows order db = s'.peerRows order db' := by
  constructor
  · intro sameEtag
    have messages := free (Authzhash.encodeToString_inj sameEtag)
    rw [peersMessage_wgPeerTable, peersMessage_wgPeerTable] at messages
    exact eq_of_message_eq (validKey_peerRows s order keyed) (validKey_peerRows s' order keyed')
      messages
  · intro sameRows
    have messages : peersMessage (s.wgPeerTable order db).1 =
        peersMessage (s'.wgPeerTable order db').1 := by
      rw [peersMessage_wgPeerTable, peersMessage_wgPeerTable, sameRows]
    exact congrArg (fun msg => Authzhash.encodeToString (Authzhash.digest msg)) messages

theorem peers_wgPeersBody (s : Store) (order : Collation) (db : Db) :
    (s.wgPeersBody order db).peers = (s.peerRows order db).map PeerRow.info := by
  simp [Store.wgPeersBody, Store.peerRows, Function.comp_def]

theorem etag_wgPeersBody (s : Store) (order : Collation) (db : Db) :
    (s.wgPeersBody order db).etag = utf8 (s.wgPeerTable order db).2 := rfl

/-- A request without an etag is answered with the table. -/
theorem wgPeers_nil (s : Store) (order : Collation) (db : Db) :
    s.wgPeers order [] db = some (s.wgPeersBody order db) := by
  refine if_neg fun empty => ?_
  have isEmpty : (s.wgPeerTable order db).2 = "" := utf8_inj empty
  have none : Authzhash.digest (peersMessage (s.wgPeerTable order db).1) = [] :=
    Authzhash.encodeToString_inj isEmpty
  have length := Authzhash.length_digest (peersMessage (s.wgPeerTable order db).1)
  rw [none] at length
  cases length

end Rows

/-- **The etag changes exactly when the table does.**  For any two tables that calls lead to from
databases without peers, wherever the sequence is before each call: the etags are equal if and only
if the tables have the same keys with the same addresses, where the hash has no collision on them.
Then an agent that has applied the first table, and is answered 204 for its etag from the second,
would have nothing to add and nothing to delete. -/
theorem etag_eq_iff (Route : Type) [DecidableEq Route] (s s' : Store) (order : Collation)
    (start start' db db' : Db) (events events' : List PlanEvent) (noPeers : start.wgPeers = [])
    (noPeers' : start'.wgPeers = []) (visited : Machine.Visits s.planStep start events db)
    (visited' : Machine.Visits s'.planStep start' events' db')
    (free : Authzhash.CollisionFree (peersMessage (s.wgPeerTable order db).1)
      (peersMessage (s'.wgPeerTable order db').1)) :
    ((s.wgPeerTable order db).2 = (s'.wgPeerTable order db').2 ↔
      ∀ r, s.HasPeerRow db r ↔ s'.HasPeerRow db' r) ∧
    ∀ (w : Agent.WgTexts Route) (o : Agent.WgShow) (env : Agent.WgEnv) (a a' : Agent.WgAgent Route)
      (etag : Bytes) (resp : Agent.WgPeersResponse), s.wgPeers order etag db = some resp →
      Agent.applyWgPeers w o env resp a = (true, a') → s'.wgPeers order a'.wgEtag db' = none →
      Agent.diffPeers (Agent.desiredPeers resp) (Agent.desiredPeers (s'.wgPeersBody order db')) =
        ([], []) := by
  have keyed := keyedPeers_of_visits noPeers visited
  have keyed' := keyedPeers_of_visits noPeers' visited'
  have rows := etag_iff_rows keyed keyed' free
  refine ⟨rows.trans ⟨fun same r => ?_, eq_of_mem_iff keyed keyed'⟩, ?_⟩
  · rw [← mem_peerRows order, same, mem_peerRows order]
  · intro w o env a a' etag resp answered applied unchanged
    rw [Store.wgPeers, Option.ite_none_left_eq_some, Option.some.injEq] at answered
    obtain ⟨-, rfl⟩ := answered
    have sameEtag : (s.wgPeerTable order db).2 = (s'.wgPeerTable order db').2 := by
      rw [Agent.wgEtag_applyWgPeers applied, Store.wgPeers, ite_eq_left_iff] at unchanged
      by_contra differs
      cases unchanged fun same => differs (utf8_inj same).symm
    have samePeers : (s.wgPeersBody order db).peers = (s'.wgPeersBody order db').peers := by
      rw [peers_wgPeersBody, peers_wgPeersBody, rows.mp sameEtag]
    rw [Agent.desiredPeers, Agent.desiredPeers, samePeers]
    exact Agent.diffPeers_self _

/-- The collation of the C locale. -/
def cLocale : Collation where
  le a b := decide (a ≤ b)
  total a b := by simpa using String.le_total a b
  trans a b c := by simpa using String.le_trans
  antisymm a b := by simpa using String.le_antisymm

/-- A prefix that is not looked into: a text with a slash. -/
abbrev RawPrefix := { text : Bytes // Agent.Plain text ∧ 0x2c ∉ text ∧ 0x2f ∈ text }

/-- A tool that takes every text with a slash for a prefix. -/
def rawTexts : Agent.WgTexts RawPrefix where
  print r := r.1
  read text := if isRaw : _ then some ⟨text, isRaw⟩ else none
  read_print r := dif_pos r.2
  plain r := r.2.1
  noComma r := r.2.2.1
  slash r := r.2.2.2

/-- An interface without peers. -/
def bareAgent : Agent.WgAgent RawPrefix := ⟨⟨∅, by simp⟩, [], 0, 0⟩

/-- A key at index 4, and another at index 5. -/
def issueFour (time : Time) (npub label : String) : PlanEvent :=
  ⟨1, calm time, .createWgPeer npub npub label "AAAAAAAAAAAAAAAAAAAAAAAAAAAAAAAAAAAAAAAAAAA="⟩

@[inherit_doc issueFour]
def issueFive (time : Time) (npub label : String) : PlanEvent :=
  ⟨2, calm time, .createWgPeer npub npub label "BBBBBBBBBBBBBBBBBBBBBBBBBBBBBBBBBBBBBBBBBBA="⟩

/-- Two users who have paid. -/
def twoPaid : List PlanEvent :=
  [⟨calm 0, .createAccount firstNpub⟩, ⟨calm 1, .creditTime firstNpub 30⟩,
    ⟨calm 2, .createAccount secondNpub⟩, ⟨calm 3, .creditTime secondNpub 30⟩].map (PlanEvent.mk 0)

/-- Each issues a key. -/
def inOrder : List PlanEvent :=
  twoPaid ++ [issueFour 4 firstNpub "phone", issueFive 5 secondNpub "laptop"]

/-- The same keys in another order, by the other users and with other labels. -/
def outOfOrder : List PlanEvent :=
  twoPaid ++ [issueFive 4 firstNpub "router", issueFour 5 secondNpub "router"]

/-- The database that the calls lead to. -/
def planAfter (events : List PlanEvent) : Db :=
  events.foldl (fun db e => plainStore.call { db with wgPeerAlloc := e.sequence } e.call) Db.empty

theorem etag_eq_iff_reordered :
    (planAfter inOrder).wgPeers.length = 2 ∧
      (plainStore.wgPeerTable cLocale (planAfter inOrder)).2 =
        (plainStore.wgPeerTable cLocale (planAfter outOfOrder)).2 ∧
      Agent.diffPeers (Agent.desiredPeers (plainStore.wgPeersBody cLocale (planAfter inOrder)))
        (Agent.desiredPeers (plainStore.wgPeersBody cLocale (planAfter outOfOrder))) =
          ([], []) := by
  have rows : plainStore.peerRows cLocale (planAfter inOrder) =
      plainStore.peerRows cLocale (planAfter outOfOrder) := by
    decide +kernel
  have messages : peersMessage (plainStore.wgPeerTable cLocale (planAfter inOrder)).1 =
      peersMessage (plainStore.wgPeerTable cLocale (planAfter outOfOrder)).1 := by
    rw [peersMessage_wgPeerTable, peersMessage_wgPeerTable, rows]
  obtain ⟨etag_iff, no_diff⟩ := etag_eq_iff RawPrefix plainStore plainStore cLocale
    Db.empty Db.empty (planAfter inOrder) (planAfter outOfOrder) inOrder outOfOrder rfl rfl
    (Machine.visits_of_run (run_planStep ..)) (Machine.visits_of_run (run_planStep ..))
    (fun _ => messages)
  have sameEtag := etag_iff.mpr fun r => by
    rw [← mem_peerRows cLocale, rows, mem_peerRows cLocale]
  -- the first table is applied to an interface without peers
  have succeeds : (Agent.applyWgPeers rawTexts Agent.plainShow ⟨true, true, fun _ => true⟩
      (plainStore.wgPeersBody cLocale (planAfter inOrder)) bareAgent).1 = true := by
    decide +kernel
  rcases applied : Agent.applyWgPeers rawTexts Agent.plainShow ⟨true, true, fun _ => true⟩
    (plainStore.wgPeersBody cLocale (planAfter inOrder)) bareAgent with ⟨done, a⟩
  rw [applied] at succeeds
  rw [show done = true from succeeds] at applied
  refine ⟨by decide +kernel, sameEtag, ?_⟩
  have unchanged := Agent.wgEtag_applyWgPeers applied
  rw [etag_wgPeersBody, sameEtag] at unchanged
  exact no_diff rawTexts Agent.plainShow ⟨true, true, fun _ => true⟩ bareAgent a [] _
    (wgPeers_nil plainStore cLocale _) applied (if_pos unchanged.symm)

end FipsExitGate
