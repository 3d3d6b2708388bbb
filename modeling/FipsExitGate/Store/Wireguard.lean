import FipsExitGate.Fipsaddr.Strings
import FipsExitGate.Store.Whitelist
import Mathlib.Data.List.Sort

/-!
# WireGuard peers

`CreateWgPeer`, `ListWgPeers` and `DeleteWgPeer` of `wg.go`.  A peer is issued to an identity and
attached to the account the identity's address is active on; it takes the next free
index of the address pool, in the order of a sequence that rollbacks do not reset.
-/

namespace FipsExitGate

open Program Table

/-! ## Keys -/

/-- The value of a character of the standard base64 alphabet. -/
def base64Value (c : Char) : Option Nat :=
  if 'A' ≤ c ∧ c ≤ 'Z' then some (c.toNat - 'A'.toNat)
  else if 'a' ≤ c ∧ c ≤ 'z' then some (c.toNat - 'a'.toNat + 26)
  else if '0' ≤ c ∧ c ≤ '9' then some (c.toNat - '0'.toNat + 52)
  else if c = '+' then some 62
  else if c = '/' then some 63
  else none

/-- `ValidWgKey`: 44 characters of strict base64 for 32 bytes, which is 43
characters of the alphabet, the last with its two spare bits zero, and one pad. -/
def validWgKey (k : String) : Bool :=
  match (k.toList.take 43).map base64Value, k.toList.drop 43 with
  | values, ['='] =>
      values.all Option.isSome && decide ((values.getLastD none).getD 1 % 4 = 0)
  | _, _ => false

/-! ## The address plan -/

/-- `wgPools`. -/
def Store.wgPools (s : Store) : WgPools :=
  s.pools.getD defaultWgPools

/-- `maxWgPeers`. -/
def Store.maxWgPeers (s : Store) : Int :=
  if 0 < s.MaxWgPeersPerAddr then s.MaxWgPeersPerAddr else 5

/-- `slots`: the peer indexes the IPv4 pool allows. -/
def WgPools.slots (p : WgPools) : Int :=
  2 ^ (min (32 - p.bits4) 24) - 3

/-- `offset4`. -/
def offset4 (p : WgPools) (n : Int) : BitVec 32 :=
  (p.addr4 >>> (32 - p.bits4)) <<< (32 - p.bits4) + BitVec.ofInt 32 n

/-- `offset6`: the index goes into the last four bytes. -/
def offset6 (p : WgPools) (n : Int) : BitVec 128 :=
  let masked := (p.addr6 >>> (128 - p.bits6)) <<< (128 - p.bits6)
  masked.extractLsb' 32 96 ++ (masked.extractLsb' 0 32 + BitVec.ofInt 32 n)

/-- A peer with its inner addresses, as `CreateWgPeer` returns it. -/
structure IssuedPeer where
  peer : WgPeer
  ip4 : BitVec 32
  ip6 : BitVec 128
  deriving DecidableEq, Repr

/-- `fillPeerIPs`. -/
def Store.fillPeerIPs (s : Store) (peer : WgPeer) : IssuedPeer :=
  ⟨peer, offset4 s.wgPools peer.idx, offset6 s.wgPools peer.idx⟩

/-! ## Issuing and deleting -/

/-- `nextval('wg_peer_alloc')`. -/
def nextWgAlloc : StoreM Int := do
  modify fun db => { db with wgPeerAlloc := db.wgPeerAlloc + 1 }
  let db ← get
  return db.wgPeerAlloc

/-- The attempts to find a free index. -/
def allocWgPeer (s : Store) (new : Nat → Int → WgPeer) : Nat → StoreM WgPeer
  | 0 => throw .wgPoolFull
  | attempts + 1 => do
      let n ← nextWgAlloc
      let idx := 2 + n.tmod s.wgPools.slots
      let db ← get
      -- the index is taken: ON CONFLICT (idx) DO NOTHING, and another number is drawn
      if db.wgPeers.any fun p => decide (p.idx = idx) then allocWgPeer s new attempts
      else
        let id ← newId
        let peer := new id idx
        if db.wgPeers.any fun p => decide (p.pubkey = peer.pubkey) then throw .wgBadKey
        else
          modify fun db => { db with wgPeers := db.wgPeers ++ [peer] }
          return peer

/-- One attempt: the index is taken, or the key is, or the peer is the new row. -/
theorem exec_allocWgPeer_succ (s : Store) (new : Nat → Int → WgPeer) (attempts : Nat) (db : Db) :
    exec (allocWgPeer s new (attempts + 1)) db =
      let drawn := { db with wgPeerAlloc := db.wgPeerAlloc + 1 }
      let idx := 2 + (db.wgPeerAlloc + 1).tmod s.wgPools.slots
      let peer := new db.nextId idx
      if db.wgPeers.any fun p => decide (p.idx = idx) then exec (allocWgPeer s new attempts) drawn
      else if db.wgPeers.any fun p => decide (p.pubkey = peer.pubkey) then
        (.error .wgBadKey, { drawn with nextId := db.nextId + 1 })
      else (.ok peer, { drawn with wgPeers := db.wgPeers ++ [peer], nextId := db.nextId + 1 }) := by
  rw [allocWgPeer, exec_bind_ok (show exec nextWgAlloc db = (.ok _, _) from rfl), exec_get_bind]
  dsimp only
  split
  · rfl
  · rw [exec_bind_ok (exec_newId _)]
    dsimp only
    split <;> rfl

/-- Inversion of an allocation: the peer is the new row, numbered next. -/
theorem allocWgPeer_ok {s : Store} {new : Nat → Int → WgPeer} {attempts : Nat} {db db' : Db}
    {peer : WgPeer} (run : exec (allocWgPeer s new attempts) db = (.ok peer, db')) :
    ∃ alloc idx, peer = new db.nextId idx ∧
      db' = { db with
        wgPeers := db.wgPeers ++ [peer], wgPeerAlloc := alloc, nextId := db.nextId + 1 } := by
  induction attempts generalizing db with
  | zero => cases run
  | succ attempts ih =>
      rw [exec_allocWgPeer_succ] at run
      dsimp only at run
      split at run
      · obtain ⟨alloc, idx, isNew, rfl⟩ := ih run
        exact ⟨alloc, idx, isNew, rfl⟩
      · split at run <;> cases run
        exact ⟨_, _, rfl, rfl⟩

/-- The transaction of `CreateWgPeer`. -/
def Store.createWgPeerTx (s : Store) (sessionNpub forNpub label pubkey : String) (addr : Addr)
    (now : Time) : StoreM WgPeer := do
  let db ← get
  if decide (forNpub ≠ sessionNpub) && !db.whitelist.any fun w =>
      decide (w.npub = forNpub) && w.active && db.isAccountOf sessionNpub w.accountId then
    throw .wgForbidden
  else
    match db.whitelist.find? fun w => decide (w.fipsAddr = addr) && w.active with
    | none => throw .wgNotActive
    | some w =>
        if s.maxWgPeers ≤ (db.wgPeers.filter fun p => decide (p.fipsAddr = addr)).length then
          throw .wgPeerLimit
        else
          allocWgPeer s
            (fun id idx => ⟨id, w.accountId, forNpub, addr, pubkey, idx, label, sessionNpub, now⟩) 64

/-- Inversion of an issue: the session may act for the identity, whose address is active on
some account, and the peer is attached to that account. -/
theorem createWgPeerTx_ok {s : Store} {sessionNpub forNpub label pubkey : String} {addr : Addr}
    {now : Time} {db db' : Db} {peer : WgPeer}
    (run : exec (s.createWgPeerTx sessionNpub forNpub label pubkey addr now) db = (.ok peer, db')) :
    ∃ w ∈ db.whitelist, w.fipsAddr = addr ∧ w.active = true ∧ ∃ alloc idx,
      peer = ⟨db.nextId, w.accountId, forNpub, addr, pubkey, idx, label, sessionNpub, now⟩ ∧
      db' = { db with
        wgPeers := db.wgPeers ++ [peer], wgPeerAlloc := alloc, nextId := db.nextId + 1 } := by
  unfold Store.createWgPeerTx at run
  rw [exec_get_bind] at run
  split at run
  · cases run
  split at run
  · cases run
  rename_i w found
  have isIt := List.find?_some found
  simp only [Bool.and_eq_true, decide_eq_true_eq] at isIt
  split at run
  · cases run
  exact ⟨w, List.mem_of_find?_eq_some found, isIt.1, isIt.2, allocWgPeer_ok run⟩

/-- `CreateWgPeer`. -/
def Store.createWgPeer (s : Store) (env : Env) (sessionNpub forNpub label pubkey : String) :
    StoreM IssuedPeer := do
  let pubkey := trimSpace pubkey
  if !validWgKey pubkey then throw .wgBadKey
  else
    match s.ident.fromNpub forNpub with
    | none => throw .deriveAddress
    | some addr =>
        let peer ← inTx env 0 fun now =>
          s.createWgPeerTx sessionNpub forNpub label pubkey addr now
        return s.fillPeerIPs peer

/-- The query of `ListWgPeers`. -/
def Db.peersOf (db : Db) (acct : AccountId) : List WgPeer :=
  (db.wgPeers.filter fun p => decide (p.accountId = acct)).insertionSort
    fun p q => p.createdAt ≤ q.createdAt

/-- `ListWgPeers`. -/
def Store.listWgPeers (s : Store) (acct : AccountId) : StoreM (List IssuedPeer) := do
  let db ← get
  return (db.peersOf acct).map s.fillPeerIPs

theorem mem_peersOf {db : Db} {acct : AccountId} {p : WgPeer} :
    p ∈ db.peersOf acct ↔ p ∈ db.wgPeers ∧ p.accountId = acct := by
  simp [Db.peersOf, List.mem_insertionSort]

/-- `DeleteWgPeer`. -/
def deleteWgPeer (env : Env) (sessionNpub : String) (id : Nat) : StoreM Unit :=
  inTx env 0 fun _ => do
    let db ← get
    let mine := fun p : WgPeer => decide (p.id = id) && db.accounts.any fun a =>
      decide (a.id = p.accountId) && (decide (a.npub = sessionNpub) || decide (p.npub = sessionNpub))
    if db.wgPeers.any mine then
      modify fun db => { db with wgPeers := deleteWhere mine db.wgPeers }
    else throw .wgPeerNotFound

/-- The peers a session may delete: those of its account, and those of its identity. -/
def Db.mayDelete (db : Db) (sessionNpub : String) (id : Nat) (p : WgPeer) : Bool :=
  decide (p.id = id) && db.accounts.any fun a =>
    decide (a.id = p.accountId) && (decide (a.npub = sessionNpub) || decide (p.npub = sessionNpub))

/-- The transaction of `DeleteWgPeer`. -/
def deleteWgPeerTx (sessionNpub : String) (id : Nat) : StoreM Unit := do
  let db ← get
  if db.wgPeers.any (db.mayDelete sessionNpub id) then
    modify fun db' => { db' with wgPeers := deleteWhere (db.mayDelete sessionNpub id) db'.wgPeers }
  else throw .wgPeerNotFound

theorem deleteWgPeer_eq (env : Env) (sessionNpub : String) (id : Nat) :
    deleteWgPeer env sessionNpub id = inTx env 0 fun _ => deleteWgPeerTx sessionNpub id := rfl

theorem exec_deleteWgPeer {env : Env} (completes : env.fails 0 = false) (sessionNpub : String)
    (id : Nat) (db : Db) :
    exec (deleteWgPeer env sessionNpub id) db =
      if db.wgPeers.any (db.mayDelete sessionNpub id) then
        (.ok (), { db with wgPeers := deleteWhere (db.mayDelete sessionNpub id) db.wgPeers })
      else (.error .wgPeerNotFound, rollback db db) := by
  rw [deleteWgPeer_eq, inTx, exec_transaction, deleteWgPeerTx, exec_get_bind, completes]
  by_cases found : db.wgPeers.any (db.mayDelete sessionNpub id) = true
  · rw [if_pos found, if_pos found]
    rfl
  · rw [if_neg found, if_neg found]
    rfl

end FipsExitGate
