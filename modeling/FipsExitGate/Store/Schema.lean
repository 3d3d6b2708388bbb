import FipsExitGate.Lib.Program
import FipsExitGate.Lib.Table
import FipsExitGate.Store.Revisions

/-!
# The database

The tables of `migrations/*.sql`, one record per row type, and the monad store
methods run in: a method reads and writes the database and may fail; its
transactions are atomic.  Of the schema's constraints those are modelled that a
method can run into: the unique keys its `ON CONFLICT` clauses do not cover, the
partial unique index `whitelist_active_addr`, and foreign keys on values that come
from outside.

This module also has the predicate everything else is about, `desiredSQL`: which
addresses should be authorized at a given time.

## Design notes

* A failed transaction leaves the database as it was, except that sequences do not
  go back (`rollback`).
* Row ids are random in the database.  Here they come from one counter, which is a
  part of the database like any other: an id is never used for two rows.
* `exit_nodes` and `enroll_tokens` are left out: no modelled method reads them.
-/

namespace FipsExitGate

open Program Table

/-! ## Rows -/

inductive AccountStatus where
  | active
  | suspended
  deriving DecidableEq, Repr

/-- A row of `accounts`. -/
structure Account where
  id : AccountId
  npub : String
  fipsAddr : Addr
  status : AccountStatus
  deriving DecidableEq, Repr

inductive Role where
  | owner
  | guest
  deriving DecidableEq, Repr

/-- A row of `whitelist_entries`. -/
structure WhitelistEntry where
  id : Nat
  accountId : AccountId
  npub : String
  fipsAddr : Addr
  role : Role
  enabled : Bool
  pending : Bool
  label : Option String
  createdAt : Time
  deriving DecidableEq, Repr

/-- The rows that count: `enabled AND NOT pending`. -/
def WhitelistEntry.active (w : WhitelistEntry) : Bool :=
  w.enabled && !w.pending

/-- `package_types.kind`; nothing checks the text an operator gives. -/
inductive Kind where
  | volume
  | time
  | other (text : String)
  deriving DecidableEq, Repr

/-- A row of `package_types`. -/
structure PackageType where
  id : Nat
  kind : Kind
  name : String
  volumeBytes : Option Int
  validityDays : Int
  priceMsat : Int
  active : Bool
  availableUntil : Option Time
  deriving DecidableEq, Repr

inductive PurchaseStatus where
  | pending
  | processing
  | settled
  | invalid
  | expired
  deriving DecidableEq, Repr

/-- A row of `purchases`. -/
structure Purchase where
  id : Nat
  accountId : AccountId
  packageTypeId : Nat
  invoiceId : Option String
  status : PurchaseStatus
  createdAt : Time
  settledAt : Option Time
  checkoutUrl : Option String
  payRequest : Option String
  deriving DecidableEq, Repr

/-- A row of `entitlements`. -/
structure Entitlement where
  id : Nat
  accountId : AccountId
  purchaseId : Option Nat
  kind : Kind
  volumeBytes : Option Int
  volumeUsed : Int
  startsAt : Time
  expiresAt : Time
  deriving DecidableEq, Repr

/-- A row of `services`. -/
structure Service where
  id : Nat
  key : String
  name : String
  port : BitVec 16
  ratePpm : Int
  enabled : Bool
  deriving DecidableEq, Repr

/-- A row of `usage_reports`, the idempotency ledger. -/
structure UsageReport where
  id : String
  nodeId : String
  counterEpoch : String
  windowEnd : Time
  receivedAt : Time
  deriving DecidableEq, Repr

/-- A row of `usage_samples`. -/
structure UsageSample where
  reportId : String
  serviceId : Option Nat
  fipsAddr : Addr
  accountId : Option AccountId
  bytes : Int
  deriving DecidableEq, Repr

/-- The primary key of `usage_daily`. -/
structure DailyKey where
  accountId : AccountId
  day : Int
  serviceId : Nat
  deriving DecidableEq, Repr

/-- A row of `wg_peers`. -/
structure WgPeer where
  id : Nat
  accountId : AccountId
  npub : String
  fipsAddr : Addr
  pubkey : String
  idx : Int
  label : String
  createdBy : String
  createdAt : Time
  deriving DecidableEq, Repr

/-- The database. -/
structure Db where
  accounts : List Account
  whitelist : List WhitelistEntry
  packages : List PackageType
  purchases : List Purchase
  entitlements : List Entitlement
  authz : AuthzTables
  services : List Service
  reports : List UsageReport
  samples : List UsageSample
  daily : AList fun _ : DailyKey => Int
  wgPeers : List WgPeer
  /-- The last value of the sequence `wg_peer_alloc`. -/
  wgPeerAlloc : Int
  /-- The next row id; ids in use are smaller. -/
  nextId : Nat

/-- A freshly migrated database. -/
def Db.empty : Db where
  accounts := []
  whitelist := []
  packages := []
  purchases := []
  entitlements := []
  authz := AuthzTables.empty
  services := []
  reports := []
  samples := []
  daily := ∅
  wgPeers := []
  wgPeerAlloc := 0
  nextId := 1

/-! ## Errors -/

/-- The errors of the store: its own sentinels, the two wrapped ones, and those
that come from the database. -/
inductive StoreErr where
  | accountNotFound
  | addressInUse
  | guestLimit
  | noActiveEntitlement
  | selfWhitelist
  | inviteNotFound
  | packageNotFound
  | purchaseNotFound
  | deriveAddress
  | deriveGuestAddress
  | wgPeerLimit
  | wgForbidden
  | wgBadKey
  | wgPeerNotFound
  | wgPoolFull
  | wgNotActive
  /-- The database refuses a statement; the name is that of the constraint. -/
  | constraint (name : String)
  /-- A value read from the database does not fit the variable it is scanned into. -/
  | scan (column : String)
  /-- The transaction is lost. -/
  | lost
  deriving DecidableEq, Repr

/-- The text of the sentinel errors, and the text the wrapped ones start with. -/
def StoreErr.text : StoreErr → String
  | .accountNotFound => "store: account not found"
  | .addressInUse => "store: address already active on another account"
  | .guestLimit => "store: guest limit reached for this account"
  | .noActiveEntitlement => "store: an active package is required to invite guests"
  | .selfWhitelist => "store: that is this account's own identity"
  | .inviteNotFound => "store: no such pending invitation"
  | .packageNotFound => "store: package not found"
  | .purchaseNotFound => "store: purchase not found"
  | .deriveAddress => "store: derive address: "
  | .deriveGuestAddress => "store: derive guest address: "
  | .wgPeerLimit => "store: WireGuard peer limit reached for this identity"
  | .wgForbidden => "store: that identity is not on your account"
  | .wgBadKey => "store: invalid WireGuard public key"
  | .wgPeerNotFound => "store: WireGuard peer not found"
  | .wgPoolFull => "store: WireGuard address pool exhausted"
  | .wgNotActive => "store: that identity is not active on any account"
  | .constraint name => name
  | .scan _ => "can't scan into dest["
  | .lost => ""

/-! ## Configuration -/

/-- The inner address plan of the WireGuard peers. -/
structure WgPools where
  addr4 : BitVec 32
  bits4 : Nat
  addr6 : BitVec 128
  bits6 : Nat
  deriving DecidableEq, Repr

/-- `DefaultWgPools`: 10.64.0.0/16 and fc10:f1b5:ea17::/64. -/
def defaultWgPools : WgPools :=
  ⟨0x0a400000#32, 16, 0xfc10f1b5ea1700000000000000000000#128, 64⟩

/-- The store's settings, and the identity scheme it is linked with. -/
structure Store where
  ident : Identity
  /-- `MaxGuests`; not positive means `DefaultMaxGuests`. -/
  MaxGuests : Int
  /-- `WgPools`; `none` when a prefix is not valid. -/
  pools : Option WgPools
  /-- `MaxWgPeersPerAddr`; not positive means the default. -/
  MaxWgPeersPerAddr : Int

/-- `maxGuests`. -/
def Store.maxGuests (s : Store) : Int :=
  if 0 < s.MaxGuests then s.MaxGuests else 5

/-! ## Methods and transactions -/

/-- A store method. -/
abbrev StoreM (α : Type) := Prog Db StoreErr α

/-- What a rollback leaves: the database as it was, and the sequences where the
transaction left them. -/
def rollback (before after : Db) : Db :=
  { before with
    wgPeerAlloc := after.wgPeerAlloc
    authz := { before.authz with revSeq := after.authz.revSeq } }

/-- `inTx`: the `k`-th transaction of a call, with its `now()`.  A statement outside
of `inTx` is a transaction of its own. -/
def inTx {α : Type} (env : Env) (k : Nat) (body : Time → StoreM α) : StoreM α :=
  transaction rollback (if env.fails k then some .lost else none) (body (env.now k))

/-- The next row id. -/
def newId : StoreM Nat := do
  let db ← get
  modify fun db => { db with nextId := db.nextId + 1 }
  return db.nextId

@[simp] theorem exec_newId (db : Db) :
    exec newId db = (.ok db.nextId, { db with nextId := db.nextId + 1 }) := rfl

/-- A transaction that returns has run its body. -/
theorem exec_inTx_ok {α : Type} {env : Env} {k : Nat} {body : Time → StoreM α} {db db' : Db} {a : α}
    (h : exec (inTx env k body) db = (.ok a, db')) :
    exec (body (env.now k)) db = (.ok a, db') := by
  rw [inTx, exec_transaction] at h
  rcases run : exec (body (env.now k)) db with ⟨outcome, db₁⟩
  rw [run] at h
  cases outcome with
  | error e => cases h
  | ok a₁ =>
      by_cases fails : env.fails k = true
      · simp only [fails, if_true] at h
        cases h
      · simpa [fails] using h

/-- A transaction whose body returns: it commits, or it is lost. -/
theorem exec_inTx_eq {α : Type} {env : Env} {k : Nat} {body : Time → StoreM α} {db db' : Db} {a : α}
    (h : exec (body (env.now k)) db = (.ok a, db')) :
    exec (inTx env k body) db =
      if env.fails k then (.error .lost, rollback db db') else (.ok a, db') := by
  rw [inTx, exec_transaction, h]
  cases env.fails k <;> rfl

/-- A transaction that is not lost and whose body returns. -/
theorem exec_inTx {α : Type} {env : Env} {k : Nat} {body : Time → StoreM α} {db db' : Db} {a : α}
    (completes : env.fails k = false) (h : exec (body (env.now k)) db = (.ok a, db')) :
    exec (inTx env k body) db = (.ok a, db') := by
  simp [exec_inTx_eq h, completes]

/-- The triple of a transaction: its body has to be good when it returns, and what a
rollback leaves when it fails. -/
theorem triple_inTx {α : Type} {P E : Db → Prop} {Q : α → Db → Prop} {env : Env} {k : Nat}
    {body : Time → StoreM α}
    (done : ∀ now db a db', P db → exec (body now) db = (.ok a, db') → Q a db')
    (rolledBack : ∀ db db', P db → E (rollback db db')) : Triple P (inTx env k body) Q E :=
  Triple.transaction (Triple.of_ok (done (env.now k))) rolledBack

/-- A transaction that returns has committed; it fails as its body does, or because it is lost. -/
theorem ends_inTx {α : Type} {P : Db → Prop} {Q : α → Db → Prop} {E : StoreErr → Prop} {env : Env}
    {k : Nat} {body : Time → StoreM α} (h : Ends P (body (env.now k)) Q E)
    (lost : env.fails k = true → E .lost) :
    Ends P (inTx env k body) (fun a db => Q a db ∧ env.fails k = false) E := by
  refine (Ends.transaction h fun e isLost => ?_).imp fun a db ⟨post, notLost⟩ => ⟨post, ?_⟩
  · split at isLost
    · rename_i fails
      cases isLost
      exact lost fails
    · cases isLost
  · split at notLost
    · cases notLost
    · rename_i completes
      simpa using completes

/-- A transaction keeps what its body, run at the `now()` of the transaction, keeps and
what rollbacks do not disturb. -/
theorem keeps_inTx_now {α : Type} {I : Db → Prop} {env : Env} {k : Nat} {body : Time → StoreM α}
    (kept : ∀ db a db', I db → exec (body (env.now k)) db = (.ok a, db') → I db')
    (rolledBack : ∀ db db', I db → I (rollback db db')) : Keeps I (inTx env k body) :=
  Keeps.transaction kept rolledBack

theorem keeps_inTx {α : Type} {I : Db → Prop} {env : Env} {k : Nat} {body : Time → StoreM α}
    (kept : ∀ now db a db', I db → exec (body now) db = (.ok a, db') → I db')
    (rolledBack : ∀ db db', I db → I (rollback db db')) : Keeps I (inTx env k body) :=
  keeps_inTx_now (kept (env.now k)) rolledBack

theorem keeps_newId {I : Db → Prop} (kept : ∀ db n, db.nextId ≤ n → I db → I { db with nextId := n }) :
    Keeps I newId :=
  ⟨fun db h => kept db (db.nextId + 1) (Nat.le_succ _) h⟩

/-! ## Who should be authorized -/

/-- `now() >= starts_at AND now() <= expires_at AND (kind = 'time' OR
volume_used < volume_bytes)`; a NULL volume makes the comparison NULL. -/
def Entitlement.activeAt (now : Time) (e : Entitlement) : Bool :=
  decide (e.startsAt ≤ now) && decide (now ≤ e.expiresAt) &&
    (decide (e.kind = .time) ||
      match e.volumeBytes with
      | some total => decide (e.volumeUsed < total)
      | none => false)

/-- The account has an entitlement that is active at `now`. -/
def Db.hasActiveEntitlement (now : Time) (db : Db) (acct : AccountId) : Bool :=
  db.entitlements.any fun e => decide (e.accountId = acct) && e.activeAt now

/-- The `WHERE` clause of `desiredSQL`, its join with `accounts` included. -/
def Db.desiredRow (now : Time) (db : Db) (w : WhitelistEntry) : Bool :=
  w.active && (db.accounts.any fun a => decide (a.id = w.accountId) && decide (a.status = .active)) &&
    db.hasActiveEntitlement now w.accountId

/-- `scanAddrAccount(desiredSQL)`: the rows collected into a map, later rows
overwriting earlier ones. -/
def Db.desired (now : Time) (db : Db) : AList fun _ : Addr => AccountId :=
  (db.whitelist.filter (db.desiredRow now)).foldl (fun m w => m.insert w.fipsAddr w.accountId) ∅

/-- `RecomputeAuthz`, as the `k`-th transaction of a call. -/
def recomputeAuthz (env : Env) (k : Nat) : StoreM (List Addr × Int) :=
  inTx env k fun now => do
    let db ← get
    let desired := db.desired now
    let authz := db.authz.recompute env.order now desired
    modify fun db => { db with authz }
    return (db.authz.removedBy env.order desired, authz.maxRev)

/-- The database after a recompute. -/
def Db.recomputed (order : MapOrder Member) (now : Time) (db : Db) : Db :=
  { db with authz := db.authz.recompute order now (db.desired now) }

theorem exec_recomputeAuthz {env : Env} {k : Nat} (completes : env.fails k = false) (db : Db) :
    ∃ result, exec (recomputeAuthz env k) db = (.ok result, db.recomputed env.order (env.now k)) :=
  ⟨_, exec_inTx completes rfl⟩

/-- A recompute keeps what does not depend on the authorized set. -/
theorem keeps_recomputeAuthz {I : Db → Prop} (env : Env) (k : Nat)
    (kept : ∀ db authz, I db → I { db with authz }) (rolledBack : ∀ db db', I db → I (rollback db db')) :
    Keeps I (recomputeAuthz env k) := by
  refine keeps_inTx (fun now db result db' h run => ?_) rolledBack
  cases run
  exact kept db _ h

end FipsExitGate
