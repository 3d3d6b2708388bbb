import FipsExitGate.Store.Purchases
import FipsExitGate.Store.Usage
import Mathlib.Algebra.Ring.Rat
import Mathlib.Data.List.Sort
import Mathlib.Data.Nat.Log

/-!
# What the portal reads

The queries behind the portal's pages: `GetPackage` of `packages.go`, `OpenPurchases` and
`PurchaseForPay` of `payments.go`, `PendingInvites` and `AttachedTo` of `whitelist.go`, and
`Summary` with `UsageByService` of `portal.go`.  A query is a function of the database; a method
is the query run on the current one.

## Design notes

* A join is a nested loop over the tables.  `ORDER BY` is a stable sort: SQL leaves the
  order of equal keys open, here it is that of the table.  Service keys are ordered by
  code points.
* `sum` over `bigint` columns is `numeric`, and so is the billed amount, which a division
  rounds to a number of decimals that depends on its size (`divideByMillion`).  Scanning a
  `numeric` into an `int64` fails unless it is a whole number in range.
* A method that fails after its first query returns part of its result along with the
  error; callers drop it, and it is dropped here.
-/

namespace FipsExitGate

open Program Table

/-! ## The catalog -/

/-- `Package`. -/
structure Package where
  id : Nat
  kind : Kind
  name : String
  volumeBytes : Int
  validityDays : Int
  priceMsat : Int
  deriving DecidableEq, Repr

/-- `active AND (available_until IS NULL OR available_until > now())`. -/
def PackageType.availableAt (now : Time) (pt : PackageType) : Bool :=
  pt.active && pt.availableUntil.all fun limit => decide (now < limit)

/-- `GetPackage`. -/
def getPackage (env : Env) (id : Nat) : StoreM Package :=
  inTx env 0 fun now => do
    let db ← get
    match db.packages.find? fun pt => decide (pt.id = id) && pt.availableAt now with
    | some pt =>
        return ⟨pt.id, pt.kind, pt.name, pt.volumeBytes.getD 0, pt.validityDays, pt.priceMsat⟩
    | none => throw .packageNotFound

/-- `GetPackage` returns exactly if its query does not fail and the package is available. -/
theorem exec_getPackage (env : Env) (id : Nat) (db : Db) :
    (exec (getPackage env id) db).2 = db ∧
      ((∃ pkg, (exec (getPackage env id) db).1 = .ok pkg) ↔
        env.fails 0 = false ∧ ∃ pt ∈ db.packages, pt.id = id ∧ pt.availableAt (env.now 0) = true) := by
  unfold getPackage
  rw [inTx, exec_transaction, exec_get_bind]
  cases found : db.packages.find? fun pt => decide (pt.id = id) && pt.availableAt (env.now 0) with
  | none =>
      refine ⟨rfl, ⟨?_, ?_⟩⟩
      · rintro ⟨_, ⟨⟩⟩
      · rintro ⟨-, pt, member, isIt, available⟩
        simpa [isIt, available] using List.find?_eq_none.mp found pt member
  | some pt =>
      have isIt := List.find?_some found
      simp only [Bool.and_eq_true, decide_eq_true_eq] at isIt
      have there := List.mem_of_find?_eq_some found
      cases lost : env.fails 0 with
      | true =>
          refine ⟨rfl, ⟨?_, ?_⟩⟩
          · rintro ⟨_, ⟨⟩⟩
          · rintro ⟨⟨⟩, -⟩
      | false => exact ⟨rfl, ⟨fun _ => ⟨rfl, pt, there, isIt⟩, fun _ => ⟨_, rfl⟩⟩⟩

/-! ## Purchases -/

/-- `PurchaseView`. -/
structure PurchaseView where
  id : Nat
  packageName : String
  priceMsat : Int
  status : PurchaseStatus
  checkoutUrl : String
  createdAt : Time
  deriving DecidableEq, Repr

/-- The statuses `pending` and `processing`. -/
def Purchase.isOpen (p : Purchase) : Bool :=
  decide (p.status = .pending) || decide (p.status = .processing)

/-- The purchases of the accounts stored under `npub`, each with its package. -/
def Db.purchasesOf (db : Db) (npub : String) : List (Purchase × PackageType) :=
  db.purchases.flatMap fun p =>
    (db.accounts.filter fun a => decide (a.id = p.accountId) && decide (a.npub = npub)).flatMap
      fun _ => (db.packages.filter fun pt => decide (pt.id = p.packageTypeId)).map fun pt => (p, pt)

/-- The query of `OpenPurchases`. -/
def Db.openPurchases (db : Db) (npub : String) : List PurchaseView :=
  let rows := (db.purchasesOf npub).filter fun row => row.1.isOpen
  (rows.map fun (p, pt) =>
    ⟨p.id, pt.name, pt.priceMsat, p.status, p.checkoutUrl.getD "", p.createdAt⟩).insertionSort
      fun v w => w.createdAt ≤ v.createdAt

/-- `OpenPurchases`: the npub is compared as it is given. -/
def openPurchases (npub : String) : StoreM (List PurchaseView) := do
  let db ← get
  return db.openPurchases npub

/-- `PayView`. -/
structure PayView where
  status : PurchaseStatus
  bolt11 : String
  packageName : String
  priceMsat : Int
  deriving DecidableEq, Repr

/-- `PurchaseForPay`: the npub is compared as it is given. -/
def purchaseForPay (purchaseId : Nat) (npub : String) : StoreM PayView := do
  let db ← get
  match (db.purchasesOf npub).find? fun row => decide (row.1.id = purchaseId) with
  | some (p, pt) => return ⟨p.status, p.payRequest.getD "", pt.name, pt.priceMsat⟩
  | none => throw .purchaseNotFound

theorem exec_purchaseForPay (purchaseId : Nat) (npub : String) (db : Db) :
    exec (purchaseForPay purchaseId npub) db =
      match (db.purchasesOf npub).find? fun row => decide (row.1.id = purchaseId) with
      | some (p, pt) => (.ok ⟨p.status, p.payRequest.getD "", pt.name, pt.priceMsat⟩, db)
      | none => (.error .purchaseNotFound, db) := by
  rw [purchaseForPay, exec_get_bind]
  split <;> rfl

/-! ## Invitations -/

/-- `Invite`. -/
structure Invite where
  hostNpub : String
  hostAddr : Addr
  label : String
  accountId : AccountId
  deriving DecidableEq, Repr

/-- The query of `PendingInvites`, for a canonical npub. -/
def Db.pendingInvites (db : Db) (guest : String) : List Invite :=
  let rows := (db.whitelist.filter fun w =>
      decide (w.npub = guest) && w.pending && w.enabled && decide (w.role = .guest)).insertionSort
    fun v w => v.createdAt ≤ w.createdAt
  rows.flatMap fun w =>
    (db.accounts.filter fun a => decide (a.id = w.accountId)).map fun a =>
      ⟨a.npub, a.fipsAddr, w.label.getD "", a.id⟩

/-- `PendingInvites`. -/
def Store.pendingInvites (s : Store) (guestNpub : String) : StoreM (List Invite) := do
  let db ← get
  return db.pendingInvites (s.ident.normNpub guestNpub)

/-- `AttachedTo`: the owner of the other account the address is active on, if any. -/
def Db.attachedTo (db : Db) (acct : AccountId) (addr : Addr) : String :=
  let rows := (db.whitelist.filter fun w =>
    decide (w.fipsAddr = addr) && w.active && decide (w.accountId ≠ acct)).flatMap fun w =>
      (db.accounts.filter fun a => decide (a.id = w.accountId)).map fun a => a.npub
  rows.headD ""

/-! ## Usage -/

/-- The decimals to which Postgres computes the quotient of a whole number and 10⁶: at
least 16 significant digits, counted in digits of base 10⁴. -/
def divScale (p : Nat) : Nat :=
  let weight := Nat.log 10000 p
  -- 10⁶ has one base-10⁴ digit behind its first one, which is 100
  let qweight : Int := weight - 1 - if p / 10000 ^ weight ≤ 100 then 1 else 0
  (16 - 4 * qweight).toNat

/-- `p / 1000000` on `numeric`: rounded to `divScale` decimals, half away from zero. -/
def divideByMillion (p : Int) : Rat :=
  let scale := divScale p.natAbs
  let scaled := (2 * p.natAbs * 10 ^ scale + 1000000) / 2000000
  (p.sign * scaled : Int) / (10 ^ scale : Nat)

/-- Scanning a `numeric` into an `int64`. -/
def scanInt64 (q : Rat) : Option Int :=
  if q.den = 1 ∧ -2 ^ 63 ≤ q.num ∧ q.num < 2 ^ 63 then some q.num else none

/-- `ServiceUsage`. -/
structure ServiceUsage where
  key : String
  name : String
  ratePpm : Int
  metered : Int
  billed : Int
  deriving DecidableEq, Repr

/-- The rows of `raw` for a service: the total of the account's samples, and that of its
daily totals, each if there is any. -/
def Db.rawUsage (db : Db) (acct : AccountId) (service : Nat) : List Int :=
  let samples := (db.samples.filter fun smp =>
    decide (smp.accountId = some acct) && decide (smp.serviceId = some service)).map (·.bytes)
  let daily := (db.daily.entries.filter fun entry =>
    decide (entry.1.accountId = acct) && decide (entry.1.serviceId = service)).map fun entry => entry.2
  [samples, daily].filterMap fun bytes => if bytes = [] then none else some bytes.sum

/-- `UsageByService`; `none` when a sum cannot be scanned. -/
def Db.usageByService (db : Db) (acct : AccountId) : Option (List ServiceUsage) :=
  let services := (db.services.filter fun sv => sv.enabled).insertionSort fun v w => v.key ≤ w.key
  services.mapM fun sv => do
    let raw := db.rawUsage acct sv.id
    let metered ← scanInt64 raw.sum
    let billed ← scanInt64 (raw.map fun bytes => divideByMillion (bytes * sv.ratePpm)).sum
    return ⟨sv.key, sv.name, sv.ratePpm, metered, billed⟩

/-- All bytes of the account, those of unknown services included. -/
def Db.usageBytes (db : Db) (acct : AccountId) : Int :=
  ((db.samples.filter fun smp => decide (smp.accountId = some acct)).map (·.bytes)).sum +
    ((db.daily.entries.filter fun entry => decide (entry.1.accountId = acct)).map
      fun entry => entry.2).sum

/-! ## The dashboard -/

/-- `EntitlementView`. -/
structure EntitlementView where
  kind : Kind
  name : String
  volumeBytes : Int
  volumeUsed : Int
  startsAt : Time
  expiresAt : Time
  active : Bool
  deriving DecidableEq, Repr

/-- The column `active` of the dashboard's query, which is NULL for an entitlement without
a volume whose kind is not `time`. -/
def Entitlement.activeColumn (now : Time) (e : Entitlement) : Option Bool :=
  if e.startsAt ≤ now ∧ now ≤ e.expiresAt then
    if e.kind = .time then some true
    else e.volumeBytes.map fun total => decide (e.volumeUsed < total)
  else some false

/-- The name of the package an entitlement was bought as. -/
def Db.packageName (db : Db) (e : Entitlement) : String :=
  let purchase := e.purchaseId.bind fun id => db.purchases.find? fun p => decide (p.id = id)
  let package := purchase.bind fun p =>
    db.packages.find? fun pt => decide (pt.id = p.packageTypeId)
  (package.map fun pt => pt.name).getD ""

/-- The entitlements of the dashboard; `none` when `active` is NULL for one of them. -/
def Db.entitlementViews (now : Time) (db : Db) (acct : AccountId) : Option (List EntitlementView) :=
  let rows := (db.entitlements.filter fun e => decide (e.accountId = acct)).insertionSort
    fun d e => d.expiresAt ≤ e.expiresAt
  rows.mapM fun e => (e.activeColumn now).map fun active =>
    ⟨e.kind, db.packageName e, e.volumeBytes.getD 0, e.volumeUsed, e.startsAt, e.expiresAt, active⟩

/-- `WhitelistView`. -/
structure WhitelistView where
  npub : String
  label : String
  role : Role
  enabled : Bool
  pending : Bool
  addr : Addr
  deriving DecidableEq, Repr

/-- The whitelist of the dashboard, the owner's row first. -/
def Db.whitelistViews (db : Db) (acct : AccountId) : List WhitelistView :=
  let rows := (db.whitelist.filter fun w => decide (w.accountId = acct)).insertionSort fun v w =>
    (v.role = .owner ∧ w.role ≠ .owner) ∨
      ((v.role = .owner ↔ w.role = .owner) ∧ v.createdAt ≤ w.createdAt)
  rows.map fun w => ⟨w.npub, w.label.getD "", w.role, w.enabled, w.pending, w.fipsAddr⟩

/-- `AccountSummary`. -/
structure AccountSummary where
  account : Account
  entitlements : List EntitlementView
  whitelist : List WhitelistView
  openPurchases : List PurchaseView
  services : List ServiceUsage
  usageBytes : Int
  invites : List Invite
  attachedTo : String
  deriving DecidableEq, Repr

/-- A value that has to be scanned. -/
def scanned {α : Type} (column : String) (value : Option α) : StoreM α :=
  match value with
  | some a => return a
  | none => throw (.scan column)

/-- `Summary`: the account is found by the canonical npub, its open purchases by the npub as
it is given. -/
def Store.summary (s : Store) (env : Env) (npub : String) : StoreM AccountSummary := do
  let acct ← s.getAccountByNpub npub
  let db ← get
  let entitlements ← scanned "active" (db.entitlementViews (env.now 0) acct.id)
  let whitelist := db.whitelistViews acct.id
  let usageBytes ← scanned "usage" (scanInt64 (db.usageBytes acct.id))
  let awaiting ← openPurchases npub
  let services ← scanned "billed" (db.usageByService acct.id)
  let invites ← s.pendingInvites npub
  return ⟨acct, entitlements, whitelist, awaiting, services, usageBytes, invites,
    db.attachedTo acct.id acct.fipsAddr⟩

/-- The dashboard of an account whose columns can all be scanned. -/
theorem exec_summary {s : Store} {env : Env} {npub : String} {db : Db} {acct : Account}
    {entitlements : List EntitlementView} {usageBytes : Int} {services : List ServiceUsage}
    (account : exec (s.getAccountByNpub npub) db = (.ok acct, db))
    (entitled : db.entitlementViews (env.now 0) acct.id = some entitlements)
    (used : scanInt64 (db.usageBytes acct.id) = some usageBytes)
    (served : db.usageByService acct.id = some services) :
    exec (s.summary env npub) db =
      (.ok ⟨acct, entitlements, db.whitelistViews acct.id, db.openPurchases npub, services, usageBytes,
        db.pendingInvites (s.ident.normNpub npub), db.attachedTo acct.id acct.fipsAddr⟩, db) := by
  unfold Store.summary
  rw [exec_bind_ok account, exec_get_bind, entitled, used, served]
  rfl

end FipsExitGate
