import FipsExitGate.Store.Whitelist

/-!
# Packages, purchases and entitlements

`packages.go`, `payments.go` and the credit methods of `admin.go`: the catalog,
the life of a purchase, and the two ways an account comes to an entitlement
(a settled purchase, an operator's credit).  Both bring the account's own address
home, in the same transaction.
-/

namespace FipsExitGate

open Program Table

/-! ## The catalog -/

/-- The values of an `integer` column; others fail to encode. -/
def isInt4 (n : Int) : Bool :=
  decide (-2 ^ 31 ≤ n) && decide (n < 2 ^ 31)

/-- `CreatePackage`: the volume is recorded for volume packages only. -/
def createPackage (env : Env) (kind : Kind) (name : String) (volumeBytes validityDays priceMsat : Int)
    (availableUntil : Option Time) : StoreM Nat :=
  inTx env 0 fun _ => do
    if !isInt4 validityDays then throw (.constraint "validity_days")
    else
      let id ← newId
      let volume := if kind = .volume then some volumeBytes else none
      modify fun db => { db with
        packages := db.packages ++
          [⟨id, kind, name, volume, validityDays, priceMsat, true, availableUntil⟩] }
      return id

/-- `DeactivatePackage`. -/
def deactivatePackage (env : Env) (id : Nat) : StoreM Unit :=
  inTx env 0 fun _ => do
    let db ← get
    if db.packages.any fun p => decide (p.id = id) then
      modify fun db => { db with
        packages := updateWhere (fun p => decide (p.id = id)) (fun p => { p with active := false })
          db.packages }
    else throw .packageNotFound

/-! ## Purchases -/

/-- `CreatePurchase`. -/
def Store.createPurchase (s : Store) (env : Env) (npub : String) (packageId : Nat) :
    StoreM Nat := do
  let acct ← s.getAccountByNpub npub
  inTx env 0 fun now => do
    let db ← get
    if db.packages.any fun p => decide (p.id = packageId) then
      let id ← newId
      modify fun db => { db with
        purchases := db.purchases ++
          [⟨id, acct.id, packageId, none, .pending, now, none, none, none⟩] }
      return id
    else throw (.constraint "purchases_package_type_id_fkey")

/-- `AttachInvoice`; `NULLIF(pay_request, '')`. -/
def attachInvoice (env : Env) (purchaseId : Nat) (invoiceId checkoutUrl payRequest : String) :
    StoreM Unit :=
  inTx env 0 fun _ => do
    let db ← get
    if db.purchases.any fun p => decide (p.id = purchaseId) then
      if db.purchases.any fun p =>
          decide (p.id ≠ purchaseId) && decide (p.invoiceId = some invoiceId) then
        throw (.constraint "purchases_btcpay_invoice_id_key")
      else
        modify fun db => { db with
          purchases := updateWhere (fun p => decide (p.id = purchaseId))
            (fun p => { p with
              invoiceId := some invoiceId
              checkoutUrl := some checkoutUrl
              payRequest := if payRequest = "" then none else some payRequest })
            db.purchases }
    else throw .purchaseNotFound

/-- `SET status = 'processing' WHERE … AND status = 'pending'`. -/
def processRow (invoiceId : String) (purchases : List Purchase) : List Purchase :=
  updateWhere (fun p => decide (p.invoiceId = some invoiceId) && decide (p.status = .pending))
    (fun p => { p with status := .processing }) purchases

/-- The statements of `MarkProcessing`: only `pending` moves on; an unknown invoice is
an error. -/
def markProcessingTx (invoiceId : String) : StoreM Unit := do
  let db ← get
  if db.purchases.any fun p => decide (p.invoiceId = some invoiceId) then
    modify fun db => { db with purchases := processRow invoiceId db.purchases }
  else throw .purchaseNotFound

theorem exec_markProcessingTx {invoiceId : String} {db : Db} {p : Purchase}
    (member : p ∈ db.purchases) (attached : p.invoiceId = some invoiceId) :
    exec (markProcessingTx invoiceId) db =
      (.ok (), { db with purchases := processRow invoiceId db.purchases }) := by
  have known : (db.purchases.any fun p => decide (p.invoiceId = some invoiceId)) = true :=
    List.any_eq_true.mpr ⟨p, member, by simpa using attached⟩
  unfold markProcessingTx
  rw [exec_get_bind, if_pos known]
  rfl

/-- `MarkProcessing`. -/
def markProcessing (env : Env) (invoiceId : String) : StoreM Unit :=
  inTx env 0 fun _ => markProcessingTx invoiceId

/-- The database with one more entitlement, numbered next. -/
def Db.withEntitlement (db : Db) (new : Nat → Entitlement) : Db :=
  { db with entitlements := db.entitlements ++ [new db.nextId], nextId := db.nextId + 1 }

/-- The entitlement a purchase of the package brings. -/
def grantOf (p : Purchase) (pt : PackageType) (now : Time) (id : Nat) : Entitlement :=
  ⟨id, p.accountId, some p.id, pt.kind, if pt.kind = .volume then pt.volumeBytes else none, 0, now,
    now + pt.validityDays * day⟩

/-- `SET status = 'settled', settled_at = COALESCE(settled_at, now())`. -/
def settleRow (purchaseId : Nat) (now : Time) (purchases : List Purchase) : List Purchase :=
  updateWhere (fun p => decide (p.id = purchaseId))
    (fun p => { p with
      status := .settled
      settledAt := if p.settledAt.isNone then some now else p.settledAt })
    purchases

/-- `grantEntitlementTx` with status `settled`, which is how both callers use it:
the entitlement (unless the purchase has one), the owner's address home if this
call granted it, and the status. -/
def grantEntitlementTx (purchaseId : Nat) (now : Time) : StoreM Unit := do
  let db ← get
  match db.purchases.find? fun p => decide (p.id = purchaseId) with
  | none => throw .purchaseNotFound
  | some p =>
      match db.packages.find? fun pt => decide (pt.id = p.packageTypeId) with
      | none => throw .purchaseNotFound
      | some pt =>
          -- ON CONFLICT (purchase_id) DO NOTHING; a conflict does not bring the address home
          if db.entitlements.any fun e => decide (e.purchaseId = some purchaseId) then pure ()
          else
            modify fun db => db.withEntitlement (grantOf p pt now)
            activateOwnerTx p.accountId
          modify fun db => { db with purchases := settleRow purchaseId now db.purchases }

/-- Inversion of a grant: the purchase and its package are there; either there was an
entitlement already, or one is made and the account's address comes home. -/
theorem grantEntitlementTx_ok {purchaseId : Nat} {now : Time} {db db' : Db} {u : Unit}
    (run : exec (grantEntitlementTx purchaseId now) db = (.ok u, db')) :
    ∃ p ∈ db.purchases, ∃ pt ∈ db.packages, p.id = purchaseId ∧ pt.id = p.packageTypeId ∧
      (((∃ e ∈ db.entitlements, e.purchaseId = some purchaseId) ∧
          db' = { db with purchases := settleRow purchaseId now db.purchases }) ∨
        ((∀ e ∈ db.entitlements, e.purchaseId ≠ some purchaseId) ∧
          ∃ db₁, exec (activateOwnerTx p.accountId) (db.withEntitlement (grantOf p pt now)) =
              (.ok (), db₁) ∧
            db' = { db₁ with purchases := settleRow purchaseId now db₁.purchases })) := by
  unfold grantEntitlementTx at run
  rw [exec_get_bind] at run
  split at run
  · cases run
  rename_i p found
  split at run
  · cases run
  rename_i pt ptFound
  refine ⟨p, List.mem_of_find?_eq_some found, pt, List.mem_of_find?_eq_some ptFound,
    by simpa using List.find?_some found, by simpa using List.find?_some ptFound, ?_⟩
  dsimp only at run
  split at run
  · rename_i present
    cases run
    exact .inl ⟨by simpa using present, rfl⟩
  · rename_i absent
    obtain ⟨_, db₁, granted, run⟩ := exec_bind_eq_ok run
    cases granted
    obtain ⟨_, db₂, home, run⟩ := exec_bind_eq_ok run
    cases run
    exact .inr ⟨by simpa using absent, db₂, home, rfl⟩

/-- The transaction of `SettlePurchase`. -/
def settlePurchaseTx (purchaseId : Nat) (now : Time) : StoreM Unit := do
  let db ← get
  match db.purchases.find? fun p => decide (p.id = purchaseId) with
  | none => throw .packageNotFound
  | some p => if p.status = .settled then return () else grantEntitlementTx p.id now

theorem exec_settlePurchaseTx {purchaseId : Nat} {db : Db} {p : Purchase}
    (found : db.purchases.find? (fun p => decide (p.id = purchaseId)) = some p) (now : Time) :
    exec (settlePurchaseTx purchaseId now) db =
      if p.status = .settled then (.ok (), db) else exec (grantEntitlementTx p.id now) db := by
  unfold settlePurchaseTx
  rw [exec_get_bind, found]
  dsimp only
  split <;> rfl

theorem settlePurchaseTx_ok {purchaseId : Nat} {now : Time} {db db' : Db} {u : Unit}
    (run : exec (settlePurchaseTx purchaseId now) db = (.ok u, db')) :
    (db' = db ∧ ∃ p ∈ db.purchases, p.id = purchaseId ∧ p.status = .settled) ∨
      (∃ p ∈ db.purchases, p.id = purchaseId ∧ p.status ≠ .settled) ∧
        exec (grantEntitlementTx purchaseId now) db = (.ok u, db') := by
  unfold settlePurchaseTx at run
  rw [exec_get_bind] at run
  split at run
  · cases run
  rename_i p found
  have member := List.mem_of_find?_eq_some found
  have isIt : p.id = purchaseId := by simpa using List.find?_some found
  split at run
  · rename_i settled
    cases run
    exact .inl ⟨rfl, p, member, isIt, settled⟩
  · rename_i unsettled
    exact .inr ⟨⟨p, member, isIt, unsettled⟩, isIt ▸ run⟩

/-- `SettlePurchase`. -/
def settlePurchase (env : Env) (purchaseId : Nat) : StoreM Unit := do
  inTx env 0 fun now => settlePurchaseTx purchaseId now
  let _ ← recomputeAuthz env 1
  return ()

/-- The transaction of `GrantByInvoice`. -/
def grantByInvoiceTx (invoiceId : String) (now : Time) : StoreM Unit := do
  let db ← get
  match db.purchases.find? fun p => decide (p.invoiceId = some invoiceId) with
  | none => throw .purchaseNotFound
  | some p => if p.status = .settled then return () else grantEntitlementTx p.id now

theorem exec_grantByInvoiceTx {invoiceId : String} {db : Db} {p : Purchase}
    (found : db.purchases.find? (fun p => decide (p.invoiceId = some invoiceId)) = some p)
    (now : Time) :
    exec (grantByInvoiceTx invoiceId now) db =
      if p.status = .settled then (.ok (), db) else exec (grantEntitlementTx p.id now) db := by
  unfold grantByInvoiceTx
  rw [exec_get_bind, found]
  dsimp only
  split <;> rfl

theorem grantByInvoiceTx_ok {invoiceId : String} {now : Time} {db db' : Db} {u : Unit}
    (run : exec (grantByInvoiceTx invoiceId now) db = (.ok u, db')) :
    (db' = db ∧ ∃ p ∈ db.purchases, p.invoiceId = some invoiceId ∧ p.status = .settled) ∨
      ∃ p ∈ db.purchases, p.invoiceId = some invoiceId ∧ p.status ≠ .settled ∧
        exec (grantEntitlementTx p.id now) db = (.ok u, db') := by
  unfold grantByInvoiceTx at run
  rw [exec_get_bind] at run
  split at run
  · cases run
  rename_i p found
  have member := List.mem_of_find?_eq_some found
  have isIt : p.invoiceId = some invoiceId := by simpa using List.find?_some found
  split at run
  · rename_i settled
    cases run
    exact .inl ⟨rfl, p, member, isIt, settled⟩
  · rename_i unsettled
    exact .inr ⟨p, member, isIt, unsettled, run⟩

/-- `GrantByInvoice`. -/
def grantByInvoice (env : Env) (invoiceId : String) : StoreM Unit := do
  inTx env 0 fun now => grantByInvoiceTx invoiceId now
  let _ ← recomputeAuthz env 1
  return ()

/-- The statuses `VoidByInvoice` is called with. -/
inductive VoidStatus where
  | invalid
  | expired
  deriving DecidableEq, Repr

def VoidStatus.toStatus : VoidStatus → PurchaseStatus
  | .invalid => .invalid
  | .expired => .expired

/-- The entitlement of the purchase goes, and its status changes. -/
def Db.voided (db : Db) (purchaseId : Nat) (status : VoidStatus) : Db :=
  { db with
    entitlements := deleteWhere (fun e => decide (e.purchaseId = some purchaseId)) db.entitlements
    purchases := updateWhere (fun q => decide (q.id = purchaseId))
      (fun q => { q with status := status.toStatus }) db.purchases }

/-- The transaction of `VoidByInvoice`. -/
def voidByInvoiceTx (invoiceId : String) (status : VoidStatus) : StoreM Unit := do
  let db ← get
  match db.purchases.find? fun p => decide (p.invoiceId = some invoiceId) with
  | none => throw .purchaseNotFound
  | some p =>
      if p.status = .settled then return ()
      else modify fun db => db.voided p.id status

theorem exec_voidByInvoiceTx {invoiceId : String} {db : Db} {p : Purchase}
    (found : db.purchases.find? (fun p => decide (p.invoiceId = some invoiceId)) = some p)
    (status : VoidStatus) :
    exec (voidByInvoiceTx invoiceId status) db =
      if p.status = .settled then (.ok (), db) else (.ok (), db.voided p.id status) := by
  unfold voidByInvoiceTx
  rw [exec_get_bind, found]
  dsimp only
  split <;> rfl

theorem voidByInvoiceTx_ok {invoiceId : String} {status : VoidStatus} {db db' : Db} {u : Unit}
    (run : exec (voidByInvoiceTx invoiceId status) db = (.ok u, db')) :
    (db' = db ∧ ∃ p ∈ db.purchases, p.invoiceId = some invoiceId ∧ p.status = .settled) ∨
      ∃ p ∈ db.purchases, p.invoiceId = some invoiceId ∧ p.status ≠ .settled ∧
        db' = db.voided p.id status := by
  unfold voidByInvoiceTx at run
  rw [exec_get_bind] at run
  split at run
  · cases run
  rename_i p found
  have member := List.mem_of_find?_eq_some found
  have isIt : p.invoiceId = some invoiceId := by simpa using List.find?_some found
  split at run
  · rename_i settled
    cases run
    exact .inl ⟨rfl, p, member, isIt, settled⟩
  · rename_i unsettled
    cases run
    exact .inr ⟨p, member, isIt, unsettled, rfl⟩

/-- `VoidByInvoice`. -/
def voidByInvoice (env : Env) (invoiceId : String) (status : VoidStatus) : StoreM Unit := do
  inTx env 0 fun _ => voidByInvoiceTx invoiceId status
  let _ ← recomputeAuthz env 1
  return ()

/-! ## Credits -/

/-- `time.Now().Add(time.Duration(validityDays) * 24 * time.Hour)` as the database
stores it: the product wraps around at 64 bits of nanoseconds. -/
def creditExpiry (env : Env) (validityDays : Int) : Time :=
  (env.wall + wrap64 (validityDays * (24 * 3600 * 1000000000))) / 1000

/-- The transaction of the two credit methods. -/
def creditTx (acct : AccountId) (kind : Kind) (volume : Option Int) (expires now : Time) :
    StoreM Unit := do
  modify fun db => db.withEntitlement fun id => ⟨id, acct, none, kind, volume, 0, now, expires⟩
  activateOwnerTx acct

theorem creditTx_ok {acct : AccountId} {kind : Kind} {volume : Option Int} {expires now : Time}
    {db db' : Db} {u : Unit} (run : exec (creditTx acct kind volume expires now) db = (.ok u, db')) :
    exec (activateOwnerTx acct)
      (db.withEntitlement fun id => ⟨id, acct, none, kind, volume, 0, now, expires⟩) =
        (.ok u, db') := by
  obtain ⟨_, db₁, credited, run⟩ := exec_bind_eq_ok run
  cases credited
  exact run

/-- The body of the two credit methods: the account is created if needed, which
takes the first three transactions. -/
def Store.credit (s : Store) (env : Env) (npub : String) (kind : Kind) (volume : Option Int)
    (validityDays : Int) : StoreM Unit := do
  let acct ← s.createAccount env npub
  inTx env 3 fun now => creditTx acct.id kind volume (creditExpiry env validityDays) now
  let _ ← recomputeAuthz env 4
  return ()

/-- `CreditVolume`. -/
def Store.creditVolume (s : Store) (env : Env) (npub : String) (volumeBytes validityDays : Int) :
    StoreM Unit :=
  s.credit env npub .volume (some volumeBytes) validityDays

/-- `CreditTime`. -/
def Store.creditTime (s : Store) (env : Env) (npub : String) (validityDays : Int) : StoreM Unit :=
  s.credit env npub .time none validityDays

end FipsExitGate
