import FipsExitGate.Store.Methods

/-!
# The ledger of purchases

What holds between `package_types`, `purchases` and `entitlements` after every
sequence of calls: a purchase is settled exactly if it has an entitlement, it has at
most one, and the entitlement is of the kind and volume of the purchased package.

`Ledger` is the invariant.  The methods that write these tables change them in seven
ways, one lemma each; all others are framed away.

## Main results

* `ledger_after` — the ledger is in order after every sequence of calls
-/

namespace FipsExitGate

open Program Table

/-- The entitlements a purchase has brought. -/
def entitlementsOf (purchaseId : Nat) (entitlements : List Entitlement) : List Entitlement :=
  entitlements.filter fun e => decide (e.purchaseId = some purchaseId)

/-- The entitlement has the kind and the volume of the purchase's package. -/
def Matches (packages : List PackageType) (e : Entitlement) (p : Purchase) : Prop :=
  ∃ pt ∈ packages, pt.id = p.packageTypeId ∧ e.kind = pt.kind ∧ e.volumeBytes = pt.volumeBytes

/-- **The invariant of the ledger.** -/
structure Ledger (packages : List PackageType) (purchases : List Purchase)
    (entitlements : List Entitlement) (nextId : Nat) : Prop where
  purchaseIds : (purchases.map (·.id)).Nodup
  purchasesOld : ∀ p ∈ purchases, p.id < nextId
  /-- The unique key of `btcpay_invoice_id`. -/
  invoices : ∀ p ∈ purchases, ∀ q ∈ purchases, ∀ i, p.invoiceId = some i →
    q.invoiceId = some i → p.id = q.id
  packageIds : (packages.map (·.id)).Nodup
  packagesOld : ∀ pt ∈ packages, pt.id < nextId
  /-- Only volume packages have a volume. -/
  volumes : ∀ pt ∈ packages, pt.kind ≠ .volume → pt.volumeBytes = none
  /-- The foreign key of purchases to packages. -/
  packaged : ∀ p ∈ purchases, ∃ pt ∈ packages, pt.id = p.packageTypeId
  single : ∀ id, (entitlementsOf id entitlements).length ≤ 1
  granted : ∀ p ∈ purchases, entitlementsOf p.id entitlements ≠ [] ↔ p.status = .settled
  dated : ∀ p ∈ purchases, p.settledAt.isSome = true ↔ p.status = .settled
  matching : ∀ e ∈ entitlements, ∀ id, e.purchaseId = some id →
    ∃ p ∈ purchases, p.id = id ∧ Matches packages e p

/-- The ledger of the database is in order. -/
def Db.Ledgered (db : Db) : Prop :=
  Ledger db.packages db.purchases db.entitlements db.nextId

theorem entitlementsOf_append (id : Nat) (es : List Entitlement) (e : Entitlement) :
    entitlementsOf id (es ++ [e]) =
      entitlementsOf id es ++ if e.purchaseId = some id then [e] else [] := by
  by_cases hit : e.purchaseId = some id
  · simp [entitlementsOf, List.filter_append, hit]
  · simp [entitlementsOf, List.filter_append, hit]

theorem mem_entitlementsOf {id : Nat} {es : List Entitlement} {e : Entitlement} :
    e ∈ entitlementsOf id es ↔ e ∈ es ∧ e.purchaseId = some id := by
  simp [entitlementsOf]

theorem entitlementsOf_eq_nil {id : Nat} {es : List Entitlement} :
    entitlementsOf id es = [] ↔ ∀ e ∈ es, e.purchaseId ≠ some id := by
  simp [entitlementsOf]

namespace Ledger

variable {packages : List PackageType} {purchases : List Purchase} {entitlements : List Entitlement}
  {nextId : Nat} (ledger : Ledger packages purchases entitlements nextId)
include ledger

theorem purchase_eq {p q : Purchase} (member₁ : p ∈ purchases) (member₂ : q ∈ purchases)
    (same : p.id = q.id) : p = q :=
  eq_of_key_eq ledger.purchaseIds member₁ member₂ same

theorem package_eq {p q : PackageType} (member₁ : p ∈ packages) (member₂ : q ∈ packages)
    (same : p.id = q.id) : p = q :=
  eq_of_key_eq ledger.packageIds member₁ member₂ same

/-! ## The writes -/

theorem grow {n : Nat} (le : nextId ≤ n) : Ledger packages purchases entitlements n :=
  { ledger with
    purchasesOld := fun p member => (ledger.purchasesOld p member).trans_le le
    packagesOld := fun p member => (ledger.packagesOld p member).trans_le le }

/-- A new package, with a volume only if it is a volume package. -/
theorem addPackage {new : PackageType} (id : new.id = nextId)
    (volume : new.kind ≠ .volume → new.volumeBytes = none) :
    Ledger (packages ++ [new]) purchases entitlements (nextId + 1) :=
  { ledger.grow (Nat.le_succ _) with
    packageIds := nodup_append_singleton ledger.packageIds fun pt member =>
      id ▸ (ledger.packagesOld pt member).ne
    packagesOld := List.forall_mem_append.mpr
      ⟨fun pt member => Nat.lt_succ_of_lt (ledger.packagesOld pt member),
        List.forall_mem_singleton.mpr (id ▸ Nat.lt_succ_self _)⟩
    volumes := List.forall_mem_append.mpr ⟨ledger.volumes, List.forall_mem_singleton.mpr volume⟩
    packaged := fun p member =>
      let ⟨pt, isPackage, same⟩ := ledger.packaged p member
      ⟨pt, List.mem_append_left _ isPackage, same⟩
    matching := fun e member id isIt =>
      let ⟨p, isPurchase, same, pt, isPackage, fits⟩ := ledger.matching e member id isIt
      ⟨p, isPurchase, same, pt, List.mem_append_left _ isPackage, fits⟩ }

/-- A package is taken off the market. -/
theorem deactivate (id : Nat) :
    Ledger (updateWhere (fun p => decide (p.id = id)) (fun p => { p with active := false }) packages)
      purchases entitlements nextId := by
  have image : ∀ pt ∈ packages, ∃ pt' ∈ updateWhere (fun p => decide (p.id = id))
      (fun p => { p with active := false }) packages,
      pt'.id = pt.id ∧ pt'.kind = pt.kind ∧ pt'.volumeBytes = pt.volumeBytes := by
    intro pt member
    refine ⟨_, mem_updateWhere_of_mem member, ?_⟩
    split <;> exact ⟨rfl, rfl, rfl⟩
  refine { ledger with
    packageIds := ?_, packagesOld := ?_, volumes := ?_, packaged := ?_, matching := ?_ }
  · exact nodup_updateWhere (fun _ => rfl) ledger.packageIds
  · exact forall_updateWhere (fun pt row _ => ledger.packagesOld pt row)
      fun pt row _ => ledger.packagesOld pt row
  · exact forall_updateWhere (fun pt row _ => ledger.volumes pt row)
      fun pt row _ => ledger.volumes pt row
  · intro p member
    obtain ⟨pt, isPackage, same⟩ := ledger.packaged p member
    obtain ⟨pt', present, sameId, -, -⟩ := image pt isPackage
    exact ⟨pt', present, sameId.trans same⟩
  · intro e member purchase isIt
    obtain ⟨p, isPurchase, same, pt, isPackage, sameType, kind, volume⟩ :=
      ledger.matching e member purchase isIt
    obtain ⟨pt', present, sameId, sameKind, sameVolume⟩ := image pt isPackage
    exact ⟨p, isPurchase, same, pt', present, sameId.trans sameType, kind.trans sameKind.symm,
      volume.trans sameVolume.symm⟩

/-- A new purchase of a package that exists. -/
theorem addPurchase {new : Purchase} (id : new.id = nextId)
    (package : ∃ pt ∈ packages, pt.id = new.packageTypeId) (invoice : new.invoiceId = none)
    (status : new.status = .pending) (settledAt : new.settledAt = none) :
    Ledger packages (purchases ++ [new]) entitlements (nextId + 1) := by
  have unbought : entitlementsOf new.id entitlements = [] := by
    rw [entitlementsOf_eq_nil]
    intro e member isIt
    obtain ⟨p, isPurchase, same, -⟩ := ledger.matching e member new.id isIt
    exact (ledger.purchasesOld p isPurchase).ne (same.trans id)
  refine { ledger.grow (Nat.le_succ _) with
    purchaseIds := nodup_append_singleton ledger.purchaseIds fun p member =>
      id ▸ (ledger.purchasesOld p member).ne
    purchasesOld := List.forall_mem_append.mpr
      ⟨fun p member => Nat.lt_succ_of_lt (ledger.purchasesOld p member),
        List.forall_mem_singleton.mpr (id ▸ Nat.lt_succ_self _)⟩
    packaged := List.forall_mem_append.mpr ⟨ledger.packaged, List.forall_mem_singleton.mpr package⟩
    granted := List.forall_mem_append.mpr
      ⟨ledger.granted, List.forall_mem_singleton.mpr (by simp [unbought, status])⟩
    dated := List.forall_mem_append.mpr
      ⟨ledger.dated, List.forall_mem_singleton.mpr (by simp [settledAt, status])⟩
    matching := fun e member id isIt =>
      let ⟨p, isPurchase, fits⟩ := ledger.matching e member id isIt
      ⟨p, List.mem_append_left _ isPurchase, fits⟩
    invoices := ?_ }
  refine List.forall_mem_append.mpr ⟨fun p member => ?_, List.forall_mem_singleton.mpr ?_⟩
  · refine List.forall_mem_append.mpr ⟨ledger.invoices p member, List.forall_mem_singleton.mpr ?_⟩
    intro i _ attached
    rw [invoice] at attached
    cases attached
  · intro q _ i attached
    rw [invoice] at attached
    cases attached

/-- Purchases are rewritten, and entitlements replaced, so that both still agree. -/
theorem rewrite {p : Purchase → Bool} {f : Purchase → Purchase}
    {granted : List Entitlement} (sameId : ∀ q, (f q).id = q.id)
    (samePackage : ∀ q, (f q).packageTypeId = q.packageTypeId)
    (invoices : ∀ q₁ ∈ updateWhere p f purchases, ∀ q₂ ∈ updateWhere p f purchases, ∀ i,
      q₁.invoiceId = some i → q₂.invoiceId = some i → q₁.id = q₂.id)
    (single : ∀ id, (entitlementsOf id granted).length ≤ 1)
    (grantedHit : ∀ q ∈ purchases, p q = true →
      (entitlementsOf q.id granted ≠ [] ↔ (f q).status = .settled))
    (grantedMiss : ∀ q ∈ purchases, p q = false →
      entitlementsOf q.id granted = entitlementsOf q.id entitlements)
    (dated : ∀ q ∈ purchases, p q = true →
      ((f q).settledAt.isSome = true ↔ (f q).status = .settled))
    (matching : ∀ e ∈ granted, ∀ id, e.purchaseId = some id →
      ∃ q ∈ purchases, q.id = id ∧ Matches packages e q) :
    Ledger packages (updateWhere p f purchases) granted nextId where
  purchaseIds := nodup_updateWhere sameId ledger.purchaseIds
  purchasesOld := forall_updateWhere
    (fun q row _ => (sameId q).trans_lt (ledger.purchasesOld q row))
    fun q row _ => ledger.purchasesOld q row
  invoices := invoices
  packageIds := ledger.packageIds
  packagesOld := ledger.packagesOld
  volumes := ledger.volumes
  packaged := forall_updateWhere (fun q row _ => (samePackage q).symm ▸ ledger.packaged q row)
    fun q row _ => ledger.packaged q row
  single := single
  granted := forall_updateWhere (fun q row isHit => (sameId q).symm ▸ grantedHit q row isHit)
    fun q row isMiss => grantedMiss q row isMiss ▸ ledger.granted q row
  dated := forall_updateWhere dated fun q row _ => ledger.dated q row
  matching := by
    intro e member id isIt
    obtain ⟨q, row, same, pt, isPackage, sameType, fits⟩ := matching e member id isIt
    refine ⟨_, mem_updateWhere_of_mem row, ?_⟩
    split
    · exact ⟨(sameId q).trans same, pt, isPackage, sameType.trans (samePackage q).symm, fits⟩
    · exact ⟨same, pt, isPackage, sameType, fits⟩

/-- Invoices stay unique when no statement touches them. -/
theorem invoices_kept {p : Purchase → Bool} {f : Purchase → Purchase}
    (sameId : ∀ q, (f q).id = q.id) (sameInvoice : ∀ q, (f q).invoiceId = q.invoiceId) :
    ∀ q₁ ∈ updateWhere p f purchases, ∀ q₂ ∈ updateWhere p f purchases, ∀ i,
      q₁.invoiceId = some i → q₂.invoiceId = some i → q₁.id = q₂.id := by
  have old : ∀ q ∈ updateWhere p f purchases, ∃ o ∈ purchases, o.id = q.id ∧
      o.invoiceId = q.invoiceId :=
    forall_updateWhere (fun q row _ => ⟨q, row, (sameId q).symm, (sameInvoice q).symm⟩)
      fun q row _ => ⟨q, row, rfl, rfl⟩
  intro q₁ member₁ q₂ member₂ i attached₁ attached₂
  obtain ⟨o₁, row₁, id₁, invoice₁⟩ := old q₁ member₁
  obtain ⟨o₂, row₂, id₂, invoice₂⟩ := old q₂ member₂
  rw [← id₁, ← id₂]
  exact ledger.invoices o₁ row₁ o₂ row₂ i (invoice₁.trans attached₁) (invoice₂.trans attached₂)

/-- `MarkProcessing`: a pending purchase moves on. -/
theorem process (invoiceId : String) :
    Ledger packages
      (updateWhere (fun p => decide (p.invoiceId = some invoiceId) && decide (p.status = .pending))
        (fun p => { p with status := .processing }) purchases) entitlements nextId := by
  have unsettled : ∀ q ∈ purchases,
      (decide (q.invoiceId = some invoiceId) && decide (q.status = .pending)) = true →
      q.status ≠ .settled := by
    intro q _ isHit
    simp only [Bool.and_eq_true, decide_eq_true_eq] at isHit
    simp [isHit.2]
  refine ledger.rewrite (fun _ => rfl) (fun _ => rfl)
    (ledger.invoices_kept (fun _ => rfl) fun _ => rfl) ledger.single (fun q row isHit => ?_)
    (fun _ _ _ => rfl) (fun q row isHit => ?_) ledger.matching
  · simp [ledger.granted q row, unsettled q row isHit]
  · simp [ledger.dated q row, unsettled q row isHit]

/-- `AttachInvoice`: nobody else has the invoice. -/
theorem attach {purchaseId : Nat} {invoiceId : String}
    (free : ∀ q ∈ purchases, q.id ≠ purchaseId → q.invoiceId ≠ some invoiceId)
    (checkoutUrl payRequest : Option String) :
    Ledger packages
      (updateWhere (fun p => decide (p.id = purchaseId))
        (fun p => { p with
          invoiceId := some invoiceId
          checkoutUrl := checkoutUrl
          payRequest := payRequest }) purchases) entitlements nextId := by
  refine ledger.rewrite (fun _ => rfl) (fun _ => rfl) ?_ ledger.single
    (fun q row _ => ledger.granted q row) (fun _ _ _ => rfl) (fun q row _ => ledger.dated q row)
    ledger.matching
  refine forall_updateWhere (fun q₁ row₁ hit₁ => ?_) fun q₁ row₁ miss₁ => ?_
  · refine forall_updateWhere (fun q₂ row₂ hit₂ i _ _ => ?_)
      fun q₂ row₂ miss₂ i isInvoice attached => ?_
    · simp only [decide_eq_true_eq] at hit₁ hit₂
      exact hit₁.trans hit₂.symm
    · cases isInvoice
      exact absurd attached (free q₂ row₂ (by simpa using miss₂))
  · refine forall_updateWhere (fun q₂ row₂ hit₂ i attached isInvoice => ?_)
      fun q₂ row₂ miss₂ => ledger.invoices q₁ row₁ q₂ row₂
    cases isInvoice
    exact absurd attached (free q₁ row₁ (by simpa using miss₁))

/-- An entitlement that no purchase brought. -/
theorem credit {new : Entitlement}
    (unbought : new.purchaseId = none) :
    Ledger packages purchases (entitlements ++ [new]) (nextId + 1) := by
  have same : ∀ id, entitlementsOf id (entitlements ++ [new]) = entitlementsOf id entitlements := by
    simp [entitlementsOf_append, unbought]
  refine { ledger.grow (Nat.le_succ _) with single := ?_, granted := ?_, matching := ?_ }
  · exact fun id => (congrArg List.length (same id)).trans_le (ledger.single id)
  · exact fun p member => (same p.id).symm ▸ ledger.granted p member
  · refine List.forall_mem_append.mpr ⟨ledger.matching, List.forall_mem_singleton.mpr ?_⟩
    intro id isIt
    rw [unbought] at isIt
    cases isIt

/-- A grant: the purchase was not settled, so the entitlement is its first. -/
theorem grant {p : Purchase} {pt : PackageType} (member : p ∈ purchases) (isPackage : pt ∈ packages)
    (sameType : pt.id = p.packageTypeId) (unsettled : p.status ≠ .settled) (now : Time) :
    Ledger packages (settleRow p.id now purchases) (entitlements ++ [grantOf p pt now nextId])
      (nextId + 1) := by
  have first : entitlementsOf p.id entitlements = [] := by
    by_contra present
    exact unsettled ((ledger.granted p member).mp present)
  suffices settled : Ledger packages (settleRow p.id now purchases)
      (entitlements ++ [grantOf p pt now nextId]) nextId from settled.grow (Nat.le_succ _)
  refine ledger.rewrite (fun _ => rfl) (fun _ => rfl)
    (ledger.invoices_kept (fun _ => rfl) fun _ => rfl) ?_ (fun q row hit => ?_) (fun q row miss => ?_) (fun q row hit => ?_) ?_
  · intro id
    rw [entitlementsOf_append]
    by_cases isIt : id = p.id
    · subst isIt
      simp [first, grantOf]
    · simpa [grantOf, Ne.symm isIt] using ledger.single id
  · simp only [decide_eq_true_eq] at hit
    simp [entitlementsOf_append, grantOf, hit]
  · simp only [decide_eq_false_iff_not] at miss
    simp [entitlementsOf_append, grantOf, Ne.symm miss]
  · cases settled : q.settledAt <;> simp
  · refine List.forall_mem_append.mpr ⟨ledger.matching, List.forall_mem_singleton.mpr ?_⟩
    rintro id isIt
    cases isIt
    refine ⟨p, member, rfl, pt, isPackage, sameType, rfl, ?_⟩
    by_cases kind : pt.kind = .volume
    · simp [grantOf, kind]
    · simp [grantOf, kind, ledger.volumes pt isPackage kind]

/-- A void: the purchase is not settled afterwards, and has no entitlement. -/
theorem void {p : Purchase} (member : p ∈ purchases) (unsettled : p.status ≠ .settled)
    (status : VoidStatus) :
    Ledger packages
      (updateWhere (fun q => decide (q.id = p.id)) (fun q => { q with status := status.toStatus })
        purchases)
      (deleteWhere (fun e => decide (e.purchaseId = some p.id)) entitlements) nextId := by
  have others : ∀ id, entitlementsOf id
      (deleteWhere (fun e => decide (e.purchaseId = some p.id)) entitlements) =
        if id = p.id then [] else entitlementsOf id entitlements := by
    intro id
    by_cases isIt : id = p.id
    · rw [if_pos isIt, entitlementsOf_eq_nil]
      intro e left
      simpa [isIt] using (mem_deleteWhere.mp left).2
    · rw [if_neg isIt]
      simp only [entitlementsOf, deleteWhere, List.filter_filter]
      refine List.filter_congr fun e _ => ?_
      by_cases isThis : e.purchaseId = some id
      · simp [isThis, isIt]
      · simp [isThis]
  have never : status.toStatus ≠ .settled := by cases status <;> simp [VoidStatus.toStatus]
  refine ledger.rewrite (fun _ => rfl) (fun _ => rfl)
    (ledger.invoices_kept (fun _ => rfl) fun _ => rfl) ?_ (fun q row hit => ?_) (fun q row miss => ?_) (fun q row hit => ?_) ?_
  · intro id
    rw [others]
    split
    · simp
    · exact ledger.single id
  · simp only [decide_eq_true_eq] at hit
    simp [others, hit, never]
  · simp only [decide_eq_false_iff_not] at miss
    rw [others, if_neg miss]
  · have isIt : q = p := ledger.purchase_eq row member (by simpa using hit)
    subst isIt
    simp [ledger.dated q row, unsettled, never]
  · exact fun e left => ledger.matching e (mem_deleteWhere.mp left).1

/-- Usage is drawn from an entitlement. -/
theorem draw (id : Nat) (amount : Int) :
    Ledger packages purchases
      (updateWhere (fun e => decide (e.id = id)) (Entitlement.draw amount) entitlements) nextId := by
  have same : ∀ purchase, entitlementsOf purchase
      (updateWhere (fun e => decide (e.id = id)) (Entitlement.draw amount) entitlements) =
        updateWhere (fun e => decide (e.id = id)) (Entitlement.draw amount)
          (entitlementsOf purchase entitlements) :=
    fun purchase => filter_updateWhere (f := Entitlement.draw amount) (fun _ => rfl) entitlements
  refine { ledger with single := ?_, granted := ?_, matching := ?_ }
  · intro purchase
    rw [same, length_updateWhere]
    exact ledger.single purchase
  · intro p member
    rw [same, ← List.length_pos_iff, length_updateWhere, List.length_pos_iff]
    exact ledger.granted p member
  · exact forall_updateWhere (fun e row _ => ledger.matching e row)
      fun e row _ => ledger.matching e row

end Ledger

/-! ## The methods -/

/-- A grant to an unsettled purchase keeps the ledger. -/
theorem ledger_grantEntitlementTx {purchaseId : Nat} {now : Time} {db db' : Db} {u : Unit}
    (ledger : db.Ledgered) (unsettled : ∀ p ∈ db.purchases, p.id = purchaseId → p.status ≠ .settled)
    (run : exec (grantEntitlementTx purchaseId now) db = (.ok u, db')) : db'.Ledgered := by
  obtain ⟨p, member, pt, isPackage, rfl, sameType, outcome⟩ := grantEntitlementTx_ok run
  have granted := ledger.grant member isPackage sameType (unsettled p member rfl) now
  rcases outcome with ⟨⟨e, row, isIt⟩, -⟩ | ⟨-, db₁, home, rfl⟩
  · -- an entitlement that is there already would mean a settled purchase
    have present := List.ne_nil_of_mem (mem_entitlementsOf.mpr ⟨row, isIt⟩)
    exact absurd ((ledger.granted p member).mp present) (unsettled p member rfl)
  · rcases activateOwnerTx_ok home with ⟨rfl, -⟩ | ⟨w, -, -, -, rfl, -⟩
    · exact granted
    · exact granted

theorem ledger_registry (db : Db) (accounts : List Account) (whitelist : List WhitelistEntry)
    (n : Nat) (le : db.nextId ≤ n) (ledger : db.Ledgered) :
    ({ db with accounts := accounts, whitelist := whitelist, nextId := n } : Db).Ledgered :=
  ledger.grow le

theorem ledger_rollback (db db' : Db) (ledger : db.Ledgered) : (rollback db db').Ledgered :=
  ledger

theorem ledger_createPackage (env : Env) (kind : Kind) (name : String)
    (volumeBytes validityDays priceMsat : Int) (availableUntil : Option Time) :
    Keeps Db.Ledgered
      (createPackage env kind name volumeBytes validityDays priceMsat availableUntil) := by
  refine keeps_inTx (fun now db id db' ledger run => ?_) ledger_rollback
  split at run
  · cases run
  · cases run
    exact Ledger.addPackage ledger rfl fun other => if_neg other

theorem ledger_deactivatePackage (env : Env) (id : Nat) :
    Keeps Db.Ledgered (deactivatePackage env id) := by
  refine Keeps.inTx (fun now => Keeps.get_bind fun db => ?_) ledger_rollback
  exact Keeps.ite (Keeps.modify fun db ledger => Ledger.deactivate ledger id) (Keeps.throw _)

theorem ledger_createPurchase (s : Store) (env : Env) (npub : String) (packageId : Nat) :
    Keeps Db.Ledgered (s.createPurchase env npub packageId) := by
  refine Keeps.bind (keeps_getAccountByNpub s npub) fun acct => ?_
  refine keeps_inTx (fun now db id db' ledger run => ?_) ledger_rollback
  rw [exec_get_bind] at run
  split at run
  · rename_i present
    cases run
    exact Ledger.addPurchase ledger rfl (by simpa using present) rfl rfl rfl
  · cases run

theorem ledger_attachInvoice (env : Env) (purchaseId : Nat)
    (invoiceId checkoutUrl payRequest : String) :
    Keeps Db.Ledgered (attachInvoice env purchaseId invoiceId checkoutUrl payRequest) := by
  refine keeps_inTx (fun now db u db' ledger run => ?_) ledger_rollback
  rw [exec_get_bind] at run
  split at run
  · split at run
    · cases run
    · rename_i free
      cases run
      refine Ledger.attach ledger (fun q row other attached => free ?_) _ _
      exact List.any_eq_true.mpr ⟨q, row, by simp [other, attached]⟩
  · cases run

theorem ledger_markProcessing (env : Env) (invoiceId : String) :
    Keeps Db.Ledgered (markProcessing env invoiceId) := by
  refine Keeps.inTx (fun now => Keeps.get_bind fun db => ?_) ledger_rollback
  exact Keeps.ite (Keeps.modify fun db ledger => Ledger.process ledger invoiceId) (Keeps.throw _)

/-- **Step**: the ledger survives every change of the store. -/
theorem ledger_survives (env : Env) : Survives env Db.Ledgered where
  rolledBack := ledger_rollback
  registry := ledger_registry
  unread _ _ _ _ _ le ledger := Ledger.grow ledger le
  createPackage := ledger_createPackage env
  deactivatePackage := ledger_deactivatePackage env
  createPurchase s := ledger_createPurchase s env
  attachInvoice := ledger_attachInvoice env
  markProcessing := ledger_markProcessing env
  credited _ _ _ _ _ _ ledger := Ledger.credit ledger rfl
  granted db db' p k ledger member unsettled run := by
    refine ledger_grantEntitlementTx ledger (fun q row same => ?_) run
    rwa [Ledger.purchase_eq ledger row member same]
  voided _ _ status ledger member unsettled := Ledger.void ledger member unsettled status
  recorded _ _ ledger := ledger
  sampled _ _ ledger := ledger
  drawn _ id amount ledger := Ledger.draw ledger id amount
  recomputed k := keeps_recomputeAuthz env k (fun _ _ ledger => ledger) ledger_rollback
  compacted _ _ ledger := ledger

/-- **Run**: the ledger is in order after every sequence of calls. -/
theorem ledger_after (s : Store) (calls : List Call) : (s.after calls).Ledgered := by
  refine after_invariant ?_ (fun env op => (ledger_survives env).method op fun cutoff _ => ?_) calls
  · constructor <;> simp [Db.empty, entitlementsOf]
  · exact keeps_aggregateUsage ledger_rollback (fun _ _ _ _ ledger => ledger) env cutoff

end FipsExitGate
