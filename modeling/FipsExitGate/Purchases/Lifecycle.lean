import FipsExitGate.Purchases.Ledger
import FipsExitGate.Whitelist.Attribution

/-!
# The life of a purchase

Webhooks, the reconciler and the admin path send four events to a purchase, in any
order and any number of times.  What they are meant to do is an automaton on the
status alone (`PurchaseEvent.next`): a payment settles, a void undoes everything but
a settlement, and `settled` is final.  The store refines the automaton
(`lifecycle_step`), and the ledger says what a status means in terms of entitlements;
that the order of events does not matter is then a fact about the automaton.

## Main results

* `outcome_eq_settled` — the automaton is order-independent
* `lifecycle_run` — the store follows the automaton
* `purchase_lifecycle` — what a purchase comes to
-/

namespace FipsExitGate

open Program Table

/-! ## The automaton -/

/-- An event in the life of a purchase. -/
inductive PurchaseEvent where
  | markProcessing
  | grantByInvoice
  | voidByInvoice (status : VoidStatus)
  | settlePurchase
  deriving DecidableEq, Repr

/-- The status after an event. -/
def PurchaseEvent.next : PurchaseEvent → PurchaseStatus → PurchaseStatus
  | .markProcessing, .pending => .processing
  | .markProcessing, status => status
  | .grantByInvoice, _ => .settled
  | .settlePurchase, _ => .settled
  | .voidByInvoice _, .settled => .settled
  | .voidByInvoice status, _ => status.toStatus

/-- The event is a payment. -/
def PurchaseEvent.pays : PurchaseEvent → Bool
  | .grantByInvoice => true
  | .settlePurchase => true
  | _ => false

/-- An event and the environment its call runs in. -/
structure PurchaseStep where
  env : Env
  event : PurchaseEvent

/-- The status after a step; a lost transaction changes nothing. -/
def PurchaseStep.next (step : PurchaseStep) (status : PurchaseStatus) : PurchaseStatus :=
  if step.env.fails 0 then status else step.event.next status

/-- The step is a payment that commits. -/
def PurchaseStep.settles (step : PurchaseStep) : Bool :=
  step.event.pays && !step.env.fails 0

/-- `settled` is never left. -/
@[simp] theorem next_settled (step : PurchaseStep) : step.next .settled = .settled := by
  obtain ⟨env, event⟩ := step
  unfold PurchaseStep.next
  cases env.fails 0 <;> cases event <;> rfl

/-- Exactly payments settle. -/
theorem next_eq_settled (step : PurchaseStep) {status : PurchaseStatus} (unsettled : status ≠ .settled) :
    step.next status = .settled ↔ step.settles = true := by
  obtain ⟨env, event⟩ := step
  unfold PurchaseStep.next PurchaseStep.settles
  cases env.fails 0 with
  | true => simpa using unsettled
  | false =>
      cases event with
      | markProcessing => cases status <;> simp_all [PurchaseEvent.next, PurchaseEvent.pays]
      | grantByInvoice => simp [PurchaseEvent.next, PurchaseEvent.pays]
      | settlePurchase => simp [PurchaseEvent.next, PurchaseEvent.pays]
      | voidByInvoice void =>
          cases void <;> cases status <;>
            simp_all [PurchaseEvent.next, PurchaseEvent.pays, VoidStatus.toStatus]

/-- The status after a word of steps. -/
def outcome (status : PurchaseStatus) (word : List PurchaseStep) : PurchaseStatus :=
  word.foldl (fun status step => step.next status) status

@[simp] theorem outcome_cons (status : PurchaseStatus) (step : PurchaseStep)
    (word : List PurchaseStep) : outcome status (step :: word) = outcome (step.next status) word := rfl

theorem outcome_settled (word : List PurchaseStep) : outcome .settled word = .settled := by
  induction word with
  | nil => rfl
  | cons step word ih => simpa using ih

/-- **Order does not matter**: a word settles an unsettled purchase exactly if one of
its steps is a payment that commits. -/
theorem outcome_eq_settled {status : PurchaseStatus} (unsettled : status ≠ .settled)
    (word : List PurchaseStep) :
    outcome status word = .settled ↔ ∃ step ∈ word, step.settles = true := by
  induction word generalizing status with
  | nil => simpa [outcome] using unsettled
  | cons step word ih =>
      by_cases settles : step.settles = true
      · have settled := (next_eq_settled step unsettled).mpr settles
        have final : outcome status (step :: word) = .settled := by
          rw [outcome_cons, settled]
          exact outcome_settled word
        exact iff_of_true final ⟨step, by simp, settles⟩
      · have still : step.next status ≠ .settled := fun h => settles ((next_eq_settled step unsettled).mp h)
        simpa [settles] using ih still

/-! ## The store follows the automaton -/

/-- The operation an event calls. -/
def PurchaseEvent.op (purchaseId : Nat) (invoiceId : String) : PurchaseEvent → Op
  | .markProcessing => .markProcessing invoiceId
  | .grantByInvoice => .grantByInvoice invoiceId
  | .voidByInvoice status => .voidByInvoice invoiceId status
  | .settlePurchase => .settlePurchase purchaseId

def PurchaseStep.call (purchaseId : Nat) (invoiceId : String) (step : PurchaseStep) : Call :=
  ⟨step.env, step.event.op purchaseId invoiceId⟩

/-- The transaction of an event. -/
def PurchaseEvent.tx (purchaseId : Nat) (invoiceId : String) (now : Time) :
    PurchaseEvent → StoreM Unit
  | .markProcessing => markProcessingTx invoiceId
  | .grantByInvoice => grantByInvoiceTx invoiceId now
  | .voidByInvoice status => voidByInvoiceTx invoiceId status
  | .settlePurchase => settlePurchaseTx purchaseId now

/-- A later state of a purchase: the same purchase, with its date once it has one. -/
structure Follows (p p' : Purchase) : Prop where
  id : p'.id = p.id
  invoiceId : p'.invoiceId = p.invoiceId
  packageTypeId : p'.packageTypeId = p.packageTypeId
  settledAt : ∀ t, p.settledAt = some t → p'.settledAt = some t

theorem Follows.refl (p : Purchase) : Follows p p :=
  ⟨rfl, rfl, rfl, fun _ dated => dated⟩

theorem Follows.trans {p₁ p₂ p₃ : Purchase} (first : Follows p₁ p₂) (second : Follows p₂ p₃) :
    Follows p₁ p₃ where
  id := second.id.trans first.id
  invoiceId := second.invoiceId.trans first.invoiceId
  packageTypeId := second.packageTypeId.trans first.packageTypeId
  settledAt := fun t dated => second.settledAt t (first.settledAt t dated)

/-- The purchase has come to `p'` in this database, with the given status. -/
def Db.Shows (db : Db) (p : Purchase) (status : PurchaseStatus) : Prop :=
  ∃ p' ∈ db.purchases, Follows p p' ∧ p'.status = status

section Step

variable {ident : Identity} {db : Db} {p : Purchase} {invoiceId : String}

theorem find_invoice (ledger : db.Ledgered) (member : p ∈ db.purchases)
    (attached : p.invoiceId = some invoiceId) :
    db.purchases.find? (fun q => decide (q.invoiceId = some invoiceId)) = some p := by
  refine find?_eq_of_unique member (by simpa using attached) fun q row isIt => ?_
  refine Ledger.purchase_eq ledger row member ?_
  exact Ledger.invoices ledger q row p member invoiceId (by simpa using isIt) attached

theorem find_purchase (ledger : db.Ledgered) (member : p ∈ db.purchases) :
    db.purchases.find? (fun q => decide (q.id = p.id)) = some p := by
  refine find?_eq_of_unique member (by simp) fun q row isIt => ?_
  exact Ledger.purchase_eq ledger row member (by simpa using isIt)

/-- A grant to an unsettled purchase succeeds and settles it. -/
theorem exec_grantEntitlementTx (ledger : db.Ledgered) (valid : db.registry.Valid ident)
    (member : p ∈ db.purchases) (unsettled : p.status ≠ .settled) (now : Time) :
    ∃ db', exec (grantEntitlementTx p.id now) db = (.ok (), db') ∧ db'.Shows p .settled := by
  obtain ⟨pt, isPackage, sameType⟩ := Ledger.packaged ledger p member
  have found : db.packages.find? (fun pt => decide (pt.id = p.packageTypeId)) = some pt := by
    refine find?_eq_of_unique isPackage (by simpa using sameType) fun pt' row isIt => ?_
    exact Ledger.package_eq ledger row isPackage ((by simpa using isIt : pt'.id = _).trans sameType.symm)
  -- by the ledger an unsettled purchase has no entitlement, so the insertion does not conflict
  have first : (db.entitlements.any fun e => decide (e.purchaseId = some p.id)) = false := by
    have none : entitlementsOf p.id db.entitlements = [] := by
      by_contra present
      exact unsettled ((Ledger.granted ledger p member).mp present)
    simpa using entitlementsOf_eq_nil.mp none
  have grown : (db.withEntitlement (grantOf p pt now)).registry.Valid ident :=
    valid.grow (Nat.le_succ _)
  obtain ⟨db₁, home⟩ := exec_activateOwnerTx grown p.accountId
  refine ⟨{ db₁ with purchases := settleRow p.id now db₁.purchases }, ?_, ?_⟩
  · unfold grantEntitlementTx
    rw [exec_get_bind, find_purchase ledger member]
    dsimp only
    rw [found]
    dsimp only
    rw [first, if_neg Bool.false_ne_true, exec_bind_ok (exec_modify _ db), exec_bind_ok home]
    rfl
  · have same : db₁.purchases = db.purchases := by
      rcases activateOwnerTx_ok home with ⟨rfl, -⟩ | ⟨w, -, -, -, rfl, -⟩ <;> rfl
    rw [same]
    refine ⟨_, mem_updateWhere_of_mem member, ?_⟩
    rw [if_pos (by simp)]
    refine ⟨⟨rfl, rfl, rfl, fun t dated => ?_⟩, rfl⟩
    simp [dated]

/-- **The transactions refine the automaton.** -/
theorem exec_eventTx (ledger : db.Ledgered) (valid : db.registry.Valid ident)
    (member : p ∈ db.purchases) (attached : p.invoiceId = some invoiceId) (now : Time)
    (event : PurchaseEvent) :
    ∃ db', exec (event.tx p.id invoiceId now) db = (.ok (), db') ∧
      db'.Shows p (event.next p.status) := by
  have stays : p.status = .settled → db.Shows p .settled := fun settled =>
    ⟨p, member, Follows.refl p, settled⟩
  cases event with
  | markProcessing =>
      refine ⟨_, exec_markProcessingTx member attached, _, mem_updateWhere_of_mem member, ?_⟩
      by_cases pending : p.status = .pending
      · rw [if_pos (by simp [attached, pending]), pending]
        exact ⟨⟨rfl, rfl, rfl, fun _ dated => dated⟩, rfl⟩
      · rw [if_neg (by simp [pending])]
        refine ⟨Follows.refl p, ?_⟩
        cases isIt : p.status <;> simp_all [PurchaseEvent.next]
  | grantByInvoice =>
      simp only [PurchaseEvent.tx, exec_grantByInvoiceTx (find_invoice ledger member attached)]
      by_cases settled : p.status = .settled
      · exact ⟨db, if_pos settled, stays settled⟩
      · rw [if_neg settled]
        exact exec_grantEntitlementTx ledger valid member settled now
  | settlePurchase =>
      simp only [PurchaseEvent.tx, exec_settlePurchaseTx (find_purchase ledger member)]
      by_cases settled : p.status = .settled
      · exact ⟨db, if_pos settled, stays settled⟩
      · rw [if_neg settled]
        exact exec_grantEntitlementTx ledger valid member settled now
  | voidByInvoice status =>
      simp only [PurchaseEvent.tx, exec_voidByInvoiceTx (find_invoice ledger member attached)]
      by_cases settled : p.status = .settled
      · refine ⟨db, if_pos settled, ?_⟩
        rw [settled]
        exact stays settled
      · refine ⟨db.voided p.id status, if_neg settled, _, mem_updateWhere_of_mem member, ?_⟩
        rw [if_pos (by simp)]
        refine ⟨⟨rfl, rfl, rfl, fun _ dated => dated⟩, ?_⟩
        cases isIt : p.status <;> simp_all [PurchaseEvent.next]

end Step

/-- **Step**: after a call the purchase shows what the automaton says. -/
theorem lifecycle_step {s : Store} {db : Db} {p : Purchase} {invoiceId : String} (ledger : db.Ledgered)
    (valid : db.registry.Valid s.ident) (member : p ∈ db.purchases)
    (attached : p.invoiceId = some invoiceId) (step : PurchaseStep) :
    (s.call db (step.call p.id invoiceId)).Shows p (step.next p.status) := by
  obtain ⟨env, event⟩ := step
  obtain ⟨db', run, shows⟩ := exec_eventTx ledger valid member attached (env.now 0) event
  have tx : (exec (inTx env 0 fun now => event.tx p.id invoiceId now) db).2.Shows p
      ((PurchaseStep.mk env event).next p.status) := by
    rw [exec_inTx_eq run]
    unfold PurchaseStep.next
    cases env.fails 0 with
    | true => exact ⟨p, member, Follows.refl p, rfl⟩
    | false => exact shows
  -- a recompute after the transaction does not touch the purchase
  have rest : ∀ status, Keeps (fun db : Db => db.Shows p status)
      (recomputeAuthz env 1 >>= fun _ => pure ()) := fun status =>
    Keeps.bind (keeps_recomputeAuthz env 1 (fun _ _ shows => shows) fun _ _ shows => shows)
      fun _ => Keeps.pure ()
  have whole : (exec (inTx env 0 (fun now => event.tx p.id invoiceId now) >>= fun _ =>
      recomputeAuthz env 1 >>= fun _ => pure ()) db).2.Shows p
        ((PurchaseStep.mk env event).next p.status) := by
    rw [exec_bind]
    rcases done : exec (inTx env 0 fun now => event.tx p.id invoiceId now) db with ⟨result, db₁⟩
    rw [done] at tx
    cases result with
    | ok u => exact (rest _).exec tx
    | error e => exact tx
  cases event with
  | markProcessing => exact tx
  | grantByInvoice => exact whole
  | settlePurchase => exact whole
  | voidByInvoice status => exact whole

/-! ## Runs -/

/-- The database after a word of steps on a purchase. -/
def Store.lifecycle (s : Store) (calls : List Call) (purchaseId : Nat) (invoiceId : String)
    (word : List PurchaseStep) : Db :=
  s.after (calls ++ word.map (·.call purchaseId invoiceId))

/-- **Run**: the purchase follows the automaton through every word. -/
theorem lifecycle_run (s : Store) {calls : List Call} {p : Purchase} {invoiceId : String}
    (member : p ∈ (s.after calls).purchases) (attached : p.invoiceId = some invoiceId)
    (word : List PurchaseStep) :
    (s.lifecycle calls p.id invoiceId word).Shows p (outcome p.status word) := by
  -- the row changes from step to step, so the induction is over all its later states
  induction word generalizing calls p with
  | nil =>
      simp only [Store.lifecycle, List.map_nil, List.append_nil]
      exact ⟨p, member, Follows.refl p, rfl⟩
  | cons step word ih =>
      have shows := lifecycle_step (ledger_after s calls) (valid_after s calls) member attached step
      rw [← after_append_singleton] at shows
      obtain ⟨p₁, member₁, follows₁, status₁⟩ := shows
      have attached₁ := follows₁.invoiceId.trans attached
      obtain ⟨p₂, member₂, follows₂, status₂⟩ := ih member₁ attached₁
      refine ⟨p₂, ?_, follows₁.trans follows₂, ?_⟩
      · simpa [Store.lifecycle, follows₁.id] using member₂
      · rw [status₂, status₁, outcome_cons]

theorem lifecycle_ledger (s : Store) (calls : List Call) (purchaseId : Nat) (invoiceId : String)
    (word : List PurchaseStep) : (s.lifecycle calls purchaseId invoiceId word).Ledgered :=
  ledger_after s _

theorem lifecycle_append (s : Store) (calls : List Call) (purchaseId : Nat) (invoiceId : String)
    (word more : List PurchaseStep) :
    s.lifecycle calls purchaseId invoiceId (word ++ more) =
      s.lifecycle (calls ++ word.map (·.call purchaseId invoiceId)) purchaseId invoiceId more := by
  simp [Store.lifecycle]

section Purchase

variable {s : Store} {calls : List Call} {p : Purchase} {invoiceId : String}

/-- The state a purchase has come to is the one row with its id. -/
theorem lifecycle_row (member : p ∈ (s.after calls).purchases) (attached : p.invoiceId = some invoiceId)
    (word : List PurchaseStep) {q : Purchase}
    (row : q ∈ (s.lifecycle calls p.id invoiceId word).purchases) (isIt : q.id = p.id) :
    Follows p q ∧ q.status = outcome p.status word := by
  obtain ⟨p₁, member₁, follows, status⟩ := lifecycle_run s member attached word
  have same := Ledger.purchase_eq (lifecycle_ledger s calls p.id invoiceId word) row member₁
    (isIt.trans follows.id.symm)
  exact same ▸ ⟨follows, status⟩

/-- Settled, with a date, from any point of a word on. -/
theorem lifecycle_final (member : p ∈ (s.after calls).purchases)
    (attached : p.invoiceId = some invoiceId) (word more : List PurchaseStep) {q q' : Purchase}
    (row : q ∈ (s.lifecycle calls p.id invoiceId word).purchases)
    (row' : q' ∈ (s.lifecycle calls p.id invoiceId (word ++ more)).purchases) (isIt : q.id = p.id)
    (isIt' : q'.id = p.id) :
    (q.status = .settled → q'.status = .settled) ∧
      ∀ t, q.settledAt = some t → q'.settledAt = some t := by
  obtain ⟨follows, -⟩ := lifecycle_row member attached word row isIt
  rw [lifecycle_append] at row'
  rw [← isIt] at row row'
  obtain ⟨follows', status'⟩ := lifecycle_row row (follows.invoiceId.trans attached) more row'
    (isIt'.trans isIt.symm)
  refine ⟨fun settled => ?_, follows'.settledAt⟩
  rw [status', settled]
  exact outcome_settled more

/-- A settled purchase has exactly one entitlement, and it is the package's. -/
theorem lifecycle_entitlement (member : p ∈ (s.after calls).purchases)
    (attached : p.invoiceId = some invoiceId) (word : List PurchaseStep)
    (settled : outcome p.status word = .settled) :
    ∃ q ∈ (s.lifecycle calls p.id invoiceId word).purchases, q.id = p.id ∧ q.status = .settled ∧
      ∃ e, entitlementsOf p.id (s.lifecycle calls p.id invoiceId word).entitlements = [e] ∧
        Matches (s.lifecycle calls p.id invoiceId word).packages e p := by
  obtain ⟨q, row, follows, status⟩ := lifecycle_run s member attached word
  have ledger := lifecycle_ledger s calls p.id invoiceId word
  have present := (Ledger.granted ledger q row).mpr (status.trans settled)
  rw [follows.id] at present
  obtain ⟨e, one⟩ := List.length_eq_one_iff.mp
    (le_antisymm (Ledger.single ledger p.id) (List.length_pos_iff.mpr present))
  refine ⟨q, row, follows.id, status.trans settled, e, one, ?_⟩
  have isIts := mem_entitlementsOf.mp (one ▸ List.mem_singleton_self e)
  obtain ⟨q', row', isIt', pt, isPackage, sameType, fits⟩ := Ledger.matching ledger e isIts.1 p.id isIts.2
  have same := Ledger.purchase_eq ledger row' row (isIt'.trans follows.id.symm)
  refine ⟨pt, isPackage, ?_, fits⟩
  rw [sameType, same, follows.packageTypeId]

end Purchase

/-- **The life of a purchase.**  For every purchase with an attached invoice, in any
database the store can come to, and every word of steps on it:

* the purchase has an entitlement exactly if it is settled, and never more than one;
* once settled it stays settled, with the date it was settled at;
* if a step is a payment that commits, it ends settled, with exactly one entitlement,
  of the kind and volume of its package; if none is, a purchase that was not settled
  ends without an entitlement. -/
theorem purchase_lifecycle (s : Store) (calls : List Call) (p : Purchase) (invoiceId : String)
    (member : p ∈ (s.after calls).purchases) (attached : p.invoiceId = some invoiceId) :
    let run := s.lifecycle calls p.id invoiceId
    (∀ word, ∃ q ∈ (run word).purchases, q.id = p.id ∧
      (entitlementsOf p.id (run word).entitlements ≠ [] ↔ q.status = .settled) ∧
      (entitlementsOf p.id (run word).entitlements).length ≤ 1) ∧
    (∀ word more, ∀ q ∈ (run word).purchases, ∀ q' ∈ (run (word ++ more)).purchases,
      q.id = p.id → q'.id = p.id →
        (q.status = .settled → q'.status = .settled) ∧
        ∀ t, q.settledAt = some t → q'.settledAt = some t) ∧
    (∀ word, (∃ step ∈ word, step.settles = true) →
      ∃ q ∈ (run word).purchases, q.id = p.id ∧ q.status = .settled ∧
        ∃ e, entitlementsOf p.id (run word).entitlements = [e] ∧
          Matches (run word).packages e p) ∧
    (∀ word, (∀ step ∈ word, step.settles = false) → p.status ≠ .settled →
      entitlementsOf p.id (run word).entitlements = []) := by
  refine ⟨fun word => ?_, fun word more q row q' row' isIt isIt' => ?_, fun word paid => ?_,
    fun word unpaid unsettled => ?_⟩
  · obtain ⟨q, row, follows, -⟩ := lifecycle_run s member attached word
    have ledger := lifecycle_ledger s calls p.id invoiceId word
    exact ⟨q, row, follows.id, follows.id ▸ Ledger.granted ledger q row, Ledger.single ledger p.id⟩
  · exact lifecycle_final member attached word more row row' isIt isIt'
  · refine lifecycle_entitlement member attached word ?_
    by_cases settled : p.status = .settled
    · rw [settled]
      exact outcome_settled word
    · exact (outcome_eq_settled settled word).mpr paid
  · obtain ⟨q, row, follows, status⟩ := lifecycle_run s member attached word
    by_contra present
    have settled := (Ledger.granted (lifecycle_ledger s calls p.id invoiceId word) q row).mp
      (follows.id ▸ present)
    rw [status, outcome_eq_settled unsettled] at settled
    obtain ⟨step, isStep, settles⟩ := settled
    rw [unpaid step isStep] at settles
    cases settles

/-- An account buys a package and is sent an invoice. -/
def invoicedCalls : List Call :=
  [⟨calm 0, .createAccount firstNpub⟩,
    ⟨calm 1, .createPackage .volume "10 GB" 10000000000 30 5000 none⟩,
    ⟨calm 2, .createPurchase firstNpub 3⟩,
    ⟨calm 3, .attachInvoice 4 "invoice" "checkout" ""⟩]

def invoicedPurchase : Purchase :=
  ⟨4, 1, 3, some "invoice", .pending, 2, none, some "checkout", none⟩

/-- A payment that arrives after the invoice was declared invalid is still honoured. -/
theorem purchase_lifecycle_latePayment :
    ∃ e, entitlementsOf 4 (plainStore.lifecycle invoicedCalls 4 "invoice"
      [⟨calm 4, .markProcessing⟩, ⟨calm 5, .voidByInvoice .invalid⟩, ⟨calm 6, .grantByInvoice⟩,
        ⟨calm 7, .voidByInvoice .expired⟩]).entitlements = [e] := by
  have lives := purchase_lifecycle plainStore invoicedCalls invoicedPurchase "invoice"
    (by decide +kernel) rfl
  obtain ⟨q, -, -, -, e, one, -⟩ := lives.2.2.1
    [⟨calm 4, .markProcessing⟩, ⟨calm 5, .voidByInvoice .invalid⟩, ⟨calm 6, .grantByInvoice⟩,
      ⟨calm 7, .voidByInvoice .expired⟩] ⟨⟨calm 6, .grantByInvoice⟩, by simp, rfl⟩
  exact ⟨e, one⟩

end FipsExitGate
