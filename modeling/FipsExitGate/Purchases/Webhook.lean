import FipsExitGate.Lib.Hex
import FipsExitGate.Portal.Challenge
import FipsExitGate.Purchases.Reconciler

/-!
# Webhooks

`payments_handler.go`, and the signatures of `payments/btcpay.go` and `payments/phoenixd.go`:
the payment provider reports what happens to an invoice in signed requests, in any order and
any number of times, and the handlers drive the purchases with them.

A handler works in up to three steps: it reads the request, it may ask BTCPay for the status of
the invoice, and it calls the store.  Any number of handlers run at the same time, next to the
reconciler, the portal and the administrator, and may be cut off at any point; the status of an
invoice may change between any two steps.

## The argument

Only a grant and a settlement by the administrator make a purchase settled
(`settlesOnly_call`), and nothing takes a settlement back (`Retains`).  So the main results follow
from what a handler knows when it is about to call the store: that it grants only an invoice it
has seen paid, or has been told of with a signature (`Warranted`), and that it answers `ok` only
if the store did.

## Design notes

* `json.Unmarshal` is a parameter.
* On the phoenixd rail the reconciler looks up any invoice at any time, and may or may not find
  it too old; `Purchases.Reconciler` has the sweeps.

## Main results

* `entitlement_provenance` — no purchase comes to an entitlement without a payment
* `acknowledged_grant_lasts` — what a handler has acknowledged is there, and stays
* `authentic_delivery_settles` — a signed report of a paid invoice settles its purchase
-/

namespace FipsExitGate

open Program Table Machine

/-! ## Signatures -/

def signaturePrefix : Bytes := utf8 "sha256="

/-- `strings.TrimPrefix`. -/
def trimPrefix (s start : Bytes) : Bytes :=
  if start <+: s then s.drop start.length else s

/-- `VerifyWebhook`. -/
def verifyWebhook (secret body : Bytes) (sigHeader : String) : Bool :=
  if secret.length = 0 then false
  else if ¬ signaturePrefix <+: utf8 sigHeader then false
  else
    match Hex.decode (trimPrefix (utf8 sigHeader) signaturePrefix) with
    | none => false
    | some want => decide (Nostr.hmacSha256 secret body = want)

/-- `SignWebhook`. -/
def signWebhook (secret body : Bytes) : Bytes :=
  signaturePrefix ++ Hex.encode (Nostr.hmacSha256 secret body)

/-- `VerifyPhoenixSig`. -/
def verifyPhoenixSig (secret body : Bytes) (sigHeader : String) : Bool :=
  if secret.length = 0 then false
  else
    match Hex.decode (trimPrefix (utf8 (trimSpace sigHeader)) signaturePrefix) with
    | none => false
    | some want => decide (Nostr.hmacSha256 secret body = want)

theorem trimPrefix_append (start s : Bytes) : trimPrefix (start ++ s) start = s := by
  unfold trimPrefix
  rw [if_pos (List.prefix_append start s), List.drop_left]

/-- **What is signed verifies.** -/
theorem verifyWebhook_signWebhook {secret body : Bytes} {sigHeader : String} (keyed : secret ≠ [])
    (signed : utf8 sigHeader = signWebhook secret body) :
    verifyWebhook secret body sigHeader = true := by
  have nonempty : secret.length ≠ 0 := fun empty => keyed (List.length_eq_zero_iff.mp empty)
  unfold verifyWebhook
  rw [if_neg nonempty, signed, signWebhook, if_neg (not_not.mpr (List.prefix_append _ _)),
    trimPrefix_append, Hex.decode_encode]
  exact decide_eq_true rfl

/-! ## The handlers -/

/-- What `WebhookEvent` has of the body; the handler reads nothing else of it. -/
structure WebhookEvent where
  type : String
  invoiceId : String
  deriving DecidableEq, Repr

/-- What `PhoenixEvent` has of the body. -/
structure PhoenixEvent where
  type : String
  paymentHash : String
  deriving DecidableEq, Repr

def EventInvoiceProcessing : String := "InvoiceProcessing"
def EventInvoiceSettled : String := "InvoiceSettled"
def EventInvoiceInvalid : String := "InvoiceInvalid"
def EventInvoiceExpired : String := "InvoiceExpired"
def EventPaymentReceived : String := "payment_received"

/-- An answer to a webhook. -/
structure WebhookAnswer where
  status : Nat
  /-- The code and the message of `writeErr`. -/
  error : Option (String × String)
  /-- The labels of the counter that goes up. -/
  record : Option (String × String)
  deriving DecidableEq, Repr

/-- What a handler does next. -/
inductive WebhookTask where
  | answer (a : WebhookAnswer)
  /-- It asks for the status of an invoice that is reported settled. -/
  | recheck (invoiceId : String)
  /-- It calls the store, for an event of the given type. -/
  | perform (type : String) (op : Op)

/-- `payHandler`. -/
structure PayHandler where
  secret : Bytes
  /-- There is a `checker`. -/
  checked : Bool
  unmarshal : Bytes → Option WebhookEvent

/-- `phoenixdHandler`. -/
structure PhoenixdHandler where
  secret : Bytes
  unmarshal : Bytes → Option PhoenixEvent

/-- The `switch` of `payHandler.webhook`. -/
def PayHandler.dispatch (ph : PayHandler) (ev : WebhookEvent) : WebhookTask :=
  if ev.type = EventInvoiceProcessing then .perform ev.type (.markProcessing ev.invoiceId)
  else if ev.type = EventInvoiceSettled then
    if ph.checked then .recheck ev.invoiceId else .perform ev.type (.grantByInvoice ev.invoiceId)
  else if ev.type = EventInvoiceInvalid then .perform ev.type (.voidByInvoice ev.invoiceId .invalid)
  else if ev.type = EventInvoiceExpired then .perform ev.type (.voidByInvoice ev.invoiceId .expired)
  else .answer ⟨200, none, some (ev.type, "ignored")⟩

/-- What `io.LimitReader` lets through. -/
def limitBody (body : Bytes) : Bytes := body.take (2 ^ 20)

def unreadableBody : WebhookAnswer := ⟨400, some ("bad_request", "unreadable body"), none⟩

/-- The answer to a wrong signature, counted under the given type. -/
def badSignature (type : String) : WebhookAnswer :=
  ⟨401, some ("unauthorized", "bad webhook signature"), some (type, "bad_signature")⟩

/-- The first part of `payHandler.webhook`; a body that cannot be read is `none`. -/
def PayHandler.receive (ph : PayHandler) (body : Option Bytes) (sigHeader : String) : WebhookTask :=
  match body with
  | none => .answer unreadableBody
  | some body =>
      if !verifyWebhook ph.secret (limitBody body) sigHeader then .answer (badSignature "_")
      else
        match ph.unmarshal (limitBody body) with
        | none => .answer ⟨200, none, some ("_", "bad_request")⟩
        | some ev =>
            if ev.invoiceId = "" then .answer ⟨200, none, some ("_", "bad_request")⟩
            else ph.dispatch ev

/-- The first part of `phoenixdHandler.webhook`. -/
def PhoenixdHandler.receive (h : PhoenixdHandler) (body : Option Bytes) (sigHeader : String) :
    WebhookTask :=
  match body with
  | none => .answer unreadableBody
  | some body =>
      if !verifyPhoenixSig h.secret (limitBody body) sigHeader then
        .answer (badSignature EventPaymentReceived)
      else
        match h.unmarshal (limitBody body) with
        | none => .answer ⟨200, none, none⟩
        | some ev =>
            if ev.paymentHash = "" then .answer ⟨200, none, none⟩
            else if ev.type ≠ EventPaymentReceived then
              .answer ⟨200, none, some (ev.type, "ignored")⟩
            else .perform ev.type (.grantByInvoice ev.paymentHash)

/-- The answer to `GET /api/v1/stores/{storeID}/invoices/{invoiceID}`. -/
inductive StatusReply where
  /-- The request fails. -/
  | failed
  /-- A status that is not 2xx. -/
  | refused (status : Nat)
  /-- The body is no JSON of the expected form. -/
  | undecodable
  | body (status : String)
  deriving DecidableEq, Repr

/-- `InvoiceStatus`; `none` is its error. -/
def invoiceStatus : StatusReply → Option String
  | .failed | .refused _ | .undecodable => none
  | .body status => some status

/-- What `payHandler.webhook` does with the status of an invoice that is reported settled. -/
def afterRecheck (invoiceId : String) (reply : StatusReply) : WebhookTask :=
  match invoiceStatus reply with
  | none =>
      .answer ⟨502, some ("upstream", "could not confirm invoice with the payment provider"),
        some (EventInvoiceSettled, "recheck_error")⟩
  | some status =>
      if status ≠ "Settled" then .answer ⟨200, none, some (EventInvoiceSettled, "not_settled")⟩
      else .perform EventInvoiceSettled (.grantByInvoice invoiceId)

/-- The answer after the call of the store, the same in both handlers. -/
def afterStore (type : String) : Except StoreErr Unit → WebhookAnswer
  | .ok () => ⟨200, none, some (type, "ok")⟩
  | .error .purchaseNotFound => ⟨200, none, some (type, "unknown_invoice")⟩
  | .error e => ⟨500, some ("internal", e.text), some (type, "error")⟩

/-- The webhook of the rail that is configured. -/
inductive Receiver where
  | btcpay (ph : PayHandler)
  | phoenixd (h : PhoenixdHandler)

def Receiver.receive : Receiver → Option Bytes → String → WebhookTask
  | .btcpay ph => ph.receive
  | .phoenixd h => h.receive

/-- The request is signed, and reports that the invoice is paid. -/
def Receiver.Reports (body : Bytes) (sigHeader invoiceId : String) : Receiver → Prop
  | .btcpay ph =>
      verifyWebhook ph.secret (limitBody body) sigHeader = true ∧
        ph.unmarshal (limitBody body) = some ⟨EventInvoiceSettled, invoiceId⟩
  | .phoenixd h =>
      verifyPhoenixSig h.secret (limitBody body) sigHeader = true ∧
        h.unmarshal (limitBody body) = some ⟨EventPaymentReceived, invoiceId⟩

/-- A report is confirmed with the provider before it is acted on. -/
def Receiver.confirms : Receiver → Bool
  | .btcpay ph => ph.checked
  | .phoenixd _ => false

/-- Only a call that returned is answered with `ok`. -/
theorem ok_of_afterStore {type label : String} {outcome : Except StoreErr Unit}
    (answered : (afterStore type outcome).record = some (label, "ok")) : outcome = .ok () := by
  unfold afterStore at answered
  split at answered
  · rfl
  · simp at answered
  · simp at answered

/-! ## The machine -/

/-- Where the handling of a request is. -/
inductive Handling where
  /-- The request has not arrived. -/
  | idle
  | rechecking (invoiceId : String)
  | acting (type : String) (op : Op)
  /-- It is answered, after the given call of the store. -/
  | answered (did : Option Op) (a : WebhookAnswer)
  /-- The process or the connection was lost. -/
  | gone

def WebhookTask.start : WebhookTask → Handling
  | .answer a => .answered none a
  | .recheck invoiceId => .rechecking invoiceId
  | .perform type op => .acting type op

structure Desk where
  db : Db
  /-- The invoices that the provider, if asked, reports as settled. -/
  paid : String → Bool
  handlings : Nat → Handling
  /-- The reconciler has looked an invoice up. -/
  decided : Option (String × Bool)

/-- The handling of a request moves on. -/
def Desk.handle (w : Desk) (i : Nat) (h : Handling) : Desk :=
  { w with handlings := Function.update w.handlings i h }

@[simp] theorem handlings_handle (w : Desk) (i : Nat) (h : Handling) :
    (w.handle i h).handlings i = h :=
  Function.update_self ..

theorem handlings_handle_of_ne {w : Desk} {i j : Nat} {h : Handling} (other : j ≠ i) :
    (w.handle i h).handlings j = w.handlings j :=
  Function.update_of_ne other ..

def Desk.initial : Desk := ⟨Db.empty, fun _ => false, fun _ => .idle, none⟩

inductive DeskEvent where
  /-- The provider changes its mind about an invoice. -/
  | provider (invoiceId : String) (paid : Bool)
  /-- A call by another part of the backend. -/
  | call (c : Call)
  | deliver (i : Nat) (body : Option Bytes) (sigHeader : String)
  | recheck (i : Nat) (reply : StatusReply)
  | store (i : Nat) (env : Env)
  | cut (i : Nat)
  | lookup (invoiceId : String) (reply : LookupReply)
  | reconcile (env : Env) (tooOld : Bool)

/-- What other parts of the backend call: they grant and void nothing by invoice, and attach an
invoice to a purchase that has none. -/
def Db.admitsOther (db : Db) : Op → Bool
  | .grantByInvoice _ => false
  | op => db.admits op

theorem admits_of_admitsOther {db : Db} {op : Op} (admitted : db.admitsOther op = true) :
    db.admits op = true := by
  cases op with
  | grantByInvoice => rfl
  | _ => exact admitted

/-- One event; the provider answers truthfully. -/
def deskStep (s : Store) (r : Receiver) (w : Desk) : DeskEvent → Option Desk
  | .provider invoiceId paid => some { w with paid := Function.update w.paid invoiceId paid }
  | .call c => if w.db.admitsOther c.op then some { w with db := s.call w.db c } else none
  | .deliver i body sigHeader =>
      match w.handlings i with
      | .idle => some (w.handle i (r.receive body sigHeader).start)
      | _ => none
  | .recheck i reply =>
      match w.handlings i with
      | .rechecking invoiceId =>
          if ∀ status ∈ invoiceStatus reply, status = "Settled" ↔ w.paid invoiceId = true then
            some (w.handle i (afterRecheck invoiceId reply).start)
          else none
      | _ => none
  | .store i env =>
      match w.handlings i with
      | .acting type op =>
          let (outcome, db) := exec (s.method env op) w.db
          some ({ w with db := db }.handle i (.answered (some op) (afterStore type outcome)))
      | _ => none
  | .cut i => some (w.handle i .gone)
  | .lookup invoiceId reply =>
      match r, lookupIncoming reply with
      | .phoenixd _, some paid =>
          if paid = w.paid invoiceId then some { w with decided := some (invoiceId, paid) } else none
      | .phoenixd _, none => some w
      | .btcpay _, _ => none
  | .reconcile env tooOld =>
      match w.decided with
      | some (invoiceId, true) =>
          some { w with db := s.call w.db ⟨env, .grantByInvoice invoiceId⟩, decided := none }
      | some (invoiceId, false) =>
          if tooOld then
            some { w with db := s.call w.db ⟨env, .voidByInvoice invoiceId .expired⟩, decided := none }
          else some { w with decided := none }
      | none => none

/-! ## Which calls settle a purchase -/

/-- The method writes the table of purchases. -/
def Op.writesPurchases : Op → Bool
  | .createPurchase _ _ | .attachInvoice _ _ _ _ | .markProcessing _ | .grantByInvoice _
  | .voidByInvoice _ _ | .settlePurchase _ => true
  | _ => false

/-- The other methods leave it as it is. -/
theorem keeps_purchases (s : Store) (env : Env) (purchases : List Purchase) {op : Op}
    (other : op.writesPurchases = false) :
    Keeps (fun db => db.purchases = purchases) (s.method env op) := by
  let I : Db → Prop := fun db => db.purchases = purchases
  have ignoring {α : Type} {m : StoreM α} (kept : Keeps I m) : Keeps I (m >>= fun _ => pure ()) :=
    Keeps.bind kept fun _ => Keeps.pure _
  have back : ∀ db db', I db → I (rollback db db') := fun _ _ same => same
  have rows : ∀ db accounts whitelist n, db.nextId ≤ n → I db →
      I { db with accounts := accounts, whitelist := whitelist, nextId := n } :=
    fun _ _ _ _ _ same => same
  have recomputed : ∀ k, Keeps I (recomputeAuthz env k) := fun k =>
    keeps_recomputeAuthz env k (fun _ _ same => same) back
  have thenRecompute {α : Type} (k : Nat) (a : α) :
      Keeps I (recomputeAuthz env k >>= fun _ => pure a) :=
    Keeps.bind (recomputed k) fun _ => Keeps.pure a
  have registryTx {α : Type} {body : Time → StoreM α} (kept : ∀ now, Keeps I (body now)) :
      Keeps I (inTx env 0 body >>= fun _ => recomputeAuthz env 1 >>= fun _ => pure ()) :=
    Keeps.bind (Keeps.inTx kept back) fun _ => thenRecompute 1 ()
  have createAccount : ∀ npub, Keeps I (s.createAccount env npub) := fun npub =>
    keeps_createAccount rows back (recomputed 2) s npub
  have credit : ∀ npub kind volume validityDays,
      Keeps I (s.credit env npub kind volume validityDays) := by
    intro npub kind volume validityDays
    refine Keeps.bind (createAccount npub) fun acct => ?_
    refine Keeps.bind (Keeps.inTx (fun now => ?_) back) fun _ => thenRecompute 4 ()
    exact Keeps.bind (Keeps.modify fun _ same => same) fun _ => keeps_activateOwnerTx rows _
  cases op with
  | createAccount npub => exact ignoring (createAccount npub)
  | addWhitelist owner guest label =>
      refine Keeps.bind (keeps_getAccountByNpub s owner) fun acct => ?_
      split
      · exact Keeps.throw _
      · refine Keeps.bind (Keeps.mapError (Keeps.inTx (fun now => ?_) back)) fun _ =>
          thenRecompute 1 ()
        exact keeps_addWhitelistTx rows _ _ _ _ _
  | inviteGuest owner guest label =>
      refine ignoring (Keeps.bind (keeps_getAccountByNpub s owner) fun acct => ?_)
      split
      · exact Keeps.throw _
      · refine Keeps.ite (Keeps.throw _) (Keeps.bind (Keeps.inTx (fun now => ?_) back) fun _ =>
          thenRecompute 1 _)
        exact keeps_inviteGuestTx rows s _ _ _ _ _
  | withdrawInvite owner guest =>
      refine Keeps.bind (keeps_getAccountByNpub s owner) fun acct => ?_
      exact Keeps.inTx (fun _ => keeps_deleteInvites rows _) back
  | acceptInvite guest host => exact registryTx fun now => keeps_acceptInviteTx rows _ _ now
  | declineInvite guest host => exact Keeps.inTx (fun _ => keeps_declineInviteTx rows _ _) back
  | activateOwner npub =>
      exact Keeps.bind (keeps_getAccountByNpub s npub) fun acct =>
        registryTx fun _ => keeps_activateOwnerTx rows _
  | setWhitelistEnabled owner guest enabled =>
      exact Keeps.bind (keeps_getAccountByNpub s owner) fun acct =>
        registryTx fun _ => keeps_setWhitelistEnabledTx rows _ _ _
  | creditVolume npub volumeBytes validityDays => exact credit npub _ _ _
  | creditTime npub validityDays => exact credit npub _ _ _
  | createPackage kind name volumeBytes validityDays priceMsat availableUntil =>
      exact ignoring (keeps_createPackage back (fun _ _ _ _ same => same) ..)
  | deactivatePackage id => exact keeps_deactivatePackage back (fun _ _ same => same) ..
  | createService key name port ratePpm enabled =>
      exact keeps_createService back (fun _ _ _ _ same => same) ..
  | ingestUsage nodeId report =>
      refine ignoring (Keeps.get_bind fun db =>
        Keeps.bind (Keeps.inTx (fun now => ?_) back) fun fresh => ?_)
      · exact keeps_ingestUsageTx (fun _ _ same => same) (fun _ _ _ same => same)
          (fun _ _ same => same) _ _ _ _
      · exact Keeps.ite (Keeps.bind (recomputed 1) fun _ => Keeps.pure _) (Keeps.pure _)
  | aggregateUsage cutoff =>
      exact ignoring (keeps_aggregateUsage back (fun _ _ _ _ same => same) ..)
  | compactAuthz cutoff => exact ignoring (keeps_compactAuthz back (fun _ _ same => same) ..)
  | recompute => exact ignoring (recomputed 0)
  | createWgPeer sessionNpub forNpub label pubkey =>
      exact ignoring (keeps_createWgPeer back (fun _ _ _ _ _ same => same) ..)
  | deleteWgPeer sessionNpub id => exact keeps_deleteWgPeer back (fun _ _ same => same) ..
  | _ => cases other

/-- What a transaction on the purchases, and the recompute after it, come to. -/
theorem purchases_inTx {env : Env} {body : Time → StoreM Unit} {db : Db}
    {O : List Purchase → Prop} (unchanged : O db.purchases)
    (done : ∀ u db', exec (body (env.now 0)) db = (.ok u, db') → O db'.purchases) :
    O (exec (inTx env 0 body >>= fun _ => recomputeAuthz env 1 >>= fun _ => pure ())
      db).2.purchases := by
  have tx : Triple (· = db) (inTx env 0 body) (fun _ db' => O db'.purchases)
      (fun db' => O db'.purchases) := by
    refine Triple.transaction (Triple.of_ok ?_) ?_
    · rintro _ u db' rfl run
      exact done u db' run
    · rintro _ db' rfl
      exact unchanged
  have recompute : Keeps (fun db' : Db => O db'.purchases) (recomputeAuthz env 1) :=
    keeps_recomputeAuthz env 1 (fun _ _ kept => kept) fun _ _ kept => kept
  exact (tx.bind fun _ => Keeps.bind recompute fun _ => Keeps.pure ()).exec rfl

/-- A grant settles the row. -/
theorem purchases_grantEntitlementTx {purchaseId : Nat} {now : Time} {db db' : Db} {u : Unit}
    (run : exec (grantEntitlementTx purchaseId now) db = (.ok u, db')) :
    db'.purchases = settleRow purchaseId now db.purchases := by
  obtain ⟨p, -, pt, -, -, -, ⟨-, rfl⟩ | ⟨-, db₁, home, rfl⟩⟩ := grantEntitlementTx_ok run
  · rfl
  · rcases activateOwnerTx_ok home with ⟨rfl, -⟩ | ⟨w, -, -, -, rfl, -⟩
    · rfl
    · rfl

/-- The purchases that are settled after a change were settled before, or there is a reason. -/
def SettlesOnly (why : Purchase → Prop) (before after : List Purchase) : Prop :=
  ∀ p' ∈ after, p'.status = .settled → why p' ∨
    ∃ p ∈ before, p.id = p'.id ∧ p.status = .settled ∧
      (p'.invoiceId = p.invoiceId ∨ p.invoiceId = none)

section SettlesOnly

variable {why : Purchase → Prop} {before : List Purchase}

theorem SettlesOnly.refl (purchases : List Purchase) : SettlesOnly why purchases purchases :=
  fun p member settled => .inr ⟨p, member, rfl, settled, .inl rfl⟩

theorem settlesOnly_updateWhere {hit : Purchase → Bool} {f : Purchase → Purchase}
    (sameId : ∀ p, (f p).id = p.id)
    (rows : ∀ p ∈ before, hit p = true → (f p).status = .settled → why (f p) ∨
      p.status = .settled ∧ ((f p).invoiceId = p.invoiceId ∨ p.invoiceId = none)) :
    SettlesOnly why before (updateWhere hit f before) := by
  refine forall_updateWhere (fun p member isHit settled => ?_) fun p member _ settled => ?_
  · rcases rows p member isHit settled with reason | old
    · exact .inl reason
    · exact .inr ⟨p, member, (sameId p).symm, old⟩
  · exact .inr ⟨p, member, rfl, settled, .inl rfl⟩

theorem settlesOnly_settleRow {purchaseId : Nat} {now : Time}
    (reason : ∀ p ∈ before, p.id = purchaseId →
      ∀ p', p'.id = p.id → p'.invoiceId = p.invoiceId → why p') :
    SettlesOnly why before (settleRow purchaseId now before) := by
  refine settlesOnly_updateWhere (fun _ => rfl) fun p member isHit _ => .inl ?_
  exact reason p member (by simpa using isHit) _ rfl rfl

end SettlesOnly

/-- What a void comes to: an unsettled purchase is struck, or no purchase changes. -/
theorem purchases_void (s : Store) (db : Db) (env : Env) (invoiceId : String)
    (status : VoidStatus) :
    (s.call db ⟨env, .voidByInvoice invoiceId status⟩).purchases = db.purchases ∨
      ∃ p ∈ db.purchases, p.status ≠ .settled ∧
        (s.call db ⟨env, .voidByInvoice invoiceId status⟩).purchases =
          updateWhere (fun q => decide (q.id = p.id))
            (fun q => { q with status := status.toStatus }) db.purchases := by
  let O (after : List Purchase) : Prop := after = db.purchases ∨
    ∃ p ∈ db.purchases, p.status ≠ .settled ∧
      after = updateWhere (fun q => decide (q.id = p.id))
        (fun q => { q with status := status.toStatus }) db.purchases
  have unchanged : O db.purchases := .inl rfl
  refine purchases_inTx unchanged fun u db' run => ?_
  rcases voidByInvoiceTx_ok run with ⟨rfl, -⟩ | ⟨p, member, -, unsettled, rfl⟩
  · exact unchanged
  · exact .inr ⟨p, member, unsettled, rfl⟩

section Calls

variable (s : Store) {db : Db} (env : Env)

theorem settlesOnly_markProcessing (why : Purchase → Prop) (invoiceId : String) :
    SettlesOnly why db.purchases (s.call db ⟨env, .markProcessing invoiceId⟩).purchases := by
  have triple : Triple (· = db) (markProcessing env invoiceId)
      (fun _ db' => SettlesOnly why db.purchases db'.purchases)
      (fun db' => SettlesOnly why db.purchases db'.purchases) := by
    refine triple_inTx ?_ ?_
    · rintro now _ u db' rfl run
      unfold markProcessingTx at run
      rw [exec_get_bind] at run
      split at run
      · cases run
        exact settlesOnly_updateWhere (fun _ => rfl) fun _ _ _ settled => by cases settled
      · cases run
    · rintro _ db' rfl
      exact SettlesOnly.refl _
  exact triple.exec rfl

/-- A grant settles the purchase of its invoice. -/
theorem settlesOnly_grantByInvoice (ledger : db.Ledgered) (invoiceId : String) :
    SettlesOnly (·.invoiceId = some invoiceId) db.purchases
      (s.call db ⟨env, .grantByInvoice invoiceId⟩).purchases := by
  refine purchases_inTx (SettlesOnly.refl _) fun u db' run => ?_
  rcases grantByInvoiceTx_ok run with ⟨rfl, -⟩ | ⟨p, member, isIts, -, run⟩
  · exact SettlesOnly.refl _
  · rw [purchases_grantEntitlementTx run]
    refine settlesOnly_settleRow fun q row same q' _ sameInvoice => ?_
    rw [sameInvoice, Ledger.purchase_eq ledger row member same]
    exact isIts

theorem settlesOnly_settlePurchase (purchaseId : Nat) :
    SettlesOnly (·.id = purchaseId) db.purchases
      (s.call db ⟨env, .settlePurchase purchaseId⟩).purchases := by
  refine purchases_inTx (SettlesOnly.refl _) fun u db' run => ?_
  rcases settlePurchaseTx_ok run with ⟨rfl, -⟩ | ⟨-, run⟩
  · exact SettlesOnly.refl _
  · rw [purchases_grantEntitlementTx run]
    exact settlesOnly_settleRow fun q _ same q' sameId _ => sameId.trans same

theorem settlesOnly_voidByInvoice (why : Purchase → Prop) (invoiceId : String)
    (status : VoidStatus) :
    SettlesOnly why db.purchases
      (s.call db ⟨env, .voidByInvoice invoiceId status⟩).purchases := by
  rcases purchases_void s db env invoiceId status with same | ⟨p, -, -, voided⟩
  · rw [same]
    exact SettlesOnly.refl _
  · rw [voided]
    refine settlesOnly_updateWhere (fun _ => rfl) fun _ _ _ settled => ?_
    cases status <;> cases settled

end Calls

/-- **What other parts of the backend call settles a purchase only if it is `SettlePurchase`.** -/
theorem settlesOnly_call (s : Store) {db : Db} {c : Call}
    (admitted : db.admitsOther c.op = true) :
    SettlesOnly (fun p => c.op = .settlePurchase p.id) db.purchases (s.call db c).purchases := by
  obtain ⟨env, op⟩ := c
  by_cases writes : op.writesPurchases = true
  · cases op with
    | createPurchase npub packageId =>
        let O (db' : Db) : Prop :=
          SettlesOnly (fun p => (Op.createPurchase npub packageId) = .settlePurchase p.id)
            db.purchases db'.purchases
        have triple : Triple (· = db) (s.createPurchase env npub packageId) (fun _ => O) O := by
          refine ((triple_getAccountByNpub npub).conseq (fun _ isIt => isIt) (fun _ _ h => h.1)
            fun _ isIt => isIt ▸ SettlesOnly.refl _).bind fun acct => triple_inTx ?_ ?_
          · rintro now _ id db' rfl run
            rw [exec_get_bind] at run
            split at run
            · cases run
              refine List.forall_mem_append.mpr ⟨SettlesOnly.refl _, ?_⟩
              exact List.forall_mem_singleton.mpr fun settled => by cases settled
            · cases run
          · rintro _ db' rfl
            exact SettlesOnly.refl _
        exact (triple.bind fun _ => Keeps.pure ()).exec rfl
    | attachInvoice purchaseId invoiceId checkoutUrl payRequest =>
        rcases purchases_attachInvoice s db env purchaseId invoiceId checkoutUrl payRequest with
          same | attached
        · rw [same]
          exact SettlesOnly.refl _
        · rw [attached]
          refine settlesOnly_updateWhere (fun _ => rfl) fun p member isHit settled => .inr ?_
          have free : p.invoiceId = none := by
            have guard := List.all_eq_true.mp admitted p member
            simp only [decide_eq_true_eq] at isHit
            simpa [isHit] using guard
          exact ⟨settled, .inr free⟩
    | markProcessing invoiceId => exact settlesOnly_markProcessing s env _ invoiceId
    | grantByInvoice invoiceId => cases admitted
    | voidByInvoice invoiceId status => cases admitted
    | settlePurchase purchaseId =>
        intro p' member settled
        rcases settlesOnly_settlePurchase s env purchaseId p' member settled with isIt | old
        · exact .inl (congrArg Op.settlePurchase isIt.symm)
        · exact .inr old
    | _ => cases writes
  · have same : (s.call db ⟨env, op⟩).purchases = db.purchases :=
      (keeps_purchases s env db.purchases (Bool.eq_false_of_not_eq_true writes)).exec rfl
    rw [same]
    exact SettlesOnly.refl _

/-! ## Provenance -/

/-- The provider was seen to report the invoice as paid, or a signed request that is not confirmed
has reported it. -/
def Warranted (s : Store) (r : Receiver) (es : List DeskEvent) (invoiceId : String) : Prop :=
  (∃ w, Visits (deskStep s r) Desk.initial es w ∧ w.paid invoiceId = true) ∨
    r.confirms = false ∧ ∃ i raw sigHeader, .deliver i (some raw) sigHeader ∈ es ∧
      r.Reports raw sigHeader invoiceId

/-- Why a purchase is settled: the administrator did it, or its invoice is warranted. -/
def Provenance (s : Store) (r : Receiver) (es : List DeskEvent) (p : Purchase) : Prop :=
  (∃ env, .call ⟨env, .settlePurchase p.id⟩ ∈ es) ∨
    ∃ invoiceId, p.invoiceId = some invoiceId ∧ Warranted s r es invoiceId

/-- What a handler calls the store for; it grants warranted invoices only. -/
inductive Op.Backed (warranted : String → Prop) : Op → Prop where
  | processes (invoiceId : String) : Op.Backed warranted (.markProcessing invoiceId)
  | voids (invoiceId : String) (status : VoidStatus) :
      Op.Backed warranted (.voidByInvoice invoiceId status)
  | grants {invoiceId : String} (isWarranted : warranted invoiceId) :
      Op.Backed warranted (.grantByInvoice invoiceId)

/-- What a handler knows when it is about to call the store. -/
def Handling.Sound (warranted : String → Prop) (h : Handling) : Prop :=
  ∀ type op, h = .acting type op → op.Backed warranted

theorem Handling.Sound.mono {warranted warranted' : String → Prop}
    (more : ∀ invoiceId, warranted invoiceId → warranted' invoiceId) {h : Handling}
    (sound : h.Sound warranted) : h.Sound warranted' := by
  intro type op isActing
  cases sound type op isActing with
  | processes invoiceId => exact .processes invoiceId
  | voids invoiceId status => exact .voids invoiceId status
  | grants isWarranted => exact .grants (more _ isWarranted)

section Tasks

variable {warranted : String → Prop}

theorem sound_answer (a : WebhookAnswer) : (WebhookTask.answer a).start.Sound warranted := by
  rintro _ _ ⟨⟩

theorem sound_perform {op : Op} (backed : op.Backed warranted) (type : String) :
    (WebhookTask.perform type op).start.Sound warranted := by
  rintro _ _ ⟨⟩
  exact backed

/-- A handler that has read a request grants an invoice only if it trusts the signed report of it. -/
theorem sound_receive {r : Receiver} {body : Option Bytes} {sigHeader : String}
    (trusted : r.confirms = false → ∀ raw invoiceId, body = some raw →
      r.Reports raw sigHeader invoiceId → warranted invoiceId) :
    (r.receive body sigHeader).start.Sound warranted := by
  cases r with
  | btcpay ph =>
      simp only [Receiver.receive, PayHandler.receive]
      split
      · exact sound_answer _
      rename_i raw
      split
      · exact sound_answer _
      rename_i verified
      split
      · exact sound_answer _
      rename_i ev decoded
      split
      · exact sound_answer _
      unfold PayHandler.dispatch
      split
      · exact sound_perform (.processes _) _
      split
      · rename_i isSettled
        split
        · rintro _ _ ⟨⟩
        rename_i unchecked
        refine sound_perform (.grants (trusted (Bool.eq_false_of_not_eq_true unchecked) raw _ rfl
          ⟨by simpa using verified, ?_⟩)) _
        rw [decoded, ← isSettled]
      split
      · exact sound_perform (.voids _ _) _
      split
      · exact sound_perform (.voids _ _) _
      · exact sound_answer _
  | phoenixd h =>
      simp only [Receiver.receive, PhoenixdHandler.receive]
      split
      · exact sound_answer _
      rename_i raw
      split
      · exact sound_answer _
      rename_i verified
      split
      · exact sound_answer _
      rename_i ev decoded
      split
      · exact sound_answer _
      split
      · exact sound_answer _
      rename_i isReceived
      refine sound_perform (.grants (trusted rfl raw _ rfl ⟨by simpa using verified, ?_⟩)) _
      rw [decoded, ← not_not.mp isReceived]

/-- A handler that has asked for the status of an invoice grants it only if it read that the
invoice is settled. -/
theorem sound_afterRecheck {invoiceId : String} {reply : StatusReply}
    (confirmed : invoiceStatus reply = some "Settled" → warranted invoiceId) :
    (afterRecheck invoiceId reply).start.Sound warranted := by
  unfold afterRecheck
  split
  · exact sound_answer _
  rename_i status isIt
  split
  · exact sound_answer _
  · rename_i settled
    exact sound_perform (.grants (confirmed (isIt.trans (congrArg some (not_not.mp settled))))) _

end Tasks

section Provenance

variable {s : Store} {r : Receiver} {es : List DeskEvent}

theorem Warranted.concat {invoiceId : String} (warranted : Warranted s r es invoiceId)
    (e : DeskEvent) : Warranted s r (es ++ [e]) invoiceId := by
  rcases warranted with ⟨w, visited, paid⟩ | ⟨trusts, i, raw, sigHeader, delivered, reports⟩
  · exact .inl ⟨w, visited.concat e, paid⟩
  · exact .inr ⟨trusts, i, raw, sigHeader, List.mem_append_left _ delivered, reports⟩

theorem Provenance.concat {p : Purchase} (provenance : Provenance s r es p) (e : DeskEvent) :
    Provenance s r (es ++ [e]) p := by
  rcases provenance with ⟨env, called⟩ | ⟨invoiceId, attached, warranted⟩
  · exact .inl ⟨env, List.mem_append_left _ called⟩
  · exact .inr ⟨invoiceId, attached, warranted.concat e⟩

/-- An invoice may be attached to a purchase that is settled already: it was settled by the
administrator then. -/
theorem Provenance.follow {p p' : Purchase} (provenance : Provenance s r es p)
    (sameId : p.id = p'.id) (sameInvoice : p'.invoiceId = p.invoiceId ∨ p.invoiceId = none) :
    Provenance s r es p' := by
  rcases provenance with ⟨env, called⟩ | ⟨invoiceId, attached, warranted⟩
  · exact .inl ⟨env, sameId ▸ called⟩
  · rcases sameInvoice with same | none
    · exact .inr ⟨invoiceId, same.trans attached, warranted⟩
    · rw [none] at attached
      cases attached

/-- **The invariant**: every settled purchase has a reason, and every grant that is under way. -/
structure Backing (s : Store) (r : Receiver) (es : List DeskEvent) (w : Desk) : Prop where
  reached : ∃ calls, w.db = s.after calls
  settled : ∀ p ∈ w.db.purchases, p.status = .settled → Provenance s r es p
  handlings : ∀ i, (w.handlings i).Sound (Warranted s r es)
  decided : ∀ invoiceId, w.decided = some (invoiceId, true) → Warranted s r es invoiceId

namespace Backing

variable {w : Desk} (backing : Backing s r es w) (e : DeskEvent)
include backing

/-- A change of the purchases, each of them settled for a reason. -/
theorem settled_of_settlesOnly {why : Purchase → Prop} {purchases : List Purchase}
    (settles : SettlesOnly why w.db.purchases purchases)
    (reason : ∀ p, why p → Provenance s r (es ++ [e]) p) :
    ∀ p ∈ purchases, p.status = .settled → Provenance s r (es ++ [e]) p := by
  intro p' member isSettled
  rcases settles p' member isSettled with because | ⟨p, row, sameId, old, sameInvoice⟩
  · exact reason p' because
  · exact ((backing.settled p row old).concat e).follow sameId sameInvoice

theorem handlings_concat (i : Nat) : (w.handlings i).Sound (Warranted s r (es ++ [e])) :=
  (backing.handlings i).mono fun _ warranted => warranted.concat e

theorem handlings_update {i : Nat} {h : Handling} (sound : h.Sound (Warranted s r (es ++ [e]))) :
    ∀ j, ((w.handle i h).handlings j).Sound (Warranted s r (es ++ [e])) := by
  intro j
  by_cases isIt : j = i
  · rw [isIt, handlings_handle]
    exact sound
  · rw [handlings_handle_of_ne isIt]
    exact backing.handlings_concat e j

theorem decided_concat (invoiceId : String) (isIt : w.decided = some (invoiceId, true)) :
    Warranted s r (es ++ [e]) invoiceId :=
  (backing.decided invoiceId isIt).concat e

theorem unchanged : ∀ p ∈ w.db.purchases, p.status = .settled → Provenance s r (es ++ [e]) p :=
  fun p member isSettled => (backing.settled p member isSettled).concat e

/-- A call of the store that is backed. -/
theorem settled_backed {op : Op} (backed : op.Backed (Warranted s r es)) (env : Env) :
    ∀ p ∈ (s.call w.db ⟨env, op⟩).purchases, p.status = .settled →
      Provenance s r (es ++ [e]) p := by
  cases backed with
  | processes invoiceId =>
      exact backing.settled_of_settlesOnly e
        (settlesOnly_markProcessing s env (fun _ => False) invoiceId) fun _ => False.elim
  | voids invoiceId status =>
      exact backing.settled_of_settlesOnly e
        (settlesOnly_voidByInvoice s env (fun _ => False) invoiceId status) fun _ => False.elim
  | grants isWarranted =>
      exact backing.settled_of_settlesOnly e
        (settlesOnly_grantByInvoice s env (ledger_reached backing.reached) _)
        fun p attached => .inr ⟨_, attached, isWarranted.concat e⟩

end Backing

/-- **Step.** -/
theorem backing_step {w w' : Desk} {e : DeskEvent}
    (reached : run (deskStep s r) Desk.initial es = some w) (backing : Backing s r es w)
    (h : deskStep s r w e = some w') : Backing s r (es ++ [e]) w' := by
  -- what is paid now has been seen paid
  have seen : ∀ invoiceId, w.paid invoiceId = true → Warranted s r (es ++ [e]) invoiceId :=
    fun invoiceId paid => .inl ⟨w, (visits_of_run reached).concat e, paid⟩
  cases e with
  | provider invoiceId paid =>
      cases h
      exact ⟨backing.reached, backing.unchanged _, backing.handlings_concat _,
        backing.decided_concat _⟩
  | call c =>
      simp only [deskStep] at h
      split at h
      · rename_i admitted
        cases h
        refine ⟨reached_call backing.reached c, ?_, backing.handlings_concat _,
          backing.decided_concat _⟩
        refine backing.settled_of_settlesOnly _ (settlesOnly_call s admitted) fun p isIt => ?_
        refine .inl ⟨c.env, ?_⟩
        rw [← isIt]
        exact List.mem_append_right _ (List.mem_singleton_self _)
      · cases h
  | deliver i body sigHeader =>
      simp only [deskStep] at h
      split at h
      · cases h
        refine ⟨backing.reached, backing.unchanged _, backing.handlings_update _ ?_,
          backing.decided_concat _⟩
        refine sound_receive fun trusts raw invoiceId isBody reports => .inr ⟨trusts, i, raw,
          sigHeader, ?_, reports⟩
        rw [isBody]
        exact List.mem_append_right _ (List.mem_singleton_self _)
      · cases h
  | recheck i reply =>
      simp only [deskStep] at h
      split at h
      · rename_i invoiceId isRechecking
        split at h
        · rename_i truthful
          cases h
          refine ⟨backing.reached, backing.unchanged _, backing.handlings_update _ ?_,
            backing.decided_concat _⟩
          exact sound_afterRecheck fun isSettled =>
            seen invoiceId ((truthful "Settled" isSettled).mp rfl)
        · cases h
      · cases h
  | store i env =>
      simp only [deskStep] at h
      split at h
      · rename_i type op isActing
        cases h
        refine ⟨reached_call backing.reached ⟨env, op⟩, ?_, backing.handlings_update _ ?_,
          backing.decided_concat _⟩
        · exact backing.settled_backed _ (backing.handlings i type op isActing) env
        · rintro _ _ ⟨⟩
      · cases h
  | cut i =>
      cases h
      refine ⟨backing.reached, backing.unchanged _, backing.handlings_update _ ?_,
        backing.decided_concat _⟩
      rintro _ _ ⟨⟩
  | lookup invoiceId reply =>
      simp only [deskStep] at h
      split at h
      · rename_i paid looked
        split at h
        · rename_i truthful
          cases h
          refine ⟨backing.reached, backing.unchanged _, backing.handlings_concat _, ?_⟩
          rintro _ ⟨⟩
          exact seen invoiceId truthful.symm
        · cases h
      · cases h
        exact ⟨backing.reached, backing.unchanged _, backing.handlings_concat _,
          backing.decided_concat _⟩
      · cases h
  | reconcile env tooOld =>
      simp only [deskStep] at h
      split at h
      · rename_i invoiceId isDecided
        cases h
        refine ⟨reached_call backing.reached _, ?_, backing.handlings_concat _, by rintro _ ⟨⟩⟩
        exact backing.settled_backed _ (.grants (backing.decided invoiceId isDecided)) env
      · rename_i invoiceId isDecided
        split at h
        · cases h
          refine ⟨reached_call backing.reached _, ?_, backing.handlings_concat _, by rintro _ ⟨⟩⟩
          exact backing.settled_backed _ (.voids invoiceId .expired) env
        · cases h
          exact ⟨backing.reached, backing.unchanged _, backing.handlings_concat _, by rintro _ ⟨⟩⟩
      · cases h

theorem backing_initial : Backing s r [] Desk.initial := by
  refine ⟨⟨[], rfl⟩, fun p member => ?_, fun i => ?_, ?_⟩
  · cases member
  · rintro _ _ ⟨⟩
  · rintro _ ⟨⟩

/-- **Run.** -/
theorem run_backing {w : Desk} (reached : run (deskStep s r) Desk.initial es = some w) :
    Backing s r es w :=
  run_history backing_initial (fun _ _ _ _ reached backing h => backing_step reached backing h) es
    reached

end Provenance

/-- **No purchase comes to an entitlement without a payment.**  Whatever requests arrive, in
whatever order the handlers, the reconciler and the rest of the backend take their steps: if there
is an entitlement for a purchase, then the administrator has settled the purchase, or the provider
itself has reported its invoice as paid.  On a rail that does not confirm reports, a report with a
valid signature takes the place of the latter. -/
theorem entitlement_provenance (s : Store) (r : Receiver) (es : List DeskEvent) {w : Desk}
    (reached : run (deskStep s r) Desk.initial es = some w) :
    ∀ e ∈ w.db.entitlements, ∀ id, e.purchaseId = some id →
      ∃ p ∈ w.db.purchases, p.id = id ∧
        ((∃ env, .call ⟨env, .settlePurchase id⟩ ∈ es) ∨
          ∃ invoiceId, p.invoiceId = some invoiceId ∧
            ((∃ w₁, Visits (deskStep s r) Desk.initial es w₁ ∧ w₁.paid invoiceId = true) ∨
              r.confirms = false ∧ ∃ i raw sigHeader, .deliver i (some raw) sigHeader ∈ es ∧
                r.Reports raw sigHeader invoiceId)) := by
  intro e member id isIts
  have backing := run_backing reached
  have ledger := ledger_reached backing.reached
  obtain ⟨p, row, rfl, -⟩ := Ledger.matching ledger e member id isIts
  have present : entitlementsOf p.id w.db.entitlements ≠ [] :=
    List.ne_nil_of_mem (mem_entitlementsOf.mpr ⟨member, isIts⟩)
  have settled := (Ledger.granted ledger p row).mp present
  exact ⟨p, row, rfl, backing.settled p row settled⟩

/-- A purchase is paid, and the reconciler of a backend that no webhook reaches finds it. -/
def reconciledEvents : List DeskEvent :=
  invoicedCalls.map .call ++
    [.provider "invoice" true, .lookup "invoice" (.body true 5 9), .reconcile (calm 5) false]

/-- No request is signed; the entitlement is there because the node was asked. -/
theorem entitlement_provenance_reconciled :
    ∃ w, run (deskStep plainStore (.phoenixd ⟨[], fun _ => none⟩)) Desk.initial reconciledEvents =
        some w ∧
      ∃ e ∈ w.db.entitlements, e.purchaseId = some 4 ∧
        ∃ p ∈ w.db.purchases, p.id = 4 ∧
          ((∃ env, .call ⟨env, .settlePurchase 4⟩ ∈ reconciledEvents) ∨
            ∃ invoiceId, p.invoiceId = some invoiceId ∧
              ((∃ w₁, Visits (deskStep plainStore (.phoenixd ⟨[], fun _ => none⟩)) Desk.initial
                  reconciledEvents w₁ ∧ w₁.paid invoiceId = true) ∨
                (Receiver.phoenixd ⟨[], fun _ => none⟩).confirms = false ∧
                  ∃ i raw sigHeader, .deliver i (some raw) sigHeader ∈ reconciledEvents ∧
                    (Receiver.phoenixd ⟨[], fun _ => none⟩).Reports raw sigHeader invoiceId)) := by
  refine ⟨_, rfl, _, List.mem_cons_self, rfl, ?_⟩
  exact entitlement_provenance plainStore (.phoenixd ⟨[], fun _ => none⟩) reconciledEvents rfl _
    List.mem_cons_self 4 rfl

/-! ## What is acknowledged -/

/-- The purchase of the invoice is settled. -/
def Db.Paid (db : Db) (invoiceId : String) : Prop :=
  ∃ p ∈ db.purchases, p.invoiceId = some invoiceId ∧ p.status = .settled

/-- A settled purchase has exactly one entitlement, and it is that of its package. -/
theorem Db.Paid.entitlement {db : Db} {invoiceId : String} (paid : db.Paid invoiceId)
    (ledger : db.Ledgered) :
    ∃ p ∈ db.purchases, p.invoiceId = some invoiceId ∧ p.status = .settled ∧
      ∃ e, entitlementsOf p.id db.entitlements = [e] ∧ Matches db.packages e p := by
  obtain ⟨p, member, attached, settled⟩ := paid
  have present := (Ledger.granted ledger p member).mpr settled
  obtain ⟨e, one⟩ := List.length_eq_one_iff.mp
    (le_antisymm (Ledger.single ledger p.id) (List.length_pos_iff.mpr present))
  refine ⟨p, member, attached, settled, e, one, ?_⟩
  have isIts := mem_entitlementsOf.mp (one ▸ List.mem_singleton_self e)
  obtain ⟨q, row, sameId, fits⟩ := Ledger.matching ledger e isIts.1 p.id isIts.2
  rwa [Ledger.purchase_eq ledger row member sameId] at fits

/-- Purchases keep their invoice, and what is settled stays settled. -/
def Retains (before after : List Purchase) : Prop :=
  ∀ p ∈ before, ∀ invoiceId, p.invoiceId = some invoiceId →
    ∃ p' ∈ after, p'.id = p.id ∧ p'.invoiceId = some invoiceId ∧
      (p.status = .settled → p'.status = .settled)

theorem Retains.refl (purchases : List Purchase) : Retains purchases purchases :=
  fun p member _ attached => ⟨p, member, rfl, attached, fun settled => settled⟩

theorem Retains.trans {before between after : List Purchase} (first : Retains before between)
    (second : Retains between after) : Retains before after := by
  intro p member invoiceId attached
  obtain ⟨q, row, sameId, attached', final⟩ := first p member invoiceId attached
  obtain ⟨p', row', sameId', attached'', final'⟩ := second q row invoiceId attached'
  exact ⟨p', row', sameId'.trans sameId, attached'', fun settled => final' (final settled)⟩

theorem Db.Paid.retained {db db' : Db} {invoiceId : String} (paid : db.Paid invoiceId)
    (retains : Retains db.purchases db'.purchases) : db'.Paid invoiceId := by
  obtain ⟨p, member, attached, settled⟩ := paid
  obtain ⟨p', row, -, attached', final⟩ := retains p member invoiceId attached
  exact ⟨p', row, attached', final settled⟩

section Lasting

variable {s : Store} {r : Receiver}

theorem retains_of_progress {before after : List Purchase} (progress : Progress before after) :
    Retains before after := by
  intro p member invoiceId attached
  obtain ⟨p', row, advances⟩ := progress.forward p member
  refine ⟨p', row, advances.id, ?_, advances.final⟩
  rcases advances.invoice with same | none
  · exact same.trans attached
  · rw [none] at attached
    cases attached

/-- A void does not take a settlement back. -/
theorem retains_void {db : Db} (ledger : db.Ledgered) (env : Env) (invoiceId : String)
    (status : VoidStatus) :
    Retains db.purchases (s.call db ⟨env, .voidByInvoice invoiceId status⟩).purchases := by
  rcases purchases_void s db env invoiceId status with same | ⟨q, row, unsettled, struck⟩
  · rw [same]
    exact Retains.refl _
  · rw [struck]
    intro p member invoiceId attached
    by_cases same : p.id = q.id
    · have isIt := Ledger.purchase_eq ledger member row same
      refine ⟨_, mem_updateWhere.mpr (.inl ⟨p, member, decide_eq_true same, rfl⟩), rfl, attached, ?_⟩
      exact fun settled => absurd (isIt ▸ settled) unsettled
    · exact ⟨p, mem_updateWhere.mpr (.inr ⟨member, decide_eq_false same⟩), rfl, attached,
        fun settled => settled⟩

theorem retains_backed {w : Desk} {es : List DeskEvent} (backing : Backing s r es w) {op : Op}
    (backed : op.Backed (Warranted s r es)) (env : Env) :
    Retains w.db.purchases (s.call w.db ⟨env, op⟩).purchases := by
  cases backed with
  | processes => exact retains_of_progress (progress_method s _ env nofun nofun)
  | voids invoiceId status => exact retains_void (ledger_reached backing.reached) env _ status
  | grants => exact retains_of_progress (progress_method s _ env nofun nofun)

/-- **Step.** -/
theorem retains_step {w w' : Desk} {e : DeskEvent} {es : List DeskEvent}
    (backing : Backing s r es w) (h : deskStep s r w e = some w') :
    Retains w.db.purchases w'.db.purchases := by
  cases e with
  | call c =>
      simp only [deskStep] at h
      split at h
      · rename_i admitted
        cases h
        exact retains_of_progress (progress_call s (admits_of_admitsOther admitted))
      · cases h
  | store i env =>
      simp only [deskStep] at h
      split at h
      · rename_i type op isActing
        cases h
        exact retains_backed backing (backing.handlings i type op isActing) env
      · cases h
  | reconcile env tooOld =>
      simp only [deskStep] at h
      split at h
      · rename_i invoiceId isDecided
        cases h
        exact retains_backed backing (.grants (backing.decided invoiceId isDecided)) env
      · rename_i invoiceId isDecided
        split at h
        · cases h
          exact retains_backed backing (.voids invoiceId .expired) env
        · cases h
          exact Retains.refl _
      · cases h
  | provider invoiceId paid =>
      cases h
      exact Retains.refl _
  | cut i =>
      cases h
      exact Retains.refl _
  -- the other events do not reach the store
  | _ =>
      simp only [deskStep] at h
      repeat' split at h
      all_goals cases h <;> exact Retains.refl _

/-- **Run**: from any state that is reached. -/
theorem run_retains {es es' : List DeskEvent} {w w' : Desk}
    (reached : run (deskStep s r) Desk.initial es = some w)
    (ran : run (deskStep s r) w es' = some w') : Retains w.db.purchases w'.db.purchases := by
  let Kept (_ : List DeskEvent) (w₁ : Desk) : Prop := Retains w.db.purchases w₁.db.purchases
  have base : Kept [] w := Retains.refl _
  refine run_history base (fun es₁ w₁ e w₂ reached₁ kept h => kept.trans ?_) es' ran
  exact retains_step (run_backing (run_append_of_run reached reached₁)) h

end Lasting

/-! ### Answers -/

/-- The request an event is about. -/
def DeskEvent.request : DeskEvent → Option Nat
  | .deliver i _ _ | .recheck i _ | .store i _ | .cut i => some i
  | _ => none

section Answers

variable {s : Store} {r : Receiver}

/-- The events of other requests leave a handler where it is. -/
theorem handlings_of_other {w w' : Desk} {e : DeskEvent} {i : Nat} (other : e.request ≠ some i)
    (h : deskStep s r w e = some w') : w'.handlings i = w.handlings i := by
  have apart : ∀ {j : Nat}, some j ≠ some i → i ≠ j := fun ne isIt =>
    ne (congrArg some isIt.symm)
  cases e with
  | deliver j body sigHeader =>
      simp only [deskStep] at h
      split at h
      · cases h
        exact handlings_handle_of_ne (apart other)
      · cases h
  | recheck j reply =>
      simp only [deskStep] at h
      split at h
      · split at h
        · cases h
          exact handlings_handle_of_ne (apart other)
        · cases h
      · cases h
  | store j env =>
      simp only [deskStep] at h
      split at h
      · cases h
        exact handlings_handle_of_ne (apart other)
      · cases h
  | cut j =>
      cases h
      exact handlings_handle_of_ne (apart other)
  | provider => cases h; rfl
  -- the other events change no handler
  | _ =>
      simp only [deskStep] at h
      repeat' split at h
      all_goals cases h <;> rfl

theorem run_handlings_of_other {es : List DeskEvent} {w w' : Desk} {i : Nat}
    (others : ∀ e ∈ es, e.request ≠ some i) (h : run (deskStep s r) w es = some w') :
    w'.handlings i = w.handlings i := by
  have meets : Meets (deskStep s r) (fun _ e => e.request ≠ some i) w es :=
    meets_of_forall fun e member _ => others e member
  let Still (w₁ : Desk) : Prop := w₁.handlings i = w.handlings i
  have base : Still w := rfl
  exact meets.run_invariant (fun w₁ e w₂ still other h =>
    (handlings_of_other other h).trans still) base h

/-- A handler that is started has not called the store. -/
theorem start_ne_answered (task : WebhookTask) (op : Op) (a : WebhookAnswer) :
    task.start ≠ .answered (some op) a := by
  cases task <;> rintro ⟨⟩

/-- **Inversion of an answer**: it was given before, or the store has just been called. -/
theorem answered_step {w w' : Desk} {e : DeskEvent} {i : Nat} {op : Op} {a : WebhookAnswer}
    (h : deskStep s r w e = some w') (answered : w'.handlings i = .answered (some op) a) :
    w.handlings i = .answered (some op) a ∨
      ∃ type env, w.handlings i = .acting type op ∧
        a = afterStore type (exec (s.method env op) w.db).1 ∧
        w'.db = (exec (s.method env op) w.db).2 := by
  by_cases other : e.request = some i
  · cases e with
    | deliver j body sigHeader =>
        cases other
        simp only [deskStep] at h
        split at h
        · cases h
          exact absurd ((handlings_handle ..).symm.trans answered) (start_ne_answered _ op a)
        · cases h
    | recheck j reply =>
        cases other
        simp only [deskStep] at h
        split at h
        · split at h
          · cases h
            exact absurd ((handlings_handle ..).symm.trans answered) (start_ne_answered _ op a)
          · cases h
        · cases h
    | store j env =>
        cases other
        simp only [deskStep] at h
        split at h
        · rename_i type op' isActing
          cases h
          cases (handlings_handle ..).symm.trans answered
          exact .inr ⟨type, env, isActing, rfl, rfl⟩
        · cases h
    | cut j =>
        cases other
        cases h
        cases (handlings_handle ..).symm.trans answered
    | _ => cases other
  · rw [handlings_of_other other h] at answered
    exact .inl answered

/-- A grant that returns has settled the purchase. -/
theorem paid_of_grantByInvoice {db db' : Db} {env : Env} {invoiceId : String}
    (done : exec (s.method env (.grantByInvoice invoiceId)) db = (.ok (), db')) :
    db'.Paid invoiceId := by
  obtain ⟨_, db₁, granted, rest⟩ := exec_bind_eq_ok done
  have paid : db₁.Paid invoiceId := by
    rcases grantByInvoiceTx_ok (exec_inTx_ok granted) with
      ⟨rfl, paid⟩ | ⟨p, member, attached, -, run⟩
    · exact paid
    · unfold Db.Paid
      rw [purchases_grantEntitlementTx run]
      refine ⟨_, mem_updateWhere.mpr (.inl ⟨p, member, decide_eq_true rfl, rfl⟩), attached, rfl⟩
  have kept : Keeps (fun db : Db => db.Paid invoiceId) (recomputeAuthz env 1 >>= fun _ => pure ()) :=
    Keeps.bind (keeps_recomputeAuthz env 1 (fun _ _ paid => paid) fun _ _ paid => paid)
      fun _ => Keeps.pure ()
  exact kept.ok paid rest

/-- In every state that is reached, a grant that is answered with `ok` has been made. -/
theorem paid_of_answered {es : List DeskEvent} {w : Desk}
    (reached : run (deskStep s r) Desk.initial es = some w) {i : Nat} {invoiceId label : String}
    {a : WebhookAnswer} (answered : w.handlings i = .answered (some (.grantByInvoice invoiceId)) a)
    (ok : a.record = some (label, "ok")) : w.db.Paid invoiceId := by
  let Kept (_ : List DeskEvent) (w : Desk) : Prop :=
    w.handlings i = .answered (some (.grantByInvoice invoiceId)) a → w.db.Paid invoiceId
  have base : Kept [] Desk.initial := by rintro ⟨⟩
  refine run_history base (fun es w₁ e w₂ reached₁ kept h answered => ?_) es reached answered
  rcases answered_step h answered with before | ⟨type, env, -, isAnswer, isDb⟩
  · exact (kept before).retained (retains_step (run_backing reached₁) h)
  · rw [isAnswer] at ok
    have returned := ok_of_afterStore ok
    rw [isDb]
    exact paid_of_grantByInvoice (Prod.ext returned rfl)

end Answers

/-! ### A delivery that goes well -/

section Delivery

variable {s : Store} {ph : PayHandler}

theorem valid_reached {db : Db} (reached : ∃ calls, db = s.after calls) :
    db.registry.Valid s.ident := by
  obtain ⟨calls, rfl⟩ := reached
  exact valid_after s calls

/-- A grant of an attached invoice returns, unless a transaction is lost. -/
theorem exec_grantByInvoice {db : Db} {env : Env} {p : Purchase} {invoiceId : String}
    (ledger : db.Ledgered) (valid : db.registry.Valid s.ident) (member : p ∈ db.purchases)
    (attached : p.invoiceId = some invoiceId) (completes : env.Completes) :
    ∃ db', exec (s.method env (.grantByInvoice invoiceId)) db = (.ok (), db') := by
  obtain ⟨db₁, granted, -⟩ := exec_eventTx ledger valid member attached (env.now 0) .grantByInvoice
  obtain ⟨result, recomputed⟩ := exec_recomputeAuthz (completes 1) db₁
  have tx : exec (inTx env 0 fun now => grantByInvoiceTx invoiceId now) db = (.ok (), db₁) :=
    exec_inTx (completes 0) granted
  exact ⟨db₁.recomputed env.order (env.now 1), (exec_bind_ok tx).trans (exec_bind_ok recomputed)⟩

/-- A signed report of a settled invoice is to be confirmed. -/
theorem receive_signed {raw : Bytes} {sigHeader invoiceId : String} (keyed : ph.secret ≠ [])
    (checked : ph.checked = true) (signed : utf8 sigHeader = signWebhook ph.secret (limitBody raw))
    (reports : ph.unmarshal (limitBody raw) = some ⟨EventInvoiceSettled, invoiceId⟩)
    (named : invoiceId ≠ "") :
    (Receiver.btcpay ph).receive (some raw) sigHeader = .recheck invoiceId := by
  have verified := verifyWebhook_signWebhook keyed signed
  have isOther : EventInvoiceSettled ≠ EventInvoiceProcessing := by decide
  simp only [Receiver.receive, PayHandler.receive, verified, reports, if_neg named, PayHandler.dispatch,
    if_neg isOther, checked, Bool.not_true, Bool.false_eq_true, if_false, if_true]

/-- The steps of one handler, one after the other. -/
theorem step_deliver {r : Receiver} {w : Desk} {i : Nat} (fresh : w.handlings i = .idle)
    (body : Option Bytes) (sigHeader : String) :
    deskStep s r w (.deliver i body sigHeader) =
      some (w.handle i (r.receive body sigHeader).start) := by
  simp only [deskStep, fresh]

theorem step_recheck {r : Receiver} {w : Desk} {i : Nat} {invoiceId : String} {reply : StatusReply}
    (waits : w.handlings i = .rechecking invoiceId) :
    deskStep s r w (.recheck i reply) =
      if ∀ status ∈ invoiceStatus reply, status = "Settled" ↔ w.paid invoiceId = true then
        some (w.handle i (afterRecheck invoiceId reply).start)
      else none := by
  simp only [deskStep, waits]

theorem step_store {r : Receiver} {w : Desk} {i : Nat} {type : String} {op : Op}
    (acts : w.handlings i = .acting type op) {env : Env} {db' : Db} {outcome : Except StoreErr Unit}
    (done : exec (s.method env op) w.db = (outcome, db')) :
    deskStep s r w (.store i env) =
      some ({ w with db := db' }.handle i (.answered (some op) (afterStore type outcome))) := by
  simp only [deskStep, acts, done]

theorem afterRecheck_settled {invoiceId : String} {reply : StatusReply}
    (isSettled : invoiceStatus reply = some "Settled") :
    afterRecheck invoiceId reply = .perform EventInvoiceSettled (.grantByInvoice invoiceId) := by
  unfold afterRecheck
  rw [isSettled]
  rfl

/-- Undisturbed, a handler that is to confirm an invoice, and finds it paid, comes to its end. -/
theorem run_delivery {r : Receiver} {w : Desk} {i : Nat} {invoiceId sigHeader : String}
    {body : Option Bytes} (fresh : w.handlings i = .idle)
    (received : r.receive body sigHeader = .recheck invoiceId) (paid : w.paid invoiceId = true)
    {env : Env} {db' : Db} {outcome : Except StoreErr Unit}
    (done : exec (s.method env (.grantByInvoice invoiceId)) w.db = (outcome, db')) :
    ∃ w', run (deskStep s r) w
        [.deliver i body sigHeader, .recheck i (.body "Settled"), .store i env] = some w' ∧
      w'.handlings i = .answered (some (.grantByInvoice invoiceId))
        (afterStore EventInvoiceSettled outcome) := by
  have waits : (w.handle i (r.receive body sigHeader).start).handlings i = .rechecking invoiceId :=
    (handlings_handle ..).trans (congrArg WebhookTask.start received)
  have truthful : ∀ status ∈ invoiceStatus (.body "Settled"),
      status = "Settled" ↔ w.paid invoiceId = true := by
    rintro _ ⟨⟩
    exact iff_of_true rfl paid
  have acts : ((w.handle i (r.receive body sigHeader).start).handle i
      (afterRecheck invoiceId (.body "Settled")).start).handlings i =
        .acting EventInvoiceSettled (.grantByInvoice invoiceId) :=
    (handlings_handle ..).trans (congrArg WebhookTask.start (afterRecheck_settled rfl))
  rw [run_cons_of_step (step_deliver fresh body sigHeader),
    run_cons_of_step ((step_recheck waits).trans (if_pos truthful)),
    run_cons_of_step (step_store acts done)]
  exact ⟨_, rfl, handlings_handle ..⟩

/-- A shop whose webhooks all report the one invoice. -/
def shopHandler : PayHandler := ⟨[1], true, fun _ => some ⟨EventInvoiceSettled, "invoice"⟩⟩

/-- The signature of an empty body. -/
def shopHeader : String :=
  "sha256=2f8738164025afdddbc18665c6e8f37de9498db7fd194873c61ee30c22192a9a"

theorem utf8_shopHeader : utf8 shopHeader = signWebhook shopHandler.secret (limitBody []) := by
  decide +kernel

/-- A purchase is invoiced and paid. -/
def soldEvents : List DeskEvent :=
  invoicedCalls.map .call ++ [.provider "invoice" true]

def soldDesk : Desk :=
  ⟨plainStore.after invoicedCalls, Function.update (fun _ => false) "invoice" true, fun _ => .idle,
    none⟩

theorem run_soldEvents :
    run (deskStep plainStore (.btcpay shopHandler)) Desk.initial soldEvents = some soldDesk :=
  rfl

theorem mem_soldDesk : invoicedPurchase ∈ soldDesk.db.purchases := by
  decide +kernel

end Delivery

/-- **What is acknowledged is there, and stays.**  If a handler has answered `ok` to the report of a
paid invoice, so that the provider will not send it again, then the purchase is settled, with
exactly one entitlement, that of its package: now and in every later state, whatever is delivered
again, voided, reconciled or called in between. -/
theorem acknowledged_grant_lasts (s : Store) (r : Receiver) (es es' : List DeskEvent) {w w' : Desk}
    (reached : run (deskStep s r) Desk.initial es = some w) {i : Nat} {invoiceId label : String}
    {a : WebhookAnswer} (answered : w.handlings i = .answered (some (.grantByInvoice invoiceId)) a)
    (ok : a.record = some (label, "ok")) (later : run (deskStep s r) w es' = some w') :
    ∃ p ∈ w'.db.purchases, p.invoiceId = some invoiceId ∧ p.status = .settled ∧
      ∃ e, entitlementsOf p.id w'.db.entitlements = [e] ∧ Matches w'.db.packages e p := by
  have paid := (paid_of_answered reached answered ok).retained (run_retains reached later)
  have whole := run_append_of_run reached later
  exact paid.entitlement (ledger_reached (run_backing whole).reached)

/-- The provider takes its word back, and nothing changes. -/
theorem acknowledged_grant_lasts_retracted :
    ∃ w w', run (deskStep plainStore (.btcpay shopHandler)) Desk.initial
        (soldEvents ++ [.deliver 0 (some []) shopHeader, .recheck 0 (.body "Settled"),
          .store 0 (calm 5)]) = some w ∧
      run (deskStep plainStore (.btcpay shopHandler)) w [.provider "invoice" false] = some w' ∧
      ∃ p ∈ w'.db.purchases, p.invoiceId = some "invoice" ∧ p.status = .settled ∧
        ∃ e, entitlementsOf p.id w'.db.entitlements = [e] ∧ Matches w'.db.packages e p := by
  obtain ⟨db', done⟩ := exec_grantByInvoice (s := plainStore) (ledger_after _ invoicedCalls)
    (valid_after _ invoicedCalls) mem_soldDesk rfl (fun _ => rfl : (calm 5).Completes)
  have received : (Receiver.btcpay shopHandler).receive (some []) shopHeader = .recheck "invoice" :=
    receive_signed (List.cons_ne_nil 1 []) rfl utf8_shopHeader rfl (by decide)
  obtain ⟨w, ran, answered⟩ := run_delivery (w := soldDesk) (i := 0) rfl received rfl done
  have reached := run_append_of_run run_soldEvents ran
  exact ⟨w, _, reached, rfl, acknowledged_grant_lasts plainStore (.btcpay shopHandler) _
    [.provider "invoice" false] reached answered rfl rfl⟩

/-- **A signed report of a paid invoice settles its purchase.**  In every state the backend comes
to, for every purchase with an invoice and every signed report that the invoice is settled: if the
provider confirms it and the database does not fail, the handler answers `ok` and the purchase has
come to its entitlement, whatever the rest of the backend and other handlers do in between.  And
if the provider has the invoice as paid, nothing keeps the handler from getting there. -/
theorem authentic_delivery_settles (s : Store) (ph : PayHandler) (es : List DeskEvent) {w : Desk}
    (reached : run (deskStep s (.btcpay ph)) Desk.initial es = some w) (keyed : ph.secret ≠ [])
    (checked : ph.checked = true) {p : Purchase} (member : p ∈ w.db.purchases)
    {invoiceId : String} (attached : p.invoiceId = some invoiceId) (named : invoiceId ≠ "") {i : Nat}
    (fresh : w.handlings i = .idle) {raw : Bytes} {sigHeader : String}
    (signed : utf8 sigHeader = signWebhook ph.secret (limitBody raw))
    (reports : ph.unmarshal (limitBody raw) = some ⟨EventInvoiceSettled, invoiceId⟩) {env : Env}
    (completes : env.Completes) :
    (∀ o₁ o₂ o₃ reply w', (∀ e ∈ o₁ ++ o₂ ++ o₃, e.request ≠ some i) →
      invoiceStatus reply = some "Settled" →
      run (deskStep s (.btcpay ph)) w
        (.deliver i (some raw) sigHeader :: o₁ ++ .recheck i reply :: o₂ ++ .store i env :: o₃) =
          some w' →
      w'.handlings i = .answered (some (.grantByInvoice invoiceId))
          ⟨200, none, some (EventInvoiceSettled, "ok")⟩ ∧
        ∃ p' ∈ w'.db.purchases, p'.id = p.id ∧ p'.status = .settled ∧
          ∃ e, entitlementsOf p.id w'.db.entitlements = [e] ∧ Matches w'.db.packages e p') ∧
    (w.paid invoiceId = true →
      (run (deskStep s (.btcpay ph)) w [.deliver i (some raw) sigHeader,
        .recheck i (.body "Settled"), .store i env]).isSome = true) := by
  have received := receive_signed keyed checked signed reports named
  have delivered := step_deliver (s := s) (r := .btcpay ph) fresh (some raw) sigHeader
  refine ⟨fun o₁ o₂ o₃ reply w' others isSettled ran => ?_, fun paid => ?_⟩
  · rw [List.forall_mem_append, List.forall_mem_append] at others
    obtain ⟨⟨others₁, others₂⟩, others₃⟩ := others
    obtain ⟨w₄, front, back⟩ := exists_run_of_append ran
    obtain ⟨w₂, first, second⟩ := exists_run_of_append front
    obtain ⟨w₁, h₁, ran₁⟩ := run_cons_eq_some first
    obtain ⟨w₃, h₃, ran₂⟩ := run_cons_eq_some second
    obtain ⟨w₅, h₅, ran₃⟩ := run_cons_eq_some back
    -- the handler, step by step
    have waits : w₂.handlings i = .rechecking invoiceId := by
      rw [run_handlings_of_other others₁ ran₁]
      cases delivered.symm.trans h₁
      exact (handlings_handle ..).trans (congrArg WebhookTask.start received)
    have acts : w₄.handlings i = .acting EventInvoiceSettled (.grantByInvoice invoiceId) := by
      rw [run_handlings_of_other others₂ ran₂]
      rw [step_recheck waits] at h₃
      split at h₃
      · cases h₃
        exact (handlings_handle ..).trans
          (congrArg WebhookTask.start (afterRecheck_settled isSettled))
      · cases h₃
    -- the store, when it is called
    have reached₄ := run_append_of_run reached front
    have backing₄ := run_backing reached₄
    obtain ⟨q, row, -, attached₄, -⟩ := run_retains reached front p member invoiceId attached
    obtain ⟨db', done⟩ := exec_grantByInvoice (ledger_reached backing₄.reached)
      (valid_reached backing₄.reached) row attached₄ completes
    cases (step_store acts done).symm.trans h₅
    -- and from there to the end
    have reached₅ := run_append_of_run reached₄ (run_cons_of_step h₅ [])
    have ledger := ledger_reached (run_backing (run_append_of_run reached ran)).reached
    refine ⟨(run_handlings_of_other others₃ ran₃).trans (handlings_handle ..), ?_⟩
    obtain ⟨p', row', sameId, attached', -⟩ := run_retains reached ran p member invoiceId attached
    obtain ⟨q', isRow, isIts, settled, e, one, fits⟩ :=
      ((paid_of_grantByInvoice done).retained (run_retains reached₅ ran₃)).entitlement ledger
    have same : q'.id = p.id :=
      (Ledger.invoices ledger q' isRow p' row' invoiceId isIts attached').trans sameId
    exact ⟨q', isRow, same, settled, e, same ▸ one, fits⟩
  · -- undisturbed, every step is enabled
    have backing := run_backing reached
    obtain ⟨db', done⟩ := exec_grantByInvoice (ledger_reached backing.reached)
      (valid_reached backing.reached) member attached completes
    obtain ⟨w', ran, -⟩ := run_delivery fresh received paid done
    rw [ran]
    rfl

/-- The one invoice is paid, reported and settled. -/
theorem authentic_delivery_settles_sold :
    (run (deskStep plainStore (.btcpay shopHandler)) Desk.initial soldEvents = some soldDesk ∧
      invoicedPurchase ∈ soldDesk.db.purchases) ∧
    (∀ o₁ o₂ o₃ reply w', (∀ e ∈ o₁ ++ o₂ ++ o₃, e.request ≠ some 0) →
      invoiceStatus reply = some "Settled" →
      run (deskStep plainStore (.btcpay shopHandler)) soldDesk
        (.deliver 0 (some []) shopHeader :: o₁ ++ .recheck 0 reply :: o₂ ++
          .store 0 (calm 5) :: o₃) = some w' →
      w'.handlings 0 = .answered (some (.grantByInvoice "invoice"))
          ⟨200, none, some (EventInvoiceSettled, "ok")⟩ ∧
        ∃ p' ∈ w'.db.purchases, p'.id = invoicedPurchase.id ∧ p'.status = .settled ∧
          ∃ e, entitlementsOf invoicedPurchase.id w'.db.entitlements = [e] ∧
            Matches w'.db.packages e p') ∧
    (run (deskStep plainStore (.btcpay shopHandler)) soldDesk [.deliver 0 (some []) shopHeader,
        .recheck 0 (.body "Settled"), .store 0 (calm 5)]).isSome = true := by
  have settles := authentic_delivery_settles plainStore shopHandler soldEvents run_soldEvents
    (List.cons_ne_nil 1 []) rfl mem_soldDesk rfl (by decide) (i := 0) rfl utf8_shopHeader rfl
    (fun _ => rfl : (calm 5).Completes)
  exact ⟨⟨run_soldEvents, mem_soldDesk⟩, settles.1, settles.2 rfl⟩

end FipsExitGate
