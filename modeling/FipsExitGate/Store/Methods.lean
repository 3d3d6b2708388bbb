import FipsExitGate.Store.Frames

/-!
# What every method keeps

`Tolerates env I` lists the committed changes a property `I` of the database has to
survive, each with what the code has checked before it makes the change.  The one
case analysis over all methods is `Tolerates.method`: a property that survives every
change is kept by every method, whether it returns or fails, and so by every
sequence of calls.

Six methods are left to the caller: what a retention sweep may delete depends on its
cutoff, a purchase is created for an account that is there, who may attach or void an invoice
depends on the payment rail, and peers are issued and deleted by identity.  `Spares` is for
properties that survive any new purchase, `Endures` for those that do not read the peers
either, and `Survives` for those that survive what happens to invoices anyway.  The changes of
the registry are not told apart here; a property that reads the accounts or the whitelist is
followed through `Move`.
-/

namespace FipsExitGate

open Program Table

/-- **What a property has to survive** to be kept by the methods called in `env`, other
than those that create a purchase, attach or void an invoice, and issue or delete a peer. -/
structure Tolerates (env : Env) (I : Db → Prop) : Prop where
  rolledBack : ∀ db db', I db → I (rollback db db')
  registry : ∀ db accounts whitelist n, db.nextId ≤ n → I db →
    I { db with accounts := accounts, whitelist := whitelist, nextId := n }
  services : ∀ db services n, db.nextId ≤ n → I db →
    I { db with services := services, nextId := n }
  createPackage : ∀ kind name volumeBytes validityDays priceMsat availableUntil,
    Keeps I (createPackage env kind name volumeBytes validityDays priceMsat availableUntil)
  deactivatePackage : ∀ id, Keeps I (deactivatePackage env id)
  markProcessing : ∀ invoiceId, Keeps I (markProcessing env invoiceId)
  credited : ∀ db acct kind volume expires k, I db →
    I (db.withEntitlement fun id => ⟨id, acct, none, kind, volume, 0, env.now k, expires⟩)
  /-- Both callers of `grantEntitlementTx` have seen the purchase unsettled. -/
  granted : ∀ db db' p k, I db → p ∈ db.purchases → p.status ≠ .settled →
    exec (grantEntitlementTx p.id (env.now k)) db = (.ok (), db') → I db'
  recorded : ∀ db new, I db → I { db with reports := db.reports ++ [new] }
  sampled : ∀ db samples, I db → I { db with samples := samples }
  drawn : ∀ db id amount, I db →
    I { db with
      entitlements := updateWhere (fun e => decide (e.id = id)) (Entitlement.draw amount)
        db.entitlements }
  recomputed : ∀ k, Keeps I (recomputeAuthz env k)
  compacted : ∀ db cutoff, I db → I { db with authz := (db.authz.compactAuthzRevisions cutoff).2 }

/-- **What a property has to survive** to be kept by the methods called in `env`, other
than those that attach or void an invoice, and those that issue or delete a peer. -/
structure Spares (env : Env) (I : Db → Prop) : Prop extends Tolerates env I where
  createPurchase : ∀ (s : Store) npub packageId, Keeps I (s.createPurchase env npub packageId)

/-- **What a property has to survive** to be kept by the methods called in `env`, other
than those that attach or void an invoice. -/
structure Endures (env : Env) (I : Db → Prop) : Prop extends Spares env I where
  /-- The catalog of services, and WireGuard. -/
  unread : ∀ db services wgPeers alloc n, db.nextId ≤ n → I db →
    I { db with services := services, wgPeers := wgPeers, wgPeerAlloc := alloc, nextId := n }
  services := fun db services n le h => unread db services db.wgPeers db.wgPeerAlloc n le h

/-- **What a property has to survive** to be kept by all methods called in `env`. -/
structure Survives (env : Env) (I : Db → Prop) : Prop extends Endures env I where
  attachInvoice : ∀ purchaseId invoiceId checkoutUrl payRequest,
    Keeps I (attachInvoice env purchaseId invoiceId checkoutUrl payRequest)
  voided : ∀ db p status, I db → p ∈ db.purchases → p.status ≠ .settled → I (db.voided p.id status)

namespace Tolerates

variable {s : Store} {env : Env} {I : Db → Prop}

/-- What a method does after its transactions. -/
theorem thenRecompute {α : Type} (survives : Tolerates env I) (k : Nat) (a : α) :
    Keeps I (recomputeAuthz env k >>= fun _ => pure a) :=
  Keeps.bind (survives.recomputed k) fun _ => Keeps.pure a

/-- A transaction on the registry, and the recompute after it. -/
theorem registryTx {α β : Type} (survives : Tolerates env I) {body : Time → StoreM α}
    (kept : ∀ now, Keeps I (body now)) (b : β) :
    Keeps I (inTx env 0 body >>= fun _ => recomputeAuthz env 1 >>= fun _ => pure b) :=
  Keeps.bind (Keeps.inTx kept survives.rolledBack) fun _ => survives.thenRecompute 1 b

theorem createAccount (survives : Tolerates env I) (npub : String) :
    Keeps I (s.createAccount env npub) :=
  keeps_createAccount survives.registry survives.rolledBack (survives.recomputed 2) s npub

theorem credit (survives : Tolerates env I) (npub : String) (kind : Kind) (volume : Option Int)
    (validityDays : Int) : Keeps I (s.credit env npub kind volume validityDays) := by
  refine Keeps.bind (survives.createAccount npub) fun acct => ?_
  refine Keeps.bind (keeps_inTx_now (fun db u db' h run => ?_) survives.rolledBack) fun _ =>
    survives.thenRecompute 4 ()
  exact (keeps_activateOwnerTx survives.registry _).ok (survives.credited db _ _ _ _ _ h)
    (creditTx_ok run)

theorem grantByInvoice (survives : Tolerates env I) (invoiceId : String) :
    Keeps I (grantByInvoice env invoiceId) := by
  refine Keeps.bind (keeps_inTx_now (fun db u db' h run => ?_) survives.rolledBack) fun _ =>
    survives.thenRecompute 1 ()
  rcases grantByInvoiceTx_ok run with ⟨rfl, -⟩ | ⟨p, member, -, unsettled, run⟩
  · exact h
  · exact survives.granted db db' p 0 h member unsettled run

theorem settlePurchase (survives : Tolerates env I) (purchaseId : Nat) :
    Keeps I (settlePurchase env purchaseId) := by
  refine Keeps.bind (keeps_inTx_now (fun db u db' h run => ?_) survives.rolledBack) fun _ =>
    survives.thenRecompute 1 ()
  rcases settlePurchaseTx_ok run with ⟨rfl, -⟩ | ⟨⟨p, member, rfl, unsettled⟩, run⟩
  · exact h
  · exact survives.granted db db' p 0 h member unsettled run

theorem ingestUsage (survives : Tolerates env I) (nodeId : String) (r : ReportInput) :
    Keeps I (ingestUsage env nodeId r) := by
  refine Keeps.get_bind fun db =>
    Keeps.bind (Keeps.inTx (fun now => ?_) survives.rolledBack) fun fresh => ?_
  · exact keeps_ingestUsageTx survives.sampled survives.drawn survives.recorded _ _ _ _
  · exact Keeps.ite (Keeps.bind (survives.recomputed 1) fun _ => Keeps.pure _) (Keeps.pure _)

/-- **Every method keeps what survives every change**, the six that are left to the
caller if the property survives them too. -/
theorem method (survives : Tolerates env I) (op : Op)
    (swept : ∀ cutoff, op = .aggregateUsage cutoff → Keeps I (aggregateUsage env cutoff))
    (bought : ∀ npub packageId, op = .createPurchase npub packageId →
      Keeps I (s.createPurchase env npub packageId))
    (attached : ∀ purchaseId invoiceId checkoutUrl payRequest,
      op = .attachInvoice purchaseId invoiceId checkoutUrl payRequest →
        Keeps I (attachInvoice env purchaseId invoiceId checkoutUrl payRequest))
    (voided : ∀ invoiceId status, op = .voidByInvoice invoiceId status →
      Keeps I (voidByInvoice env invoiceId status))
    (issued : ∀ sessionNpub forNpub label pubkey,
      op = .createWgPeer sessionNpub forNpub label pubkey →
        Keeps I (s.createWgPeer env sessionNpub forNpub label pubkey))
    (deleted : ∀ sessionNpub id, op = .deleteWgPeer sessionNpub id →
      Keeps I (deleteWgPeer env sessionNpub id)) :
    Keeps I (s.method env op) := by
  have ignoring {α : Type} {m : StoreM α} (kept : Keeps I m) : Keeps I (m >>= fun _ => pure ()) :=
    Keeps.bind kept fun _ => Keeps.pure _
  have back := survives.rolledBack
  have rows := survives.registry
  cases op with
  | createAccount npub => exact ignoring (survives.createAccount npub)
  | addWhitelist owner guest label =>
      refine Keeps.bind (keeps_getAccountByNpub s owner) fun acct => ?_
      split
      · exact Keeps.throw _
      · refine Keeps.bind (Keeps.mapError (Keeps.inTx (fun now => ?_) back)) fun _ =>
          survives.thenRecompute 1 ()
        exact keeps_addWhitelistTx rows _ _ _ _ _
  | inviteGuest owner guest label =>
      refine ignoring (Keeps.bind (keeps_getAccountByNpub s owner) fun acct => ?_)
      split
      · exact Keeps.throw _
      · refine Keeps.ite (Keeps.throw _) (Keeps.bind (Keeps.inTx (fun now => ?_) back) fun _ =>
          survives.thenRecompute 1 _)
        exact keeps_inviteGuestTx rows s _ _ _ _ _
  | withdrawInvite owner guest =>
      refine Keeps.bind (keeps_getAccountByNpub s owner) fun acct => ?_
      exact Keeps.inTx (fun _ => keeps_deleteInvites rows _) back
  | acceptInvite guest host =>
      exact survives.registryTx (fun now => keeps_acceptInviteTx rows _ _ now) ()
  | declineInvite guest host => exact Keeps.inTx (fun _ => keeps_declineInviteTx rows _ _) back
  | activateOwner npub =>
      exact Keeps.bind (keeps_getAccountByNpub s npub) fun acct =>
        survives.registryTx (fun _ => keeps_activateOwnerTx rows _) ()
  | setWhitelistEnabled owner guest enabled =>
      exact Keeps.bind (keeps_getAccountByNpub s owner) fun acct =>
        survives.registryTx (fun _ => keeps_setWhitelistEnabledTx rows _ _ _) ()
  | creditVolume npub volumeBytes validityDays => exact survives.credit npub _ _ _
  | creditTime npub validityDays => exact survives.credit npub _ _ _
  | createPackage kind name volumeBytes validityDays priceMsat availableUntil =>
      exact ignoring (survives.createPackage ..)
  | deactivatePackage id => exact survives.deactivatePackage id
  | createPurchase npub packageId => exact ignoring (bought npub packageId rfl)
  | attachInvoice purchaseId invoiceId checkoutUrl payRequest => exact attached _ _ _ _ rfl
  | markProcessing invoiceId => exact survives.markProcessing invoiceId
  | grantByInvoice invoiceId => exact survives.grantByInvoice invoiceId
  | voidByInvoice invoiceId status => exact voided invoiceId status rfl
  | settlePurchase purchaseId => exact survives.settlePurchase purchaseId
  | createService key name port ratePpm enabled =>
      exact keeps_createService back survives.services ..
  | ingestUsage nodeId report => exact ignoring (survives.ingestUsage nodeId report)
  | aggregateUsage cutoff => exact ignoring (swept cutoff rfl)
  | compactAuthz cutoff => exact ignoring (keeps_compactAuthz back survives.compacted ..)
  | recompute => exact ignoring (survives.recomputed 0)
  | createWgPeer sessionNpub forNpub label pubkey => exact ignoring (issued _ _ _ _ rfl)
  | deleteWgPeer sessionNpub id => exact deleted sessionNpub id rfl

end Tolerates

/-- Every method keeps what survives every change, the five that are left to the caller if the
property survives them too. -/
theorem Spares.method {s : Store} {env : Env} {I : Db → Prop} (survives : Spares env I) (op : Op)
    (swept : ∀ cutoff, op = .aggregateUsage cutoff → Keeps I (aggregateUsage env cutoff))
    (attached : ∀ purchaseId invoiceId checkoutUrl payRequest,
      op = .attachInvoice purchaseId invoiceId checkoutUrl payRequest →
        Keeps I (attachInvoice env purchaseId invoiceId checkoutUrl payRequest))
    (voided : ∀ invoiceId status, op = .voidByInvoice invoiceId status →
      Keeps I (voidByInvoice env invoiceId status))
    (issued : ∀ sessionNpub forNpub label pubkey,
      op = .createWgPeer sessionNpub forNpub label pubkey →
        Keeps I (s.createWgPeer env sessionNpub forNpub label pubkey))
    (deleted : ∀ sessionNpub id, op = .deleteWgPeer sessionNpub id →
      Keeps I (deleteWgPeer env sessionNpub id)) :
    Keeps I (s.method env op) :=
  survives.toTolerates.method op swept (fun npub packageId _ => survives.createPurchase s npub packageId)
    attached voided issued deleted

/-- Every method keeps what survives every change, the three that are left to the caller if
the property survives them too. -/
theorem Endures.method {s : Store} {env : Env} {I : Db → Prop} (survives : Endures env I) (op : Op)
    (swept : ∀ cutoff, op = .aggregateUsage cutoff → Keeps I (aggregateUsage env cutoff))
    (attached : ∀ purchaseId invoiceId checkoutUrl payRequest,
      op = .attachInvoice purchaseId invoiceId checkoutUrl payRequest →
        Keeps I (attachInvoice env purchaseId invoiceId checkoutUrl payRequest))
    (voided : ∀ invoiceId status, op = .voidByInvoice invoiceId status →
      Keeps I (voidByInvoice env invoiceId status)) :
    Keeps I (s.method env op) := by
  refine survives.toSpares.method op swept attached voided (fun _ _ _ _ _ => ?_) fun _ _ _ => ?_
  · exact keeps_createWgPeer survives.rolledBack (fun db wgPeers alloc n le h =>
      survives.unread db _ wgPeers alloc n le h) ..
  · exact keeps_deleteWgPeer survives.rolledBack
      (fun db wgPeers h => survives.unread db _ wgPeers _ _ le_rfl h) ..

namespace Survives

variable {s : Store} {env : Env} {I : Db → Prop}

theorem voidByInvoice (survives : Survives env I) (invoiceId : String) (status : VoidStatus) :
    Keeps I (voidByInvoice env invoiceId status) := by
  refine Keeps.bind (keeps_inTx (fun now db u db' h run => ?_) survives.rolledBack) fun _ =>
    survives.toEndures.thenRecompute 1 ()
  rcases voidByInvoiceTx_ok run with ⟨rfl, -⟩ | ⟨p, member, -, unsettled, rfl⟩
  · exact h
  · exact survives.voided db p status h member unsettled

/-- Every method keeps what survives every change, the retention sweep if the property
survives that too. -/
theorem method (survives : Survives env I) (op : Op)
    (swept : ∀ cutoff, op = .aggregateUsage cutoff → Keeps I (aggregateUsage env cutoff)) :
    Keeps I (s.method env op) :=
  survives.toEndures.method op swept (fun _ _ _ _ _ => survives.attachInvoice ..)
    fun invoiceId status _ => survives.voidByInvoice invoiceId status

end Survives

end FipsExitGate
