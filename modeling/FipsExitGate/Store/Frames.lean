import FipsExitGate.Store.Ops

/-!
# Which tables a method writes

One frame lemma for each transaction that an invariant of other tables can be
carried through without a look at its body.  Such a lemma asks that the property
survives any change of the tables the transaction writes, and gives `Keeps`; for a
property that does not read these tables the hypothesis holds by definition.

The transactions of `whitelist.go` write the registry and nothing else; `Move` has
what exactly they write.
-/

namespace FipsExitGate

open Program Table

variable {I : Db → Prop}

/-- A transaction keeps what its body keeps and what rollbacks do not disturb. -/
theorem Keeps.inTx {α : Type} {env : Env} {k : Nat} {body : Time → StoreM α}
    (kept : ∀ now, Keeps I (body now)) (rolledBack : ∀ db db', I db → I (rollback db db')) :
    Keeps I (inTx env k body) :=
  keeps_inTx (fun now _ _ _ h run => (kept now).ok h run) rolledBack

theorem keeps_getAccountByNpub (s : Store) (npub : String) : Keeps I (s.getAccountByNpub npub) := by
  refine Keeps.get_bind fun db => ?_
  split
  · exact Keeps.pure _
  · exact Keeps.throw _

/-! ## The registry -/

section Registry

variable (written : ∀ db accounts whitelist n, db.nextId ≤ n → I db →
  I { db with accounts := accounts, whitelist := whitelist, nextId := n })
include written

theorem keeps_rowId : Keeps I newId :=
  keeps_newId fun db n le h => written db db.accounts db.whitelist n le h

theorem keeps_writeWhitelist (f : List WhitelistEntry → List WhitelistEntry) :
    Keeps I (writeWhitelist f) := by
  refine Keeps.bind (Keeps.modify fun db h => ?_) fun _ => Keeps.get_bind fun db => ?_
  · exact written db db.accounts (f db.whitelist) db.nextId le_rfl h
  · exact Keeps.ite (Keeps.pure _) (Keeps.throw _)

theorem keeps_activateRowTx (id : Nat) (addr : Addr) : Keeps I (activateRowTx id addr) :=
  Keeps.bind (keeps_writeWhitelist written _) fun _ => keeps_writeWhitelist written _

theorem keeps_activateOwnerTx (acct : AccountId) : Keeps I (activateOwnerTx acct) := by
  refine Keeps.get_bind fun db => ?_
  split
  · exact Keeps.pure _
  · exact keeps_activateRowTx written _ _

theorem keeps_insertAccount (npub : String) (addr : Addr) : Keeps I (insertAccount npub addr) := by
  refine Keeps.get_bind fun db => Keeps.ite (Keeps.pure _) (Keeps.ite (Keeps.throw _) ?_)
  refine Keeps.bind (keeps_rowId written) fun id => Keeps.modify fun db h => ?_
  exact written db _ db.whitelist db.nextId le_rfl h

theorem keeps_insertOwner (acct : AccountId) (npub : String) (addr : Addr) (now : Time) :
    Keeps I (insertOwner acct npub addr now) := by
  refine Keeps.get_bind fun db => Keeps.ite (Keeps.pure _) ?_
  exact Keeps.bind (keeps_rowId written) fun id => keeps_writeWhitelist written _

theorem keeps_createAccount (rolledBack : ∀ db db', I db → I (rollback db db')) {env : Env}
    (recomputed : Keeps I (recomputeAuthz env 2)) (s : Store) (npub : String) :
    Keeps I (s.createAccount env npub) := by
  unfold Store.createAccount
  dsimp only
  split
  · exact Keeps.throw _
  refine Keeps.bind (Keeps.inTx (fun _ => keeps_insertAccount written _ _) rolledBack) fun _ =>
    Keeps.bind (keeps_getAccountByNpub s _) fun acct =>
      Keeps.bind (Keeps.inTx (fun _ => keeps_insertOwner written _ _ _ _) rolledBack) fun _ =>
        Keeps.bind recomputed fun _ => Keeps.pure acct

theorem keeps_inviteGuestTx (s : Store) (acct : AccountId) (guest : String) (addr : Addr)
    (label : String) (now : Time) : Keeps I (s.inviteGuestTx acct guest addr label now) := by
  refine Keeps.get_bind fun db => Keeps.ite (Keeps.throw _) (Keeps.ite (Keeps.throw _) ?_)
  refine Keeps.bind (keeps_rowId written) fun id => ?_
  exact Keeps.bind (keeps_writeWhitelist written _) fun _ => Keeps.get_bind fun db => Keeps.pure _

theorem keeps_deleteInvites (p : WhitelistEntry → Bool) : Keeps I (deleteInvites p) :=
  Keeps.get_bind fun _ => Keeps.ite (keeps_writeWhitelist written _) (Keeps.throw _)

theorem keeps_declineInviteTx (guest host : String) : Keeps I (declineInviteTx guest host) :=
  Keeps.get_bind fun _ => keeps_deleteInvites written _

theorem keeps_acceptInviteTx (guest host : String) (now : Time) :
    Keeps I (acceptInviteTx guest host now) := by
  refine Keeps.get_bind fun db => ?_
  split
  · exact Keeps.throw _
  · exact Keeps.ite (keeps_activateRowTx written _ _) (Keeps.throw _)

theorem keeps_addWhitelistTx (acct : AccountId) (guest : String) (addr : Addr) (label : String)
    (now : Time) : Keeps I (addWhitelistTx acct guest addr label now) :=
  Keeps.bind (keeps_rowId written) fun _ => keeps_writeWhitelist written _

theorem keeps_setWhitelistEnabledTx (acct : AccountId) (guest : String) (enabled : Bool) :
    Keeps I (setWhitelistEnabledTx acct guest enabled) := by
  refine Keeps.get_bind fun db => Keeps.ite (keeps_writeWhitelist written _) ?_
  split
  · exact Keeps.pure _
  · refine Keeps.bind (keeps_writeWhitelist written _) fun _ => Keeps.ite (Keeps.pure _) ?_
    exact Keeps.get_bind fun db => Keeps.ite (Keeps.pure _) (keeps_writeWhitelist written _)

/-- A grant makes an entitlement, brings its account home and settles the purchase. -/
theorem keeps_grantEntitlementTx {now : Time}
    (granted : ∀ db p pt, I db → I (db.withEntitlement (grantOf p pt now)))
    (settled : ∀ db purchases, I db → I { db with purchases := purchases }) (purchaseId : Nat) :
    Keeps I (grantEntitlementTx purchaseId now) := by
  refine Keeps.get_bind fun db => ?_
  split
  · exact Keeps.throw _
  split
  · exact Keeps.throw _
  have settles : Keeps I (modify fun db : Db =>
      { db with purchases := settleRow purchaseId now db.purchases } : StoreM PUnit) :=
    Keeps.modify fun db h => settled db _ h
  dsimp only
  split
  · exact settles
  · refine Keeps.bind (Keeps.modify fun db h => granted db _ _ h) fun _ => ?_
    exact Keeps.bind (keeps_activateOwnerTx written _) fun _ => settles

end Registry

/-! ## The catalogs, usage, and WireGuard -/

section Methods

variable (rolledBack : ∀ db db', I db → I (rollback db db'))
include rolledBack

theorem keeps_createPackage
    (written : ∀ db packages n, db.nextId ≤ n → I db →
      I { db with packages := packages, nextId := n })
    (env : Env) (kind : Kind) (name : String) (volumeBytes validityDays priceMsat : Int)
    (availableUntil : Option Time) :
    Keeps I (createPackage env kind name volumeBytes validityDays priceMsat availableUntil) := by
  refine Keeps.inTx (fun now => Keeps.ite (Keeps.throw _) ?_) rolledBack
  refine Keeps.bind (keeps_newId fun db n le h => written db db.packages n le h) fun id => ?_
  refine Keeps.bind (Keeps.modify fun db h => ?_) fun _ => Keeps.pure _
  exact written db _ db.nextId le_rfl h

theorem keeps_deactivatePackage
    (written : ∀ db packages, I db → I { db with packages := packages }) (env : Env) (id : Nat) :
    Keeps I (deactivatePackage env id) := by
  refine Keeps.inTx (fun now => Keeps.get_bind fun db => ?_) rolledBack
  exact Keeps.ite (Keeps.modify fun db h => written db _ h) (Keeps.throw _)

theorem keeps_createPurchase
    (written : ∀ db purchases n, db.nextId ≤ n → I db →
      I { db with purchases := purchases, nextId := n })
    (s : Store) (env : Env) (npub : String) (packageId : Nat) :
    Keeps I (s.createPurchase env npub packageId) := by
  refine Keeps.bind (keeps_getAccountByNpub s npub) fun acct => Keeps.inTx (fun now => ?_) rolledBack
  refine Keeps.get_bind fun db => Keeps.ite ?_ (Keeps.throw _)
  refine Keeps.bind (keeps_newId fun db n le h => written db db.purchases n le h) fun id => ?_
  refine Keeps.bind (Keeps.modify fun db h => ?_) fun _ => Keeps.pure _
  exact written db _ db.nextId le_rfl h

theorem keeps_attachInvoice
    (written : ∀ db purchases, I db → I { db with purchases := purchases })
    (env : Env) (purchaseId : Nat) (invoiceId checkoutUrl payRequest : String) :
    Keeps I (attachInvoice env purchaseId invoiceId checkoutUrl payRequest) := by
  refine Keeps.inTx (fun now => Keeps.get_bind fun db => Keeps.ite ?_ (Keeps.throw _)) rolledBack
  exact Keeps.ite (Keeps.throw _) (Keeps.modify fun db h => written db _ h)

theorem keeps_markProcessing
    (written : ∀ db purchases, I db → I { db with purchases := purchases })
    (env : Env) (invoiceId : String) : Keeps I (markProcessing env invoiceId) := by
  refine Keeps.inTx (fun now => Keeps.get_bind fun db => ?_) rolledBack
  exact Keeps.ite (Keeps.modify fun db h => written db _ h) (Keeps.throw _)

theorem keeps_createService
    (written : ∀ db services n, db.nextId ≤ n → I db →
      I { db with services := services, nextId := n })
    (env : Env) (key name : String) (port : BitVec 16) (ratePpm : Int) (enabled : Bool) :
    Keeps I (createService env key name port ratePpm enabled) := by
  refine Keeps.inTx (fun now => Keeps.get_bind fun db => Keeps.ite (Keeps.throw _) ?_) rolledBack
  refine Keeps.bind (keeps_newId fun db n le h => written db db.services n le h) fun id => ?_
  exact Keeps.modify fun db h => written db _ db.nextId le_rfl h

theorem keeps_aggregateUsage
    (written : ∀ db daily samples reports, I db →
      I { db with daily := daily, samples := samples, reports := reports })
    (env : Env) (cutoff : Time) : Keeps I (aggregateUsage env cutoff) := by
  refine Keeps.inTx (fun now => Keeps.get_bind fun db => ?_) rolledBack
  refine Keeps.bind (Keeps.modify fun db' h => written db' _ _ db'.reports h) fun _ => ?_
  refine Keeps.get_bind fun left => ?_
  exact Keeps.bind (Keeps.modify fun db' h => written db' db'.daily db'.samples _ h)
    fun _ => Keeps.pure _

theorem keeps_compactAuthz
    (written : ∀ db cutoff, I db →
      I { db with authz := (db.authz.compactAuthzRevisions cutoff).2 })
    (env : Env) (cutoff : Time) : Keeps I (compactAuthz env cutoff) := by
  refine keeps_inTx (fun now db deleted db' h run => ?_) rolledBack
  cases run
  exact written db cutoff h

theorem keeps_deleteWgPeer
    (written : ∀ db wgPeers, I db → I { db with wgPeers := wgPeers })
    (env : Env) (sessionNpub : String) (id : Nat) : Keeps I (deleteWgPeer env sessionNpub id) := by
  refine Keeps.inTx (fun now => Keeps.get_bind fun db => ?_) rolledBack
  exact Keeps.ite (Keeps.modify fun db h => written db _ h) (Keeps.throw _)

theorem keeps_createWgPeer
    (written : ∀ db wgPeers alloc n, db.nextId ≤ n → I db →
      I { db with wgPeers := wgPeers, wgPeerAlloc := alloc, nextId := n })
    (s : Store) (env : Env) (sessionNpub forNpub label pubkey : String) :
    Keeps I (s.createWgPeer env sessionNpub forNpub label pubkey) := by
  have allocates : ∀ new attempts, Keeps I (allocWgPeer s new attempts) := by
    intro new attempts
    induction attempts with
    | zero => exact Keeps.throw _
    | succ attempts ih =>
        refine Keeps.bind (Keeps.bind (Keeps.modify fun db h => ?_) fun _ => Keeps.get_bind fun _ =>
          Keeps.pure _) fun n => Keeps.get_bind fun db => Keeps.ite ih ?_
        · exact written db db.wgPeers _ db.nextId le_rfl h
        · refine Keeps.bind (keeps_newId fun db n le h => ?_) fun id => Keeps.ite (Keeps.throw _) ?_
          · exact written db db.wgPeers db.wgPeerAlloc n le h
          · refine Keeps.bind (Keeps.modify fun db h => ?_) fun _ => Keeps.pure _
            exact written db _ db.wgPeerAlloc db.nextId le_rfl h
  -- the check of the key is opaque here: its text must not be unfolded
  unfold Store.createWgPeer
  generalize trimSpace pubkey = key
  generalize validWgKey key = valid
  refine Keeps.ite (Keeps.throw _) ?_
  split
  · exact Keeps.throw _
  · refine Keeps.bind (Keeps.inTx (fun now => Keeps.get_bind fun db => ?_) rolledBack)
      fun _ => Keeps.pure _
    refine Keeps.ite (Keeps.throw _) ?_
    split
    · exact Keeps.throw _
    · exact Keeps.ite (Keeps.throw _) (allocates _ _)

end Methods

/-! ## Usage -/

section Usage

variable (sampled : ∀ db samples, I db → I { db with samples := samples })
  (drawn : ∀ db id amount, I db →
    I { db with
      entitlements := updateWhere (fun e => decide (e.id = id)) (Entitlement.draw amount)
        db.entitlements })
include sampled drawn

/-- A sample is recorded and drawn from entitlements. -/
theorem keeps_recordSample (services : List Service) (reportId : String) (now : Time)
    (smp : SampleInput) : Keeps I (recordSample services reportId now smp) := by
  have draws : ∀ acct fuel weighted, Keeps I (consumeVolumeLoop now acct fuel weighted) := by
    intro acct fuel
    induction fuel with
    | zero => exact fun weighted => Keeps.pure _
    | succ fuel ih =>
        intro weighted
        refine Keeps.ite (Keeps.pure _) (Keeps.get_bind fun db => ?_)
        split
        · exact Keeps.pure _
        · exact Keeps.bind (Keeps.modify fun db h => drawn db _ _ h) fun _ => ih _
  unfold recordSample
  split
  · exact Keeps.throw _
  · refine Keeps.get_bind fun db => ?_
    refine Keeps.bind (Keeps.modify fun db h => sampled db _ h) fun _ => ?_
    split
    · exact Keeps.ite (Keeps.get_bind fun db => draws _ _ _) (Keeps.pure _)
    · exact Keeps.pure _

/-- `IngestUsage` records a report and its samples. -/
theorem keeps_ingestUsageTx
    (recorded : ∀ db new, I db → I { db with reports := db.reports ++ [new] })
    (services : List Service) (nodeId : String) (r : ReportInput) (now : Time) :
    Keeps I (ingestUsageTx services nodeId r now) := by
  refine Keeps.get_bind fun db => Keeps.ite (Keeps.pure _) ?_
  refine Keeps.bind (Keeps.modify fun db h => recorded db _ h) fun _ => ?_
  refine Keeps.bind (Keeps.forM (fun smp => ?_) _) fun _ => Keeps.pure _
  exact keeps_recordSample sampled drawn services r.reportId now smp

end Usage

end FipsExitGate
