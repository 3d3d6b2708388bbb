import FipsExitGate.Store.Frames
import FipsExitGate.Whitelist.Moves
import Mathlib.Logic.Relation

/-!
# What a call can do to the whitelist

`leads_of_call` is the inversion of the store: a call, even one that fails half-way,
leads from one registry to another through moves that the operation `Allows`.

A method is a sequence of transactions, and most end in a recompute.  Between them
the registry has already moved while the authorized set has not, so two assertions
are at work: `Led`, which holds at every boundary between transactions, and a finer
one that only a recompute establishes again.  `Watch` says what the finer assertion
must survive.  `watch_method` is proved once, for all methods; with `Led` itself as
the finer assertion it is the inversion of the store, and the freshness of the
authorized set is another instance.
-/

namespace FipsExitGate

open Program Table

/-- The operation may create the account of this npub. -/
inductive Op.Opens : Op → String → Prop where
  | create (npub : String) : Opens (.createAccount npub) npub
  | volume (npub : String) (volumeBytes validityDays : Int) :
      Opens (.creditVolume npub volumeBytes validityDays) npub
  | time (npub : String) (validityDays : Int) : Opens (.creditTime npub validityDays) npub

/-- The operation credits the account of this npub. -/
inductive Op.Credits : Op → String → Prop where
  | volume (npub : String) (volumeBytes validityDays : Int) :
      Credits (.creditVolume npub volumeBytes validityDays) npub
  | time (npub : String) (validityDays : Int) : Credits (.creditTime npub validityDays) npub

/-- **The moves an operation allows**, when it is called on the database `db₀` and
the registry has come to be `r`. -/
inductive Store.Allows (s : Store) (db₀ : Db) : Op → Registry → Label → Prop where
  | idle (op : Op) (r : Registry) : s.Allows db₀ op r .idle
  | account {op : Op} {npub : String} (opens : op.Opens npub) (r : Registry) :
      s.Allows db₀ op r .account
  | owner {op : Op} {npub : String} (opens : op.Opens npub) (r : Registry) :
      s.Allows db₀ op r .owner
  | credit {op : Op} {npub : String} {r : Registry} {a : Account} (credits : op.Credits npub)
      (member : a ∈ r.accounts) (isIt : a.npub = s.ident.normNpub npub) :
      s.Allows db₀ op r (.home a.id)
  | activate {npub : String} {r : Registry} {a : Account} (member : a ∈ r.accounts)
      (isIt : a.npub = s.ident.normNpub npub) : s.Allows db₀ (.activateOwner npub) r (.home a.id)
  /-- The purchase is found by its invoice, and then once more by its id. -/
  | grant {invoiceId : String} {q p : Purchase} (invoiced : q ∈ db₀.purchases)
      (isIt : q.invoiceId = some invoiceId) (member : p ∈ db₀.purchases) (same : p.id = q.id)
      (r : Registry) : s.Allows db₀ (.grantByInvoice invoiceId) r (.home p.accountId)
  | settle {purchaseId : Nat} {p : Purchase} (member : p ∈ db₀.purchases)
      (isIt : p.id = purchaseId) (r : Registry) :
      s.Allows db₀ (.settlePurchase purchaseId) r (.home p.accountId)
  | invite (owner guest label : String) (r : Registry) :
      s.Allows db₀ (.inviteGuest owner guest label) r
        (.invite (s.ident.normNpub owner) (s.ident.normNpub guest))
  | withdraw (owner guest : String) (r : Registry) :
      s.Allows db₀ (.withdrawInvite owner guest) r .withdraw
  | accept (guest host : String) (r : Registry) :
      s.Allows db₀ (.acceptInvite guest host) r
        (.accept (s.ident.normNpub guest) (s.ident.normNpub host))
  | decline (guest host : String) (r : Registry) :
      s.Allows db₀ (.declineInvite guest host) r .withdraw
  | add (owner guest label : String) (r : Registry) :
      s.Allows db₀ (.addWhitelist owner guest label) r
        (.add (s.ident.normNpub owner) (s.ident.normNpub guest))
  | toggle (owner guest : String) (enabled : Bool) (r : Registry) :
      s.Allows db₀ (.setWhitelistEnabled owner guest enabled) r
        (.toggle (s.ident.normNpub owner) (s.ident.normNpub guest) enabled)
  | uninvite (owner guest : String) (r : Registry) :
      s.Allows db₀ (.setWhitelistEnabled owner guest false) r .withdraw

/-- The registries that moves of the operation lead to. -/
def Store.Leads (s : Store) (db₀ : Db) (op : Op) : Registry → Registry → Prop :=
  Relation.ReflTransGen fun r r' => ∃ l, s.Allows db₀ op r l ∧ Move s.ident l r r'

/-- The operation has led from `db₀` to `db`, as far as the registry goes. -/
def Store.Led (s : Store) (db₀ : Db) (op : Op) (db : Db) : Prop :=
  s.Leads db₀ op db₀.registry db.registry

/-- **An assertion to carry through a call.**  It holds before the call and after it;
in between it may fail from the first transaction that writes what a recompute
reads, up to the recompute. -/
structure Watch (s : Store) (env : Env) (db₀ : Db) (op : Op) (I : Db → Prop) : Prop where
  /-- It knows where the operation has led. -/
  led : ∀ db, I db → s.Led db₀ op db
  rolledBack : ∀ db db', I db → I (rollback db db')
  /-- It survives the creation of an account, which has no rows yet. -/
  account : ∀ db npub addr, I db → s.Led db₀ op (db.withAccount npub addr) →
    I (db.withAccount npub addr)
  /-- It survives the end of invitations. -/
  withdraw : ∀ db p, Invites p → I db →
    s.Led db₀ op { db with whitelist := deleteWhere p db.whitelist } →
    I { db with whitelist := deleteWhere p db.whitelist }
  /-- It does not read the tables of packages, purchases, usage and WireGuard. -/
  unread : ∀ db packages purchases services reports samples daily wgPeers alloc n, db.nextId ≤ n →
    I db →
    I { db with
      packages := packages
      purchases := purchases
      services := services
      reports := reports
      samples := samples
      daily := daily
      wgPeers := wgPeers
      wgPeerAlloc := alloc
      nextId := n }
  compacted : ∀ db cutoff, I db → I { db with authz := (db.authz.compactAuthzRevisions cutoff).2 }
  /-- A recompute establishes it. -/
  recomputed : ∀ k, Triple (s.Led db₀ op) (recomputeAuthz env k) (fun _ => I) I

section Led

variable {s : Store} {db₀ : Db} {op : Op}

theorem led_move {db db' : Db} {l : Label} (led : s.Led db₀ op db)
    (allowed : s.Allows db₀ op db.registry l) (move : Move s.ident l db.registry db'.registry) :
    s.Led db₀ op db' :=
  led.tail ⟨l, allowed, move⟩

theorem led_idle {db db' : Db} (led : s.Led db₀ op db) (same : db'.registry = db.registry) :
    s.Led db₀ op db' := by
  unfold Store.Led
  rw [same]
  exact led

theorem led_or_move {db db' : Db} {l : Label} (led : s.Led db₀ op db)
    (allowed : s.Allows db₀ op db.registry l)
    (move : db'.registry = db.registry ∨ Move s.ident l db.registry db'.registry) :
    s.Led db₀ op db' :=
  move.elim (led_idle led) (led_move led allowed)

theorem led_nextId (db : Db) (n : Nat) (le : db.nextId ≤ n) (led : s.Led db₀ op db) :
    s.Led db₀ op { db with nextId := n } :=
  led_move led (.idle op _) (Move.idle db.registry n le)

theorem led_withEntitlement {db : Db} (led : s.Led db₀ op db) (new : Nat → Entitlement) :
    s.Led db₀ op (db.withEntitlement new) :=
  led_nextId db _ (Nat.le_succ _) led

theorem led_rollback (db db' : Db) (led : s.Led db₀ op db) : s.Led db₀ op (rollback db db') :=
  led_idle led (registry_rollback db db')

/-- Where an operation has led is itself an assertion to carry. -/
theorem watch_led (env : Env) : Watch s env db₀ op (s.Led db₀ op) where
  led _ led := led
  rolledBack := led_rollback
  account _ _ _ _ led := led
  withdraw _ _ _ _ led := led
  unread db _ _ _ _ _ _ _ _ n le led := led_nextId db n le led
  compacted _ _ led := led
  recomputed k := keeps_recomputeAuthz env k (fun _ _ led => led) led_rollback

/-- A grant numbers the entitlement and brings the purchase's account home. -/
theorem led_grantEntitlementTx {purchaseId : Nat} {now : Time} {db db' : Db} {u : Unit}
    (led : s.Led db₀ op db)
    (allowed : ∀ p ∈ db.purchases, p.id = purchaseId → ∀ r, s.Allows db₀ op r (.home p.accountId))
    (run : exec (grantEntitlementTx purchaseId now) db = (.ok u, db')) : s.Led db₀ op db' := by
  obtain ⟨p, member, pt, -, isIt, -, ⟨-, rfl⟩ | ⟨-, db₁, home, rfl⟩⟩ := grantEntitlementTx_ok run
  · exact led
  · have led : s.Led db₀ op db₁ := led_or_move (led_withEntitlement led _)
      (allowed p member isIt _) (activateOwnerTx_move home)
    exact led

theorem accounts_of_ownerMove {ident : Identity} {r r' : Registry} (move : Move ident .owner r r') :
    r'.accounts = r.accounts := by
  cases move
  rfl

/-- The account a method looks up first. -/
theorem triple_getAccountByNpub {P : Db → Prop} (npub : String) :
    Triple P (s.getAccountByNpub npub)
      (fun acct db => P db ∧ acct ∈ db.accounts ∧ acct.npub = s.ident.normNpub npub) P := by
  refine ⟨fun db h => ?_⟩
  rcases exec_getAccountByNpub s npub db with ⟨acct, member, isIt, run⟩ | ⟨-, run⟩
  · rw [run]
    exact ⟨h, member, isIt⟩
  · rw [run]
    exact h

/-- What a method establishes of the registry by a transaction, its recompute keeps. -/
theorem triple_registryTx {α β : Type} {J : Registry → Prop} {P : Db → Prop} {env : Env}
    {body : Time → StoreM α} (start : ∀ db, P db → J db.registry)
    (done : ∀ now db a db', P db → exec (body now) db = (.ok a, db') → J db'.registry)
    (result : α → β) :
    Triple P (inTx env 0 body >>= fun a => recomputeAuthz env 1 >>= fun _ => pure (result a))
      (fun _ db => J db.registry) fun db => J db.registry := by
  refine Triple.bind (triple_inTx done fun db _ h => start db h) fun a => ?_
  exact Keeps.bind (keeps_recomputeAuthz env 1 (fun _ _ h => h) fun _ _ h => h)
    fun _ => Keeps.pure _

end Led

/-! ## The methods, one by one -/

section Methods

variable {s : Store} {env : Env} {db₀ : Db} {op : Op} {I : Db → Prop}

/-- A transaction that a recompute will follow: it only has to lead on. -/
theorem Watch.inTx {α : Type} {P : Db → Prop} {k : Nat} {body : Time → StoreM α}
    (watch : Watch s env db₀ op I) (start : ∀ db, P db → I db)
    (done : ∀ now db a db', P db → s.Led db₀ op db → exec (body now) db = (.ok a, db') →
      s.Led db₀ op db') :
    Triple P (FipsExitGate.inTx env k body) (fun _ => s.Led db₀ op) I :=
  triple_inTx (fun now db a db' h run => done now db a db' h (watch.led db (start db h)) run)
    fun db db' h => watch.rolledBack db db' (start db h)

/-- What a method does after its transactions. -/
theorem Watch.thenRecompute {α : Type} (watch : Watch s env db₀ op I) (k : Nat) (a : α) :
    Triple (s.Led db₀ op) (recomputeAuthz env k >>= fun _ => pure a) (fun _ => I) I :=
  Triple.bind (watch.recomputed k) fun _ => Triple.pure fun _ h => h

theorem watch_createAccount {npub : String} (watch : Watch s env db₀ op I) (opens : op.Opens npub) :
    Triple I (s.createAccount env npub)
      (fun acct db => I db ∧ acct ∈ db.accounts ∧ acct.npub = s.ident.normNpub npub) I := by
  unfold Store.createAccount
  dsimp only
  split
  · exact Triple.throw fun _ h => h
  rename_i addr derived
  refine Triple.bind (keeps_inTx (fun now db u db' h run => ?_) watch.rolledBack) fun _ => ?_
  · rcases insertAccount_move derived run with rfl | ⟨rfl, move⟩
    · exact h
    · exact watch.account _ _ _ h (led_move (watch.led db h) (.account opens _) move)
  refine Triple.bind (triple_getAccountByNpub _) fun acct => ?_
  rw [s.ident.norm_idem]
  -- the account that was read is still there when its row is written
  refine Triple.bind (Q := fun _ db => s.Led db₀ op db ∧ acct ∈ db.accounts ∧
    acct.npub = s.ident.normNpub npub)
    (triple_inTx ?_ fun db db' h => watch.rolledBack db db' h.1) fun _ => ?_
  · rintro now db u db' ⟨h, member, isIt⟩ run
    rw [← isIt] at run derived
    have move := insertOwner_move member derived run
    have accounts : db'.accounts = db.accounts :=
      move.elim (congrArg Registry.accounts) accounts_of_ownerMove
    exact ⟨led_or_move (watch.led db h) (.owner opens _) move, accounts ▸ member, isIt⟩
  · have account : Keeps (fun db => acct ∈ db.accounts ∧ acct.npub = s.ident.normNpub npub)
        (recomputeAuthz env 2) := keeps_recomputeAuthz env 2 (fun _ _ h => h) fun _ _ h => h
    refine Triple.bind (((watch.recomputed 2).both account).conseq (fun _ h => h) (fun _ _ h => h)
      fun _ h => h.1) fun _ => Triple.pure fun _ h => h

theorem watch_credit {npub : String} (watch : Watch s env db₀ op I) (opens : op.Opens npub)
    (credits : op.Credits npub) (kind : Kind) (volume : Option Int) (validityDays : Int) :
    Keeps I (s.credit env npub kind volume validityDays) := by
  refine Triple.bind (watch_createAccount watch opens) fun acct => ?_
  refine Triple.bind (watch.inTx (fun _ h => h.1) ?_) fun _ => watch.thenRecompute 4 ()
  rintro now db u db' ⟨-, member, isIt⟩ led run
  exact led_or_move (led_withEntitlement led _) (.credit credits member isIt)
    (activateOwnerTx_move (creditTx_ok run))

/-- A duplicate writes nothing; any other report ends in a recompute. -/
theorem watch_ingestUsage (watch : Watch s env db₀ op I) (nodeId : String) (r : ReportInput) :
    Keeps I (ingestUsage env nodeId r) := by
  refine Keeps.get_bind fun read => ?_
  refine Triple.bind (Q := fun fresh db => s.Led db₀ op db ∧ (fresh = false → I db))
    (triple_inTx ?_ watch.rolledBack) fun fresh => ?_
  · intro now db fresh db' h run
    -- usage moves nobody; the finer assertion is only needed where no recompute follows
    have led : Keeps (s.Led db₀ op) (ingestUsageTx read.services nodeId r now) :=
      keeps_ingestUsageTx (fun _ _ led => led) (fun _ _ _ led => led) (fun _ _ led => led) _ _ _ _
    refine ⟨led.ok (watch.led db h) run, fun duplicate => ?_⟩
    rcases ingestUsageTx_ok run with ⟨-, -, rfl⟩ | ⟨fresh, -⟩
    · exact h
    · exact absurd (fresh.symm.trans duplicate) (by simp)
  · split
    · exact (Triple.bind (watch.recomputed 1) fun _ => Triple.pure fun _ h => h).strengthen
        fun _ h => h.1
    · rename_i duplicate
      exact Triple.pure fun _ h => h.2 (by simpa using duplicate)

theorem watch_inviteGuest {owner guest label : String}
    (watch : Watch s env db₀ (.inviteGuest owner guest label) I) :
    Keeps I (s.inviteGuest env owner guest label) := by
  refine Triple.bind (triple_getAccountByNpub owner) fun acct => ?_
  split
  · exact Triple.throw fun _ h => h.1
  rename_i addr derived
  split
  · exact Triple.throw fun _ h => h.1
  rename_i other
  refine Triple.bind (watch.inTx (fun _ h => h.1) ?_) fun _ => watch.thenRecompute 1 _
  rintro now db pending db' ⟨-, member, isIt⟩ led run
  have move := inviteGuestTx_move member derived other run
  rw [isIt] at move
  exact led_move led (.invite owner guest label _) move

/-- Nothing is recomputed when an invitation ends, and nothing has to be. -/
theorem watch_endInvites {p : WhitelistEntry → Bool} (watch : Watch s env db₀ op I)
    (invites : Invites p) (allowed : ∀ r, s.Allows db₀ op r .withdraw) {db : Db} (h : I db) :
    I { db with whitelist := deleteWhere p db.whitelist } :=
  watch.withdraw db p invites h
    (led_move (watch.led db h) (allowed _) (Move.withdraw db.registry p invites))

theorem watch_withdrawInvite {owner guest : String}
    (watch : Watch s env db₀ (.withdrawInvite owner guest) I) :
    Keeps I (s.withdrawInvite env owner guest) := by
  refine Keeps.bind (keeps_getAccountByNpub s owner) fun acct => keeps_inTx ?_ watch.rolledBack
  intro now db u db' h run
  rw [deleteInvites_ok run]
  exact watch_endInvites watch (isPendingGuest_invites _ _) (.withdraw owner guest) h

theorem watch_declineInvite {guest host : String}
    (watch : Watch s env db₀ (.declineInvite guest host) I) :
    Keeps I (s.declineInvite env guest host) := by
  refine keeps_inTx (fun now db u db' h run => ?_) watch.rolledBack
  obtain ⟨p, invites, rfl⟩ := declineInviteTx_ok run
  exact watch_endInvites watch invites (.decline guest host) h

theorem watch_acceptInvite {guest host : String}
    (watch : Watch s env db₀ (.acceptInvite guest host) I) :
    Keeps I (s.acceptInvite env guest host) := by
  refine Triple.bind (watch.inTx (fun _ h => h) ?_) fun _ => watch.thenRecompute 1 ()
  intro now db u db' _ led run
  exact led_move led (.accept guest host _) (acceptInviteTx_move run)

theorem watch_activateOwner {npub : String} (watch : Watch s env db₀ (.activateOwner npub) I) :
    Keeps I (s.activateOwner env npub) := by
  refine Triple.bind (triple_getAccountByNpub npub) fun acct => ?_
  refine Triple.bind (watch.inTx (fun _ h => h.1) ?_) fun _ => watch.thenRecompute 1 ()
  rintro now db u db' ⟨-, member, isIt⟩ led run
  exact led_or_move led (.activate member isIt) (activateOwnerTx_move run)

theorem watch_addWhitelist {owner guest label : String}
    (watch : Watch s env db₀ (.addWhitelist owner guest label) I) :
    Keeps I (s.addWhitelist env owner guest label) := by
  refine Triple.bind (triple_getAccountByNpub owner) fun acct => ?_
  split
  · exact Triple.throw fun _ h => h.1
  rename_i addr derived
  refine Triple.bind (Triple.mapError (watch.inTx (fun _ h => h.1) ?_)) fun _ =>
    watch.thenRecompute 1 ()
  rintro now db u db' ⟨-, member, isIt⟩ led run
  have move := addWhitelistTx_move member derived run
  rw [isIt] at move
  exact led_move led (.add owner guest label _) move

theorem watch_setWhitelistEnabled {owner guest : String} {enabled : Bool}
    (watch : Watch s env db₀ (.setWhitelistEnabled owner guest enabled) I) :
    Keeps I (s.setWhitelistEnabled env owner guest enabled) := by
  refine Triple.bind (triple_getAccountByNpub owner) fun acct => ?_
  refine Triple.bind (watch.inTx (fun _ h => h.1) ?_) fun _ => watch.thenRecompute 1 ()
  rintro now db u db' ⟨-, member, isIt⟩ led run
  have move := setWhitelistEnabledTx_move s.ident member run
  rw [isIt] at move
  rcases move with same | ⟨rfl, move⟩ | move
  · exact led_idle led same
  · exact led_move led (.uninvite owner guest _) move
  · exact led_move led (.toggle owner guest enabled _) move

/-- The account a grant on `db₀` brings home is that of the invoice's purchase. -/
theorem watch_grantByInvoice {invoiceId : String}
    (watch : Watch s env db₀ (.grantByInvoice invoiceId) I) :
    Triple (fun db => db = db₀ ∧ I db) (grantByInvoice env invoiceId) (fun _ => I) I := by
  refine Triple.bind (watch.inTx (fun _ h => h.2) ?_) fun _ => watch.thenRecompute 1 ()
  rintro now _ u db' ⟨rfl, -⟩ led run
  rcases grantByInvoiceTx_ok run with ⟨rfl, -⟩ | ⟨q, invoiced, isIt, -, run⟩
  · exact led
  · exact led_grantEntitlementTx led
      (fun p member same r => .grant invoiced isIt member same r) run

theorem watch_settlePurchase {purchaseId : Nat}
    (watch : Watch s env db₀ (.settlePurchase purchaseId) I) :
    Triple (fun db => db = db₀ ∧ I db) (settlePurchase env purchaseId) (fun _ => I) I := by
  refine Triple.bind (watch.inTx (fun _ h => h.2) ?_) fun _ => watch.thenRecompute 1 ()
  rintro now _ u db' ⟨rfl, -⟩ led run
  rcases settlePurchaseTx_ok run with ⟨rfl, -⟩ | ⟨-, run⟩
  · exact led
  · exact led_grantEntitlementTx led (fun p member isIt r => .settle member isIt r) run

/-- Voiding a purchase does not touch the registry. -/
theorem watch_voidByInvoice (watch : Watch s env db₀ op I) (invoiceId : String)
    (status : VoidStatus) : Keeps I (voidByInvoice env invoiceId status) := by
  refine Triple.bind (watch.inTx (fun _ h => h) ?_) fun _ => watch.thenRecompute 1 ()
  intro now db u db' _ led run
  rcases voidByInvoiceTx_ok run with ⟨rfl, -⟩ | ⟨p, -, -, -, rfl⟩
  · exact led
  · exact led

/-- **Every method carries every assertion to carry.** -/
theorem watch_method (watch : Watch s env db₀ op I) :
    Triple (fun db => db = db₀ ∧ I db) (s.method env op) (fun _ => I) I := by
  have ignoring {α : Type} {m : StoreM α} (kept : Keeps I m) : Keeps I (m >>= fun _ => pure ()) :=
    Keeps.bind kept fun _ => Keeps.pure _
  have started {m : StoreM Unit} (kept : Keeps I m) :
      Triple (fun db => db = db₀ ∧ I db) m (fun _ => I) I :=
    kept.strengthen fun _ h => h.2
  have back := watch.rolledBack
  cases op with
  | createAccount npub =>
      refine started (ignoring ((watch_createAccount watch (.create npub)).conseq (fun _ h => h) ?_
        fun _ h => h))
      exact fun _ _ h => h.1
  | addWhitelist owner guest label => exact started (watch_addWhitelist watch)
  | inviteGuest owner guest label => exact started (ignoring (watch_inviteGuest watch))
  | withdrawInvite owner guest => exact started (watch_withdrawInvite watch)
  | acceptInvite guest host => exact started (watch_acceptInvite watch)
  | declineInvite guest host => exact started (watch_declineInvite watch)
  | activateOwner npub => exact started (watch_activateOwner watch)
  | setWhitelistEnabled owner guest enabled => exact started (watch_setWhitelistEnabled watch)
  | creditVolume npub volumeBytes validityDays =>
      exact started (watch_credit watch (.volume npub _ _) (.volume npub _ _) _ _ validityDays)
  | creditTime npub validityDays =>
      exact started (watch_credit watch (.time npub _) (.time npub _) _ _ validityDays)
  | createPackage kind name volumeBytes validityDays priceMsat availableUntil =>
      exact started (ignoring (keeps_createPackage back
        (fun db packages n le h => watch.unread db packages _ _ _ _ _ _ _ n le h) ..))
  | deactivatePackage id =>
      exact started (keeps_deactivatePackage back
        (fun db packages h => watch.unread db packages _ _ _ _ _ _ _ _ le_rfl h) ..)
  | createPurchase npub packageId =>
      exact started (ignoring (keeps_createPurchase back
        (fun db purchases n le h => watch.unread db _ purchases _ _ _ _ _ _ n le h) ..))
  | attachInvoice purchaseId invoiceId checkoutUrl payRequest =>
      exact started (keeps_attachInvoice back
        (fun db purchases h => watch.unread db _ purchases _ _ _ _ _ _ _ le_rfl h) ..)
  | markProcessing invoiceId =>
      exact started (keeps_markProcessing back
        (fun db purchases h => watch.unread db _ purchases _ _ _ _ _ _ _ le_rfl h) ..)
  | grantByInvoice invoiceId => exact watch_grantByInvoice watch
  | voidByInvoice invoiceId status => exact started (watch_voidByInvoice watch invoiceId status)
  | settlePurchase purchaseId => exact watch_settlePurchase watch
  | createService key name port ratePpm enabled =>
      exact started (keeps_createService back
        (fun db services n le h => watch.unread db _ _ services _ _ _ _ _ n le h) ..)
  | ingestUsage nodeId report => exact started (ignoring (watch_ingestUsage watch nodeId report))
  | aggregateUsage cutoff =>
      exact started (ignoring (keeps_aggregateUsage back (fun db daily samples reports h =>
        watch.unread db _ _ _ reports samples daily _ _ _ le_rfl h) ..))
  | compactAuthz cutoff => exact started (ignoring (keeps_compactAuthz back watch.compacted ..))
  | recompute =>
      exact (watch.thenRecompute 0 ()).strengthen fun db h => watch.led db h.2
  | createWgPeer sessionNpub forNpub label pubkey =>
      exact started (ignoring (keeps_createWgPeer back (fun db wgPeers alloc n le h =>
        watch.unread db _ _ _ _ _ _ wgPeers alloc n le h) ..))
  | deleteWgPeer sessionNpub id =>
      exact started (keeps_deleteWgPeer back
        (fun db wgPeers h => watch.unread db _ _ _ _ _ _ wgPeers _ _ le_rfl h) ..)

end Methods

/-- What is carried through a call holds after it. -/
theorem watch_call {s : Store} {db₀ : Db} {c : Call} {I : Db → Prop}
    (watch : Watch s c.env db₀ c.op I) (h : I db₀) : I (s.call db₀ c) :=
  (watch_method watch).exec ⟨rfl, h⟩

/-- **The inversion of the store**: a call leads to its registry through moves the
operation allows. -/
theorem leads_of_call (s : Store) (db₀ : Db) (c : Call) :
    s.Leads db₀ c.op db₀.registry (s.call db₀ c).registry :=
  watch_call (watch_led c.env) .refl

end FipsExitGate
