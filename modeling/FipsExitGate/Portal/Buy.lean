import FipsExitGate.Purchases.Homecoming
import FipsExitGate.Purchases.Reconciler

/-!
# Buying a package

`buy` of `portal.go`, the handler of `POST /buy`: it opens the account, refuses an account with
too many open purchases, inserts the purchase, and then asks the payment rail for an invoice and
attaches it.  Every step can fail, and each is a statement of its own.

What is left behind depends on where a request stops.  Before the insert nothing is
(`Inserts`); after it the purchase stays, without an invoice, unless the remaining steps all go
through (`Concludes`).  A purchase without an invoice is on no list of the reconciler and no
webhook names it, so it stays open for good, and the cap on open purchases counts it.

## Main results

* `buy_cases` — what a request leaves, by the place where it stops
* `failed_buy_leaves_nothing_open` — a failed request leaves the open purchases as they were
  exactly if it does not stop between the insert and the end
* `failures_exhaust_purchases` — three requests while the provider is down, and the account
  cannot buy any more
-/

namespace FipsExitGate

open Program Table Machine

/-! ## The payment rail -/

/-- `Invoice`. -/
structure Invoice where
  id : String
  checkoutLink : String
  status : String
  bolt11 : String
  deriving DecidableEq, Repr

/-- The fields the two clients read from the provider's JSON; a missing one is empty. -/
structure InvoiceBody where
  id : String
  checkoutLink : String
  status : String
  paymentHash : String
  serialized : String
  deriving DecidableEq, Repr

/-- The provider's answer to the request for an invoice. -/
inductive InvoiceReply where
  /-- The request fails. -/
  | failed
  /-- A status that is not 2xx. -/
  | refused (status : Nat)
  /-- The body is no JSON of the expected form. -/
  | undecodable
  | body (b : InvoiceBody)
  deriving DecidableEq, Repr

/-- `PAYMENT_RAIL`. -/
inductive Rail where
  | btcpay
  | phoenixd
  deriving DecidableEq, Repr

/-- `CreateInvoice` of the two clients; `none` is their error. -/
def Rail.createInvoice : Rail → InvoiceReply → Option Invoice
  | _, .failed | _, .refused _ | _, .undecodable => none
  | .btcpay, .body b => if b.id = "" then none else some ⟨b.id, b.checkoutLink, b.status, ""⟩
  | .phoenixd, .body b =>
      if b.paymentHash = "" ∨ b.serialized = "" then none
      else some ⟨b.paymentHash, "", "New", b.serialized⟩

/-- An invoice of phoenixd has a payment request. -/
theorem bolt11_of_phoenixd {reply : InvoiceReply} {inv : Invoice}
    (answered : Rail.phoenixd.createInvoice reply = some inv) : inv.bolt11 ≠ "" := by
  cases reply with
  | body b =>
      simp only [Rail.createInvoice] at answered
      split at answered
      · cases answered
      · rename_i filled
        cases answered
        exact fun missing => filled (.inr missing)
  | _ => cases answered

/-! ## The handler -/

/-- What `buy` reads of the portal. -/
structure PortalConfig where
  store : Store
  publicURL : String
  /-- `maxOpenPurchases`: pending invoices an account may hold at once. -/
  maxOpenPurchases : Nat
  /-- `pay`; `none` until a payment rail is configured. -/
  pay : Option Rail
  autoSettle : Bool

/-- A `POST /buy`, with what its calls meet outside of the handler. -/
structure BuyRequest where
  /-- The npub of the session, or of the address the request comes from. -/
  npub : Option String
  /-- The answer of `buyLimit`. -/
  allowed : Bool
  /-- `package_id`; a text that is no package id stands for an unknown one. -/
  packageId : Nat
  accountEnv : Env
  openEnv : Env
  purchaseEnv : Env
  packageEnv : Env
  reply : InvoiceReply
  attachEnv : Env
  settleEnv : Env

/-- What a request is answered with. -/
inductive BuyReply where
  | login
  | limit
  | noAccount
  | failed
  | pay (purchaseId : Nat)
  | checkout (link : String)
  | settleFailed
  | dashboard
  | pending
  deriving DecidableEq, Repr

/-- The status of the response, with the location of a redirect or the text of an error. -/
def BuyReply.response : BuyReply → Nat × String
  | .login => (303, "/login")
  | .limit => (303, "/packages?err=limit")
  | .noAccount => (500, "could not create account")
  | .failed => (303, "/packages?err=1")
  | .pay purchaseId => (303, "/pay/" ++ toString purchaseId)
  | .checkout link => (303, link)
  | .settleFailed => (500, "settle failed")
  | .dashboard => (303, "/dashboard")
  | .pending => (303, "/packages?pending=1")

/-- The buyer is sent to an invoice. -/
def BuyReply.handsInvoice : BuyReply → Bool
  | .pay _ | .checkout _ => true
  | _ => false

/-- The part of `buy` that needs a payment rail, for a purchase that is inserted. -/
def PortalConfig.invoice (cfg : PortalConfig) (rail : Rail) (req : BuyRequest) (id : Nat) (db : Db) :
    BuyReply × Db :=
  match exec (getPackage req.packageEnv req.packageId) db with
  | (.error _, db) => (.failed, db)
  | (.ok _, db) =>
      match rail.createInvoice req.reply with
      | none => (.failed, db)
      | some inv =>
          if inv.bolt11 ≠ "" then
            match exec (attachInvoice req.attachEnv id inv.id
                (cfg.publicURL ++ "/pay/" ++ toString id) inv.bolt11) db with
            | (.error _, db) => (.failed, db)
            | (.ok _, db) => (.pay id, db)
          else
            match exec (attachInvoice req.attachEnv id inv.id inv.checkoutLink "") db with
            | (.error _, db) => (.failed, db)
            | (.ok _, db) => (.checkout inv.checkoutLink, db)

/-- The cap on open purchases; a query that fails does not count. -/
def PortalConfig.full (cfg : PortalConfig) : Except StoreErr (List PurchaseView) → Bool
  | .ok views => decide (cfg.maxOpenPurchases ≤ views.length)
  | .error _ => false

/-- `buy`. -/
def PortalConfig.buy (cfg : PortalConfig) (req : BuyRequest) (db : Db) : BuyReply × Db :=
  match req.npub with
  | none => (.login, db)
  | some npub =>
      if !req.allowed then (.limit, db)
      else
        match exec (cfg.store.createAccount req.accountEnv npub) db with
        | (.error _, db) => (.noAccount, db)
        | (.ok _, db) =>
            match exec (inTx req.openEnv 0 fun _ => openPurchases npub) db with
            | (listed, db) =>
                if cfg.full listed then (.limit, db)
                else
                  match exec (cfg.store.createPurchase req.purchaseEnv npub req.packageId) db with
                  | (.error _, db) => (.failed, db)
                  | (.ok id, db) =>
                      match cfg.pay with
                      | some rail => cfg.invoice rail req id db
                      | none =>
                          if cfg.autoSettle then
                            match exec (settlePurchase req.settleEnv id) db with
                            | (.error _, db) => (.settleFailed, db)
                            | (.ok _, db) => (.dashboard, db)
                          else (.pending, db)

/-! ## How far a request gets -/

/-- The account of the npub is there, or can be opened. -/
def Db.CanOpen (ident : Identity) (db : Db) (npub : String) : Prop :=
  ∃ addr, ident.fromNpub (ident.normNpub npub) = some addr ∧
    ((∃ a ∈ db.accounts, a.npub = ident.normNpub npub) ∨ ∀ a ∈ db.accounts, a.fipsAddr ≠ addr)

/-- The call creates or finds the account, and none of its transactions is lost. -/
def Db.Enrols (ident : Identity) (db : Db) (env : Env) (npub : String) : Prop :=
  db.CanOpen ident npub ∧ ∀ k < 3, env.fails k = false

/-- The package is in the table, in the catalog or not. -/
def Db.HasPackage (db : Db) (packageId : Nat) : Prop :=
  ∃ pt ∈ db.packages, pt.id = packageId

/-- **The request gets as far as the insert**: the buyer is known and below the limits, and the
statements up to the insert go through. -/
def PortalConfig.Inserts (cfg : PortalConfig) (db : Db) (req : BuyRequest) : Prop :=
  ∃ npub, req.npub = some npub ∧ req.allowed = true ∧
    db.Enrols cfg.store.ident req.accountEnv npub ∧
    (req.openEnv.fails 0 = false → (db.openPurchases npub).length < cfg.maxOpenPurchases) ∧
    db.HasPackage req.packageId ∧ req.purchaseEnv.fails 0 = false

/-- **What follows the insert goes through**: the package is available, the provider makes an
invoice that no purchase has yet, and neither statement is lost. -/
def BuyRequest.Concludes (rail : Rail) (db : Db) (req : BuyRequest) : Prop :=
  (req.packageEnv.fails 0 = false ∧ ∃ pt ∈ db.packages, pt.id = req.packageId ∧
      pt.availableAt (req.packageEnv.now 0) = true) ∧
    ∃ inv, rail.createInvoice req.reply = some inv ∧
      (∀ p ∈ db.purchases, p.invoiceId ≠ some inv.id) ∧ req.attachEnv.fails 0 = false

/-! ## The statements, one by one -/

/-- What the creation of an account leaves of the registry. -/
structure Enrolled (ident : Identity) (npub : String) (r r' : Registry) : Prop where
  valid : r'.Valid ident
  old : r.nextId ≤ r'.nextId
  /-- At most one account is new. -/
  accounts : ∃ added, r'.accounts = r.accounts ++ added ∧ ∀ a ∈ added, a.id = r.nextId
  account : ∃ a ∈ r'.accounts, a.npub = ident.normNpub npub

/-- The owner row changes nothing of that. -/
theorem Enrolled.owner {ident : Identity} {npub : String} {r r' r'' : Registry}
    (enrolled : Enrolled ident npub r r') (move : Move ident .owner r' r'') :
    Enrolled ident npub r r'' := by
  have valid := valid_move move enrolled.valid
  cases move
  exact ⟨valid, enrolled.old.trans (Nat.le_succ _), enrolled.accounts, enrolled.account⟩

/-- `INSERT INTO accounts`: the account is there, its address is another account's, or it is
inserted. -/
theorem exec_insertAccount (npub : String) (addr : Addr) (db : Db) :
    ((∃ a ∈ db.accounts, a.npub = npub) ∧ exec (insertAccount npub addr) db = (.ok (), db)) ∨
    ((∀ a ∈ db.accounts, a.npub ≠ npub) ∧ (∃ a ∈ db.accounts, a.fipsAddr = addr) ∧
      exec (insertAccount npub addr) db = (.error (.constraint "accounts_fips_addr_key"), db)) ∨
    ((∀ a ∈ db.accounts, a.npub ≠ npub) ∧ (∀ a ∈ db.accounts, a.fipsAddr ≠ addr) ∧
      exec (insertAccount npub addr) db = (.ok (), db.withAccount npub addr)) := by
  unfold insertAccount
  rw [exec_get_bind]
  split
  · rename_i known
    exact .inl ⟨by simpa using known, rfl⟩
  · rename_i unknown
    have unknown : ∀ a ∈ db.accounts, a.npub ≠ npub := by simpa using unknown
    split
    · rename_i taken
      exact .inr (.inl ⟨unknown, by simpa using taken, rfl⟩)
    · rename_i free
      exact .inr (.inr ⟨unknown, by simpa using free, rfl⟩)

section Enrol

variable {s : Store} {db : Db} {npub : String}

/-- The account of a derivable npub, after the first statement of `CreateAccount`. -/
theorem ends_insertAccount (valid : db.registry.Valid s.ident) {addr : Addr}
    (derived : s.ident.fromNpub (s.ident.normNpub npub) = some addr) {E : StoreErr → Prop}
    (refused : ¬ db.CanOpen s.ident npub → ∀ e, E e) :
    Ends (fun x => x = db) (insertAccount (s.ident.normNpub npub) addr)
      (fun _ x => db.CanOpen s.ident npub ∧ Enrolled s.ident npub db.registry x.registry) E := by
  refine ⟨?_⟩
  rintro x rfl
  rcases exec_insertAccount (s.ident.normNpub npub) addr x with
    ⟨known, run⟩ | ⟨unknown, ⟨a, member, atAddr⟩, run⟩ | ⟨unknown, free, run⟩
  · rw [run]
    exact ⟨⟨addr, derived, .inl known⟩, valid, le_rfl, ⟨[], by simp, by simp⟩, known⟩
  · rw [run]
    refine refused ?_ _
    rintro ⟨addr', derived', ⟨b, row, isIt⟩ | free⟩
    · exact unknown b row isIt
    · exact free a member (atAddr.trans (Option.some.inj (derived.symm.trans derived')))
  · rw [run]
    have move : Move s.ident .account x.registry (x.withAccount _ addr).registry :=
      Move.account x.registry _ addr derived unknown free
    exact ⟨⟨addr, derived, .inr free⟩, valid_move move valid, Nat.le_succ _,
      ⟨[_], rfl, fun a isNew => List.mem_singleton.mp isNew ▸ rfl⟩,
      ⟨_, List.mem_append_right _ (List.mem_singleton_self _), rfl⟩⟩

/-- **`CreateAccount` returns exactly if it can enrol the npub.** -/
theorem ends_enrol (valid : db.registry.Valid s.ident) (env : Env) (npub : String) :
    Ends (fun x => x = db) (s.createAccount env npub)
      (fun _ x => db.Enrols s.ident env npub ∧ Enrolled s.ident npub db.registry x.registry)
      (fun _ => ¬ db.Enrols s.ident env npub) := by
  have lost {k : Nat} (early : k < 3) (fails : env.fails k = true) :
      ¬ db.Enrols s.ident env npub := fun enrols => by
    have := enrols.2 k early
    simp [fails] at this
  unfold Store.createAccount
  dsimp only
  split
  · rename_i underivable
    refine Ends.throw ?_
    rintro ⟨⟨addr, derived, -⟩, -⟩
    simp [underivable] at derived
  rename_i addr derived
  refine Ends.bind (ends_inTx (ends_insertAccount valid derived fun closed _ enrols =>
    closed enrols.1) (lost (by simp))) fun _ => ?_
  refine Ends.bind (Q := fun acct x => (db.CanOpen s.ident npub ∧ env.fails 0 = false) ∧
    Enrolled s.ident npub db.registry x.registry ∧ acct ∈ x.accounts ∧
      acct.npub = s.ident.normNpub npub)
    ⟨fun x ⟨⟨canOpen, enrolled⟩, first⟩ => ?_⟩ fun acct => ?_
  · rcases exec_getAccountByNpub s (s.ident.normNpub npub) x with
      ⟨acct, isAccount, isIt, run⟩ | ⟨none, -⟩
    · rw [run]
      exact ⟨⟨canOpen, first⟩, enrolled, isAccount, isIt.trans (s.ident.norm_idem npub)⟩
    · obtain ⟨a, isAccount, isIt⟩ := enrolled.account
      exact absurd (isIt.trans (s.ident.norm_idem npub).symm) (none a isAccount)
  refine Ends.bind (Q := fun _ x => (db.CanOpen s.ident npub ∧ env.fails 0 = false ∧
    env.fails 1 = false) ∧ Enrolled s.ident npub db.registry x.registry) (Ends.each ?_) fun _ => ?_
  · rintro x ⟨⟨canOpen, first⟩, enrolled, isAccount, isIt⟩
    rw [← isIt] at derived ⊢
    refine (ends_inTx ((ends_insertOwner enrolled.valid isAccount derived _).with_ok
      (Q := fun _ y => Enrolled s.ident npub db.registry y.registry) ?_) (lost (by simp))).imp
        fun _ y ⟨enrolled, second⟩ => ⟨⟨canOpen, first, second⟩, enrolled⟩
    rintro _ _ y rfl run
    rcases insertOwner_move isAccount derived run with same | move
    · exact same ▸ enrolled
    · exact enrolled.owner move
  · refine Ends.bind (ends_inTx (Q := fun _ x => (db.CanOpen s.ident npub ∧ env.fails 0 = false ∧
      env.fails 1 = false) ∧ Enrolled s.ident npub db.registry x.registry) (Ends.of_ok
        fun x enrolled => ⟨_, x.recomputed env.order (env.now 2), rfl, enrolled⟩)
      (lost (by simp))) fun _ => Ends.pure ?_
    rintro x ⟨⟨⟨canOpen, first, second⟩, enrolled⟩, third⟩
    refine ⟨⟨canOpen, fun k early => ?_⟩, enrolled⟩
    match k, early with
    | 0, _ => exact first
    | 1, _ => exact second
    | 2, _ => exact third

end Enrol

/-- The purchases belong to accounts that were there before. -/
def Db.Referenced (db : Db) : Prop :=
  ∀ p ∈ db.purchases, p.accountId < db.nextId

/-- A new account has no purchases. -/
theorem openPurchases_enrolled {ident : Identity} {npub : String} {db x : Db}
    (referenced : db.Referenced) (enrolled : Enrolled ident npub db.registry x.registry)
    (purchases : x.purchases = db.purchases) (packages : x.packages = db.packages) :
    x.openPurchases npub = db.openPurchases npub := by
  obtain ⟨added, accounts, new⟩ := enrolled.accounts
  have accounts : x.accounts = db.accounts ++ added := accounts
  have same : x.purchasesOf npub = db.purchasesOf npub := by
    unfold Db.purchasesOf
    rw [purchases, packages, accounts]
    refine List.flatMap_congr fun p member => ?_
    have none :
        added.filter (fun a => decide (a.id = p.accountId) && decide (a.npub = npub)) = [] := by
      refine List.filter_eq_nil_iff.mpr fun a isNew => ?_
      have isNext : a.id = db.nextId := new a isNew
      have fresh : a.id ≠ p.accountId := isNext ▸ (referenced p member).ne'
      simp [fresh]
    rw [List.filter_append, none, List.append_nil]
  unfold Db.openPurchases
  rw [same]

/-- The row `CreatePurchase` inserts. -/
def newPurchase (id : Nat) (acct : AccountId) (packageId : Nat) (now : Time) : Purchase :=
  ⟨id, acct, packageId, none, .pending, now, none, none, none⟩

/-- **`CreatePurchase` inserts exactly if the package is in the table** and nothing is lost: it
does not ask whether the package is available. -/
theorem exec_createPurchase {s : Store} {npub : String} {db : Db}
    (known : ∃ a ∈ db.accounts, a.npub = s.ident.normNpub npub) (env : Env) (packageId : Nat) :
    ((db.HasPackage packageId ∧ env.fails 0 = false) ∧ ∃ acct ∈ db.accounts, ∃ x,
      exec (s.createPurchase env npub packageId) db = (.ok db.nextId, x) ∧
      x.packages = db.packages ∧
      x.purchases = db.purchases ++ [newPurchase db.nextId acct.id packageId (env.now 0)]) ∨
    (¬ (db.HasPackage packageId ∧ env.fails 0 = false) ∧ ∃ e x,
      exec (s.createPurchase env npub packageId) db = (.error e, x) ∧
      x.purchases = db.purchases) := by
  rcases exec_getAccountByNpub s npub db with ⟨acct, isAccount, -, run⟩ | ⟨none, -⟩
  · unfold Store.createPurchase
    rw [exec_bind_ok run, inTx, exec_transaction, exec_get_bind]
    by_cases there : (db.packages.any fun p => decide (p.id = packageId)) = true
    · have has : db.HasPackage packageId := by simpa [Db.HasPackage] using there
      rw [if_pos there]
      cases lost : env.fails 0 with
      | true => exact .inr ⟨fun goes => by simp at goes, _, _, rfl, rfl⟩
      | false => exact .inl ⟨⟨has, rfl⟩, acct, isAccount, _, rfl, rfl, rfl⟩
    · rw [if_neg there]
      refine .inr ⟨fun goes => there ?_, _, _, rfl, rfl⟩
      simpa [Db.HasPackage] using goes.1
  · obtain ⟨a, isAccount, isIt⟩ := known
    exact absurd isIt (none a isAccount)

/-- The row after `AttachInvoice`. -/
def Purchase.attach (invoiceId checkoutUrl payRequest : String) (p : Purchase) : Purchase :=
  { p with
    invoiceId := some invoiceId
    checkoutUrl := some checkoutUrl
    payRequest := if payRequest = "" then none else some payRequest }

/-- **`AttachInvoice` on the newest purchase** goes through exactly if no other purchase has the
invoice and nothing is lost. -/
theorem exec_attachInvoice {db : Db} {old : List Purchase} {new : Purchase}
    (rows : db.purchases = old ++ [new]) (fresh : ∀ p ∈ old, p.id ≠ new.id) (env : Env)
    (invoiceId checkoutUrl payRequest : String) :
    (((∀ p ∈ old, p.invoiceId ≠ some invoiceId) ∧ env.fails 0 = false) ∧ ∃ x,
      exec (attachInvoice env new.id invoiceId checkoutUrl payRequest) db = (.ok (), x) ∧
      x.purchases = old ++ [new.attach invoiceId checkoutUrl payRequest]) ∨
    (¬ ((∀ p ∈ old, p.invoiceId ≠ some invoiceId) ∧ env.fails 0 = false) ∧ ∃ e x,
      exec (attachInvoice env new.id invoiceId checkoutUrl payRequest) db = (.error e, x) ∧
      x.purchases = db.purchases) := by
  have there : (db.purchases.any fun p => decide (p.id = new.id)) = true := by simp [rows]
  have others : (db.purchases.any fun p => decide (p.id ≠ new.id) &&
      decide (p.invoiceId = some invoiceId)) = true ↔ ∃ p ∈ old, p.invoiceId = some invoiceId := by
    simp only [rows, List.any_append, List.any_eq_true, Bool.and_eq_true, decide_eq_true_eq,
      Bool.or_eq_true, List.mem_singleton, exists_eq_left, ne_eq, not_true_eq_false, false_and,
      or_false]
    exact ⟨fun ⟨p, member, _, isIts⟩ => ⟨p, member, isIts⟩,
      fun ⟨p, member, isIts⟩ => ⟨p, member, fresh p member, isIts⟩⟩
  unfold attachInvoice
  rw [inTx, exec_transaction, exec_get_bind, if_pos there]
  by_cases taken : ∃ p ∈ old, p.invoiceId = some invoiceId
  · rw [if_pos (others.mpr taken)]
    obtain ⟨p, member, isIts⟩ := taken
    exact .inr ⟨fun goes => goes.1 p member isIts, _, _, rfl, rfl⟩
  · rw [if_neg (fun hit => taken (others.mp hit))]
    cases lost : env.fails 0 with
    | true => exact .inr ⟨fun goes => by simp at goes, _, _, rfl, rfl⟩
    | false =>
        refine .inl ⟨⟨fun p member isIts => taken ⟨p, member, isIts⟩, rfl⟩, _, rfl, ?_⟩
        show updateWhere _ _ db.purchases = _
        rw [rows]
        exact updateWhere_last (fun p member => decide_eq_false (fresh p member)) (by simp)

/-! ## What a request leaves -/

section Cases

variable {cfg : PortalConfig} {rail : Rail} {req : BuyRequest} {db x : Db} {new : Purchase}

/-- After the insert: the purchase gets its invoice, or it stays as it was inserted. -/
theorem invoice_cases {id : Nat} (isIt : new.id = id) (packages : x.packages = db.packages)
    (rows : x.purchases = db.purchases ++ [new]) (fresh : ∀ p ∈ db.purchases, p.id ≠ new.id) :
    (¬ req.Concludes rail db ∧ (cfg.invoice rail req id x).1.handsInvoice = false ∧
      (cfg.invoice rail req id x).2.purchases = db.purchases ++ [new]) ∨
    (req.Concludes rail db ∧ (cfg.invoice rail req id x).1.handsInvoice = true ∧
      ∃ inv checkoutUrl, rail.createInvoice req.reply = some inv ∧
        (cfg.invoice rail req id x).2.purchases =
          db.purchases ++ [new.attach inv.id checkoutUrl inv.bolt11]) := by
  subst isIt
  unfold PortalConfig.invoice
  obtain ⟨same, found⟩ := exec_getPackage req.packageEnv req.packageId x
  rw [packages] at found
  rcases run : exec (getPackage req.packageEnv req.packageId) x with ⟨outcome, y⟩
  rw [run] at same found
  obtain rfl : y = x := same
  cases outcome with
  | error e =>
      refine .inl ⟨fun concludes => ?_, rfl, rows⟩
      obtain ⟨pkg, isOk⟩ := found.mpr concludes.1
      cases isOk
  | ok pkg =>
      have available := found.mp ⟨pkg, rfl⟩
      cases answered : rail.createInvoice req.reply with
      | none =>
          refine .inl ⟨?_, rfl, rows⟩
          rintro ⟨-, inv, isInvoice, -⟩
          rw [answered] at isInvoice
          cases isInvoice
      | some inv =>
          have concludes (attaches : (∀ p ∈ db.purchases, p.invoiceId ≠ some inv.id) ∧
              req.attachEnv.fails 0 = false) : req.Concludes rail db :=
            ⟨available, inv, answered, attaches⟩
          have stops (attaches : ¬ ((∀ p ∈ db.purchases, p.invoiceId ≠ some inv.id) ∧
              req.attachEnv.fails 0 = false)) : ¬ req.Concludes rail db := by
            rintro ⟨-, inv', isInvoice, attached⟩
            obtain rfl : inv = inv' := Option.some.inj (answered.symm.trans isInvoice)
            exact attaches attached
          dsimp only
          split
          · rcases exec_attachInvoice rows fresh req.attachEnv inv.id
              (cfg.publicURL ++ "/pay/" ++ toString new.id) inv.bolt11 with
              ⟨attaches, z, run, attached⟩ | ⟨fails, e, z, run, kept⟩
            · rw [run]
              exact .inr ⟨concludes attaches, rfl, inv, _, rfl, attached⟩
            · rw [run]
              exact .inl ⟨stops fails, rfl, kept.trans rows⟩
          · rename_i hosted
            have hosted : inv.bolt11 = "" := by simpa using hosted
            rcases exec_attachInvoice rows fresh req.attachEnv inv.id inv.checkoutLink "" with
              ⟨attaches, z, run, attached⟩ | ⟨fails, e, z, run, kept⟩
            · rw [run]
              exact .inr ⟨concludes attaches, rfl, inv, _, rfl, hosted ▸ attached⟩
            · rw [run]
              exact .inl ⟨stops fails, rfl, kept.trans rows⟩

/-- The list of open purchases, and whether the account has reached the cap. -/
theorem exec_listing (cfg : PortalConfig) (env : Env) (npub : String) (x : Db) :
    ∃ listed, exec (inTx env 0 fun _ => openPurchases npub) x = (listed, x) ∧
      (cfg.full listed = true ↔
        env.fails 0 = false ∧ cfg.maxOpenPurchases ≤ (x.openPurchases npub).length) := by
  have run : exec (inTx env 0 fun _ => openPurchases npub) x =
      if env.fails 0 then (.error .lost, rollback x x) else (.ok (x.openPurchases npub), x) :=
    exec_inTx_eq rfl
  cases lost : env.fails 0 with
  | true =>
      rw [lost] at run
      exact ⟨_, run, by simp [PortalConfig.full]⟩
  | false =>
      rw [lost] at run
      exact ⟨_, run, by simp [PortalConfig.full]⟩

/-- **What a request leaves**: it stops before the insert, or between the insert and the end, or
it hands the buyer an invoice. -/
theorem buy_cases (rails : cfg.pay = some rail) (valid : db.registry.Valid cfg.store.ident)
    (ledger : db.Ledgered) (referenced : db.Referenced) (req : BuyRequest) :
    (¬ cfg.Inserts db req ∧ (cfg.buy req db).1.handsInvoice = false ∧
      (cfg.buy req db).2.purchases = db.purchases) ∨
    (cfg.Inserts db req ∧ ∃ new : Purchase, new.isOpen = true ∧ new.invoiceId = none ∧
      ((¬ req.Concludes rail db ∧ (cfg.buy req db).1.handsInvoice = false ∧
          (cfg.buy req db).2.purchases = db.purchases ++ [new]) ∨
        (req.Concludes rail db ∧ (cfg.buy req db).1.handsInvoice = true ∧
          ∃ inv checkoutUrl, rail.createInvoice req.reply = some inv ∧
            (cfg.buy req db).2.purchases =
              db.purchases ++ [new.attach inv.id checkoutUrl inv.bolt11]))) := by
  unfold PortalConfig.buy
  cases isKnown : req.npub with
  | none => exact .inl ⟨by rintro ⟨npub, isIt, -⟩; simp [isKnown] at isIt, rfl, rfl⟩
  | some npub =>
  dsimp only
  split
  · rename_i refused
    refine .inl ⟨?_, rfl, rfl⟩
    rintro ⟨-, -, allowed, -⟩
    simp [allowed] at refused
  rename_i allowed
  have inserts (goes : cfg.Inserts db req) : db.Enrols cfg.store.ident req.accountEnv npub ∧
      (req.openEnv.fails 0 = false → (db.openPurchases npub).length < cfg.maxOpenPurchases) ∧
      db.HasPackage req.packageId ∧ req.purchaseEnv.fails 0 = false := by
    obtain ⟨npub', isIt, -, rest⟩ := goes
    obtain rfl : npub = npub' := Option.some.inj (isKnown.symm.trans isIt)
    exact rest
  have kept : Keeps (fun x => x.purchases = db.purchases ∧ x.packages = db.packages)
      (cfg.store.createAccount req.accountEnv npub) :=
    keeps_createAccount (fun _ _ _ _ _ h => h) (fun _ _ h => h)
      (keeps_recomputeAuthz _ _ (fun _ _ h => h) fun _ _ h => h) _ _
  have opened := kept.exec ⟨rfl, rfl⟩
  have ends := (ends_enrol valid req.accountEnv npub).holds db rfl
  rcases run : exec (cfg.store.createAccount req.accountEnv npub) db with ⟨outcome, x⟩
  rw [run] at ends opened
  obtain ⟨purchases, packages⟩ := opened
  cases outcome with
  | error e => exact .inl ⟨fun goes => ends (inserts goes).1, rfl, purchases⟩
  | ok acct =>
  obtain ⟨enrols, enrolled⟩ := ends
  obtain ⟨listed, listing, full⟩ := exec_listing cfg req.openEnv npub x
  rw [openPurchases_enrolled referenced enrolled purchases packages] at full
  dsimp only
  rw [listing]
  dsimp only
  split
  · rename_i isFull
    refine .inl ⟨fun goes => ?_, rfl, purchases⟩
    obtain ⟨answered, atCap⟩ := full.mp isFull
    exact absurd ((inserts goes).2.1 answered) (not_lt.mpr atCap)
  rename_i room
  rcases exec_createPurchase enrolled.account req.purchaseEnv req.packageId with
    ⟨⟨has, completes⟩, buyer, -, y, run, samePackages, bought⟩ | ⟨refused, e, y, run, same⟩
  · have goes : cfg.Inserts db req := by
      refine ⟨npub, isKnown, by simpa using allowed, enrols, fun answered => ?_, ?_, completes⟩
      · exact not_le.mp fun atCap => room (full.mpr ⟨answered, atCap⟩)
      · rwa [Db.HasPackage, packages] at has
    rw [run]
    dsimp only
    rw [rails]
    rw [purchases] at bought
    refine .inr ⟨goes, newPurchase x.nextId buyer.id req.packageId (req.purchaseEnv.now 0), rfl,
      rfl, invoice_cases rfl (samePackages.trans packages) bought fun p member => ?_⟩
    exact ((Ledger.purchasesOld ledger p member).trans_le enrolled.old).ne
  · rw [run]
    refine .inl ⟨fun goes => refused ?_, rfl, same.trans purchases⟩
    rw [Db.HasPackage, packages]
    exact (inserts goes).2.2

end Cases

/-! ## What holds of every purchase -/

/-- A property of a purchase, and of the ids that are used up, which a change of the status
does not take from it. -/
structure Rowwise (Q : Nat → Purchase → Prop) : Prop where
  grows : ∀ n m p, n ≤ m → Q n p → Q m p
  processed : ∀ n p, p.status = .pending → Q n p → Q n { p with status := .processing }
  settled : ∀ n p at', Q n p → Q n { p with status := .settled, settledAt := at' }
  voided : ∀ n p (status : VoidStatus), Q n p → Q n { p with status := status.toStatus }

/-- The property holds of every purchase. -/
def Db.EachPurchase (Q : Nat → Purchase → Prop) (db : Db) : Prop :=
  ∀ p ∈ db.purchases, Q db.nextId p

namespace Rowwise

variable {Q : Nat → Purchase → Prop}

theorem tolerates (rowwise : Rowwise Q) (env : Env) : Tolerates env (Db.EachPurchase Q) where
  rolledBack _ _ each := each
  registry db _ _ n le each p member := rowwise.grows db.nextId n p le (each p member)
  services db _ n le each p member := rowwise.grows db.nextId n p le (each p member)
  createPackage := keeps_createPackage (fun _ _ each => each)
    (fun db _ n le each p member => rowwise.grows db.nextId n p le (each p member)) env
  deactivatePackage := keeps_deactivatePackage (fun _ _ each => each) (fun _ _ each => each) env
  markProcessing invoiceId := by
    refine Keeps.inTx (fun now => Keeps.get_bind fun db => ?_) fun _ _ each => each
    refine Keeps.ite (Keeps.modify fun db each => ?_) (Keeps.throw _)
    refine forall_updateWhere (fun p member isHit => ?_) fun p member _ => each p member
    simp only [Bool.and_eq_true, decide_eq_true_eq] at isHit
    exact rowwise.processed _ p isHit.2 (each p member)
  credited db _ _ _ _ _ each p member := rowwise.grows db.nextId _ p (Nat.le_succ _) (each p member)
  granted db db' q k each _ _ run := by
    have settles : ∀ x : Db, x.EachPurchase Q →
        Db.EachPurchase Q { x with purchases := settleRow q.id (env.now k) x.purchases } :=
      fun x each => forall_updateWhere (fun p member _ => rowwise.settled _ p _ (each p member))
        fun p member _ => each p member
    obtain ⟨_, -, _, -, -, -, ⟨-, rfl⟩ | ⟨-, db₁, home, rfl⟩⟩ := grantEntitlementTx_ok run
    · exact settles db each
    · refine settles db₁ ?_
      have grown : ∀ new, Db.EachPurchase Q (db.withEntitlement new) := fun new p member =>
        rowwise.grows db.nextId (db.nextId + 1) p (Nat.le_succ _) (each p member)
      exact (keeps_activateOwnerTx (fun db _ _ n le each p member =>
        rowwise.grows db.nextId n p le (each p member)) _).ok (grown _) home
  recorded _ _ each := each
  sampled _ _ each := each
  drawn _ _ _ each := each
  recomputed k := keeps_recomputeAuthz env k (fun _ _ each => each) fun _ _ each => each
  compacted _ _ each := each

/-- **Step**: every call keeps it, but one that creates a purchase or attaches an invoice. -/
theorem call (rowwise : Rowwise Q) {s : Store} {db : Db} (env : Env) {op : Op}
    (notBought : ∀ npub packageId, op ≠ .createPurchase npub packageId)
    (notAttached : ∀ purchaseId invoiceId checkoutUrl payRequest,
      op ≠ .attachInvoice purchaseId invoiceId checkoutUrl payRequest)
    (each : db.EachPurchase Q) : (s.call db ⟨env, op⟩).EachPurchase Q := by
  refine ((rowwise.tolerates env).method op (fun cutoff _ => ?_)
    (fun _ _ isIt => absurd isIt (notBought _ _))
    (fun _ _ _ _ isIt => absurd isIt (notAttached _ _ _ _)) (fun invoiceId status _ => ?_)
    (fun _ _ _ _ _ => ?_) fun _ _ _ => ?_).exec each
  · exact keeps_aggregateUsage (fun _ _ each => each) (fun _ _ _ _ each => each) env cutoff
  · refine Keeps.bind (keeps_inTx (fun now db u db' each run => ?_) fun _ _ each => each) fun _ =>
      (rowwise.tolerates env).thenRecompute 1 ()
    rcases voidByInvoiceTx_ok run with ⟨rfl, -⟩ | ⟨p, -, -, -, rfl⟩
    · exact each
    · exact forall_updateWhere (fun q member _ => rowwise.voided _ q status (each q member))
        fun q member _ => each q member
  · exact keeps_createWgPeer (fun _ _ each => each)
      (fun db _ _ n le each p member => rowwise.grows db.nextId n p le (each p member)) ..
  · exact keeps_deleteWgPeer (fun _ _ each => each) (fun _ _ each => each) ..

end Rowwise

theorem referenced_rowwise : Rowwise fun n p => p.accountId < n :=
  ⟨fun _ _ _ le old => old.trans_le le, fun _ _ _ old => old, fun _ _ _ old => old,
    fun _ _ _ old => old⟩

/-- **Run**: the purchases belong to accounts that are there, after every sequence of calls. -/
theorem referenced_after (s : Store) (calls : List Call) : (s.after calls).Referenced := by
  induction calls using List.reverseRecOn with
  | nil => exact fun p member => by cases member
  | append_singleton calls c ih =>
      rw [after_append_singleton]
      obtain ⟨env, op⟩ := c
      cases op with
      | createPurchase npub packageId =>
          have accounts := (valid_after s calls).keyed.accountsOld
          have triple : Triple (· = s.after calls) (s.createPurchase env npub packageId)
              (fun _ => Db.Referenced) Db.Referenced := by
            refine ((triple_getAccountByNpub npub).conseq (fun _ isIt => isIt) (fun _ _ h => h)
              fun _ isIt => isIt ▸ ih).bind fun acct => triple_inTx ?_ ?_
            · rintro now _ id db' ⟨rfl, isAccount, -⟩ run
              rw [exec_get_bind] at run
              split at run
              · cases run
                refine List.forall_mem_append.mpr ⟨fun p member => ?_, ?_⟩
                · exact (ih p member).trans (Nat.lt_succ_self _)
                · refine List.forall_mem_singleton.mpr ?_
                  exact (accounts acct isAccount).trans (Nat.lt_succ_self _)
              · cases run
            · rintro _ db' ⟨rfl, -⟩
              exact ih
          exact (Triple.bind triple fun _ => Triple.pure fun _ h => h).exec rfl
      | attachInvoice purchaseId invoiceId checkoutUrl payRequest =>
          refine Keeps.exec (Keeps.inTx (fun now => Keeps.get_bind fun db => ?_) fun _ _ h => h) ih
          refine Keeps.ite (Keeps.ite (Keeps.throw _) (Keeps.modify fun db h => ?_)) (Keeps.throw _)
          exact forall_updateWhere (fun p member _ => h p member) fun p member _ => h p member
      | _ => exact referenced_rowwise.call env nofun nofun ih

/-! ## Runs -/

/-- A method and the operation that calls it end in the same database. -/
theorem reached_exec {α : Type} {s : Store} {db : Db} (reached : ∃ calls, db = s.after calls)
    (env : Env) (op : Op) {m : StoreM α} (isOp : s.method env op = m >>= fun _ => pure ()) :
    ∃ calls, (exec m db).2 = s.after calls := by
  rw [← snd_exec_drop m db, ← isOp]
  exact reached_call reached ⟨env, op⟩

theorem invoice_reached {cfg : PortalConfig} {db : Db}
    (reached : ∃ calls, db = cfg.store.after calls) (rail : Rail) (req : BuyRequest) (id : Nat) :
    ∃ calls, (cfg.invoice rail req id db).2 = cfg.store.after calls := by
  unfold PortalConfig.invoice
  have same := (exec_getPackage req.packageEnv req.packageId db).1
  rcases run : exec (getPackage req.packageEnv req.packageId) db with ⟨outcome, x⟩
  rw [run] at same
  obtain rfl : x = db := same
  cases outcome with
  | error e => exact reached
  | ok pkg =>
  dsimp only
  split
  · exact reached
  split
  · rename_i inv _ _
    have attached : ∃ calls, (exec (attachInvoice req.attachEnv id inv.id
        (cfg.publicURL ++ "/pay/" ++ toString id) inv.bolt11) x).2 = cfg.store.after calls :=
      reached_call reached ⟨req.attachEnv, .attachInvoice ..⟩
    split <;> rename_i run <;> rw [run] at attached <;> exact attached
  · rename_i inv _ _
    have attached : ∃ calls, (exec (attachInvoice req.attachEnv id inv.id inv.checkoutLink "") x).2 =
        cfg.store.after calls := reached_call reached ⟨req.attachEnv, .attachInvoice ..⟩
    split <;> rename_i run <;> rw [run] at attached <;> exact attached

/-- **A request is a sequence of calls**, as far as the database goes. -/
theorem buy_reached {cfg : PortalConfig} {db : Db} (reached : ∃ calls, db = cfg.store.after calls)
    (req : BuyRequest) : ∃ calls, (cfg.buy req db).2 = cfg.store.after calls := by
  unfold PortalConfig.buy
  cases req.npub with
  | none => exact reached
  | some npub =>
  dsimp only
  split
  · exact reached
  have opened := reached_exec reached req.accountEnv (.createAccount npub) rfl
  rcases run : exec (cfg.store.createAccount req.accountEnv npub) db with ⟨outcome, x⟩
  rw [run] at opened
  cases outcome with
  | error e => exact opened
  | ok acct =>
  obtain ⟨listed, listing, -⟩ := exec_listing cfg req.openEnv npub x
  dsimp only
  rw [listing]
  dsimp only
  split
  · exact opened
  have bought := reached_exec opened req.purchaseEnv (.createPurchase npub req.packageId) rfl
  rcases run : exec (cfg.store.createPurchase req.purchaseEnv npub req.packageId) x with ⟨outcome, y⟩
  rw [run] at bought
  cases outcome with
  | error e => exact bought
  | ok id =>
  dsimp only
  split
  · exact invoice_reached bought _ req id
  split
  · have settled : ∃ calls, (exec (settlePurchase req.settleEnv id) y).2 = cfg.store.after calls :=
      reached_call bought ⟨req.settleEnv, .settlePurchase id⟩
    split <;> rename_i run <;> rw [run] at settled <;> exact settled
  · exact bought

/-- The open purchases of an account. -/
def Db.openOf (db : Db) (acct : AccountId) : List Purchase :=
  db.purchases.filter fun p => decide (p.accountId = acct) && p.isOpen

/-- **One request.**  If it hands the buyer no invoice, every account has the open purchases it
had, exactly if the request does not stop after the insert. -/
theorem buy_keeps_open_iff {cfg : PortalConfig} {rail : Rail} (rails : cfg.pay = some rail)
    {db : Db} (reached : ∃ calls, db = cfg.store.after calls) (req : BuyRequest) :
    ((cfg.buy req db).1.handsInvoice = false →
        ∀ acct, (cfg.buy req db).2.openOf acct = db.openOf acct) ↔
      (cfg.Inserts db req → req.Concludes rail db) := by
  obtain ⟨calls, rfl⟩ := reached
  rcases buy_cases rails (valid_after cfg.store calls) (ledger_after cfg.store calls)
    (referenced_after cfg.store calls) req with
    ⟨early, -, same⟩ | ⟨inserts, new, isOpen, -, ⟨stops, noInvoice, left⟩ | ⟨concludes, invoice, -⟩⟩
  · refine ⟨fun _ inserts => absurd inserts early, fun _ _ acct => ?_⟩
    unfold Db.openOf
    rw [same]
  · refine ⟨fun kept _ => ?_, fun goes => absurd (goes inserts) stops⟩
    have unchanged := congrArg List.length (kept noInvoice new.accountId)
    unfold Db.openOf at unchanged
    rw [left, List.filter_append, List.length_append] at unchanged
    simp [isOpen] at unchanged
  · refine ⟨fun _ _ => concludes, fun _ noInvoice => ?_⟩
    rw [invoice] at noInvoice
    cases noInvoice

/-- What happens to the database of a portal: a request to buy, or a call by another part of
the backend. -/
inductive PortalEvent where
  | buy (req : BuyRequest)
  | call (c : Call)

/-- The calls that only `buy` makes. -/
def Op.ofBuy : Op → Bool
  | .createPurchase _ _ | .attachInvoice _ _ _ _ => true
  | _ => false

/-- One event; requests are taken one at a time. -/
def portalStep (cfg : PortalConfig) (db : Db) : PortalEvent → Option Db
  | .buy req => some (cfg.buy req db).2
  | .call c => if c.op.ofBuy then none else some (cfg.store.call db c)

/-- **The condition**: no request stops between the insert and the end. -/
def GoesThrough (cfg : PortalConfig) (rail : Rail) (db : Db) : PortalEvent → Prop
  | .buy req => cfg.Inserts db req → req.Concludes rail db
  | .call _ => True

/-- A request that hands the buyer no invoice. -/
def FailsToBuy (cfg : PortalConfig) (db : Db) : PortalEvent → Prop
  | .buy req => (cfg.buy req db).1.handsInvoice = false
  | .call _ => False

/-- A purchase that is open can be settled or voided: it has an invoice, on the Lightning rail
with a payment request. -/
def Purchase.Traceable (rail : Rail) (p : Purchase) : Prop :=
  p.isOpen = true → p.invoiceId.isSome = true ∧ (rail = .phoenixd → p.payRequest.isSome = true)

theorem traceable_rowwise (rail : Rail) : Rowwise fun _ p => p.Traceable rail where
  grows _ _ _ _ traceable := traceable
  processed _ p pending traceable _ := traceable (by simp [Purchase.isOpen, pending])
  settled _ _ _ _ isOpen := by simp [Purchase.isOpen] at isOpen
  voided _ _ status _ isOpen := by
    cases status <;> simp [Purchase.isOpen, VoidStatus.toStatus] at isOpen

/-- What holds along a run whose requests go through. -/
structure Stocked (cfg : PortalConfig) (rail : Rail) (db : Db) : Prop where
  reached : ∃ calls, db = cfg.store.after calls
  traceable : db.EachPurchase fun _ p => p.Traceable rail

/-- **Step**: a request that does not stop after the insert leaves no purchase untraceable. -/
theorem stocked_step {cfg : PortalConfig} {rail : Rail} (rails : cfg.pay = some rail) {db db' : Db}
    {e : PortalEvent} (stocked : Stocked cfg rail db) (goes : GoesThrough cfg rail db e)
    (h : portalStep cfg db e = some db') : Stocked cfg rail db' := by
  obtain ⟨⟨calls, rfl⟩, traceable⟩ := stocked
  cases e with
  | call c =>
      obtain ⟨env, op⟩ := c
      simp only [portalStep] at h
      split at h
      · cases h
      · rename_i other
        cases h
        refine ⟨reached_call ⟨calls, rfl⟩ _, (traceable_rowwise rail).call env ?_ ?_ traceable⟩
        · rintro npub packageId rfl
          exact other rfl
        · rintro purchaseId invoiceId checkoutUrl payRequest rfl
          exact other rfl
  | buy req =>
      cases h
      refine ⟨buy_reached ⟨calls, rfl⟩ req, ?_⟩
      rcases buy_cases rails (valid_after cfg.store calls) (ledger_after cfg.store calls)
        (referenced_after cfg.store calls) req with
        ⟨-, -, same⟩ | ⟨inserts, new, -, -, ⟨stops, -⟩ | ⟨-, -, inv, url, answered, left⟩⟩
      · unfold Db.EachPurchase
        rw [same]
        exact traceable
      · exact absurd (goes inserts) stops
      · unfold Db.EachPurchase
        rw [left]
        refine List.forall_mem_append.mpr ⟨traceable, List.forall_mem_singleton.mpr fun _ => ?_⟩
        refine ⟨rfl, ?_⟩
        rintro rfl
        simp [Purchase.attach, bolt11_of_phoenixd answered]

/-- A traceable purchase is the one its invoice names, and the reconciler polls it. -/
theorem Stocked.found {cfg : PortalConfig} {rail : Rail} {db : Db} (stocked : Stocked cfg rail db)
    {p : Purchase} (member : p ∈ db.purchases) (isOpen : p.isOpen = true) :
    ∃ i, p.invoiceId = some i ∧
      db.purchases.find? (fun q => decide (q.invoiceId = some i)) = some p ∧
      (rail = .phoenixd → (⟨p.id, i, p.createdAt⟩ : OpenInvoice) ∈ db.listOpenLightning) := by
  have ledger := ledger_reached stocked.reached
  obtain ⟨hasInvoice, polled⟩ := stocked.traceable p member isOpen
  obtain ⟨i, isIts⟩ := Option.isSome_iff_exists.mp hasInvoice
  refine ⟨i, isIts, find?_eq_of_unique member (by simpa using isIts) fun q row hit => ?_, ?_⟩
  · have same := Ledger.invoices ledger q row p member i (by simpa using hit) isIts
    exact Ledger.purchase_eq ledger row member same
  · intro lightning
    exact List.mem_filterMap.mpr ⟨p, member, by simp [isIts, polled lightning, isOpen]⟩

/-- **A failed purchase leaves nothing open**, on a portal with a payment rail, exactly if the
request does not stop between the insert of the purchase and the end.  In every run whose
requests meet that condition, each open purchase has an invoice that names it, and on the
Lightning rail is polled by the reconciler; and requests that fail, however many, leave every
account the open purchases it had. -/
theorem failed_buy_leaves_nothing_open (cfg : PortalConfig) (rail : Rail)
    (rails : cfg.pay = some rail) :
    (∀ calls req,
      ((cfg.buy req (cfg.store.after calls)).1.handsInvoice = false → ∀ acct,
          (cfg.buy req (cfg.store.after calls)).2.openOf acct =
            (cfg.store.after calls).openOf acct) ↔
        (cfg.Inserts (cfg.store.after calls) req → req.Concludes rail (cfg.store.after calls))) ∧
    (∀ events db, Meets (portalStep cfg) (GoesThrough cfg rail) Db.empty events →
      Machine.run (portalStep cfg) Db.empty events = some db →
      ∀ p ∈ db.purchases, p.isOpen = true → ∃ i, p.invoiceId = some i ∧
        db.purchases.find? (fun q => decide (q.invoiceId = some i)) = some p ∧
        (rail = .phoenixd → (⟨p.id, i, p.createdAt⟩ : OpenInvoice) ∈ db.listOpenLightning)) ∧
    (∀ calls events db, Meets (portalStep cfg)
        (fun db e => GoesThrough cfg rail db e ∧ FailsToBuy cfg db e)
        (cfg.store.after calls) events →
      Machine.run (portalStep cfg) (cfg.store.after calls) events = some db →
      ∀ acct, db.openOf acct = (cfg.store.after calls).openOf acct) := by
  refine ⟨fun calls req => buy_keeps_open_iff rails ⟨calls, rfl⟩ req, fun events db goes ran => ?_,
    fun calls events db fails ran => ?_⟩
  · have stocked : Stocked cfg rail db := goes.run_invariant
      (fun db e db' stocked goes h => stocked_step rails stocked goes h)
      ⟨⟨[], rfl⟩, fun p member => by cases member⟩ ran
    exact fun p member isOpen => stocked.found member isOpen
  · -- each request keeps the open purchases, by the condition it meets
    let Kept (x : Db) : Prop := (∃ calls, x = cfg.store.after calls) ∧
      ∀ acct, x.openOf acct = (cfg.store.after calls).openOf acct
    have step : ∀ x e x', Kept x → GoesThrough cfg rail x e ∧ FailsToBuy cfg x e →
        portalStep cfg x e = some x' → Kept x' := by
      rintro x e x' ⟨reached, same⟩ ⟨goes, noInvoice⟩ h
      cases e with
      | call c => cases noInvoice
      | buy req =>
          cases h
          have unchanged := (buy_keeps_open_iff rails reached req).mpr goes noInvoice
          exact ⟨buy_reached reached req, fun acct => (unchanged acct).trans (same acct)⟩
    have kept : Kept db := fails.run_invariant step ⟨⟨calls, rfl⟩, fun _ => rfl⟩ ran
    exact kept.2

/-! ## A provider that is down -/

/-- A portal on the Lightning rail, with the cap of `newPortal`. -/
def lightningPortal : PortalConfig := ⟨plainStore, "https://portal.fips", 3, some .phoenixd, false⟩

/-- A request of the first npub in which nothing fails but, perhaps, the provider. -/
def buyAt (now : Time) (packageId : Nat) (reply : InvoiceReply) : BuyRequest :=
  ⟨some firstNpub, true, packageId, calm now, calm now, calm now, calm now, reply, calm now, calm now⟩

/-- The answer of a node that works. -/
def madeInvoice : InvoiceReply := .body ⟨"", "", "", "hash", "lnbc50n1"⟩

/-- The operator offers a package, numbered 1. -/
def offerPackage : Call := ⟨calm 0, .createPackage .volume "10 GB" 10000000000 30 5000 none⟩

/-- A package that does not exist cannot be bought, and a purchase that goes through is polled
by the reconciler. -/
theorem failed_buy_leaves_nothing_open_unknown :
    (lightningPortal.buy (buyAt 1 7 madeInvoice) (plainStore.after [offerPackage])).2.openOf 2 = [] ∧
      ∃ db, Machine.run (portalStep lightningPortal) Db.empty
          [.call offerPackage, .buy (buyAt 1 1 madeInvoice)] = some db ∧
        (⟨4, "hash", 1⟩ : OpenInvoice) ∈ db.listOpenLightning := by
  obtain ⟨request, runs, -⟩ := failed_buy_leaves_nothing_open lightningPortal .phoenixd rfl
  constructor
  · refine ((request [offerPackage] (buyAt 1 7 madeInvoice)).mpr ?_ (by decide +kernel) 2).trans
      (by decide +kernel)
    rintro ⟨npub, -, -, -, -, ⟨pt, member, isIt⟩, -⟩
    have others : ∀ pt ∈ (lightningPortal.store.after [offerPackage]).packages, pt.id ≠ 7 := by
      decide +kernel
    exact absurd isIt (others pt member)
  · have concludes : (buyAt 1 1 madeInvoice).Concludes .phoenixd (plainStore.after [offerPackage]) :=
      ⟨⟨rfl, by decide +kernel⟩, ⟨"hash", "", "New", "lnbc50n1"⟩, by decide +kernel,
        by decide +kernel, rfl⟩
    have goes : Meets (portalStep lightningPortal) (GoesThrough lightningPortal .phoenixd) Db.empty
        [.call offerPackage, .buy (buyAt 1 1 madeInvoice)] := by
      refine meets_cons trivial fun db opened => meets_cons (fun _ => ?_) fun _ _ => ?_
      · obtain rfl : plainStore.after [offerPackage] = db := Option.some.inj opened
        exact concludes
      · exact meets_of_forall (by simp)
    have ends : ∃ db, Machine.run (portalStep lightningPortal) Db.empty
          [.call offerPackage, .buy (buyAt 1 1 madeInvoice)] = some db ∧
        (⟨4, 2, 1, some "hash", .pending, 1, none, some "https://portal.fips/pay/4",
          some "lnbc50n1"⟩ : Purchase) ∈ db.purchases := ⟨_, rfl, by decide +kernel⟩
    obtain ⟨db, ran, member⟩ := ends
    obtain ⟨i, isIts, -, polled⟩ := runs _ db goes ran _ member rfl
    cases isIts
    exact ⟨db, ran, polled rfl⟩

/-- **Failures exhaust the purchases of an account.**  Three requests meet a provider that is
down.  Each fails and leaves an open purchase without an invoice, which is not on the list of
the reconciler; when the provider is back, the account has reached the cap and cannot buy. -/
theorem failures_exhaust_purchases :
    (lightningPortal.buy (buyAt 1 1 .failed) (plainStore.after [offerPackage])).1 = .failed ∧
    (plainStore.after [offerPackage]).openOf 2 = [] ∧
    (lightningPortal.buy (buyAt 1 1 .failed) (plainStore.after [offerPackage])).2.openOf 2 ≠ [] ∧
    ∃ db, Machine.run (portalStep lightningPortal) Db.empty
        [.call offerPackage, .buy (buyAt 1 1 .failed), .buy (buyAt 2 1 .failed),
          .buy (buyAt 3 1 .failed)] = some db ∧
      (db.openOf 2).length = 3 ∧ (∀ p ∈ db.purchases, p.invoiceId = none) ∧
      db.listOpenLightning = [] ∧
      (lightningPortal.buy (buyAt (365 * day) 1 madeInvoice) db).1 = .limit := by
  refine ⟨by decide +kernel, by decide +kernel, by decide +kernel, _, rfl, ?_, ?_, ?_, ?_⟩
  · decide +kernel
  · decide +kernel
  · decide +kernel
  · decide +kernel

end FipsExitGate
