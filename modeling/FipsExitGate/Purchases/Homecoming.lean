import FipsExitGate.Sync.Freshness

/-!
# Paying brings the buyer online

A buyer's address can be attached to somebody else's account when they pay: they have accepted
an invitation, and the row of the host is the active one.  An entitlement on their own account
would then authorize nobody.  `GrantByInvoice`, `SettlePurchase`, `CreditVolume` and
`CreditTime` therefore activate the owner row of the account in the transaction that makes the
entitlement, and recompute the authorized set afterwards.

Activation has to respect the unique index on active rows: it parks the other row first.  On a
valid registry it cannot fail, wherever the address is and whatever invitations are open
(`exec_activateRowTx`), so none of the four methods ends in a violation of that index.  What the
transaction leaves is `Paid`: either an entitlement and its account's owner row active, or the
rows as they were.  The recompute turns the former into an authorized address.

## Main results

* `ends_activateOwnerTx` — activation brings an account home and does not fail
* `ends_grantByInvoice`, `ends_settlePurchase`, `ends_credit` — what a payment leaves
* `paying_puts_buyer_online` — after a payment that makes an entitlement the buyer is authorized
-/

namespace FipsExitGate

open Program Table

/-- The error of the unique index on active rows. -/
def activeAddrTaken : StoreErr := .constraint "whitelist_active_addr"

/-- Any other error. -/
def NotTaken (e : StoreErr) : Prop := e ≠ activeAddrTaken

theorem Ends.inTx {α : Type} {P : Db → Prop} {Q : α → Db → Prop} {env : Env} {k : Nat}
    {body : Time → StoreM α} (h : Ends P (body (env.now k)) Q NotTaken) :
    Ends P (inTx env k body) Q NotTaken :=
  (ends_inTx h fun _ => nofun).imp fun _ _ done => done.1

/-! ## Home -/

/-- The active row of the account's address is its own. -/
def Db.AtHome (db : Db) (a : Account) : Prop :=
  ∃ w ∈ db.whitelist, w.fipsAddr = a.fipsAddr ∧ w.accountId = a.id ∧ w.active = true

/-- The account has its owner row. -/
def Db.HasOwnerRow (db : Db) (acct : AccountId) : Prop :=
  ∃ w ∈ db.whitelist, w.accountId = acct ∧ w.role = .owner

/-- **Activation brings an account home.**  It cannot fail, and leaves the other tables alone. -/
theorem ends_activateOwnerTx {ident : Identity} {db : Db} (valid : db.registry.Valid ident)
    (acct : AccountId) :
    Ends (fun x => x = db) (activateOwnerTx acct)
      (fun _ x => ∃ rows, x = { db with whitelist := rows } ∧ ActiveIndex rows ∧
        ∀ a ∈ db.accounts, a.id = acct → db.HasOwnerRow a.id → x.AtHome a) NotTaken := by
  refine Ends.get_bind ?_
  rintro _ rfl
  split
  next none =>
    refine Ends.pure ?_
    rintro x rfl
    refine ⟨x.whitelist, rfl, valid.index, ?_⟩
    rintro a - rfl ⟨w, isRow, isHis, isOwner⟩
    simpa [isHis, isOwner] using List.find?_eq_none.mp none w isRow
  next w found =>
    have isRow := List.mem_of_find?_eq_some found
    have isOwner := List.find?_some found
    simp only [Bool.and_eq_true, decide_eq_true_eq] at isOwner
    refine Ends.of_ok ?_
    rintro x rfl
    refine ⟨(), _, exec_activateRowTx valid isRow, _, rfl, (valid.activate isRow).index, ?_⟩
    rintro a isAccount isIt -
    obtain ⟨a', isAccount', id', -, addr'⟩ := valid.keyed.ownerAccount isRow isOwner.2
    obtain rfl : a = a' := eq_of_key_eq valid.keyed.accountIds isAccount isAccount'
      (by rw [isIt, id', isOwner.1])
    refine ⟨moved w.id w.fipsAddr w, ?_, ?_, ?_, moved_active.mpr (.inl rfl)⟩
    · rw [activateRow_eq_map]
      exact List.mem_map_of_mem isRow
    · rw [moved_fipsAddr, addr']
    · exact (congrArg RowKey.accountId (moved_key w.id w.fipsAddr w)).trans id'.symm

/-! ## The transactions -/

/-- What the transaction of a payment leaves: everybody's rows as they were, or one entitlement
more whose account is at home. -/
def Paid (db x : Db) : Prop :=
  (x.entitlements = db.entitlements ∧ x.whitelist = db.whitelist) ∨
  ∃ new, x.entitlements = db.entitlements ++ [new] ∧ ActiveIndex x.whitelist ∧
    ∀ a ∈ db.accounts, a.id = new.accountId → db.HasOwnerRow a.id → a ∈ x.accounts ∧ x.AtHome a

/-- What a payment may begin with: the database, or what the creation of an account leaves. -/
structure Opened (ident : Identity) (db x : Db) : Prop where
  valid : x.registry.Valid ident
  entitlements : x.entitlements = db.entitlements
  accounts : ∀ a ∈ db.accounts, a ∈ x.accounts
  rows : ∀ w ∈ db.whitelist, w ∈ x.whitelist

theorem Opened.refl {ident : Identity} {db : Db} (valid : db.registry.Valid ident) :
    Opened ident db db :=
  ⟨valid, rfl, fun _ h => h, fun _ h => h⟩

/-- An entitlement is made, and its account brought home. -/
theorem ends_entitle {ident : Identity} {db x : Db} (opened : Opened ident db x)
    (new : Nat → Entitlement) (acct : AccountId) (isHis : ∀ id, (new id).accountId = acct) :
    Ends (fun y => y = x)
      (do
        modify fun db : Db => db.withEntitlement new
        activateOwnerTx acct)
      (fun _ y => Paid db y) NotTaken := by
  refine Ends.bind (Q := fun _ y => y = x.withEntitlement new)
    (Ends.modify fun y isX => by rw [isX]) fun _ => ?_
  have valid : (x.withEntitlement new).registry.Valid ident :=
    opened.valid.grow (Nat.le_succ x.nextId)
  refine (ends_activateOwnerTx valid acct).imp ?_
  rintro _ _ ⟨rows, rfl, index, home⟩
  refine .inr ⟨new x.nextId, by simp [Db.withEntitlement, opened.entitlements], index, ?_⟩
  rintro a isAccount isIt ⟨w, isRow, onIt, isOwner⟩
  have isAccount := opened.accounts a isAccount
  exact ⟨isAccount, home a isAccount (isIt.trans (isHis _)) ⟨w, opened.rows w isRow, onIt, isOwner⟩⟩

theorem ends_grantEntitlementTx {ident : Identity} {db : Db} (valid : db.registry.Valid ident)
    (purchaseId : Nat) (now : Time) :
    Ends (fun x => x = db) (grantEntitlementTx purchaseId now) (fun _ x => Paid db x) NotTaken := by
  have settles : Ends (Paid db) (modify fun db : Db =>
      { db with purchases := settleRow purchaseId now db.purchases } : StoreM PUnit)
      (fun _ => Paid db) NotTaken := Ends.modify fun _ paid => paid
  refine Ends.get_bind ?_
  rintro _ rfl
  split
  · exact Ends.throw nofun
  next p _ =>
    split
    · exact Ends.throw nofun
    next pt _ =>
      dsimp only
      split
      · exact Ends.modify fun x isDb => .inl ⟨by rw [isDb], by rw [isDb]⟩
      · rw [← bind_assoc]
        exact Ends.bind (ends_entitle (Opened.refl valid) (grantOf p pt now) p.accountId fun _ => rfl)
          fun _ => settles

/-- Both methods look at the status of a purchase first. -/
theorem ends_unlessSettled {ident : Identity} {db : Db} (valid : db.registry.Valid ident)
    (p : Purchase) (now : Time) :
    Ends (fun x => x = db)
      (if p.status = .settled then return () else grantEntitlementTx p.id now : StoreM Unit)
      (fun _ x => Paid db x) NotTaken := by
  split
  · exact Ends.pure fun x isDb => .inl ⟨by rw [isDb], by rw [isDb]⟩
  · exact ends_grantEntitlementTx valid p.id now

/-! ## The recompute -/

/-- What a payment leaves when it returns: everybody's rows as they were, and nobody authorized
but by them, or one entitlement more that authorizes the address of its account. -/
def Online (now : Time) (db x : Db) : Prop :=
  (x.entitlements = db.entitlements ∧ x.whitelist = db.whitelist ∧
    ∀ addr acct, x.authz.current.lookup addr = some acct →
      ∃ w ∈ db.whitelist, w.fipsAddr = addr ∧ w.accountId = acct ∧ w.active = true) ∨
  ∃ new, x.entitlements = db.entitlements ++ [new] ∧
    ∀ a ∈ db.accounts, a.id = new.accountId → a.status = .active → db.HasOwnerRow a.id →
      new.activeAt now = true → x.authz.current.lookup a.fipsAddr = some a.id

theorem ends_recompute (env : Env) (k : Nat) {db : Db} (index : ActiveIndex db.whitelist) :
    Ends (Paid db) (recomputeAuthz env k >>= fun _ => pure ()) (fun _ x => Online (env.now k) db x)
      NotTaken := by
  refine Ends.bind (Ends.inTx (Ends.of_ok fun x paid =>
    ⟨_, x.recomputed env.order (env.now k), rfl, ?_⟩)) fun _ => Ends.pure fun _ online => online
  rcases paid with ⟨sameEntitlements, sameRows⟩ | ⟨new, made, index, home⟩
  · refine .inl ⟨sameEntitlements, sameRows, fun addr acct authorized => ?_⟩
    rw [← sameRows] at index ⊢
    obtain ⟨⟨w, isRow, atAddr, onIt, enabled, accepted⟩, -⟩ :=
      (fresh_recomputed index env.order (env.now k) addr acct).mp authorized
    exact ⟨w, isRow, atAddr, onIt, by simp [WhitelistEntry.active, enabled, accepted]⟩
  · refine .inr ⟨new, made, fun a isAccount isIts active owner entitled => ?_⟩
    obtain ⟨isAccount, w, isRow, atAddr, onIt, enabled⟩ := home a isAccount isIts owner
    refine (fresh_recomputed index env.order (env.now k) a.fipsAddr a.id).mpr ⟨?_, ?_, ?_⟩
    · simp only [WhitelistEntry.active, Bool.and_eq_true, Bool.not_eq_true'] at enabled
      exact ⟨w, isRow, atAddr, onIt, enabled⟩
    · exact ⟨a, isAccount, rfl, active⟩
    · refine ⟨new, ?_, isIts.symm, activeAt_iff.mp entitled⟩
      show new ∈ x.entitlements
      rw [made]
      simp

/-! ## The methods -/

theorem ends_grantByInvoice {ident : Identity} {db : Db} (valid : db.registry.Valid ident)
    (env : Env) (invoiceId : String) :
    Ends (fun x => x = db) (grantByInvoice env invoiceId) (fun _ x => Online (env.now 1) db x)
      NotTaken := by
  refine Ends.bind (Ends.inTx (Ends.get_bind ?_)) fun _ => ends_recompute env 1 valid.index
  rintro _ rfl
  split
  · exact Ends.throw nofun
  · exact ends_unlessSettled valid _ _

theorem ends_settlePurchase {ident : Identity} {db : Db} (valid : db.registry.Valid ident)
    (env : Env) (purchaseId : Nat) :
    Ends (fun x => x = db) (settlePurchase env purchaseId) (fun _ x => Online (env.now 1) db x)
      NotTaken := by
  refine Ends.bind (Ends.inTx (Ends.get_bind ?_)) fun _ => ends_recompute env 1 valid.index
  rintro _ rfl
  split
  · exact Ends.throw nofun
  · exact ends_unlessSettled valid _ _

/-- The row of an account does not run into the index: it is enabled only if no row of the
address is. -/
theorem ends_insertOwner {ident : Identity} {db : Db} (valid : db.registry.Valid ident)
    {E : StoreErr → Prop} {acct : Account} (member : acct ∈ db.accounts) {addr : Addr}
    (derived : ident.fromNpub acct.npub = some addr) (now : Time) :
    Ends (fun x => x = db) (insertOwner acct.id acct.npub addr now) (fun _ _ => True) E := by
  refine Ends.get_bind ?_
  rintro _ rfl
  split
  · exact Ends.pure fun _ _ => trivial
  next noRow =>
    refine Ends.of_ok ?_
    rintro x rfl
    have noEntry : ∀ w ∈ x.whitelist, isEntry acct.id acct.npub w = false := by
      intro w isRow
      exact Bool.eq_false_iff.mpr fun isIt => noRow (List.any_eq_true.mpr ⟨w, isRow, isIt⟩)
    have unlessActive : (!x.hasActiveRow addr) = false ↔ HasActive x.registry.rows addr := by
      rw [← hasActiveRow_registry]
      simp
    have grown := valid.owner now member derived noEntry unlessActive
    exact ⟨(), _, (exec_bind_ok (exec_newId x)).trans (exec_writeWhitelist grown.index), trivial⟩

theorem rows_of_ownerMove {ident : Identity} {r r' : Registry} (move : Move ident .owner r r') :
    ∀ w ∈ r.rows, w ∈ r'.rows := by
  cases move
  exact fun w isRow => List.mem_append_left _ isRow

/-- An account is created without a violation, and nothing is taken from what there was. -/
theorem ends_createAccount {s : Store} {db : Db} (valid : db.registry.Valid s.ident) (env : Env)
    (npub : String) :
    Ends (fun x => x = db) (s.createAccount env npub) (fun _ x => Opened s.ident db x) NotTaken := by
  unfold Store.createAccount
  dsimp only
  split
  · exact Ends.throw nofun
  next addr derived =>
  refine Ends.bind (Q := fun _ => Opened s.ident db) (Ends.inTx ?_) fun _ => ?_
  · have errors : Ends (fun x => x = db) (insertAccount (s.ident.normNpub npub) addr)
        (fun _ _ => True) NotTaken := by
      refine Ends.get_bind fun x _ => ?_
      split
      · exact Ends.pure fun _ _ => trivial
      split
      · exact Ends.throw nofun
      · exact Ends.of_ok fun x _ => ⟨_, _, rfl, trivial⟩
    refine errors.with_ok ?_
    rintro _ _ x rfl run
    rcases insertAccount_move derived run with rfl | ⟨rfl, move⟩
    · exact Opened.refl valid
    · exact ⟨valid_move move valid, rfl, fun a isAccount => List.mem_append_left _ isAccount,
        fun _ isRow => isRow⟩
  refine Ends.bind (Q := fun acct x => Opened s.ident db x ∧ acct ∈ x.accounts ∧
    acct.npub = s.ident.normNpub npub) ⟨fun x opened => ?_⟩ fun acct => ?_
  · rcases exec_getAccountByNpub s (s.ident.normNpub npub) x with
      ⟨acct, isAccount, isIt, run⟩ | ⟨-, run⟩
    · rw [run]
      exact ⟨opened, isAccount, isIt.trans (s.ident.norm_idem npub)⟩
    · rw [run]
      exact nofun
  refine Ends.bind (Q := fun _ => Opened s.ident db) (Ends.inTx (Ends.each ?_)) fun _ => ?_
  · rintro x ⟨opened, isAccount, isIt⟩
    rw [← isIt] at derived ⊢
    refine (ends_insertOwner opened.valid isAccount derived _).with_ok ?_
    rintro _ _ y rfl run
    have entitlements := (keeps_insertOwner (I := fun z => z.entitlements = db.entitlements)
      (fun _ _ _ _ _ h => h) _ _ _ _).ok opened.entitlements run
    rcases insertOwner_move isAccount derived run with same | move
    · have accounts : y.accounts = _ := congrArg Registry.accounts same
      have rows : y.whitelist = _ := congrArg Registry.rows same
      exact ⟨same ▸ opened.valid, entitlements, accounts ▸ opened.accounts, rows ▸ opened.rows⟩
    · have accounts : y.accounts = _ := accounts_of_ownerMove move
      exact ⟨valid_move move opened.valid, entitlements, accounts ▸ opened.accounts,
        fun w isRow => rows_of_ownerMove move w (opened.rows w isRow)⟩
  · refine Ends.bind (Ends.inTx (Ends.of_ok fun x opened =>
      ⟨_, x.recomputed env.order (env.now 2), rfl, ?_⟩)) fun _ => Ends.pure fun _ opened => opened
    exact ⟨opened.valid, opened.entitlements, opened.accounts, opened.rows⟩

theorem ends_credit {s : Store} {db : Db} (valid : db.registry.Valid s.ident) (env : Env)
    (npub : String) (kind : Kind) (volume : Option Int) (validityDays : Int) :
    Ends (fun x => x = db) (s.credit env npub kind volume validityDays)
      (fun _ x => Online (env.now 4) db x) NotTaken := by
  refine Ends.bind (ends_createAccount valid env npub) fun acct => ?_
  refine Ends.bind (Ends.inTx (Ends.each fun x opened => ?_)) fun _ => ends_recompute env 4 valid.index
  exact ends_entitle opened _ acct.id fun _ => rfl

/-! ## Paying -/

/-- The operations that pay for an account, with the number of the transaction that recomputes
the authorized set afterwards. -/
def Op.recomputesAt : Op → Option Nat
  | .grantByInvoice _ | .settlePurchase _ => some 1
  | .creditVolume .. | .creditTime .. => some 4
  | _ => none

theorem ends_payment {s : Store} {db : Db} (valid : db.registry.Valid s.ident) (env : Env) {op : Op}
    {k : Nat} (pays : op.recomputesAt = some k) :
    Ends (fun x => x = db) (s.method env op) (fun _ x => Online (env.now k) db x) NotTaken := by
  cases op with
  | grantByInvoice invoiceId =>
      cases pays
      exact ends_grantByInvoice valid env invoiceId
  | settlePurchase purchaseId =>
      cases pays
      exact ends_settlePurchase valid env purchaseId
  | creditVolume npub volumeBytes validityDays =>
      cases pays
      exact ends_credit valid env npub _ _ _
  | creditTime npub validityDays =>
      cases pays
      exact ends_credit valid env npub _ _ _
  | _ => cases pays

/-- **Paying puts the buyer online.**  In every state that calls lead to, wherever the buyer's
address is attached and whatever invitations are open, a payment does not run into the index on
active rows.  When it returns and has made an entitlement that is active at the recompute, for
an active account with its owner row, the address derived from the account's npub is authorized
for that account.  When it has made none, the whitelist is as it was, and an address is
authorized, if at all, for the account that its row is on. -/
theorem paying_puts_buyer_online (s : Store) (calls : List Call) (env : Env) (op : Op) (k : Nat)
    (pays : op.recomputesAt = some k) :
    (exec (s.method env op) (s.after calls)).1 ≠ .error (.constraint "whitelist_active_addr") ∧
    ∀ db', exec (s.method env op) (s.after calls) = (.ok (), db') →
      (∀ e ∈ db'.entitlements, e ∉ (s.after calls).entitlements → e.activeAt (env.now k) = true →
        ∀ a ∈ (s.after calls).accounts, a.id = e.accountId → a.status = .active →
          (∃ w ∈ (s.after calls).whitelist, w.accountId = a.id ∧ w.role = .owner) →
          ∃ addr, s.ident.fromNpub a.npub = some addr ∧
            db'.authz.current.lookup addr = some a.id) ∧
      (db'.entitlements = (s.after calls).entitlements →
        db'.whitelist = (s.after calls).whitelist ∧
        ∀ addr acct, db'.authz.current.lookup addr = some acct →
          ∃ w ∈ (s.after calls).whitelist, w.fipsAddr = addr ∧ w.accountId = acct ∧
            w.active = true) := by
  have valid := valid_after s calls
  have ends := (ends_payment valid env pays).holds _ rfl
  refine ⟨fun taken => ?_, fun db' run => ?_⟩
  · rcases run : exec (s.method env op) (s.after calls) with ⟨outcome, db'⟩
    rw [run] at ends taken
    cases taken
    exact ends rfl
  · rw [run] at ends
    rcases ends with ⟨sameEntitlements, attribution⟩ | ⟨new, made, online⟩
    · exact ⟨fun e isMade isNew => absurd (sameEntitlements ▸ isMade) isNew, fun _ => attribution⟩
    · refine ⟨fun e isMade isNew entitled a isAccount isIts active owner => ?_, fun same => ?_⟩
      · obtain rfl : e = new := by
          rw [made] at isMade
          exact List.mem_singleton.mp ((List.mem_append.mp isMade).resolve_left isNew)
        exact ⟨a.fipsAddr, valid.keyed.accountsDerived a isAccount,
          online a isAccount isIts active owner entitled⟩
      · rw [made] at same
        exact absurd same (by simp)

/-- Somebody with an account of their own has accepted an invitation to another one. -/
def attachedCalls : List Call :=
  [⟨calm 0, .creditTime firstNpub 30⟩, ⟨calm 1, .createAccount secondNpub⟩,
    ⟨calm 2, .inviteGuest firstNpub secondNpub "phone"⟩,
    ⟨calm 3, .acceptInvite secondNpub firstNpub⟩]

/-- They are credited a volume of their own, and their address comes home. -/
theorem paying_puts_buyer_online_attached :
    (plainStore.after attachedCalls).authz.current.lookup secondAddr = some 1 ∧
      (exec (plainStore.method (calm 4) (.creditVolume secondNpub 1000 30))
        (plainStore.after attachedCalls)).2.authz.current.lookup secondAddr = some 4 := by
  obtain ⟨-, returned⟩ := paying_puts_buyer_online plainStore attachedCalls (calm 4)
    (.creditVolume secondNpub 1000 30) 4 rfl
  have paid : (exec (plainStore.method (calm 4) (.creditVolume secondNpub 1000 30))
      (plainStore.after attachedCalls)).1 = .ok () := by decide +kernel
  obtain ⟨online, -⟩ := returned _ (Prod.ext paid rfl)
  obtain ⟨addr, derived, authorized⟩ := online
    ⟨7, 4, none, .volume, some 1000, 0, 4, 4 + 30 * day⟩ (by decide +kernel) (by decide +kernel)
    (by decide +kernel) ⟨4, secondNpub, secondAddr, .active⟩ (by decide +kernel) rfl rfl
    (by decide +kernel)
  cases derived
  exact ⟨by decide +kernel, authorized⟩

end FipsExitGate
