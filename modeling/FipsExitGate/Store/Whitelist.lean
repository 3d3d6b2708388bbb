import FipsExitGate.Store.Schema

/-!
# Accounts and the whitelist

`whitelist.go` and the account part of `admin.go`: creating an account with its
owner row, inviting a guest, and everything that moves an address from one account
to another.  An address is attributed to the account of its one row that is
`enabled AND NOT pending`, which the partial unique index `whitelist_active_addr`
enforces; the index is checked after every statement that writes the table.
-/

namespace FipsExitGate

open Program Table

/-! ## The index -/

/-- `whitelist_active_addr`: no two active rows have one address. -/
def ActiveIndex (rows : List WhitelistEntry) : Prop :=
  rows.Pairwise fun w₁ w₂ => ¬ (w₁.active ∧ w₂.active ∧ w₁.fipsAddr = w₂.fipsAddr)

instance (rows : List WhitelistEntry) : Decidable (ActiveIndex rows) :=
  inferInstanceAs (Decidable (rows.Pairwise _))

/-- A statement that writes `whitelist_entries`. -/
def writeWhitelist (f : List WhitelistEntry → List WhitelistEntry) : StoreM Unit := do
  modify fun db => { db with whitelist := f db.whitelist }
  let db ← get
  if ActiveIndex db.whitelist then return ()
  else throw (.constraint "whitelist_active_addr")

theorem writeWhitelist_ok {f : List WhitelistEntry → List WhitelistEntry} {db db' : Db} {u : Unit}
    (h : exec (writeWhitelist f) db = (.ok u, db')) :
    db' = { db with whitelist := f db.whitelist } ∧ ActiveIndex (f db.whitelist) := by
  obtain ⟨_, db₁, modified, h⟩ := exec_bind_eq_ok h
  cases modified
  rw [exec_get_bind] at h
  by_cases index : ActiveIndex (f db.whitelist)
  · rw [if_pos index] at h
    cases h
    exact ⟨rfl, index⟩
  · rw [if_neg index] at h
    cases h

theorem exec_writeWhitelist {f : List WhitelistEntry → List WhitelistEntry} {db : Db}
    (index : ActiveIndex (f db.whitelist)) :
    exec (writeWhitelist f) db = (.ok (), { db with whitelist := f db.whitelist }) := by
  unfold writeWhitelist
  rw [exec_bind_ok (exec_modify _ db), exec_get_bind, if_pos index]
  rfl

/-! ## Moving an address -/

/-- Some row is active for the address. -/
def Db.hasActiveRow (db : Db) (addr : Addr) : Bool :=
  db.whitelist.any fun w => decide (w.fipsAddr = addr) && w.active

/-- `activateRowTx`: park every other active row of the address, then activate
this one. -/
def activateRowTx (id : Nat) (addr : Addr) : StoreM Unit := do
  writeWhitelist (updateWhere
    (fun w => decide (w.fipsAddr = addr) && w.active && decide (w.id ≠ id))
    fun w => { w with enabled := false })
  writeWhitelist (updateWhere (fun w => decide (w.id = id))
    fun w => { w with enabled := true, pending := false })

/-- The rows `activateRowTx` leaves. -/
def activateRow (id : Nat) (addr : Addr) (rows : List WhitelistEntry) : List WhitelistEntry :=
  updateWhere (fun w => decide (w.id = id)) (fun w => { w with enabled := true, pending := false })
    (updateWhere (fun w => decide (w.fipsAddr = addr) && w.active && decide (w.id ≠ id))
      (fun w => { w with enabled := false }) rows)

theorem activateRowTx_ok {id : Nat} {addr : Addr} {db db' : Db} {u : Unit}
    (h : exec (activateRowTx id addr) db = (.ok u, db')) :
    db' = { db with whitelist := activateRow id addr db.whitelist } ∧
      ActiveIndex (activateRow id addr db.whitelist) := by
  obtain ⟨_, db₁, parked, h⟩ := exec_bind_eq_ok h
  obtain ⟨rfl, -⟩ := writeWhitelist_ok parked
  exact writeWhitelist_ok h

/-- `activateOwnerTx`: nothing to do when the account has no owner row yet. -/
def activateOwnerTx (acct : AccountId) : StoreM Unit := do
  let db ← get
  match db.whitelist.find? fun w => decide (w.accountId = acct) && decide (w.role = .owner) with
  | none => return ()
  | some w => activateRowTx w.id w.fipsAddr

theorem activateOwnerTx_ok {acct : AccountId} {db db' : Db} {u : Unit}
    (h : exec (activateOwnerTx acct) db = (.ok u, db')) :
    (db' = db ∧ ∀ w ∈ db.whitelist, w.accountId = acct → w.role ≠ .owner) ∨
      ∃ w ∈ db.whitelist, w.accountId = acct ∧ w.role = .owner ∧
        db' = { db with whitelist := activateRow w.id w.fipsAddr db.whitelist } ∧
        ActiveIndex (activateRow w.id w.fipsAddr db.whitelist) := by
  unfold activateOwnerTx at h
  rw [exec_get_bind] at h
  split at h
  · rename_i none
    cases h
    refine .inl ⟨rfl, fun w member isAcct isOwner => ?_⟩
    simpa [isAcct, isOwner] using List.find?_eq_none.mp none w member
  · rename_i w found
    have isOwner := List.find?_some found
    simp only [Bool.and_eq_true, decide_eq_true_eq] at isOwner
    exact .inr ⟨w, List.mem_of_find?_eq_some found, isOwner.1, isOwner.2, activateRowTx_ok h⟩

/-- `reactivateOwnerIfOrphanTx`. -/
def reactivateOwnerIfOrphanTx (addr : Addr) : StoreM Unit := do
  let db ← get
  if db.hasActiveRow addr then return ()
  else
    writeWhitelist (updateWhere
      (fun w => decide (w.fipsAddr = addr) && decide (w.role = .owner))
      fun w => { w with enabled := true, pending := false })

/-- The owner row of the address is switched on. -/
def reactivateOwner (addr : Addr) (rows : List WhitelistEntry) : List WhitelistEntry :=
  updateWhere (fun w => decide (w.fipsAddr = addr) && decide (w.role = .owner))
    (fun w => { w with enabled := true, pending := false }) rows

theorem reactivateOwnerIfOrphanTx_ok {addr : Addr} {db db' : Db} {u : Unit}
    (h : exec (reactivateOwnerIfOrphanTx addr) db = (.ok u, db')) :
    (db' = db ∧ db.hasActiveRow addr = true) ∨
      (db' = { db with whitelist := reactivateOwner addr db.whitelist } ∧
        db.hasActiveRow addr = false ∧ ActiveIndex (reactivateOwner addr db.whitelist)) := by
  unfold reactivateOwnerIfOrphanTx at h
  rw [exec_get_bind] at h
  split at h
  · rename_i active
    cases h
    exact .inl ⟨rfl, active⟩
  · rename_i orphan
    obtain ⟨eq, index⟩ := writeWhitelist_ok h
    exact .inr ⟨eq, by simpa using orphan, index⟩

theorem hasActiveRow_iff {db : Db} {addr : Addr} :
    db.hasActiveRow addr = true ↔ ∃ w ∈ db.whitelist, w.fipsAddr = addr ∧ w.active = true := by
  simp [Db.hasActiveRow]

/-! ## Accounts -/

/-- `GetAccountByNpub`. -/
def Store.getAccountByNpub (s : Store) (npub : String) : StoreM Account := do
  let db ← get
  match db.accounts.find? fun a => decide (a.npub = s.ident.normNpub npub) with
  | some acct => return acct
  | none => throw .accountNotFound

theorem exec_getAccountByNpub (s : Store) (npub : String) (db : Db) :
    (∃ acct ∈ db.accounts, acct.npub = s.ident.normNpub npub ∧
      exec (s.getAccountByNpub npub) db = (.ok acct, db)) ∨
    ((∀ a ∈ db.accounts, a.npub ≠ s.ident.normNpub npub) ∧
      exec (s.getAccountByNpub npub) db = (.error .accountNotFound, db)) := by
  unfold Store.getAccountByNpub
  rw [exec_get_bind]
  cases found : db.accounts.find? fun a => decide (a.npub = s.ident.normNpub npub) with
  | some acct =>
      have isIt := List.find?_some found
      exact .inl ⟨acct, List.mem_of_find?_eq_some found, by simpa using isIt, rfl⟩
  | none =>
      refine .inr ⟨fun a member => ?_, rfl⟩
      simpa using List.find?_eq_none.mp found a member

/-- `INSERT INTO accounts … ON CONFLICT (npub) DO NOTHING`.  The address has a
unique key of its own, which the clause does not cover. -/
def insertAccount (npub : String) (addr : Addr) : StoreM Unit := do
  let db ← get
  if db.accounts.any fun a => decide (a.npub = npub) then return ()
  else if db.accounts.any fun a => decide (a.fipsAddr = addr) then
    throw (.constraint "accounts_fips_addr_key")
  else
    let id ← newId
    modify fun db => { db with accounts := db.accounts ++ [⟨id, npub, addr, .active⟩] }

/-- The owner row of a new account: enabled unless the address is active
elsewhere. -/
def insertOwner (acct : AccountId) (npub : String) (addr : Addr) (now : Time) : StoreM Unit := do
  let db ← get
  if db.whitelist.any fun w => decide (w.accountId = acct) && decide (w.npub = npub) then return ()
  else
    let id ← newId
    writeWhitelist fun rows =>
      rows ++ [⟨id, acct, npub, addr, .owner, !db.hasActiveRow addr, false, none, now⟩]

/-- `CreateAccount`. -/
def Store.createAccount (s : Store) (env : Env) (npub : String) : StoreM Account := do
  let npub := s.ident.normNpub npub
  match s.ident.fromNpub npub with
  | none => throw .deriveAddress
  | some addr =>
      -- three transactions: an account may be left without its row, or without a recompute
      inTx env 0 fun _ => insertAccount npub addr
      let acct ← s.getAccountByNpub npub
      inTx env 1 fun now => insertOwner acct.id npub addr now
      let _ ← recomputeAuthz env 2
      return acct

/-! ## Guests -/

/-- The row of a guest on an account; `UNIQUE (account_id, npub)`. -/
def isEntry (acct : AccountId) (npub : String) (w : WhitelistEntry) : Bool :=
  decide (w.accountId = acct) && decide (w.npub = npub)

/-- The open invitation of a guest to an account. -/
def isPendingGuest (acct : AccountId) (npub : String) (w : WhitelistEntry) : Bool :=
  isEntry acct npub w && decide (w.role = .guest) && w.pending

/-- The transaction of `InviteGuest`. -/
def Store.inviteGuestTx (s : Store) (acct : AccountId) (guest : String) (addr : Addr)
    (label : String) (now : Time) : StoreM Bool := do
  let db ← get
  if !db.hasActiveEntitlement now acct then throw .noActiveEntitlement
  -- a guest who has a row on the account already does not count against the cap
  else if !db.whitelist.any (isEntry acct guest) &&
      decide (s.maxGuests ≤ (db.whitelist.filter fun w =>
        decide (w.accountId = acct) && decide (w.role = .guest) && w.enabled).length) then
    throw .guestLimit
  else
    let id ← newId
    -- an active row is left alone, any other one is pending again
    writeWhitelist (upsert (isEntry acct guest)
      ⟨id, acct, guest, addr, .guest, true, true, some label, now⟩
      fun w => { w with label := some label, enabled := true, pending := !w.active })
    let db ← get
    return (db.whitelist.filter (isEntry acct guest)).any fun w => w.pending

/-- `InviteGuest`. -/
def Store.inviteGuest (s : Store) (env : Env) (ownerNpub guestNpub label : String) :
    StoreM Bool := do
  let guest := s.ident.normNpub guestNpub
  let acct ← s.getAccountByNpub ownerNpub
  match s.ident.fromNpub guest with
  | none => throw .deriveGuestAddress
  | some addr =>
      if addr = acct.fipsAddr then throw .selfWhitelist
      else
        let pending ← inTx env 0 fun now => s.inviteGuestTx acct.id guest addr label now
        let _ ← recomputeAuthz env 1
        return pending

/-- `DELETE … RETURNING`-style removal of invitations: an error if there is none. -/
def deleteInvites (p : WhitelistEntry → Bool) : StoreM Unit := do
  let db ← get
  if db.whitelist.any p then writeWhitelist (deleteWhere p)
  else throw .inviteNotFound

/-- `WithdrawInvite`. -/
def Store.withdrawInvite (s : Store) (env : Env) (ownerNpub guestNpub : String) :
    StoreM Unit := do
  let acct ← s.getAccountByNpub ownerNpub
  inTx env 0 fun _ => deleteInvites (isPendingGuest acct.id (s.ident.normNpub guestNpub))

/-- The account is `host`'s. -/
def Db.isAccountOf (db : Db) (host : String) (acct : AccountId) : Bool :=
  db.accounts.any fun a => decide (a.id = acct) && decide (a.npub = host)

/-- The transaction of `AcceptInvite`. -/
def acceptInviteTx (guest host : String) (now : Time) : StoreM Unit := do
  let db ← get
  match db.whitelist.find? fun w =>
      decide (w.npub = guest) && w.pending && w.enabled && decide (w.role = .guest) &&
        db.accounts.any fun a => decide (a.id = w.accountId) && decide (a.npub = host) &&
          decide (a.status = .active) with
  | none => throw .inviteNotFound
  | some w =>
      if db.hasActiveEntitlement now w.accountId then activateRowTx w.id w.fipsAddr
      else throw .noActiveEntitlement

/-- `AcceptInvite`. -/
def Store.acceptInvite (s : Store) (env : Env) (guestNpub hostNpub : String) : StoreM Unit := do
  inTx env 0 fun now =>
    acceptInviteTx (s.ident.normNpub guestNpub) (s.ident.normNpub hostNpub) now
  let _ ← recomputeAuthz env 1
  return ()

/-- The transaction of `DeclineInvite`. -/
def declineInviteTx (guest host : String) : StoreM Unit := do
  let db ← get
  deleteInvites fun w =>
    decide (w.npub = guest) && w.pending && decide (w.role = .guest) &&
      db.isAccountOf host w.accountId

/-- `DeclineInvite`. -/
def Store.declineInvite (s : Store) (env : Env) (guestNpub hostNpub : String) : StoreM Unit :=
  inTx env 0 fun _ => declineInviteTx (s.ident.normNpub guestNpub) (s.ident.normNpub hostNpub)

/-- `ActivateOwner`. -/
def Store.activateOwner (s : Store) (env : Env) (npub : String) : StoreM Unit := do
  let acct ← s.getAccountByNpub npub
  inTx env 0 fun _ => activateOwnerTx acct.id
  let _ ← recomputeAuthz env 1
  return ()

/-! ## The operator's path and the toggle -/

/-- The statement of `AddWhitelist`: the row is accepted at once. -/
def addWhitelistTx (acct : AccountId) (guest : String) (addr : Addr) (label : String)
    (now : Time) : StoreM Unit := do
  let id ← newId
  writeWhitelist (upsert (isEntry acct guest)
    ⟨id, acct, guest, addr, .guest, true, false, some label, now⟩
    fun w => { w with enabled := true, pending := false, label := some label })

/-- `AddWhitelist`. -/
def Store.addWhitelist (s : Store) (env : Env) (ownerNpub guestNpub label : String) :
    StoreM Unit := do
  let guest := s.ident.normNpub guestNpub
  let acct ← s.getAccountByNpub ownerNpub
  match s.ident.fromNpub guest with
  | none => throw .deriveGuestAddress
  | some addr =>
      mapError (fun e => if e = .constraint "whitelist_active_addr" then .addressInUse else e)
        (inTx env 0 fun now => addWhitelistTx acct.id guest addr label now)
      let _ ← recomputeAuthz env 1
      return ()

/-- The `UPDATE` of `SetWhitelistEnabled`: a guest row that is switched on while
another row is active for its address needs the guest's consent again. -/
def toggled (rows : List WhitelistEntry) (enabled : Bool) (w : WhitelistEntry) : WhitelistEntry :=
  { w with
    enabled
    pending :=
      if enabled && decide (w.role = .guest) && !w.enabled &&
          rows.any fun o => decide (o.fipsAddr = w.fipsAddr) && decide (o.id ≠ w.id) && o.active
      then true else w.pending }

/-- The transaction of `SetWhitelistEnabled`. -/
def setWhitelistEnabledTx (acct : AccountId) (guest : String) (enabled : Bool) :
    StoreM Unit := do
  let db ← get
  if !enabled && db.whitelist.any (isPendingGuest acct guest) then
    -- an invitation is withdrawn; nothing was active
    writeWhitelist (deleteWhere (isPendingGuest acct guest))
  else
    match db.whitelist.find? (isEntry acct guest) with
    | none => return ()
    | some w =>
        writeWhitelist (updateWhere (isEntry acct guest) (toggled db.whitelist enabled))
        if enabled then return ()
        else reactivateOwnerIfOrphanTx w.fipsAddr

/-- `SetWhitelistEnabled`. -/
def Store.setWhitelistEnabled (s : Store) (env : Env) (ownerNpub guestNpub : String)
    (enabled : Bool) : StoreM Unit := do
  let acct ← s.getAccountByNpub ownerNpub
  inTx env 0 fun _ => setWhitelistEnabledTx acct.id (s.ident.normNpub guestNpub) enabled
  let _ ← recomputeAuthz env 1
  return ()

end FipsExitGate
