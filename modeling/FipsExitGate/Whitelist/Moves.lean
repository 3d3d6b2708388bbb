import FipsExitGate.Store.Ops

/-!
# What a transaction can do to the whitelist

The accounts, the whitelist and the id counter form the *registry*.  `Move` lists,
once and for all, every way in which a committed transaction changes it; the label
says whose doing it is.  Each transaction of `whitelist.go` and `admin.go` has one
lemma here that says which moves it can be.  The invariants of the whitelist and the
consent rules are then case analyses over `Move`.
-/

namespace FipsExitGate

open Program Table

/-- The tables the attribution of addresses rests on. -/
structure Registry where
  accounts : List Account
  rows : List WhitelistEntry
  nextId : Nat

def Db.registry (db : Db) : Registry := ⟨db.accounts, db.whitelist, db.nextId⟩

@[simp] theorem registry_rollback (db db' : Db) : (rollback db db').registry = db.registry := rfl

/-- Whose doing a move is; npubs are in canonical spelling. -/
inductive Label where
  | idle
  | account
  | owner
  | invite (host guest : String)
  | withdraw
  | accept (guest host : String)
  | home (acct : AccountId)
  | add (host guest : String)
  | toggle (host guest : String) (enabled : Bool)

/-- A row that is invited again: pending, unless it is active. -/
def reinvited (label : String) (w : WhitelistEntry) : WhitelistEntry :=
  { w with label := some label, enabled := true, pending := !w.active }

/-- The rows after an invitation. -/
def inviteRows (new : WhitelistEntry) (label : String) (rows : List WhitelistEntry) :
    List WhitelistEntry :=
  upsert (isEntry new.accountId new.npub) new (reinvited label) rows

/-- A row that the operator adds again. -/
def readded (label : String) (w : WhitelistEntry) : WhitelistEntry :=
  { w with enabled := true, pending := false, label := some label }

/-- The rows after the operator added a guest. -/
def addRows (new : WhitelistEntry) (label : String) (rows : List WhitelistEntry) :
    List WhitelistEntry :=
  upsert (isEntry new.accountId new.npub) new (readded label) rows

/-- The rows after a toggle, before the owner's row is looked at. -/
def toggleRows (acct : AccountId) (guest : String) (enabled : Bool) (rows : List WhitelistEntry) :
    List WhitelistEntry :=
  updateWhere (isEntry acct guest) (toggled rows enabled) rows

/-- Some row is active for the address. -/
def HasActive (rows : List WhitelistEntry) (addr : Addr) : Prop :=
  ∃ w ∈ rows, w.fipsAddr = addr ∧ w.active = true

/-- The rows are open invitations. -/
def Invites (p : WhitelistEntry → Bool) : Prop :=
  ∀ w, p w = true → w.role = .guest ∧ w.pending = true

/-- **The moves.** -/
inductive Move (ident : Identity) : Label → Registry → Registry → Prop where
  /-- At most ids were used up. -/
  | idle (r : Registry) (n : Nat) (le : r.nextId ≤ n) : Move ident .idle r { r with nextId := n }
  | account (r : Registry) (npub : String) (addr : Addr) (derived : ident.fromNpub npub = some addr)
      (newNpub : ∀ a ∈ r.accounts, a.npub ≠ npub) (newAddr : ∀ a ∈ r.accounts, a.fipsAddr ≠ addr) :
      Move ident .account r
        { r with
          accounts := r.accounts ++ [⟨r.nextId, npub, addr, .active⟩]
          nextId := r.nextId + 1 }
  | owner (r : Registry) (acct : Account) (addr : Addr) (enabled : Bool) (now : Time)
      (member : acct ∈ r.accounts) (derived : ident.fromNpub acct.npub = some addr)
      (noRow : ∀ w ∈ r.rows, isEntry acct.id acct.npub w = false)
      (unlessActive : enabled = false ↔ HasActive r.rows addr) :
      Move ident .owner r
        { r with
          rows := r.rows ++
            [⟨r.nextId, acct.id, acct.npub, addr, .owner, enabled, false, none, now⟩]
          nextId := r.nextId + 1 }
  | invite (r : Registry) (acct : Account) (guest : String) (addr : Addr) (label : String)
      (now : Time) (member : acct ∈ r.accounts) (derived : ident.fromNpub guest = some addr)
      (other : addr ≠ acct.fipsAddr) :
      Move ident (.invite acct.npub guest) r
        { r with
          rows := inviteRows ⟨r.nextId, acct.id, guest, addr, .guest, true, true, some label, now⟩
            label r.rows
          nextId := r.nextId + 1 }
  | withdraw (r : Registry) (p : WhitelistEntry → Bool) (isOpen : Invites p) :
      Move ident .withdraw r { r with rows := deleteWhere p r.rows }
  | accept (r : Registry) (host : Account) (w : WhitelistEntry) (member : w ∈ r.rows)
      (isHost : host ∈ r.accounts) (onHost : w.accountId = host.id) (isGuest : w.role = .guest)
      (isPending : w.pending = true) :
      Move ident (.accept w.npub host.npub) r
        { r with rows := activateRow w.id w.fipsAddr r.rows }
  | home (r : Registry) (w : WhitelistEntry) (member : w ∈ r.rows) (isOwner : w.role = .owner) :
      Move ident (.home w.accountId) r { r with rows := activateRow w.id w.fipsAddr r.rows }
  | add (r : Registry) (acct : Account) (guest : String) (addr : Addr) (label : String) (now : Time)
      (member : acct ∈ r.accounts) (derived : ident.fromNpub guest = some addr)
      (index : ActiveIndex (addRows
        ⟨r.nextId, acct.id, guest, addr, .guest, true, false, some label, now⟩ label r.rows)) :
      Move ident (.add acct.npub guest) r
        { r with
          rows := addRows ⟨r.nextId, acct.id, guest, addr, .guest, true, false, some label, now⟩
            label r.rows
          nextId := r.nextId + 1 }
  | toggleOn (r : Registry) (acct : Account) (guest : String) (member : acct ∈ r.accounts)
      (index : ActiveIndex (toggleRows acct.id guest true r.rows)) :
      Move ident (.toggle acct.npub guest true) r
        { r with rows := toggleRows acct.id guest true r.rows }
  | toggleOff (r : Registry) (acct : Account) (guest : String) (w : WhitelistEntry)
      (member : acct ∈ r.accounts) (row : w ∈ r.rows) (isRow : isEntry acct.id guest w = true)
      (noInvite : ∀ w ∈ r.rows, isPendingGuest acct.id guest w = false)
      (active : HasActive (toggleRows acct.id guest false r.rows) w.fipsAddr) :
      Move ident (.toggle acct.npub guest false) r
        { r with rows := toggleRows acct.id guest false r.rows }
  | toggleOffHome (r : Registry) (acct : Account) (guest : String) (w : WhitelistEntry)
      (member : acct ∈ r.accounts) (row : w ∈ r.rows) (isRow : isEntry acct.id guest w = true)
      (noInvite : ∀ w ∈ r.rows, isPendingGuest acct.id guest w = false)
      (orphan : ¬ HasActive (toggleRows acct.id guest false r.rows) w.fipsAddr) :
      Move ident (.toggle acct.npub guest false) r
        { r with rows := reactivateOwner w.fipsAddr (toggleRows acct.id guest false r.rows) }

/-! ## The moves of each transaction -/

theorem hasActiveRow_registry {db : Db} {addr : Addr} :
    db.hasActiveRow addr = true ↔ HasActive db.registry.rows addr :=
  hasActiveRow_iff

/-- The database with one more account, numbered next. -/
def Db.withAccount (db : Db) (npub : String) (addr : Addr) : Db :=
  { db with
    accounts := db.accounts ++ [⟨db.nextId, npub, addr, .active⟩]
    nextId := db.nextId + 1 }

/-- The insertion of an account: none, or a new one. -/
theorem insertAccount_move {ident : Identity} {npub : String} {addr : Addr} {db db' : Db} {u : Unit}
    (derived : ident.fromNpub npub = some addr)
    (run : exec (insertAccount npub addr) db = (.ok u, db')) :
    db' = db ∨ (db' = db.withAccount npub addr ∧ Move ident .account db.registry db'.registry) := by
  unfold insertAccount at run
  rw [exec_get_bind] at run
  split at run
  · cases run
    exact .inl rfl
  · rename_i newNpub
    split at run
    · cases run
    · rename_i newAddr
      cases run
      refine .inr ⟨rfl, Move.account db.registry npub addr derived ?_ ?_⟩
      · intro a member eq
        exact newNpub (by simpa using ⟨a, member, eq⟩)
      · intro a member eq
        exact newAddr (by simpa using ⟨a, member, eq⟩)

/-- Inversion of the insertion of an owner row: there is one, or it is the new row, enabled
unless the address is active elsewhere. -/
theorem insertOwner_ok {acct : AccountId} {npub : String} {addr : Addr} {now : Time} {db db' : Db}
    {u : Unit} (run : exec (insertOwner acct npub addr now) db = (.ok u, db')) :
    db' = db ∨ (db.whitelist.any (isEntry acct npub) = false ∧
      db'.registry = { db.registry with
        rows := db.whitelist ++
          [⟨db.nextId, acct, npub, addr, .owner, !db.hasActiveRow addr, false, none, now⟩]
        nextId := db.nextId + 1 }) := by
  unfold insertOwner at run
  rw [exec_get_bind] at run
  split at run
  · cases run
    exact .inl rfl
  · rename_i noRow
    rw [exec_bind_ok (exec_newId db)] at run
    obtain ⟨rfl, -⟩ := writeWhitelist_ok run
    exact .inr ⟨by simpa [isEntry] using noRow, rfl⟩

/-- The insertion of an owner row: none, or the row of the account. -/
theorem insertOwner_move {ident : Identity} {acct : Account} {addr : Addr} {now : Time} {db db' : Db}
    {u : Unit} (member : acct ∈ db.accounts) (derived : ident.fromNpub acct.npub = some addr)
    (run : exec (insertOwner acct.id acct.npub addr now) db = (.ok u, db')) :
    db'.registry = db.registry ∨ Move ident .owner db.registry db'.registry := by
  rcases insertOwner_ok run with rfl | ⟨noRow, isNew⟩
  · exact .inl rfl
  · rw [isNew]
    refine .inr (Move.owner db.registry acct addr (!db.hasActiveRow addr) now member derived ?_ ?_)
    · intro w row
      exact Bool.eq_false_iff.mpr fun isRow =>
        Bool.false_ne_true (noRow.symm.trans (List.any_eq_true.mpr ⟨w, row, isRow⟩))
    · rw [← hasActiveRow_registry]
      simp

/-- Inversion of an invitation: the guest had a row on the account, or there was room for
one more. -/
theorem inviteGuestTx_ok {s : Store} {acct : AccountId} {guest label : String} {addr : Addr}
    {now : Time} {db db' : Db} {pending : Bool}
    (run : exec (s.inviteGuestTx acct guest addr label now) db = (.ok pending, db')) :
    db'.registry = { db.registry with
        rows := inviteRows ⟨db.nextId, acct, guest, addr, .guest, true, true, some label, now⟩ label
          db.whitelist
        nextId := db.nextId + 1 } ∧
      (db.whitelist.any (isEntry acct guest) = true ∨
        ((db.whitelist.filter fun w =>
          decide (w.accountId = acct) && decide (w.role = .guest) && w.enabled).length : Int) <
            s.maxGuests) := by
  unfold Store.inviteGuestTx at run
  rw [exec_get_bind] at run
  split at run
  · cases run
  split at run
  · cases run
  rename_i room
  rw [exec_bind_ok (exec_newId db)] at run
  obtain ⟨_, db₁, written, run⟩ := exec_bind_eq_ok run
  obtain ⟨rfl, -⟩ := writeWhitelist_ok written
  cases run
  refine ⟨rfl, ?_⟩
  simp only [Bool.and_eq_true, Bool.not_eq_true', decide_eq_true_eq, not_and, not_le,
    ← Bool.not_eq_true] at room
  exact Classical.or_iff_not_imp_left.mpr room

theorem inviteGuestTx_move {s : Store} {acct : Account} {guest label : String} {addr : Addr}
    {now : Time} {db db' : Db} {pending : Bool} (member : acct ∈ db.accounts)
    (derived : s.ident.fromNpub guest = some addr) (other : addr ≠ acct.fipsAddr)
    (run : exec (s.inviteGuestTx acct.id guest addr label now) db = (.ok pending, db')) :
    Move s.ident (.invite acct.npub guest) db.registry db'.registry := by
  rw [(inviteGuestTx_ok run).1]
  exact Move.invite db.registry acct guest addr label now member derived other

theorem deleteInvites_ok {p : WhitelistEntry → Bool} {db db' : Db} {u : Unit}
    (run : exec (deleteInvites p) db = (.ok u, db')) :
    db' = { db with whitelist := deleteWhere p db.whitelist } := by
  unfold deleteInvites at run
  rw [exec_get_bind] at run
  split at run
  · exact (writeWhitelist_ok run).1
  · cases run

theorem isPendingGuest_invites (acct : AccountId) (guest : String) :
    Invites (isPendingGuest acct guest) := by
  intro w isIt
  simp only [isPendingGuest, Bool.and_eq_true, decide_eq_true_eq] at isIt
  exact ⟨isIt.1.2, isIt.2⟩

theorem declineInviteTx_ok {guest host : String} {db db' : Db} {u : Unit}
    (run : exec (declineInviteTx guest host) db = (.ok u, db')) :
    ∃ p, Invites p ∧ db' = { db with whitelist := deleteWhere p db.whitelist } := by
  unfold declineInviteTx at run
  rw [exec_get_bind] at run
  refine ⟨_, fun w isIt => ?_, deleteInvites_ok run⟩
  simp only [Bool.and_eq_true, decide_eq_true_eq] at isIt
  exact ⟨isIt.1.2, isIt.1.1.2⟩

theorem acceptInviteTx_move {ident : Identity} {guest host : String} {now : Time} {db db' : Db}
    {u : Unit} (run : exec (acceptInviteTx guest host now) db = (.ok u, db')) :
    Move ident (.accept guest host) db.registry db'.registry := by
  unfold acceptInviteTx at run
  rw [exec_get_bind] at run
  split at run
  · cases run
  rename_i w found
  split at run
  · obtain ⟨rfl, -⟩ := activateRowTx_ok run
    have isIt := List.find?_some found
    simp only [Bool.and_eq_true, decide_eq_true_eq, List.any_eq_true] at isIt
    obtain ⟨⟨⟨⟨rfl, isPending⟩, -⟩, isGuest⟩, acct, isHost, ⟨onHost, rfl⟩, -⟩ := isIt
    exact Move.accept db.registry acct w (List.mem_of_find?_eq_some found) isHost onHost.symm isGuest
      isPending
  · cases run

theorem activateOwnerTx_move {ident : Identity} {acct : AccountId} {db db' : Db} {u : Unit}
    (run : exec (activateOwnerTx acct) db = (.ok u, db')) :
    db'.registry = db.registry ∨ Move ident (.home acct) db.registry db'.registry := by
  rcases activateOwnerTx_ok run with ⟨rfl, -⟩ | ⟨w, member, rfl, isOwner, rfl, -⟩
  · exact .inl rfl
  · exact .inr (Move.home db.registry w member isOwner)

theorem addWhitelistTx_move {ident : Identity} {acct : Account} {guest label : String} {addr : Addr}
    {now : Time} {db db' : Db} {u : Unit} (member : acct ∈ db.accounts)
    (derived : ident.fromNpub guest = some addr)
    (run : exec (addWhitelistTx acct.id guest addr label now) db = (.ok u, db')) :
    Move ident (.add acct.npub guest) db.registry db'.registry := by
  unfold addWhitelistTx at run
  rw [exec_bind_ok (exec_newId db)] at run
  obtain ⟨rfl, index⟩ := writeWhitelist_ok run
  exact Move.add db.registry acct guest addr label now member derived index

/-- A toggle withdraws an open invitation, finds no row, or changes the row. -/
theorem setWhitelistEnabledTx_move (ident : Identity) {acct : Account} {guest : String}
    {enabled : Bool} {db db' : Db} {u : Unit} (member : acct ∈ db.accounts)
    (run : exec (setWhitelistEnabledTx acct.id guest enabled) db = (.ok u, db')) :
    db'.registry = db.registry ∨
      (enabled = false ∧ Move ident .withdraw db.registry db'.registry) ∨
      Move ident (.toggle acct.npub guest enabled) db.registry db'.registry := by
  unfold setWhitelistEnabledTx at run
  rw [exec_get_bind] at run
  split at run
  · rename_i withdrawn
    obtain ⟨rfl, -⟩ := writeWhitelist_ok run
    simp only [Bool.and_eq_true, Bool.not_eq_true'] at withdrawn
    exact .inr (.inl ⟨withdrawn.1, Move.withdraw db.registry _ (isPendingGuest_invites _ _)⟩)
  rename_i noInvite
  split at run
  · cases run
    exact .inl rfl
  rename_i w found
  have row := List.mem_of_find?_eq_some found
  have isRow := List.find?_some found
  obtain ⟨_, db₁, written, run⟩ := exec_bind_eq_ok run
  obtain ⟨rfl, index⟩ := writeWhitelist_ok written
  cases enabled with
  | true =>
      cases run
      exact .inr (.inr (Move.toggleOn db.registry acct guest member index))
  | false =>
      have noInvite : ∀ w ∈ db.registry.rows, isPendingGuest acct.id guest w = false := by
        simpa [Db.registry] using noInvite
      rcases reactivateOwnerIfOrphanTx_ok run with ⟨rfl, active⟩ | ⟨rfl, orphan, -⟩
      · exact .inr (.inr (Move.toggleOff db.registry acct guest w member row isRow noInvite
          (hasActiveRow_iff.mp active)))
      · refine .inr (.inr (Move.toggleOffHome db.registry acct guest w member row isRow noInvite ?_))
        rw [← Bool.not_eq_true] at orphan
        exact fun active => orphan (hasActiveRow_iff.mpr active)

end FipsExitGate
