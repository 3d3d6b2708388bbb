import FipsExitGate.Fipsaddr.Address
import FipsExitGate.Store.Ops
import FipsExitGate.Store.Readers

/-!
# Spellings of an npub

bech32 is case-insensitive, so an identity has more than one spelling, and `normNpub` is
there so that all of them map to the same rows.  This module asks which store operations
cannot tell two spellings apart.

An operation is an `NpubOp ν`, where `ν` stands for the npubs among its arguments: a call is
an `NpubOp String`, and a call in two spellings is an `NpubOp (String × String)`.  Nine of
the fourteen operations only look at the canonical spelling, so their two calls are the
same program.  The other five compare a spelling as it is given (`NpubOp.compared`), and
for each there is a database on which two spellings have different outcomes.

## Main results

* `same_outcome_iff` — the calls have the same outcome on every database exactly when no
  spelling that is compared as given differs
* `upper_case_hides_purchases` — a purchase made under the upper-case spelling is counted
  for the lower-case spelling and not for its own
-/

namespace FipsExitGate

open Program Table Fipsaddr

/-! ## Operations on npubs -/

/-- The store operations that take npubs. -/
inductive NpubOp (ν : Type) where
  | createAccount (npub : ν)
  | getAccountByNpub (npub : ν)
  | createPurchase (npub : ν) (packageId : Nat)
  | openPurchases (npub : ν)
  | purchaseForPay (purchaseId : Nat) (npub : ν)
  | summary (npub : ν)
  | inviteGuest (ownerNpub guestNpub : ν) (label : String)
  | acceptInvite (guestNpub hostNpub : ν)
  | declineInvite (guestNpub hostNpub : ν)
  | pendingInvites (guestNpub : ν)
  | setWhitelistEnabled (ownerNpub guestNpub : ν) (enabled : Bool)
  | activateOwner (npub : ν)
  | createWgPeer (sessionNpub forNpub : ν) (label pubkey : String)
  | deleteWgPeer (sessionNpub : ν) (id : Nat)

namespace NpubOp

variable {ν μ : Type}

/-- The operation with its npubs replaced. -/
def map (f : ν → μ) : NpubOp ν → NpubOp μ
  | createAccount npub => createAccount (f npub)
  | getAccountByNpub npub => getAccountByNpub (f npub)
  | createPurchase npub packageId => createPurchase (f npub) packageId
  | openPurchases npub => openPurchases (f npub)
  | purchaseForPay purchaseId npub => purchaseForPay purchaseId (f npub)
  | summary npub => summary (f npub)
  | inviteGuest ownerNpub guestNpub label => inviteGuest (f ownerNpub) (f guestNpub) label
  | acceptInvite guestNpub hostNpub => acceptInvite (f guestNpub) (f hostNpub)
  | declineInvite guestNpub hostNpub => declineInvite (f guestNpub) (f hostNpub)
  | pendingInvites guestNpub => pendingInvites (f guestNpub)
  | setWhitelistEnabled ownerNpub guestNpub enabled =>
      setWhitelistEnabled (f ownerNpub) (f guestNpub) enabled
  | activateOwner npub => activateOwner (f npub)
  | createWgPeer sessionNpub forNpub label pubkey =>
      createWgPeer (f sessionNpub) (f forNpub) label pubkey
  | deleteWgPeer sessionNpub id => deleteWgPeer (f sessionNpub) id

/-- The npubs an operation takes. -/
def npubs : NpubOp ν → List ν
  | createAccount npub | getAccountByNpub npub | createPurchase npub _ | openPurchases npub
  | purchaseForPay _ npub | summary npub | pendingInvites npub | activateOwner npub
  | deleteWgPeer npub _ => [npub]
  | inviteGuest npub other _ | acceptInvite npub other | declineInvite npub other
  | setWhitelistEnabled npub other _ | createWgPeer npub other _ _ => [npub, other]

/-- The npubs that are compared as they are given.  `CreateWgPeer` refuses a malformed key
before it looks at its npubs. -/
def compared : NpubOp ν → List ν
  | openPurchases npub | purchaseForPay _ npub | summary npub | deleteWgPeer npub _ => [npub]
  | createWgPeer sessionNpub forNpub _ pubkey =>
      if validWgKey (trimSpace pubkey) then [sessionNpub, forNpub] else []
  | _ => []

variable {κ : Type}

theorem map_map (f : ν → μ) (g : μ → κ) (op : NpubOp ν) : (op.map f).map g = op.map (g ∘ f) := by
  cases op <;> rfl

theorem map_congr {f g : ν → μ} {op : NpubOp ν} (same : ∀ npub ∈ op.npubs, f npub = g npub) :
    op.map f = op.map g := by
  cases op <;> simp only [npubs, List.forall_mem_cons] at same <;> simp only [map, same]

theorem compared_map (f : ν → μ) (op : NpubOp ν) : (op.map f).compared = op.compared.map f := by
  cases op with
  | createWgPeer sessionNpub forNpub label pubkey =>
      simp only [map, compared]
      split <;> rfl
  | _ => rfl

/-- An operation compares all of its npubs as given, or none. -/
theorem compared_eq (op : NpubOp ν) : op.compared = [] ∨ op.compared = op.npubs := by
  cases op with
  | createWgPeer sessionNpub forNpub label pubkey =>
      simp only [compared, npubs]
      split
      · exact .inr rfl
      · exact .inl rfl
  | openPurchases npub => exact .inr rfl
  | purchaseForPay purchaseId npub => exact .inr rfl
  | summary npub => exact .inr rfl
  | deleteWgPeer sessionNpub id => exact .inr rfl
  | _ => exact .inl rfl

end NpubOp

/-- What an operation returns. -/
inductive Response where
  | done
  | account (account : Account)
  | purchaseId (id : Nat)
  | purchases (views : List PurchaseView)
  | pay (view : PayView)
  | summary (summary : AccountSummary)
  | pending (pending : Bool)
  | invites (invites : List Invite)
  | peer (peer : IssuedPeer)
  deriving DecidableEq

/-- The method an operation calls. -/
def Store.serve (s : Store) (env : Env) : NpubOp String → StoreM Response
  | .createAccount npub => .account <$> s.createAccount env npub
  | .getAccountByNpub npub => .account <$> s.getAccountByNpub npub
  | .createPurchase npub packageId => .purchaseId <$> s.createPurchase env npub packageId
  | .openPurchases npub => .purchases <$> openPurchases npub
  | .purchaseForPay purchaseId npub => .pay <$> purchaseForPay purchaseId npub
  | .summary npub => .summary <$> s.summary env npub
  | .inviteGuest ownerNpub guestNpub label =>
      .pending <$> s.inviteGuest env ownerNpub guestNpub label
  | .acceptInvite guestNpub hostNpub => (fun _ => .done) <$> s.acceptInvite env guestNpub hostNpub
  | .declineInvite guestNpub hostNpub =>
      (fun _ => .done) <$> s.declineInvite env guestNpub hostNpub
  | .pendingInvites guestNpub => .invites <$> s.pendingInvites guestNpub
  | .setWhitelistEnabled ownerNpub guestNpub enabled =>
      (fun _ => .done) <$> s.setWhitelistEnabled env ownerNpub guestNpub enabled
  | .activateOwner npub => (fun _ => .done) <$> s.activateOwner env npub
  | .createWgPeer sessionNpub forNpub label pubkey =>
      .peer <$> s.createWgPeer env sessionNpub forNpub label pubkey
  | .deleteWgPeer sessionNpub id => (fun _ => .done) <$> deleteWgPeer env sessionNpub id

/-- An npub and another spelling of it: one canonical form, and `DecodeNpub` accepts the
other spelling. -/
structure Respelling (unicode : CaseTables) (spelling : String × String) : Prop where
  norm : normNpub unicode spelling.2 = normNpub unicode spelling.1
  accepted : ∃ pubkey, decodeNpub unicode (utf8 spelling.2) = .ok pubkey

/-- A call in two spellings has one outcome: on every database, in every environment, both
calls return the same and leave the same tables. -/
def SameOutcome (s : Store) (op : NpubOp (String × String)) : Prop :=
  ∀ env db, exec (s.serve env (op.map Prod.fst)) db = exec (s.serve env (op.map Prod.snd)) db

/-! ## Operations on canonical npubs -/

/-- A malformed key is refused whatever the npubs. -/
theorem createWgPeer_of_refused {s : Store} {env : Env} {sessionNpub forNpub label pubkey : String}
    (refused : validWgKey (trimSpace pubkey) = false) :
    s.createWgPeer env sessionNpub forNpub label pubkey = throw .wgBadKey := by
  simp only [Store.createWgPeer, refused, Bool.not_false, if_true]

/-- An operation that compares nothing as given only looks at canonical npubs. -/
theorem serve_map_normNpub {s : Store} {op : NpubOp String} (none : op.compared = []) (env : Env) :
    s.serve env (op.map s.ident.normNpub) = s.serve env op := by
  have idem := s.ident.norm_idem
  cases op with
  | openPurchases npub => cases none
  | purchaseForPay purchaseId npub => cases none
  | summary npub => cases none
  | deleteWgPeer sessionNpub id => cases none
  | createWgPeer sessionNpub forNpub label pubkey =>
      have refused : validWgKey (trimSpace pubkey) = false := by
        by_contra valid
        simp [NpubOp.compared, valid] at none
      rw [NpubOp.map, Store.serve, Store.serve, createWgPeer_of_refused refused,
        createWgPeer_of_refused refused]
  | createAccount npub => simp only [NpubOp.map, Store.serve, Store.createAccount, idem]
  | getAccountByNpub npub => simp only [NpubOp.map, Store.serve, Store.getAccountByNpub, idem]
  | createPurchase npub packageId =>
      simp only [NpubOp.map, Store.serve, Store.createPurchase, Store.getAccountByNpub, idem]
  | inviteGuest ownerNpub guestNpub label =>
      simp only [NpubOp.map, Store.serve, Store.inviteGuest, Store.getAccountByNpub, idem]
  | acceptInvite guestNpub hostNpub =>
      simp only [NpubOp.map, Store.serve, Store.acceptInvite, idem]
  | declineInvite guestNpub hostNpub =>
      simp only [NpubOp.map, Store.serve, Store.declineInvite, idem]
  | pendingInvites guestNpub => simp only [NpubOp.map, Store.serve, Store.pendingInvites, idem]
  | setWhitelistEnabled ownerNpub guestNpub enabled =>
      simp only [NpubOp.map, Store.serve, Store.setWhitelistEnabled, Store.getAccountByNpub, idem]
  | activateOwner npub =>
      simp only [NpubOp.map, Store.serve, Store.activateOwner, Store.getAccountByNpub, idem]

/-- Two spellings that agree where they are compared make the same program. -/
theorem serve_eq_of_compared {s : Store} {op : NpubOp (String × String)}
    (norm : ∀ p ∈ op.npubs, s.ident.normNpub p.1 = s.ident.normNpub p.2)
    (equal : ∀ p ∈ op.compared, p.1 = p.2) (env : Env) :
    s.serve env (op.map Prod.fst) = s.serve env (op.map Prod.snd) := by
  rcases op.compared_eq with none | all
  · have left : (op.map Prod.fst).compared = [] := by rw [NpubOp.compared_map, none, List.map_nil]
    have right : (op.map Prod.snd).compared = [] := by rw [NpubOp.compared_map, none, List.map_nil]
    rw [← serve_map_normNpub left, ← serve_map_normNpub right, NpubOp.map_map, NpubOp.map_map]
    exact congrArg (s.serve env) (NpubOp.map_congr norm)
  · rw [all] at equal
    rw [NpubOp.map_congr equal]

/-! ## Operations that compare spellings -/

/-- A database with an open purchase of the account of `npub`, and other accounts. -/
def soldTo (npub : String) (purchaseId : Nat) (others : List Account) : Db :=
  { Db.empty with
    accounts := ⟨1, npub, firstAddr, .active⟩ :: others
    packages := [⟨2, .volume, "10 GB", some (10 * 2 ^ 30), 30, 10000000, true, none⟩]
    purchases := [⟨purchaseId, 1, 2, none, .pending, 0, none, none, none⟩] }

theorem purchasesOf_soldTo {npub other : String} {purchaseId : Nat} {others : List Account}
    (distinct : ∀ a ∈ others, a.id ≠ 1) :
    (soldTo npub purchaseId others).purchasesOf other =
      if npub = other then
        [(⟨purchaseId, 1, 2, none, .pending, 0, none, none, none⟩,
          ⟨2, .volume, "10 GB", some (10 * 2 ^ 30), 30, 10000000, true, none⟩)]
      else [] := by
  have rest : (others.filter fun a => decide (a.id = 1) && decide (a.npub = other)) = [] := by
    rw [List.filter_eq_nil_iff]
    intro a member
    simp [distinct a member]
  by_cases same : npub = other <;> simp [soldTo, Db.purchasesOf, same, rest]

theorem openPurchases_soldTo {npub other : String} {purchaseId : Nat} {others : List Account}
    (distinct : ∀ a ∈ others, a.id ≠ 1) :
    (soldTo npub purchaseId others).openPurchases other = [] ↔ npub ≠ other := by
  rw [Db.openPurchases, purchasesOf_soldTo distinct]
  by_cases same : npub = other <;> simp [same, Purchase.isOpen]

theorem openPurchases_differs (s : Store) {n n' : String} (different : n ≠ n') :
    ¬ SameOutcome s (.openPurchases (n, n')) := by
  intro same
  have outcome := congrArg Prod.fst (exec_eq_of_exec_map_eq (fun _ _ => Response.purchases.inj)
    (same (calm 0) (soldTo n' 3 [])))
  have views : (soldTo n' 3 []).openPurchases n = (soldTo n' 3 []).openPurchases n' :=
    Except.ok.inj outcome
  rw [(openPurchases_soldTo (by simp)).mpr different.symm] at views
  exact (openPurchases_soldTo (by simp)).mp views.symm rfl

theorem purchaseForPay_differs (s : Store) {n n' : String} (id : Nat) (different : n ≠ n') :
    ¬ SameOutcome s (.purchaseForPay id (n, n')) := by
  intro same
  have outcome := exec_eq_of_exec_map_eq (fun _ _ => Response.pay.inj)
    (same (calm 0) (soldTo n' id []))
  rw [exec_purchaseForPay, exec_purchaseForPay, purchasesOf_soldTo (by simp),
    purchasesOf_soldTo (by simp), if_neg different.symm, if_pos rfl] at outcome
  simp at outcome

/-- The dashboard finds the account by the canonical spelling and its purchases by the
given one: an account under each shows the difference. -/
theorem summary_differs {s : Store} {n n' : String} (norm : s.ident.normNpub n = s.ident.normNpub n')
    (different : n ≠ n') : ¬ SameOutcome s (.summary (n, n')) := by
  intro same
  obtain ⟨others, acct, distinct, found⟩ : ∃ others acct, (∀ a ∈ others, a.id ≠ 1) ∧
      (soldTo n' 3 others).accounts.find? (fun a => decide (a.npub = s.ident.normNpub n')) =
        some acct := by
    by_cases canonical : n' = s.ident.normNpub n'
    · exact ⟨[], ⟨1, n', firstAddr, .active⟩, by simp, by simp [soldTo, ← canonical]⟩
    · exact ⟨[⟨4, s.ident.normNpub n', secondAddr, .active⟩], _, by simp,
        by simp only [soldTo, List.find?_cons, decide_eq_false canonical, decide_true]; rfl⟩
  have account : ∀ m, s.ident.normNpub m = s.ident.normNpub n' →
      exec (s.getAccountByNpub m) (soldTo n' 3 others) = (.ok acct, soldTo n' 3 others) := by
    intro m canonical
    rw [Store.getAccountByNpub, exec_get_bind, canonical, found]
    rfl
  have outcome := exec_eq_of_exec_map_eq (fun _ _ => Response.summary.inj)
    (same (calm 0) (soldTo n' 3 others))
  rw [exec_summary (account n norm) rfl rfl rfl, exec_summary (account n' rfl) rfl rfl rfl] at outcome
  have views : (soldTo n' 3 others).openPurchases n = (soldTo n' 3 others).openPurchases n' :=
    congrArg AccountSummary.openPurchases (Except.ok.inj (congrArg Prod.fst outcome))
  rw [(openPurchases_soldTo distinct).mpr different.symm] at views
  exact (openPurchases_soldTo distinct).mp views.symm rfl

/-- A database with a peer of an account stored under `npub`. -/
def issuedTo (npub : String) (id : Nat) : Db :=
  { Db.empty with
    accounts := [⟨1, npub, firstAddr, .active⟩]
    wgPeers := [⟨id, 1, npub, firstAddr, "", 2, "", npub, 0⟩] }

theorem deleteWgPeer_differs (s : Store) {n n' : String} (id : Nat) (different : n ≠ n') :
    ¬ SameOutcome s (.deleteWgPeer (n, n') id) := by
  intro same
  have outcome := congrArg Prod.fst (exec_eq_of_exec_map_eq (fun _ _ _ => rfl)
    (same (calm 0) (issuedTo n' id)))
  have mine : ((issuedTo n' id).wgPeers.any ((issuedTo n' id).mayDelete n' id)) = true := by
    simp [issuedTo, Db.mayDelete]
  have foreign : ¬ ((issuedTo n' id).wgPeers.any ((issuedTo n' id).mayDelete n id)) = true := by
    simp [issuedTo, Db.mayDelete, different.symm]
  rw [exec_deleteWgPeer rfl, exec_deleteWgPeer rfl, if_pos mine, if_neg foreign] at outcome
  cases outcome

/-- A database in which `sessionNpub` may issue a peer to `forNpub`. -/
def hosting (sessionNpub forNpub : String) (addr : Addr) : Db :=
  { Db.empty with
    accounts := [⟨1, sessionNpub, firstAddr, .active⟩]
    whitelist := [⟨2, 1, forNpub, addr, .guest, true, false, none, 0⟩] }

theorem exec_createWgPeer_hosting {s : Store} {forNpub pubkey : String} {addr : Addr}
    (valid : validWgKey (trimSpace pubkey) = true) (derived : s.ident.fromNpub forNpub = some addr)
    (sessionNpub label : String) :
    ∃ issued db', exec (s.createWgPeer (calm 0) sessionNpub forNpub label pubkey)
      (hosting sessionNpub forNpub addr) = (.ok issued, db') := by
  have few : ¬ s.maxWgPeers ≤ 0 := by
    unfold Store.maxWgPeers
    split <;> omega
  have issues : ∃ peer db', exec (s.createWgPeerTx sessionNpub forNpub label (trimSpace pubkey) addr 0)
      (hosting sessionNpub forNpub addr) = (.ok peer, db') := by
    unfold Store.createWgPeerTx
    rw [exec_get_bind]
    simp [hosting, WhitelistEntry.active, Db.isAccountOf, Db.empty, few, exec_allocWgPeer_succ]
  obtain ⟨peer, db', issues⟩ := issues
  refine ⟨s.fillPeerIPs peer, db', ?_⟩
  unfold Store.createWgPeer
  simp only [valid, derived]
  exact exec_bind_ok (exec_inTx rfl issues)

/-- What is issued records both npubs as they were given. -/
theorem createWgPeer_ok {s : Store} {env : Env} {sessionNpub forNpub label pubkey : String}
    {db db' : Db} {issued : IssuedPeer}
    (run : exec (s.createWgPeer env sessionNpub forNpub label pubkey) db = (.ok issued, db')) :
    issued.peer.npub = forNpub ∧ issued.peer.createdBy = sessionNpub := by
  unfold Store.createWgPeer at run
  generalize trimSpace pubkey = key at run
  generalize validWgKey key = valid at run
  dsimp only at run
  split at run
  · cases run
  split at run
  · cases run
  obtain ⟨peer, db₁, issues, run⟩ := exec_bind_eq_ok run
  cases run
  obtain ⟨w, -, -, -, alloc, idx, rfl, -⟩ := createWgPeerTx_ok (exec_inTx_ok issues)
  exact ⟨rfl, rfl⟩

theorem createWgPeer_differs {s : Store} {n n' m m' label pubkey : String} {addr : Addr}
    (valid : validWgKey (trimSpace pubkey) = true) (derived : s.ident.fromNpub m' = some addr)
    (different : n ≠ n' ∨ m ≠ m') : ¬ SameOutcome s (.createWgPeer (n, n') (m, m') label pubkey) := by
  intro same
  obtain ⟨issued, db', run'⟩ := exec_createWgPeer_hosting valid derived n' label
  have run := (exec_eq_of_exec_map_eq (fun _ _ => Response.peer.inj)
    (same (calm 0) (hosting n' m' addr))).trans run'
  obtain ⟨forM, byN⟩ := createWgPeer_ok run
  obtain ⟨forM', byN'⟩ := createWgPeer_ok run'
  rcases different with session | for'
  · exact session (byN.symm.trans byN')
  · exact for' (forM.symm.trans forM')

/-! ## Which operations cannot tell spellings apart -/

/-- An accepted spelling has an address. -/
theorem Respelling.derived {unicode : CaseTables} {spelling : String × String}
    (other : Respelling unicode spelling) : ∃ addr, fromNpub unicode spelling.2 = some addr := by
  obtain ⟨pubkey, decoded⟩ := other.accepted
  exact ⟨fromPubkey pubkey, by rw [fromNpub, decoded]⟩

/-- **Spellings of an npub are interchangeable exactly where none is compared as given.**
For every operation and every two spellings of its npubs: on every database both calls
return the same and leave the same tables, if and only if the spellings that the operation
compares as they are given are equal. -/
theorem same_outcome_iff {unicode : CaseTables} {s : Store} (scheme : s.ident = npubIdentity unicode)
    (op : NpubOp (String × String)) (respelled : ∀ p ∈ op.npubs, Respelling unicode p) :
    SameOutcome s op ↔ ∀ p ∈ op.compared, p.1 = p.2 := by
  have norm : ∀ p ∈ op.npubs, s.ident.normNpub p.1 = s.ident.normNpub p.2 := by
    intro p member
    rw [scheme]
    exact (respelled p member).norm.symm
  constructor
  · intro same p isCompared
    by_contra different
    -- one database for each operation that compares a spelling
    cases op with
    | openPurchases npub =>
        cases List.mem_singleton.mp isCompared
        exact openPurchases_differs s different same
    | purchaseForPay purchaseId npub =>
        cases List.mem_singleton.mp isCompared
        exact purchaseForPay_differs s purchaseId different same
    | summary npub =>
        cases List.mem_singleton.mp isCompared
        exact summary_differs (norm p isCompared) different same
    | deleteWgPeer sessionNpub id =>
        cases List.mem_singleton.mp isCompared
        exact deleteWgPeer_differs s id different same
    | createWgPeer sessionNpub forNpub label pubkey =>
        by_cases valid : validWgKey (trimSpace pubkey) = true
        · obtain ⟨addr, derived⟩ := (respelled forNpub (by simp [NpubOp.npubs])).derived
          rw [NpubOp.compared, if_pos valid] at isCompared
          refine createWgPeer_differs valid (by rw [scheme]; exact derived) ?_ same
          rcases List.mem_pair.mp isCompared with rfl | rfl
          · exact .inl different
          · exact .inr different
        · rw [NpubOp.compared, if_neg valid] at isCompared
          cases isCompared
    | _ => cases isCompared
  · intro equal env db
    rw [serve_eq_of_compared norm equal]

/-! ## The upper-case spelling -/

/-- The upper-case spelling of `firstNpub`. -/
def upperNpub : String := "NPUB180CVV07TJDRRGPA0J7J7TMNYL2YR6YR7L8J4S3EVF6U64TH6GKWSYJH6W6"

theorem respelling_upperNpub : Respelling asciiTables (firstNpub, upperNpub) where
  norm := by
    -- the characters of a literal are rewritten, not computed from its bytes
    apply String.toList_inj.mp
    rw [toList_normNpub, toList_normNpub, upperNpub, firstNpub, String.toList_ofList,
      String.toList_ofList]
    decide +kernel
  accepted := by
    have isSome : (decodeNpub asciiTables (utf8 upperNpub)).toOption.isSome = true := by
      rw [upperNpub, utf8_ofList]
      decide +kernel
    cases decoded : decodeNpub asciiTables (utf8 upperNpub) with
    | ok pubkey => exact ⟨pubkey, rfl⟩
    | error e =>
        rw [decoded] at isSome
        cases isSome

/-- A store with the backend's identity scheme, its limits left at their defaults. -/
def npubStore : Store where
  ident := npubIdentity asciiTables
  MaxGuests := 0
  pools := none
  MaxWgPeersPerAddr := 0

theorem same_outcome_iff_upperNpub :
    SameOutcome npubStore (.createPurchase (firstNpub, upperNpub) 1) ∧
      ¬ SameOutcome npubStore (.openPurchases (firstNpub, upperNpub)) := by
  have scheme : npubStore.ident = npubIdentity asciiTables := rfl
  have respelled (op : NpubOp (String × String)) (only : op.npubs = [(firstNpub, upperNpub)]) :
      ∀ p ∈ op.npubs, Respelling asciiTables p := by
    rw [only]
    intro p isIt
    rw [List.mem_singleton.mp isIt]
    exact respelling_upperNpub
  refine ⟨(same_outcome_iff scheme _ (respelled _ rfl)).mpr fun p none => (by cases none), ?_⟩
  intro same
  have equal := (same_outcome_iff scheme _ (respelled _ rfl)).mp same _ (List.mem_singleton.mpr rfl)
  exact absurd equal (by decide +kernel)

/-- A package is on sale; the buyer signs in with the upper-case spelling and buys. -/
def upperCaseBuy : List Call :=
  [⟨calm 1, .createPackage .volume "10 GB" (10 * 2 ^ 30) 30 10000000 none⟩,
    ⟨calm 2, .createAccount upperNpub⟩,
    ⟨calm 3, .createPurchase upperNpub 1⟩]

/-- **The upper-case spelling hides the purchases made with it.**  The purchase is on the
account, where the canonical spelling finds it; the spelling it was made with finds none,
so the limit on unpaid purchases never applies. -/
theorem upper_case_hides_purchases :
    Respelling asciiTables (firstNpub, upperNpub) ∧
      ((npubStore.after upperCaseBuy).openPurchases firstNpub).length = 1 ∧
      (npubStore.after upperCaseBuy).openPurchases upperNpub = [] :=
  ⟨respelling_upperNpub, by decide +kernel⟩

end FipsExitGate
