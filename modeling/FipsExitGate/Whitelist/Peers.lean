import FipsExitGate.Whitelist.Consent

/-!
# A peer and the account that pays for it

A WireGuard peer is attached to the account that its address is active on when the peer is
issued.  The row of `wg_peers` keeps this account for good, while the address may move: its
npub accepts an invitation, pays for an account of its own, asks for it, or is switched off
by its host.  None of these operations looks at the peers of the address.

So the peers stay with the account that pays only in runs in which no call makes the row of
another account active for an address that has peers.  `Store.destinations` says, from the
database before the call, which addresses a call may make active on which account.

## Main results

* `active_of_move` — where an active row comes from
* `peers_attached` — the invariant, for the runs that meet the condition
* `peer_left_behind` — a guest who pays leaves the peer with the host
-/

namespace FipsExitGate

open Program Table Machine

/-! ## Where active rows come from -/

/-- Where a row makes an address active: the address, and the account of the row. -/
def WhitelistEntry.place (w : WhitelistEntry) : Addr × AccountId := (w.fipsAddr, w.accountId)

theorem place_eq_of_key {w₁ w₂ : WhitelistEntry} (same : w₁.key = w₂.key) : w₁.place = w₂.place :=
  congrArg (fun k : RowKey => (k.fipsAddr, k.accountId)) same

/-- **What a move from `r` may make active**, other than the insertion of an owner row. -/
def Registry.Activates (r : Registry) (ident : Identity) : Label → Addr × AccountId → Prop
  | .accept guest host, place =>
      ∃ w ∈ r.rows, w.npub = guest ∧ w.pending = true ∧ w.role = .guest ∧
        (∃ a ∈ r.accounts, a.id = w.accountId ∧ a.npub = host) ∧ place = w.place
  | .home acct, place => ∃ w ∈ r.rows, w.role = .owner ∧ w.accountId = acct ∧ place = w.place
  | .add host guest, place =>
      ∃ a ∈ r.accounts, a.npub = host ∧ ∃ addr, ident.fromNpub guest = some addr ∧
        place = (addr, a.id) ∧
        ∀ w ∈ r.rows, w.fipsAddr = addr → w.active = true → isEntry a.id guest w = true
  | .toggle host guest true, place =>
      ∃ a ∈ r.accounts, a.npub = host ∧ ∃ w ∈ r.rows, isEntry a.id guest w = true ∧
        (toggled r.rows true w).active = true ∧ place = w.place
  -- the guest was active on the account, and its own owner row takes over
  | .toggle host guest false, place =>
      ∃ a ∈ r.accounts, a.npub = host ∧ ∃ w ∈ r.rows, isEntry a.id guest w = true ∧
        w.active = true ∧ ∃ o ∈ r.rows, o.role = .owner ∧ o.fipsAddr = w.fipsAddr ∧ place = o.place
  | _, _ => False

/-- **Where an active row comes from**: it was active, or the move has activated it. -/
theorem active_of_move {ident : Identity} {l : Label} {r r' : Registry} (valid : r.Valid ident)
    (move : Move ident l r r') (noInsertion : l ≠ .owner) {a : WhitelistEntry}
    (member : a ∈ r'.rows) (active : a.active = true) :
    (∃ x ∈ r.rows, x.active = true ∧ x.key = a.key) ∨ r.Activates ident l a.place := by
  cases move with
  | idle | account => exact .inl ⟨a, member, active, rfl⟩
  | owner => exact absurd rfl noInsertion
  | invite _ acct guest addr label now isAccount derived other =>
      rcases mem_upsert member with ⟨w, row, -, rfl⟩ | row | rfl
      · exact .inl ⟨w, row, (Registry.reinvited_active label w).symm.trans active, rfl⟩
      · exact .inl ⟨a, row, active, rfl⟩
      · simp [WhitelistEntry.active] at active
  | withdraw _ p isOpen => exact .inl ⟨a, (mem_deleteWhere.mp member).1, active, rfl⟩
  | accept _ host w row isHost onHost isGuest isPending =>
      refine (active_of_activated valid row member active).symm.imp id fun isIt => ?_
      exact ⟨w, row, rfl, isPending, isGuest, ⟨host, isHost, onHost.symm, rfl⟩, place_eq_of_key isIt⟩
  | home _ w row isOwner =>
      refine (active_of_activated valid row member active).symm.imp id fun isIt => ?_
      exact ⟨w, row, isOwner, rfl, place_eq_of_key isIt⟩
  | add _ acct guest addr label now isAccount derived index =>
      -- by the index, no other row of the address is active
      have activates (isIts : isEntry acct.id guest a = true) (atAddr : a.fipsAddr = addr) :
          r.Activates ident (.add acct.npub guest) a.place := by
        have onAccount : a.accountId = acct.id := by
          simp only [isEntry, Bool.and_eq_true, decide_eq_true_eq] at isIts
          exact isIts.1
        refine ⟨acct, isAccount, rfl, addr, derived, ?_, fun w row here isActive => ?_⟩
        · rw [WhitelistEntry.place, atAddr, onAccount]
        by_contra other
        refine other (ActiveIndex.eq index ?_ member isActive active (here.trans atAddr.symm) ▸ isIts)
        unfold addRows upsert
        split
        · exact mem_updateWhere.mpr (.inr ⟨row, by simpa using other⟩)
        · exact List.mem_append_left _ row
      rcases mem_upsert member with ⟨w, row, isRow, rfl⟩ | row | rfl
      · refine .inr (activates isRow ?_)
        have addrs := valid.keyed.derived row
        simp only [isEntry, Bool.and_eq_true, decide_eq_true_eq] at isRow
        rw [isRow.2, derived, Option.some_inj] at addrs
        exact addrs.symm
      · exact .inl ⟨a, row, active, rfl⟩
      · exact .inr (activates (by simp [isEntry]) rfl)
  | toggleOn _ acct guest isAccount index =>
      rcases mem_updateWhere.mp member with ⟨w, row, isRow, rfl⟩ | ⟨row, -⟩
      · exact .inr ⟨acct, isAccount, rfl, w, row, isRow, active, rfl⟩
      · exact .inl ⟨a, row, active, rfl⟩
  | toggleOff _ acct guest w isAccount row isRow noInvite stillActive =>
      exact .inl ⟨a, active_of_toggledOff member active, active, rfl⟩
  | toggleOffHome _ acct guest w isAccount row isRow noInvite orphan =>
      rcases mem_updateWhere.mp member with ⟨y, isIn, hit, rfl⟩ | ⟨isIn, -⟩
      · simp only [Bool.and_eq_true, decide_eq_true_eq] at hit
        obtain ⟨o, owner, same⟩ := key_of_updateWhere (Registry.toggled_key _ _) isIn
        have isOwner : o.role = .owner := (congrArg RowKey.role same).trans hit.2
        have atAddr : o.fipsAddr = w.fipsAddr := (congrArg RowKey.fipsAddr same).trans hit.1
        -- the address had an active row, and none is left: it was the row of the guest
        obtain ⟨x, held, sameAddr, wasActive⟩ := valid.attributed o owner isOwner
        have entry : isEntry acct.id guest x = true := by
          by_contra other
          exact orphan ⟨x, mem_updateWhere.mpr (.inr ⟨held, by simpa using other⟩),
            sameAddr.trans atAddr, wasActive⟩
        exact .inr ⟨acct, isAccount, rfl, x, held, entry, wasActive, o, owner, isOwner,
          sameAddr.symm, (place_eq_of_key same).symm⟩
      · exact .inl ⟨a, active_of_toggledOff isIn active, active, rfl⟩

/-! ## The invariant -/

/-- The peers of the address are attached to the account. -/
def peersOn (peers : List WgPeer) (place : Addr × AccountId) : Bool :=
  peers.all fun p => !decide (p.fipsAddr = place.1) || decide (p.accountId = place.2)

theorem peersOn_iff {peers : List WgPeer} {place : Addr × AccountId} :
    peersOn peers place = true ↔ ∀ p ∈ peers, p.fipsAddr = place.1 → p.accountId = place.2 := by
  simp [peersOn, ← imp_iff_not_or]

/-- **Attached**: wherever an address is active, its peers are attached. -/
def Registry.Attached (peers : List WgPeer) (r : Registry) : Prop :=
  ∀ w ∈ r.rows, w.active = true → peersOn peers w.place = true

/-- **Step**: a move that activates only where the peers are attached. -/
theorem attached_move {ident : Identity} {l : Label} {r r' : Registry} {peers : List WgPeer}
    (valid : r.Valid ident) (attached : r.Attached peers) (move : Move ident l r r')
    (noInsertion : l ≠ .owner)
    (stay : ∀ place, r.Activates ident l place → peersOn peers place = true) :
    r'.Attached peers := by
  intro a member active
  rcases active_of_move valid move noInsertion member active with ⟨x, row, was, same⟩ | activates
  · rw [← place_eq_of_key same]
    exact attached x row was
  · exact stay _ activates

/-! ## The condition -/

/-- The id of the account of a canonical npub, which may be about to be created. -/
def Db.ownId (db : Db) (npub : String) : AccountId :=
  match db.accounts.find? fun a => decide (a.npub = npub) with
  | some acct => acct.id
  | none => db.nextId

/-- The address of an npub, with its own account. -/
def Store.home (s : Store) (db : Db) (npub : String) : List (Addr × AccountId) :=
  match s.ident.fromNpub (s.ident.normNpub npub) with
  | none => []
  | some addr => [(addr, db.ownId (s.ident.normNpub npub))]

/-- The owner rows of some accounts. -/
def Db.ownerPlaces (db : Db) (its : AccountId → Bool) : List (Addr × AccountId) :=
  (db.whitelist.filter fun w => decide (w.role = .owner) && its w.accountId).map (·.place)

/-- The rows of a guest on the account of a host; both npubs are canonical. -/
def Db.guestRows (db : Db) (host guest : String) : List WhitelistEntry :=
  db.whitelist.filter fun w => decide (w.npub = guest) && db.isAccountOf host w.accountId

theorem mem_ownerPlaces {db : Db} {its : AccountId → Bool} {w : WhitelistEntry}
    (row : w ∈ db.whitelist) (isOwner : w.role = .owner) (isIts : its w.accountId = true) :
    w.place ∈ db.ownerPlaces its :=
  List.mem_map_of_mem (List.mem_filter.mpr ⟨row, by simp [isOwner, isIts]⟩)

theorem mem_guestRows {db : Db} {guest : String} {a : Account} {w : WhitelistEntry}
    (row : w ∈ db.whitelist) (isHost : a ∈ db.accounts) (isRow : isEntry a.id guest w = true) :
    w ∈ db.guestRows a.npub guest := by
  simp only [isEntry, Bool.and_eq_true, decide_eq_true_eq] at isRow
  refine List.mem_filter.mpr ⟨row, ?_⟩
  simp only [isRow.2, Db.isAccountOf, Bool.and_eq_true, decide_true, true_and, List.any_eq_true]
  exact ⟨a, isHost, by simp [isRow.1]⟩

/-- **What a call may make active**, from the database before it: addresses, each with the
account it may become active on. -/
def Store.destinations (s : Store) (db : Db) : Op → List (Addr × AccountId)
  | .createAccount npub => (s.home db npub).filter fun d => !db.hasActiveRow d.1
  | .creditVolume npub _ _ => s.home db npub
  | .creditTime npub _ => s.home db npub
  | .activateOwner npub => db.ownerPlaces (db.isAccountOf (s.ident.normNpub npub))
  | .grantByInvoice invoiceId =>
      db.ownerPlaces fun acct => db.purchases.any fun p =>
        decide (p.invoiceId = some invoiceId) && decide (p.status ≠ .settled) &&
          decide (p.accountId = acct)
  | .settlePurchase purchaseId =>
      db.ownerPlaces fun acct => db.purchases.any fun p =>
        decide (p.id = purchaseId) && decide (p.status ≠ .settled) && decide (p.accountId = acct)
  | .acceptInvite guest host =>
      ((db.guestRows (s.ident.normNpub host) (s.ident.normNpub guest)).filter fun w =>
        w.pending && decide (w.role = .guest)).map (·.place)
  | .addWhitelist owner guest _ =>
      match s.ident.fromNpub (s.ident.normNpub guest) with
      | none => []
      | some addr =>
          (db.accounts.filter fun a => decide (a.npub = s.ident.normNpub owner) &&
            -- the statement fails if another row is active for the address
            db.whitelist.all fun w => !(decide (w.fipsAddr = addr) && w.active) ||
              isEntry a.id (s.ident.normNpub guest) w).map fun a => (addr, a.id)
  | .setWhitelistEnabled owner guest true =>
      ((db.guestRows (s.ident.normNpub owner) (s.ident.normNpub guest)).filter fun w =>
        (toggled db.whitelist true w).active).map (·.place)
  | .setWhitelistEnabled owner guest false =>
      ((db.guestRows (s.ident.normNpub owner) (s.ident.normNpub guest)).filter (·.active)).flatMap
        fun w => (db.whitelist.filter fun o =>
          decide (o.role = .owner) && decide (o.fipsAddr = w.fipsAddr)).map (·.place)
  | _ => []

/-- **The condition**: the call makes no address active on an account that a peer of the
address is not attached to. -/
def Store.leavesPeers (s : Store) (db : Db) (op : Op) : Bool :=
  (s.destinations db op).all (peersOn db.wgPeers)

/-! ## Calls -/

/-- The operations that may make a row active. -/
def Op.mayActivate : Op → Bool
  | .createAccount _ | .creditVolume _ _ _ | .creditTime _ _ | .activateOwner _
  | .grantByInvoice _ | .settlePurchase _ | .acceptInvite _ _ | .addWhitelist _ _ _
  | .setWhitelistEnabled _ _ _ => true
  | _ => false

section Calls

variable {s : Store} {db : Db} (valid : db.registry.Valid s.ident)
  (attached : db.registry.Attached db.wgPeers)
include valid attached

/-- All other operations lead through moves that activate nothing. -/
theorem attached_quiet {c : Call} (quiet : c.op.mayActivate = false) :
    (s.call db c).registry.Attached db.wgPeers := by
  refine (leads_invariant (J := fun r => r.Valid s.ident ∧ r.Attached db.wgPeers) ?_
    (leads_of_call s db c) ⟨valid, attached⟩).2
  rintro l r r' allowed move ⟨isValid, isAttached⟩
  refine ⟨valid_move move isValid, ?_⟩
  obtain ⟨env, op⟩ := c
  cases allowed with
  | idle | invite | withdraw | decline =>
      exact attached_move isValid isAttached move nofun fun place activates => activates.elim
  | account opens | owner opens => cases opens <;> cases quiet
  | credit credits => cases credits <;> cases quiet
  | activate | grant | settle | accept | add | toggle | uninvite => cases quiet

/-- A transaction on the database as it was, and the recompute after it. -/
theorem triple_attachedTx {env : Env} {op : Op} {body : Time → StoreM Unit}
    (leaves : s.leavesPeers db op = true)
    (done : ∀ now u db', exec (body now) db = (.ok u, db') → db'.registry = db.registry ∨
      ∃ l, l ≠ .owner ∧ Move s.ident l db.registry db'.registry ∧
        ∀ place, db.registry.Activates s.ident l place → place ∈ s.destinations db op) :
    Triple (· = db) (inTx env 0 body >>= fun _ => recomputeAuthz env 1 >>= fun _ => pure ())
      (fun _ db' => db'.registry.Attached db.wgPeers)
      fun db' => db'.registry.Attached db.wgPeers := by
  refine triple_registryTx (J := fun r => r.Attached db.wgPeers) (fun db' (h : db' = db) => h ▸ attached) ?_ id
  rintro now db' u db'' rfl run
  rcases done now u db'' run with same | ⟨l, noInsertion, move, destined⟩
  · rwa [same]
  · exact attached_move valid attached move noInsertion fun place activates =>
      List.all_eq_true.mp leaves place (destined place activates)

theorem attached_acceptInvite {env : Env} {guest host : String}
    (leaves : s.leavesPeers db (.acceptInvite guest host) = true) :
    (s.call db ⟨env, .acceptInvite guest host⟩).registry.Attached db.wgPeers := by
  refine (triple_attachedTx valid attached leaves fun now u db' run => ?_).exec rfl
  refine .inr ⟨.accept _ _, nofun, acceptInviteTx_move run, ?_⟩
  rintro place ⟨w, row, isGuests, isPending, isGuest, ⟨a, isHost, onHost, isHosts⟩, rfl⟩
  have listed : w ∈ db.guestRows a.npub w.npub :=
    mem_guestRows row isHost (by simp [isEntry, onHost])
  rw [isGuests, isHosts] at listed
  exact List.mem_map_of_mem (List.mem_filter.mpr ⟨listed, by simp [isPending, isGuest]⟩)

/-- The methods that look an account up first. -/
theorem triple_onAccount {npub : String} {body : Account → StoreM Unit}
    (done : ∀ acct ∈ db.accounts, acct.npub = s.ident.normNpub npub →
      Triple (· = db) (body acct) (fun _ db' => db'.registry.Attached db.wgPeers)
        fun db' => db'.registry.Attached db.wgPeers) :
    Triple (· = db) (s.getAccountByNpub npub >>= body)
      (fun _ db' => db'.registry.Attached db.wgPeers)
      fun db' => db'.registry.Attached db.wgPeers := by
  refine Triple.bind ((triple_getAccountByNpub npub).conseq (fun _ h => h) (fun _ _ h => h)
    fun _ h => h ▸ attached) fun acct => ?_
  refine ⟨fun db' h => ?_⟩
  obtain ⟨rfl, member, isIt⟩ := h
  exact (done acct member isIt).holds db' rfl

theorem attached_activateOwner {env : Env} {npub : String}
    (leaves : s.leavesPeers db (.activateOwner npub) = true) :
    (s.call db ⟨env, .activateOwner npub⟩).registry.Attached db.wgPeers := by
  refine (triple_onAccount valid attached fun acct member isIt =>
    triple_attachedTx valid attached leaves fun now u db' run => ?_).exec rfl
  refine (activateOwnerTx_move run).imp id fun move => ⟨.home _, nofun, move, ?_⟩
  rintro place ⟨w, row, isOwner, isIts, rfl⟩
  exact mem_ownerPlaces row isOwner (List.any_eq_true.mpr ⟨acct, member, by simp [isIt, isIts]⟩)

theorem attached_setWhitelistEnabled {env : Env} {owner guest : String} {enabled : Bool}
    (leaves : s.leavesPeers db (.setWhitelistEnabled owner guest enabled) = true) :
    (s.call db ⟨env, .setWhitelistEnabled owner guest enabled⟩).registry.Attached db.wgPeers := by
  refine (triple_onAccount valid attached fun acct member isIt =>
    triple_attachedTx valid attached leaves fun now u db' run => ?_).exec rfl
  rcases setWhitelistEnabledTx_move s.ident member run with same | ⟨-, move⟩ | move
  · exact .inl same
  · exact .inr ⟨.withdraw, nofun, move, fun place activates => activates.elim⟩
  · refine .inr ⟨.toggle _ _ _, nofun, move, ?_⟩
    cases enabled with
    | true =>
        rintro place ⟨a, isHost, same, w, row, isRow, isOn, rfl⟩
        have listed := mem_guestRows row isHost isRow
        rw [same, isIt] at listed
        exact List.mem_map_of_mem (List.mem_filter.mpr ⟨listed, isOn⟩)
    | false =>
        rintro place ⟨a, isHost, same, w, row, isRow, active, o, ownerRow, isOwner, sameAddr, rfl⟩
        have listed := mem_guestRows row isHost isRow
        rw [same, isIt] at listed
        refine List.mem_flatMap.mpr ⟨w, List.mem_filter.mpr ⟨listed, active⟩, ?_⟩
        exact List.mem_map_of_mem (List.mem_filter.mpr ⟨ownerRow, by simp [isOwner, sameAddr]⟩)

theorem attached_addWhitelist {env : Env} {owner guest label : String}
    (leaves : s.leavesPeers db (.addWhitelist owner guest label) = true) :
    (s.call db ⟨env, .addWhitelist owner guest label⟩).registry.Attached db.wgPeers := by
  refine (triple_onAccount valid attached fun acct member isIt => ?_).exec rfl
  split
  · exact Triple.throw fun db' h => h ▸ attached
  rename_i addr derived
  let J (r : Registry) : Prop := r.Attached db.wgPeers
  refine Triple.bind (Q := fun _ db' => J db'.registry)
    (Triple.mapError (triple_inTx ?_ fun db' _ (h : db' = db) => h ▸ attached)) fun _ =>
      Keeps.bind (keeps_recomputeAuthz env 1 (fun _ _ h => h) fun _ _ h => h) fun _ => Keeps.pure _
  rintro now db' u db'' rfl run
  refine attached_move valid attached (addWhitelistTx_move member derived run) nofun ?_
  rintro place ⟨a, isHost, same, addr', derived', rfl, free⟩
  obtain rfl : addr = addr' := Option.some_inj.mp (derived.symm.trans derived')
  refine List.all_eq_true.mp leaves _ ?_
  simp only [Store.destinations, derived]
  refine List.mem_map_of_mem (f := fun a : Account => (addr, a.id)) (List.mem_filter.mpr ⟨isHost, ?_⟩)
  simp only [same, isIt, decide_true, Bool.true_and, List.all_eq_true, Bool.or_eq_true,
    Bool.not_eq_true', Bool.and_eq_false_imp, decide_eq_true_eq]
  intro w row
  by_cases here : w.fipsAddr = addr ∧ w.active = true
  · exact .inr (free w row here.1 here.2)
  · exact .inl fun atAddr => by simpa [atAddr] using here

end Calls

/-! ## Grants, credits and new accounts -/

/-- An owner row is brought home after an entitlement was made. -/
theorem attached_home {s : Store} {db db' : Db} {peers : List WgPeer} {new : Nat → Entitlement}
    {acct : AccountId} {u : Unit} (valid : db.registry.Valid s.ident)
    (attached : db.registry.Attached peers)
    (stay : ∀ w ∈ db.whitelist, w.role = .owner → w.accountId = acct → peersOn peers w.place = true)
    (run : exec (activateOwnerTx acct) (db.withEntitlement new) = (.ok u, db')) :
    db'.registry.Attached peers := by
  have grown : (db.withEntitlement new).registry.Valid s.ident := valid.grow (Nat.le_succ _)
  have before : (db.withEntitlement new).registry.Attached peers := attached
  rcases activateOwnerTx_move run with same | move
  · rwa [same]
  · refine attached_move grown before move nofun ?_
    rintro place ⟨w, row, isOwner, isIts, rfl⟩
    exact stay w row isOwner isIts

section Grants

variable {s : Store} {db : Db} (valid : db.registry.Valid s.ident)
  (attached : db.registry.Attached db.wgPeers)
include valid attached

theorem attached_grantEntitlementTx {purchaseId : Nat} {now : Time} {db' : Db} {u : Unit}
    (stay : ∀ p ∈ db.purchases, p.id = purchaseId → ∀ w ∈ db.whitelist, w.role = .owner →
      w.accountId = p.accountId → peersOn db.wgPeers w.place = true)
    (run : exec (grantEntitlementTx purchaseId now) db = (.ok u, db')) :
    db'.registry.Attached db.wgPeers := by
  obtain ⟨p, member, pt, -, isIt, -, ⟨-, rfl⟩ | ⟨-, db₁, home, rfl⟩⟩ := grantEntitlementTx_ok run
  · exact attached
  · have home : db₁.registry.Attached db.wgPeers :=
      attached_home valid attached (stay p member isIt) home
    exact home

/-- The grant of an unsettled purchase, found under its invoice or its id. -/
theorem attached_grant (ledger : db.Ledgered) (names : Purchase → Bool) {q : Purchase}
    (isPurchase : q ∈ db.purchases) (named : names q = true) (unsettled : q.status ≠ .settled)
    (leaves : (db.ownerPlaces fun acct => db.purchases.any fun p => names p &&
      decide (p.status ≠ .settled) && decide (p.accountId = acct)).all (peersOn db.wgPeers) = true)
    {now : Time} {u : Unit} {db' : Db}
    (granted : exec (grantEntitlementTx q.id now) db = (.ok u, db')) :
    db'.registry.Attached db.wgPeers := by
  refine attached_grantEntitlementTx valid attached (fun p member same w row isOwner onIt => ?_)
    granted
  obtain rfl := Ledger.purchase_eq ledger member isPurchase same
  refine List.all_eq_true.mp leaves _ (mem_ownerPlaces row isOwner ?_)
  exact List.any_eq_true.mpr ⟨p, member, by simp [named, unsettled, onIt]⟩

theorem attached_grantByInvoice (ledger : db.Ledgered) {env : Env} {invoiceId : String}
    (leaves : s.leavesPeers db (.grantByInvoice invoiceId) = true) :
    (s.call db ⟨env, .grantByInvoice invoiceId⟩).registry.Attached db.wgPeers := by
  refine (triple_registryTx (J := fun r => r.Attached db.wgPeers)
    (fun db' (h : db' = db) => h ▸ attached) ?_ id).exec rfl
  rintro now db' u db'' rfl run
  rcases grantByInvoiceTx_ok run with ⟨rfl, -⟩ | ⟨q, isPurchase, isIts, unsettled, granted⟩
  · exact attached
  · exact attached_grant valid attached ledger (fun p => decide (p.invoiceId = some invoiceId))
      isPurchase (decide_eq_true isIts) unsettled leaves granted

theorem attached_settlePurchase (ledger : db.Ledgered) {env : Env} {purchaseId : Nat}
    (leaves : s.leavesPeers db (.settlePurchase purchaseId) = true) :
    (s.call db ⟨env, .settlePurchase purchaseId⟩).registry.Attached db.wgPeers := by
  refine (triple_registryTx (J := fun r => r.Attached db.wgPeers)
    (fun db' (h : db' = db) => h ▸ attached) ?_ id).exec rfl
  rintro now db' u db'' rfl run
  rcases settlePurchaseTx_ok run with ⟨rfl, -⟩ | ⟨⟨q, isPurchase, rfl, unsettled⟩, granted⟩
  · exact attached
  · exact attached_grant valid attached ledger (fun p => decide (p.id = q.id)) isPurchase
      (decide_eq_true rfl) unsettled leaves granted

omit attached in
/-- The id that the account of an npub has, or will have. -/
theorem ownId_eq {npub : String} {a : Account} (member : a ∈ db.accounts) (isIt : a.npub = npub) :
    a.id = db.ownId npub := by
  unfold Db.ownId
  cases found : db.accounts.find? fun a => decide (a.npub = npub) with
  | none =>
      have absent := List.find?_eq_none.mp found a member
      simp [isIt] at absent
  | some acct =>
      have same : acct.npub = npub := by simpa using List.find?_some found
      rw [eq_of_key_eq valid.keyed.accountNpubs member (List.mem_of_find?_eq_some found)
        (isIt.trans same.symm)]

omit valid attached in
theorem ownId_of_absent {npub : String} (absent : ∀ a ∈ db.accounts, a.npub ≠ npub) :
    db.ownId npub = db.nextId := by
  have none : (db.accounts.find? fun a => decide (a.npub = npub)) = none :=
    List.find?_eq_none.mpr (by simpa using absent)
  rw [Db.ownId, none]

/-- **A new account**: its owner row becomes active only at an address where nothing is. -/
theorem triple_createAccount {env : Env} {npub : String}
    (leaves : s.leavesPeers db (.createAccount npub) = true) :
    Triple (· = db) (s.createAccount env npub)
      (fun acct db' => db'.registry.Valid s.ident ∧ db'.registry.Attached db.wgPeers ∧
        acct ∈ db'.accounts ∧ acct.npub = s.ident.normNpub npub ∧
        acct.id = db.ownId (s.ident.normNpub npub))
      fun db' => db'.registry.Attached db.wgPeers := by
  unfold Store.createAccount
  dsimp only
  split
  · exact Triple.throw fun db' h => h ▸ attached
  rename_i addr derived
  -- after the first transaction the rows are as they were, and the account has its id
  let Opened (db' : Db) : Prop := db'.registry.Valid s.ident ∧ db'.whitelist = db.whitelist ∧
    ∀ a ∈ db'.accounts, a.npub = s.ident.normNpub npub → a.id = db.ownId (s.ident.normNpub npub)
  have still : ∀ db', Opened db' → db'.registry.Attached db.wgPeers := by
    rintro db' ⟨-, rows, -⟩
    unfold Registry.Attached
    rw [show db'.registry.rows = db.whitelist from rows]
    exact attached
  refine Triple.bind (Q := fun _ => Opened) (triple_inTx ?_ fun db' _ h => h ▸ attached) fun _ => ?_
  · rintro now db' u db'' rfl run
    rcases insertAccount_move derived run with rfl | ⟨rfl, move⟩
    · exact ⟨valid, rfl, fun a member isIt => ownId_eq valid member isIt⟩
    · refine ⟨valid_move move valid, rfl, fun a member isIt => ?_⟩
      have npubs : ((db'.withAccount (s.ident.normNpub npub) addr).accounts.map
          Account.npub).Nodup := (valid_move move valid).keyed.accountNpubs
      have isNew : ∀ a ∈ db'.accounts, a.npub ≠ s.ident.normNpub npub := by
        simp only [Db.withAccount, List.map_append, List.nodup_append] at npubs
        simpa using npubs.2.2
      rcases List.mem_append.mp member with old | last
      · exact absurd isIt (isNew a old)
      · rw [List.mem_singleton.mp last, ownId_of_absent isNew]
  refine Triple.bind ((triple_getAccountByNpub _).conseq (fun _ h => h) (fun _ _ h => h) still)
    fun acct => ?_
  rw [s.ident.norm_idem]
  let Done (db' : Db) : Prop := db'.registry.Valid s.ident ∧ db'.registry.Attached db.wgPeers ∧
    acct ∈ db'.accounts ∧ acct.npub = s.ident.normNpub npub ∧
    acct.id = db.ownId (s.ident.normNpub npub)
  refine Triple.bind (Q := fun _ => Done) (triple_inTx ?_ fun db' _ h => still db' h.1) fun _ => ?_
  · rintro now db₁ u db₂ ⟨opened, member, isIt⟩ run
    have rows : db₁.registry.rows = db.whitelist := opened.2.1
    have inserted := insertOwner_ok run
    rw [← isIt] at run derived
    have move := insertOwner_move member derived run
    have accounts : db₂.accounts = db₁.accounts :=
      move.elim (congrArg Registry.accounts) accounts_of_ownerMove
    refine ⟨move.elim (fun same => same ▸ opened.1) fun move => valid_move move opened.1, ?_,
      accounts ▸ member, isIt, opened.2.2 acct member isIt⟩
    rcases inserted with rfl | ⟨-, isNew⟩
    · exact still _ opened
    · rw [isNew]
      intro a isRow active
      rcases List.mem_append.mp isRow with old | last
      · exact still _ opened a old active
      · obtain rfl := List.mem_singleton.mp last
        have orphan : db.hasActiveRow addr = false := by
          simpa [WhitelistEntry.active, Db.hasActiveRow, ← opened.2.1] using active
        refine List.all_eq_true.mp leaves _ (List.mem_filter.mpr ⟨?_, ?_⟩)
        · rw [isIt] at derived
          simp [Store.home, derived, WhitelistEntry.place, opened.2.2 acct member isIt]
        · simpa [WhitelistEntry.place] using orphan
  · have kept : Keeps Done (recomputeAuthz env 2) :=
      keeps_recomputeAuthz env 2 (fun _ _ h => h) fun _ _ h => h
    exact Triple.bind (kept.conseq (fun _ h => h) (fun _ _ h => h) fun _ h => h.2.1) fun _ =>
      Triple.pure fun _ h => h

/-- **A credit** creates the account if needed, and brings its address home. -/
theorem attached_credit {env : Env} {npub : String} {kind : Kind} {volume : Option Int}
    {validityDays : Int} (leaves : ∀ place ∈ s.home db npub, peersOn db.wgPeers place = true) :
    Triple (· = db) (s.credit env npub kind volume validityDays)
      (fun _ db' => db'.registry.Attached db.wgPeers)
      fun db' => db'.registry.Attached db.wgPeers := by
  have opens : s.leavesPeers db (.createAccount npub) = true :=
    List.all_eq_true.mpr fun place isPlace => leaves place (List.mem_filter.mp isPlace).1
  let J (r : Registry) : Prop := r.Attached db.wgPeers
  refine Triple.bind (triple_createAccount valid attached opens) fun acct => ?_
  refine Triple.bind (Q := fun _ (db' : Db) => J db'.registry)
    (triple_inTx ?_ fun _ _ h => h.2.1) fun _ =>
      Keeps.bind (keeps_recomputeAuthz env 4 (fun _ _ h => h) fun _ _ h => h) fun _ => Keeps.pure _
  rintro now db₁ u db₂ ⟨isValid, isAttached, member, isIt, ownId⟩ run
  refine attached_home isValid isAttached (fun w row isOwner onIt => leaves _ ?_) (creditTx_ok run)
  obtain ⟨a, isAccount, sameId, sameNpub, -⟩ := isValid.keyed.ownerAccount row isOwner
  obtain rfl := eq_of_key_eq isValid.keyed.accountIds isAccount member (sameId.trans onIt)
  have derived := isValid.keyed.derived row
  rw [← sameNpub, isIt] at derived
  simp [Store.home, derived, WhitelistEntry.place, onIt, ownId]

/-- **Step**, for the registry: a call that leaves the peers alone keeps them attached. -/
theorem attached_registry (ledger : db.Ledgered) {c : Call}
    (leaves : s.leavesPeers db c.op = true) : (s.call db c).registry.Attached db.wgPeers := by
  obtain ⟨env, op⟩ := c
  cases op with
  | createAccount npub =>
      exact ((triple_createAccount valid attached leaves).bind fun _ =>
        Triple.pure fun _ h => h.2.1).exec rfl
  | creditVolume npub volumeBytes validityDays =>
      exact (attached_credit valid attached (List.all_eq_true.mp leaves)).exec rfl
  | creditTime npub validityDays =>
      exact (attached_credit valid attached (List.all_eq_true.mp leaves)).exec rfl
  | activateOwner npub => exact attached_activateOwner valid attached leaves
  | grantByInvoice invoiceId => exact attached_grantByInvoice valid attached ledger leaves
  | settlePurchase purchaseId => exact attached_settlePurchase valid attached ledger leaves
  | acceptInvite guest host => exact attached_acceptInvite valid attached leaves
  | addWhitelist owner guest label => exact attached_addWhitelist valid attached leaves
  | setWhitelistEnabled owner guest enabled =>
      exact attached_setWhitelistEnabled valid attached leaves
  | _ => exact attached_quiet valid attached rfl

end Grants

/-! ## The table of peers -/

/-- No operation but the two of WireGuard writes the peers. -/
theorem peers_spared (env : Env) (peers : List WgPeer) : Spares env fun db => db.wgPeers = peers where
  rolledBack _ _ same := same
  registry _ _ _ _ _ same := same
  services _ _ _ _ same := same
  createPackage := keeps_createPackage (fun _ _ h => h) (fun _ _ _ _ h => h) env
  deactivatePackage := keeps_deactivatePackage (fun _ _ h => h) (fun _ _ h => h) env
  createPurchase s := keeps_createPurchase (fun _ _ h => h) (fun _ _ _ _ h => h) s env
  markProcessing := keeps_markProcessing (fun _ _ h => h) (fun _ _ h => h) env
  credited _ _ _ _ _ _ same := same
  granted _ _ _ _ same _ _ run :=
    (keeps_grantEntitlementTx (I := fun db => db.wgPeers = peers) (fun _ _ _ _ _ h => h)
      (fun _ _ _ h => h) (fun _ _ h => h) _).ok same run
  recorded _ _ same := same
  sampled _ _ same := same
  drawn _ _ _ same := same
  recomputed k := keeps_recomputeAuthz env k (fun _ _ h => h) fun _ _ h => h
  compacted _ _ same := same

theorem wgPeers_call (s : Store) (db : Db) (c : Call)
    (noIssue : ∀ sessionNpub forNpub label pubkey,
      c.op ≠ .createWgPeer sessionNpub forNpub label pubkey)
    (noDeletion : ∀ sessionNpub id, c.op ≠ .deleteWgPeer sessionNpub id) :
    (s.call db c).wgPeers = db.wgPeers := by
  have spared := peers_spared c.env db.wgPeers
  refine (spared.method c.op (fun cutoff _ => ?_) (fun _ _ _ _ _ => ?_) (fun _ _ _ => ?_)
    (fun _ _ _ _ issued => absurd issued (noIssue _ _ _ _))
    fun _ _ deleted => absurd deleted (noDeletion _ _)).exec rfl
  · exact keeps_aggregateUsage (fun _ _ h => h) (fun _ _ _ _ h => h) c.env cutoff
  · exact keeps_attachInvoice (fun _ _ h => h) (fun _ _ h => h) ..
  · refine Keeps.bind (keeps_inTx (fun now db u db' h run => ?_) spared.rolledBack) fun _ =>
      spared.thenRecompute 1 ()
    rcases voidByInvoiceTx_ok run with ⟨rfl, -⟩ | ⟨p, -, -, -, rfl⟩
    · exact h
    · exact h

/-- The invariant of a database. -/
def Db.PeersAttached (ident : Identity) (db : Db) : Prop :=
  db.registry.Valid ident ∧ db.registry.Attached db.wgPeers

/-- A peer is issued on the account its address is active on. -/
theorem attached_createWgPeer (s : Store) (env : Env) (sessionNpub forNpub label pubkey : String) :
    Keeps (Db.PeersAttached s.ident) (s.createWgPeer env sessionNpub forNpub label pubkey) := by
  unfold Store.createWgPeer
  generalize trimSpace pubkey = key
  generalize validWgKey key = isKey
  refine Keeps.ite (Keeps.throw _) ?_
  split
  · exact Keeps.throw _
  refine Keeps.bind (keeps_inTx ?_ fun _ _ h => h) fun _ => Keeps.pure _
  rintro now db peer db' ⟨valid, attached⟩ run
  obtain ⟨w, row, atAddr, active, alloc, idx, rfl, rfl⟩ := createWgPeerTx_ok run
  refine ⟨valid.grow (Nat.le_succ _), fun x isRow isActive => peersOn_iff.mpr fun p member here => ?_⟩
  rcases List.mem_append.mp member with old | last
  · exact peersOn_iff.mp (attached x isRow isActive) p old here
  · obtain rfl := List.mem_singleton.mp last
    rw [valid.index.eq isRow row isActive active (here.symm.trans atAddr.symm)]
    rfl

theorem attached_deleteWgPeer (ident : Identity) (env : Env) (sessionNpub : String) (id : Nat) :
    Keeps (Db.PeersAttached ident) (deleteWgPeer env sessionNpub id) := by
  rw [deleteWgPeer_eq]
  refine keeps_inTx ?_ fun _ _ h => h
  rintro now db u db' ⟨valid, attached⟩ run
  rw [deleteWgPeerTx, exec_get_bind] at run
  split at run
  · cases run
    refine ⟨valid, fun w row active => peersOn_iff.mpr fun p member => ?_⟩
    exact peersOn_iff.mp (attached w row active) p (mem_deleteWhere.mp member).1
  · cases run

/-- **Step**: every call that leaves the peers alone keeps them attached. -/
theorem attached_call {s : Store} {db : Db} {c : Call} (inv : db.PeersAttached s.ident)
    (ledger : db.Ledgered) (leaves : s.leavesPeers db c.op = true) :
    (s.call db c).PeersAttached s.ident := by
  have valid : (s.call db c).registry.Valid s.ident :=
    leads_invariant (fun _ _ _ _ move => valid_move move) (leads_of_call s db c) inv.1
  obtain ⟨env, op⟩ := c
  by_cases issue : ∃ sessionNpub forNpub label pubkey,
      op = .createWgPeer sessionNpub forNpub label pubkey
  · obtain ⟨sessionNpub, forNpub, label, pubkey, rfl⟩ := issue
    exact (Keeps.bind (attached_createWgPeer s env sessionNpub forNpub label pubkey) fun _ =>
      Keeps.pure ()).exec inv
  by_cases deletion : ∃ sessionNpub id, op = .deleteWgPeer sessionNpub id
  · obtain ⟨sessionNpub, id, rfl⟩ := deletion
    exact (attached_deleteWgPeer s.ident env sessionNpub id).exec inv
  refine ⟨valid, ?_⟩
  rw [wgPeers_call s db ⟨env, op⟩ (fun a b l k isIt => issue ⟨a, b, l, k, isIt⟩)
    fun n id isIt => deletion ⟨n, id, isIt⟩]
  exact attached_registry inv.1 inv.2 ledger leaves

/-! ## Runs -/

/-- **The peers stay with the account that pays for them.**  In every state of a run whose
calls leave the peers alone: a peer of an address that is active is attached to the account
it is active on, it is among the peers that this account is shown and no other one, and who
may delete it is the owner of that account or the npub of the peer. -/
theorem peers_attached (s : Store) (calls : List Call)
    (leaves : Meets s.step (fun db c => s.leavesPeers db c.op = true) Db.empty calls) (db : Db)
    (visited : Visits s.step Db.empty calls db) :
    ∀ p ∈ db.wgPeers, ∀ w ∈ db.whitelist, w.active = true → w.fipsAddr = p.fipsAddr →
      p.accountId = w.accountId ∧ (∀ acct, p ∈ db.peersOf acct ↔ acct = w.accountId) ∧
      ∀ sessionNpub, db.mayDelete sessionNpub p.id p = true →
        db.isAccountOf sessionNpub w.accountId = true ∨ sessionNpub = p.npub := by
  let Inv (db : Db) : Prop := db.PeersAttached s.ident ∧ db.Ledgered
  have base : Inv Db.empty :=
    ⟨⟨valid_empty s.ident, fun w member => by cases member⟩, ledger_after s []⟩
  have final : Inv db := by
    refine leaves.visits_invariant (fun db c db' inv cond stepped => ?_) base visited
    cases stepped
    refine ⟨attached_call inv.1 inv.2 cond, ?_⟩
    refine ((ledger_survives c.env).method c.op fun cutoff _ => ?_).exec inv.2
    exact keeps_aggregateUsage ledger_rollback (fun _ _ _ _ ledger => ledger) c.env cutoff
  intro p member w row active atAddr
  have same := peersOn_iff.mp (final.1.2 w row active) p member atAddr.symm
  have same : p.accountId = w.accountId := same
  refine ⟨same, fun acct => ?_, fun sessionNpub may => ?_⟩
  · rw [mem_peersOf, same]
    exact ⟨fun listed => listed.2.symm, fun isIt => ⟨member, isIt.symm⟩⟩
  · simp only [Db.mayDelete, same, decide_true, Bool.true_and, List.any_eq_true, Bool.and_eq_true,
      Bool.or_eq_true, decide_eq_true_eq] at may
    obtain ⟨a, isAccount, isIt, isOwner | isPeer⟩ := may
    · exact .inl (List.any_eq_true.mpr ⟨a, isAccount, by simp [isIt, isOwner]⟩)
    · exact .inr isPeer.symm

/-- A guest with an account of their own has a peer on the host's account, 1. -/
def hostedPeer : List Call :=
  [⟨calm 0, .createAccount firstNpub⟩, ⟨calm 1, .creditTime firstNpub 30⟩,
    ⟨calm 2, .createAccount secondNpub⟩, ⟨calm 3, .inviteGuest firstNpub secondNpub "phone"⟩,
    ⟨calm 4, .acceptInvite secondNpub firstNpub⟩,
    ⟨calm 5, .createWgPeer secondNpub secondNpub "phone"
      "AAAAAAAAAAAAAAAAAAAAAAAAAAAAAAAAAAAAAAAAAAA="⟩]

/-- The guest deletes the peer before they go home, and has a new one there. -/
def replacedPeer : List Call :=
  hostedPeer ++
    [⟨calm 6, .deleteWgPeer secondNpub 7⟩, ⟨calm 7, .activateOwner secondNpub⟩,
      ⟨calm 8, .createWgPeer secondNpub secondNpub "phone"
        "BBBBBBBBBBBBBBBBBBBBBBBBBBBBBBBBBBBBBBBBBBA="⟩]

theorem peers_attached_replaced :
    ∃ p ∈ (plainStore.after replacedPeer).wgPeers, ∃ w ∈ (plainStore.after replacedPeer).whitelist,
      w.accountId = 4 ∧ p ∈ (plainStore.after replacedPeer).peersOf 4 := by
  obtain ⟨p, member, w, row, active, atAddr, isHome⟩ :
      ∃ p ∈ (plainStore.after replacedPeer).wgPeers,
        ∃ w ∈ (plainStore.after replacedPeer).whitelist,
          w.active = true ∧ w.fipsAddr = p.fipsAddr ∧ w.accountId = 4 := by
    decide +kernel
  have attached := peers_attached plainStore replacedPeer (meets_of_checks (by decide +kernel)) _
    (visits_of_run (run_step plainStore _)) p member w row active atAddr
  exact ⟨p, member, w, row, isHome, (attached.2.1 4).mpr isHome.symm⟩

/-- **A guest who pays leaves the peer behind**: the address is active on the guest's own
account, 4, but the peer is still attached to the host's, whose owner may delete it. -/
theorem peer_left_behind :
    ∃ p ∈ (plainStore.after (hostedPeer ++ [⟨calm 6, .creditTime secondNpub 30⟩])).wgPeers,
      ∃ w ∈ (plainStore.after (hostedPeer ++ [⟨calm 6, .creditTime secondNpub 30⟩])).whitelist,
        w.active = true ∧ w.fipsAddr = p.fipsAddr ∧ w.accountId = 4 ∧ p.accountId = 1 ∧
        (plainStore.after (hostedPeer ++ [⟨calm 6, .creditTime secondNpub 30⟩])).mayDelete
          firstNpub p.id p = true := by
  decide +kernel

end FipsExitGate
