import FipsExitGate.Whitelist.Calls

/-!
# One active row per address

The whitelist attributes each address to at most one account, and an address that
has an owner row always to exactly one.  The partial unique index gives the first
half for free; the second rests on how the transactions use it: a row is parked only
together with the activation of another row of its address, and a guest row that is
switched off hands its address back to the owner row.

The invariant has two layers.  `Keyed` is about the columns that no statement
rewrites (ids, accounts, npubs, addresses, roles): uniqueness, foreign keys, and that
an owner row carries the npub of its own account.  `Registry.Valid` adds what the
flags `enabled` and `pending` satisfy.

## Main results

* `valid_after` — the invariant holds after every sequence of calls
* `one_active_row_per_address` — what it says about active, owner and pending rows
-/

namespace FipsExitGate

open Program Table

/-! ## The columns that never change -/

/-- The columns of a whitelist row that no statement rewrites. -/
structure RowKey where
  id : Nat
  accountId : AccountId
  npub : String
  fipsAddr : Addr
  role : Role

def WhitelistEntry.key (w : WhitelistEntry) : RowKey :=
  ⟨w.id, w.accountId, w.npub, w.fipsAddr, w.role⟩

/-- The unique keys and foreign keys of the registry, and where addresses come
from. -/
structure Keyed (ident : Identity) (accounts : List Account) (keys : List RowKey) (nextId : Nat) :
    Prop where
  accountIds : (accounts.map (·.id)).Nodup
  accountNpubs : (accounts.map (·.npub)).Nodup
  accountAddrs : (accounts.map (·.fipsAddr)).Nodup
  accountsOld : ∀ a ∈ accounts, a.id < nextId
  accountsDerived : ∀ a ∈ accounts, ident.fromNpub a.npub = some a.fipsAddr
  rowIds : (keys.map (·.id)).Nodup
  rowKeys : (keys.map fun k => (k.accountId, k.npub)).Nodup
  rowsOld : ∀ k ∈ keys, k.id < nextId
  rowsDerived : ∀ k ∈ keys, ident.fromNpub k.npub = some k.fipsAddr
  /-- A row belongs to an account, and an owner row is the row of the account's own npub. -/
  rowAccounts : ∀ k ∈ keys, ∃ a ∈ accounts, a.id = k.accountId ∧ (k.role = .owner → a.npub = k.npub)

namespace Keyed

variable {ident : Identity} {accounts : List Account} {keys : List RowKey} {n : Nat}

theorem grow (keyed : Keyed ident accounts keys n) {n' : Nat} (le : n ≤ n') :
    Keyed ident accounts keys n' :=
  { keyed with
    accountsOld := fun a member => (keyed.accountsOld a member).trans_le le
    rowsOld := fun k member => (keyed.rowsOld k member).trans_le le }

theorem sublist (keyed : Keyed ident accounts keys n) {keys' : List RowKey}
    (sub : keys'.Sublist keys) : Keyed ident accounts keys' n :=
  { keyed with
    rowIds := keyed.rowIds.sublist (sub.map _)
    rowKeys := keyed.rowKeys.sublist (sub.map _)
    rowsOld := fun k member => keyed.rowsOld k (sub.subset member)
    rowsDerived := fun k member => keyed.rowsDerived k (sub.subset member)
    rowAccounts := fun k member => keyed.rowAccounts k (sub.subset member) }

/-- A new account with a fresh id, npub and address. -/
theorem insertAccount (keyed : Keyed ident accounts keys n) {npub : String} {addr : Addr}
    (derived : ident.fromNpub npub = some addr) (newNpub : ∀ a ∈ accounts, a.npub ≠ npub)
    (newAddr : ∀ a ∈ accounts, a.fipsAddr ≠ addr) :
    Keyed ident (accounts ++ [⟨n, npub, addr, .active⟩]) keys (n + 1) where
  accountIds := nodup_append_singleton keyed.accountIds fun a member =>
    (keyed.accountsOld a member).ne
  accountNpubs := nodup_append_singleton keyed.accountNpubs newNpub
  accountAddrs := nodup_append_singleton keyed.accountAddrs newAddr
  accountsOld := List.forall_mem_append.mpr
    ⟨fun a old => Nat.lt_succ_of_lt (keyed.accountsOld a old),
      List.forall_mem_singleton.mpr (Nat.lt_succ_self n)⟩
  accountsDerived := List.forall_mem_append.mpr
    ⟨keyed.accountsDerived, List.forall_mem_singleton.mpr derived⟩
  rowIds := keyed.rowIds
  rowKeys := keyed.rowKeys
  rowsOld := fun k member => Nat.lt_succ_of_lt (keyed.rowsOld k member)
  rowsDerived := keyed.rowsDerived
  rowAccounts := fun k member =>
    let ⟨a, isAccount, onIt⟩ := keyed.rowAccounts k member
    ⟨a, List.mem_append_left _ isAccount, onIt⟩

/-- A new row on an account that has none for the npub. -/
theorem insertRow (keyed : Keyed ident accounts keys n) {acct : Account} {npub : String}
    {addr : Addr} {role : Role} (member : acct ∈ accounts) (derived : ident.fromNpub npub = some addr)
    (noRow : ∀ k ∈ keys, (k.accountId, k.npub) ≠ (acct.id, npub))
    (own : role = .owner → acct.npub = npub) :
    Keyed ident accounts (keys ++ [⟨n, acct.id, npub, addr, role⟩]) (n + 1) where
  accountIds := keyed.accountIds
  accountNpubs := keyed.accountNpubs
  accountAddrs := keyed.accountAddrs
  accountsOld := fun a isAccount => Nat.lt_succ_of_lt (keyed.accountsOld a isAccount)
  accountsDerived := keyed.accountsDerived
  rowIds := nodup_append_singleton keyed.rowIds fun k row => (keyed.rowsOld k row).ne
  rowKeys := nodup_append_singleton keyed.rowKeys noRow
  rowsOld := List.forall_mem_append.mpr
    ⟨fun k old => Nat.lt_succ_of_lt (keyed.rowsOld k old),
      List.forall_mem_singleton.mpr (Nat.lt_succ_self n)⟩
  rowsDerived := List.forall_mem_append.mpr
    ⟨keyed.rowsDerived, List.forall_mem_singleton.mpr derived⟩
  rowAccounts := List.forall_mem_append.mpr
    ⟨keyed.rowAccounts, List.forall_mem_singleton.mpr ⟨acct, member, rfl, own⟩⟩

/-! ### Rows with keyed columns -/

variable {rows : List WhitelistEntry}

theorem entryIds (keyed : Keyed ident accounts (rows.map (·.key)) n) : (rows.map (·.id)).Nodup := by
  simpa [List.map_map, Function.comp_def, WhitelistEntry.key] using keyed.rowIds

theorem row_eq_of_id (keyed : Keyed ident accounts (rows.map (·.key)) n) {w₁ w₂ : WhitelistEntry}
    (member₁ : w₁ ∈ rows) (member₂ : w₂ ∈ rows) (same : w₁.id = w₂.id) : w₁ = w₂ :=
  eq_of_key_eq keyed.entryIds member₁ member₂ same

theorem row_eq_of_entry (keyed : Keyed ident accounts (rows.map (·.key)) n) (acct : AccountId)
    (npub : String) {w₁ w₂ : WhitelistEntry} (member₁ : w₁ ∈ rows) (member₂ : w₂ ∈ rows)
    (entry₁ : isEntry acct npub w₁ = true) (entry₂ : isEntry acct npub w₂ = true) : w₁ = w₂ := by
  simp only [isEntry, Bool.and_eq_true, decide_eq_true_eq] at entry₁ entry₂
  have keys := keyed.rowKeys
  rw [List.map_map] at keys
  refine eq_of_key_eq keys member₁ member₂ ?_
  simp [WhitelistEntry.key, entry₁, entry₂]

theorem derived (keyed : Keyed ident accounts (rows.map (·.key)) n) {w : WhitelistEntry}
    (member : w ∈ rows) : ident.fromNpub w.npub = some w.fipsAddr :=
  keyed.rowsDerived w.key (List.mem_map_of_mem member)

/-- The account of an owner row: its npub and its address are the account's. -/
theorem ownerAccount (keyed : Keyed ident accounts (rows.map (·.key)) n) {w : WhitelistEntry}
    (member : w ∈ rows) (isOwner : w.role = .owner) :
    ∃ a ∈ accounts, a.id = w.accountId ∧ a.npub = w.npub ∧ a.fipsAddr = w.fipsAddr := by
  obtain ⟨a, isAccount, onIt, own⟩ := keyed.rowAccounts w.key (List.mem_map_of_mem member)
  have own : a.npub = w.npub := own isOwner
  have derived := keyed.accountsDerived a isAccount
  rw [own, keyed.derived member] at derived
  exact ⟨a, isAccount, onIt, own, (Option.some.inj derived).symm⟩

/-- **An address has one owner row.** -/
theorem owner_eq (keyed : Keyed ident accounts (rows.map (·.key)) n) {w₁ w₂ : WhitelistEntry}
    (member₁ : w₁ ∈ rows) (member₂ : w₂ ∈ rows) (isOwner₁ : w₁.role = .owner)
    (isOwner₂ : w₂.role = .owner) (same : w₁.fipsAddr = w₂.fipsAddr) : w₁ = w₂ := by
  obtain ⟨a₁, isAccount₁, id₁, npub₁, addr₁⟩ := keyed.ownerAccount member₁ isOwner₁
  obtain ⟨a₂, isAccount₂, id₂, npub₂, addr₂⟩ := keyed.ownerAccount member₂ isOwner₂
  have eq : a₁ = a₂ := eq_of_key_eq keyed.accountAddrs isAccount₁ isAccount₂
    (by rw [addr₁, addr₂, same])
  refine keyed.row_eq_of_entry a₁.id a₁.npub member₁ member₂ ?_ ?_
  · simp [isEntry, id₁, npub₁]
  · simp [isEntry, eq, id₂, npub₂]

/-- Rewriting flags and labels leaves the keys alone. -/
theorem map (keyed : Keyed ident accounts (rows.map (·.key)) n)
    {g : WhitelistEntry → WhitelistEntry} (same : ∀ w, (g w).key = w.key) :
    Keyed ident accounts ((rows.map g).map (·.key)) n := by
  have keys : (rows.map g).map (·.key) = rows.map (·.key) := by
    rw [List.map_map]
    exact List.map_congr_left fun w _ => same w
  rw [keys]
  exact keyed

end Keyed

/-! ## The invariant -/

/-- The part of the invariant that every single statement keeps. -/
structure Registry.Flagged (ident : Identity) (r : Registry) : Prop where
  keyed : Keyed ident r.accounts (r.rows.map (·.key)) r.nextId
  /-- The partial unique index. -/
  index : ActiveIndex r.rows
  /-- Only guests are invited, and an invitation is enabled. -/
  invited : ∀ w ∈ r.rows, w.pending = true → w.enabled = true ∧ w.role = .guest

/-- **The invariant of the whitelist.** -/
structure Registry.Valid (ident : Identity) (r : Registry) : Prop extends r.Flagged ident where
  /-- The address of an owner row is attributed to some account. -/
  attributed : ∀ w ∈ r.rows, w.role = .owner → HasActive r.rows w.fipsAddr

/-- Two active rows of one address are one row. -/
theorem ActiveIndex.eq {rows : List WhitelistEntry} (index : ActiveIndex rows) {w₁ w₂ : WhitelistEntry}
    (member₁ : w₁ ∈ rows) (member₂ : w₂ ∈ rows) (active₁ : w₁.active = true)
    (active₂ : w₂.active = true) (same : w₁.fipsAddr = w₂.fipsAddr) : w₁ = w₂ := by
  by_contra different
  have symm : Std.Symm fun w₁ w₂ : WhitelistEntry =>
      ¬ (w₁.active = true ∧ w₂.active = true ∧ w₁.fipsAddr = w₂.fipsAddr) :=
    ⟨fun _ _ apart both => apart ⟨both.2.1, both.1, both.2.2.symm⟩⟩
  exact List.Pairwise.forall index member₁ member₂ different ⟨active₁, active₂, same⟩

/-- Rewritten rows meet the index if no two of them, counted by id, are active for
one address. -/
theorem activeIndex_map {rows : List WhitelistEntry} {g : WhitelistEntry → WhitelistEntry}
    (ids : (rows.map (·.id)).Nodup)
    (single : ∀ w₁ ∈ rows, ∀ w₂ ∈ rows, (g w₁).active = true → (g w₂).active = true →
      (g w₁).fipsAddr = (g w₂).fipsAddr → w₁.id = w₂.id) : ActiveIndex (rows.map g) := by
  have nodup : rows.Nodup := ids.of_map _
  refine List.pairwise_map.mpr (nodup.pairwise_of_forall_ne fun w₁ member₁ w₂ member₂ different => ?_)
  rintro ⟨active₁, active₂, same⟩
  exact different (eq_of_key_eq ids member₁ member₂ (single w₁ member₁ w₂ member₂ active₁ active₂ same))

/-- A row takes an address over: afterwards the address is its own, and elsewhere
nothing new is active. -/
theorem activeIndex_takeOver {rows : List WhitelistEntry} {g : WhitelistEntry → WhitelistEntry}
    (addr : Addr) (taker : WhitelistEntry → Prop) (ids : (rows.map (·.id)).Nodup)
    (index : ActiveIndex rows) (same : ∀ w, (g w).fipsAddr = w.fipsAddr)
    (one : ∀ w₁ ∈ rows, ∀ w₂ ∈ rows, taker w₁ → taker w₂ → w₁ = w₂)
    (takes : ∀ w ∈ rows, (g w).active = true →
      (taker w ∧ w.fipsAddr = addr) ∨ (w.active = true ∧ w.fipsAddr ≠ addr)) :
    ActiveIndex (rows.map g) := by
  refine activeIndex_map ids fun w₁ member₁ w₂ member₂ active₁ active₂ atOne => congrArg _ ?_
  rw [same, same] at atOne
  rcases takes w₁ member₁ active₁ with ⟨taker₁, here₁⟩ | ⟨active₁, away₁⟩
  · rcases takes w₂ member₂ active₂ with ⟨taker₂, -⟩ | ⟨-, away₂⟩
    · exact one w₁ member₁ w₂ member₂ taker₁ taker₂
    · exact absurd (atOne.symm.trans here₁) away₂
  · rcases takes w₂ member₂ active₂ with ⟨-, here₂⟩ | ⟨active₂, -⟩
    · exact absurd (atOne.trans here₂) away₁
    · exact index.eq member₁ member₂ active₁ active₂ atOne

/-- A new row meets the index if it is not active, or nothing is at its address. -/
theorem activeIndex_append {rows : List WhitelistEntry} {new : WhitelistEntry}
    (index : ActiveIndex rows) (free : new.active = true → ¬ HasActive rows new.fipsAddr) :
    ActiveIndex (rows ++ [new]) := by
  refine List.pairwise_append.mpr ⟨index, List.pairwise_singleton _ _, fun w member o isNew => ?_⟩
  cases List.mem_singleton.mp isNew
  rintro ⟨active, newActive, same⟩
  exact free newActive ⟨w, member, same, active⟩

/-! ## Activating a row -/

/-- What `activateRowTx` makes of a row. -/
def moved (id : Nat) (addr : Addr) (w : WhitelistEntry) : WhitelistEntry :=
  if w.id = id then { w with enabled := true, pending := false }
  else if decide (w.fipsAddr = addr) && w.active then { w with enabled := false }
  else w

theorem activateRow_eq_map (id : Nat) (addr : Addr) (rows : List WhitelistEntry) :
    activateRow id addr rows = rows.map (moved id addr) := by
  simp only [activateRow, updateWhere, List.map_map]
  refine List.map_congr_left fun w _ => ?_
  by_cases target : w.id = id
  · simp [moved, target]
  · by_cases other : w.fipsAddr = addr ∧ w.active = true
    · simp [moved, target, other]
    · simp [moved, target, other]

@[simp] theorem moved_key (id : Nat) (addr : Addr) (w : WhitelistEntry) :
    (moved id addr w).key = w.key := by
  unfold moved
  split
  · rfl
  · split <;> rfl

@[simp] theorem moved_fipsAddr (id : Nat) (addr : Addr) (w : WhitelistEntry) :
    (moved id addr w).fipsAddr = w.fipsAddr :=
  congrArg RowKey.fipsAddr (moved_key id addr w)

/-- Active afterwards: the row itself, and what was active at other addresses. -/
theorem moved_active {id : Nat} {addr : Addr} {w : WhitelistEntry} :
    (moved id addr w).active = true ↔ w.id = id ∨ (w.active = true ∧ w.fipsAddr ≠ addr) := by
  unfold moved
  by_cases target : w.id = id
  · simp [target, WhitelistEntry.active]
  · rw [if_neg target]
    by_cases here : w.fipsAddr = addr
    · by_cases active : w.active = true
      · simp [target, here, active]
        simp [WhitelistEntry.active]
      · simp [target, here, active]
    · simp [target, here]

/-- A row that is pending afterwards was pending, and is not changed. -/
theorem moved_pending {id : Nat} {addr : Addr} {w : WhitelistEntry}
    (pending : (moved id addr w).pending = true) : moved id addr w = w := by
  unfold moved at pending ⊢
  by_cases target : w.id = id
  · simp [target] at pending
  · rw [if_neg target] at pending ⊢
    by_cases parked : (decide (w.fipsAddr = addr) && w.active) = true
    · simp_all [WhitelistEntry.active]
    · rw [if_neg parked]

namespace Registry.Valid

variable {ident : Identity} {r : Registry}

/-- Once a row is activated its address has an active row; other addresses keep
theirs. -/
theorem hasActive_activate {w : WhitelistEntry} (member : w ∈ r.rows) {addr : Addr}
    (h : addr = w.fipsAddr ∨ HasActive r.rows addr) :
    HasActive (activateRow w.id w.fipsAddr r.rows) addr := by
  rw [activateRow_eq_map]
  by_cases here : addr = w.fipsAddr
  · exact ⟨_, List.mem_map_of_mem member, by simp [here], moved_active.mpr (.inl rfl)⟩
  · obtain ⟨o, row, atAddr, active⟩ := h.resolve_left here
    refine ⟨_, List.mem_map_of_mem row, by simp [atAddr], moved_active.mpr (.inr ⟨active, ?_⟩)⟩
    rwa [atAddr]

theorem activate (valid : r.Valid ident) {w : WhitelistEntry} (member : w ∈ r.rows) :
    ({ r with rows := activateRow w.id w.fipsAddr r.rows }).Valid ident where
  keyed := by
    rw [activateRow_eq_map]
    exact valid.keyed.map (moved_key _ _)
  index := by
    rw [activateRow_eq_map]
    refine activeIndex_takeOver w.fipsAddr (fun o => o.id = w.id) valid.keyed.entryIds valid.index
      (moved_fipsAddr _ _) ?_ fun o row active => ?_
    · intro w₁ member₁ w₂ member₂ target₁ target₂
      exact valid.keyed.row_eq_of_id member₁ member₂ (target₁.trans target₂.symm)
    · refine (moved_active.mp active).imp_left fun target => ⟨target, ?_⟩
      rw [valid.keyed.row_eq_of_id row member target]
  invited := by
    rw [activateRow_eq_map]
    rintro _ row pending
    obtain ⟨o, old, rfl⟩ := List.mem_map.mp row
    -- only active rows are parked, so an open invitation stays as it was
    have unchanged := moved_pending pending
    rw [unchanged] at pending ⊢
    exact valid.invited o old pending
  attributed := by
    intro o row isOwner
    rw [activateRow_eq_map] at row
    obtain ⟨o, old, rfl⟩ := List.mem_map.mp row
    have isOwner : o.role = .owner := (congrArg RowKey.role (moved_key _ _ o)).symm.trans isOwner
    rw [moved_fipsAddr]
    exact hasActive_activate member (.inr (valid.attributed o old isOwner))

end Registry.Valid

/-! ## Statements on one entry -/

/-- Rows some of which are rewritten keep their active rows if the rewriting keeps
active rows active. -/
theorem hasActive_updateWhere {rows : List WhitelistEntry} {p : WhitelistEntry → Bool}
    {f : WhitelistEntry → WhitelistEntry} {addr : Addr} (same : ∀ w, (f w).key = w.key)
    (stays : ∀ w ∈ rows, w.fipsAddr = addr → p w = true → w.active = true → (f w).active = true)
    (h : HasActive rows addr) : HasActive (updateWhere p f rows) addr := by
  obtain ⟨w, member, atAddr, active⟩ := h
  refine ⟨_, mem_updateWhere_of_mem member, ?_⟩
  by_cases hit : p w = true
  · rw [if_pos hit]
    exact ⟨(congrArg RowKey.fipsAddr (same w)).trans atAddr, stays w member atAddr hit active⟩
  · rw [if_neg hit]
    exact ⟨atAddr, active⟩

namespace Registry

variable {ident : Identity} {r : Registry}

/-- A rewriting of rows that keeps their keys. -/
theorem Flagged.update (flagged : r.Flagged ident) {p : WhitelistEntry → Bool}
    {f : WhitelistEntry → WhitelistEntry} (same : ∀ w, (f w).key = w.key)
    (index : ActiveIndex (updateWhere p f r.rows))
    (invited : ∀ w ∈ r.rows, p w = true → (f w).pending = true →
      (f w).enabled = true ∧ w.role = .guest) :
    ({ r with rows := updateWhere p f r.rows }).Flagged ident where
  keyed := by
    refine flagged.keyed.map fun w => ?_
    split
    · exact same w
    · rfl
  index := index
  invited := by
    intro w member pending
    rcases mem_updateWhere.mp member with ⟨o, row, hit, rfl⟩ | ⟨row, -⟩
    · obtain ⟨enabled, isGuest⟩ := invited o row hit pending
      exact ⟨enabled, (congrArg RowKey.role (same o)).trans isGuest⟩
    · exact flagged.invited w row pending

/-- A rewriting that activates no row meets the index. -/
theorem Flagged.index_update (flagged : r.Flagged ident) {p : WhitelistEntry → Bool}
    {f : WhitelistEntry → WhitelistEntry} (same : ∀ w, (f w).key = w.key)
    (calm : ∀ w ∈ r.rows, p w = true → (f w).active = true → w.active = true) :
    ActiveIndex (updateWhere p f r.rows) := by
  have key : ∀ w, (if p w = true then f w else w).key = w.key := by
    intro w
    split
    · exact same w
    · rfl
  have before : ∀ w ∈ r.rows, (if p w = true then f w else w).active = true → w.active = true := by
    intro w member active
    split at active
    · exact calm w member ‹_› active
    · exact active
  refine activeIndex_map flagged.keyed.entryIds fun w₁ member₁ w₂ member₂ active₁ active₂ atOne => ?_
  have atOne : w₁.fipsAddr = w₂.fipsAddr :=
    (congrArg RowKey.fipsAddr (key w₁)).symm.trans (atOne.trans (congrArg RowKey.fipsAddr (key w₂)))
  rw [flagged.index.eq member₁ member₂ (before w₁ member₁ active₁) (before w₂ member₂ active₂) atOne]

/-- The owners of rewritten rows are the old ones. -/
theorem attributed_update {p : WhitelistEntry → Bool} {f : WhitelistEntry → WhitelistEntry}
    (same : ∀ w, (f w).key = w.key) {rows : List WhitelistEntry} {P : Addr → Prop}
    (h : ∀ w ∈ rows, w.role = .owner → P w.fipsAddr) :
    ∀ w ∈ updateWhere p f rows, w.role = .owner → P w.fipsAddr := by
  intro w member isOwner
  rcases mem_updateWhere.mp member with ⟨o, row, -, rfl⟩ | ⟨row, -⟩
  · have role : (f o).role = o.role := congrArg RowKey.role (same o)
    have addr : (f o).fipsAddr = o.fipsAddr := congrArg RowKey.fipsAddr (same o)
    rw [addr]
    exact h o row (role ▸ isOwner)
  · exact h w row isOwner

/-- The owner row takes over an address that nobody holds. -/
theorem Flagged.reactivate (flagged : r.Flagged ident) {addr : Addr}
    (orphan : ¬ HasActive r.rows addr) :
    ({ r with rows := reactivateOwner addr r.rows }).Flagged ident := by
  refine flagged.update (fun _ => rfl) ?_ fun w _ _ pending => absurd pending (by simp)
  refine activeIndex_takeOver addr (fun w => w.role = .owner ∧ w.fipsAddr = addr)
    flagged.keyed.entryIds flagged.index (fun w => ?_) ?_ fun w member active => ?_
  · split <;> rfl
  · rintro w₁ member₁ w₂ member₂ ⟨owner₁, here₁⟩ ⟨owner₂, here₂⟩
    exact flagged.keyed.owner_eq member₁ member₂ owner₁ owner₂ (here₁.trans here₂.symm)
  · split at active
    · rename_i hit
      simp only [Bool.and_eq_true, decide_eq_true_eq] at hit
      exact .inl ⟨⟨hit.2, hit.1⟩, hit.1⟩
    · exact .inr ⟨active, fun here => orphan ⟨w, member, here, active⟩⟩

theorem toggled_key (rows : List WhitelistEntry) (enabled : Bool) (w : WhitelistEntry) :
    (toggled rows enabled w).key = w.key := rfl

/-- Switching a row off changes nothing else of it. -/
theorem toggled_off (rows : List WhitelistEntry) (w : WhitelistEntry) :
    toggled rows false w = { w with enabled := false } := by
  simp [toggled]

theorem Flagged.toggleOff (flagged : r.Flagged ident) {acct : AccountId} {guest : String}
    (noInvite : ∀ w ∈ r.rows, isPendingGuest acct guest w = false) :
    ({ r with rows := toggleRows acct guest false r.rows }).Flagged ident := by
  refine flagged.update (toggled_key _ _) ?_ ?_
  · refine flagged.index_update (toggled_key _ _) fun w _ _ active => ?_
    simp [toggled_off, WhitelistEntry.active] at active
  · intro w member isRow pending
    have pending : w.pending = true := by simpa [toggled_off] using pending
    obtain ⟨-, isGuest⟩ := flagged.invited w member pending
    have absent := noInvite w member
    simp [isPendingGuest, isRow, isGuest, pending] at absent

/-- Switching a row off can orphan its own address only. -/
theorem Valid.attributed_toggleOff (valid : r.Valid ident) {acct : AccountId} {guest : String}
    {w : WhitelistEntry} (row : w ∈ r.rows) (isRow : isEntry acct guest w = true) :
    ∀ o ∈ toggleRows acct guest false r.rows, o.role = .owner →
      o.fipsAddr ≠ w.fipsAddr → HasActive (toggleRows acct guest false r.rows) o.fipsAddr := by
  refine attributed_update (toggled_key _ _) (P := fun addr => addr ≠ w.fipsAddr → HasActive _ addr) ?_
  intro o member isOwner away
  refine hasActive_updateWhere (toggled_key _ _) ?_ (valid.attributed o member isOwner)
  intro x isIn atAddr hit
  rw [valid.keyed.row_eq_of_entry acct guest isIn row hit isRow] at atAddr
  exact absurd atAddr.symm away

theorem Valid.toggleOff (valid : r.Valid ident) {acct : AccountId} {guest : String}
    {w : WhitelistEntry} (row : w ∈ r.rows) (isRow : isEntry acct guest w = true)
    (noInvite : ∀ w ∈ r.rows, isPendingGuest acct guest w = false)
    (active : HasActive (toggleRows acct guest false r.rows) w.fipsAddr) :
    ({ r with rows := toggleRows acct guest false r.rows }).Valid ident := by
  refine { valid.toFlagged.toggleOff noInvite with attributed := fun o member isOwner => ?_ }
  by_cases here : o.fipsAddr = w.fipsAddr
  · rw [here]
    exact active
  · exact valid.attributed_toggleOff row isRow o member isOwner here

theorem Valid.toggleOffHome (valid : r.Valid ident) {acct : AccountId} {guest : String}
    {w : WhitelistEntry} (row : w ∈ r.rows) (isRow : isEntry acct guest w = true)
    (noInvite : ∀ w ∈ r.rows, isPendingGuest acct guest w = false)
    (orphan : ¬ HasActive (toggleRows acct guest false r.rows) w.fipsAddr) :
    ({ r with rows := reactivateOwner w.fipsAddr (toggleRows acct guest false r.rows) }).Valid
      ident := by
  refine { (valid.toFlagged.toggleOff noInvite).reactivate orphan with attributed := ?_ }
  refine attributed_update (f := fun w => { w with enabled := true, pending := false })
    (fun _ => rfl) fun o member isOwner => ?_
  by_cases here : o.fipsAddr = w.fipsAddr
  · -- the owner row itself is what is active now
    refine ⟨_, mem_updateWhere_of_mem member, ?_⟩
    simp [here, isOwner, WhitelistEntry.active]
  · exact hasActive_updateWhere (fun _ => rfl) (fun _ _ _ _ _ => rfl)
      (valid.attributed_toggleOff row isRow o member isOwner here)

/-- Switching a row on takes no address away. -/
theorem Valid.toggleOn (valid : r.Valid ident) {acct : AccountId} {guest : String}
    (index : ActiveIndex (toggleRows acct guest true r.rows)) :
    ({ r with rows := toggleRows acct guest true r.rows }).Valid ident := by
  refine { valid.toFlagged.update (toggled_key _ _) index ?_ with attributed := ?_ }
  · intro w member _ pending
    refine ⟨rfl, ?_⟩
    by_contra isOwner
    have pending : w.pending = true := by simpa [toggled, isOwner] using pending
    exact isOwner (valid.invited w member pending).2
  · refine attributed_update (toggled_key _ _) fun o member isOwner => ?_
    refine hasActive_updateWhere (toggled_key _ _) ?_ (valid.attributed o member isOwner)
    intro x _ _ _ active
    -- a row that is on already does not become pending
    simp only [WhitelistEntry.active, Bool.and_eq_true, Bool.not_eq_true'] at active
    simp [toggled, WhitelistEntry.active, active]

/-! ## Invitations, new rows and deletions -/

/-- An appended row, with an address that is attributed if it is an owner row. -/
theorem Valid.append (valid : r.Valid ident) {new : WhitelistEntry} {n : Nat}
    (keyed : Keyed ident r.accounts (r.rows.map (·.key) ++ [new.key]) n)
    (free : new.active = true → ¬ HasActive r.rows new.fipsAddr)
    (invited : new.pending = true → new.enabled = true ∧ new.role = .guest)
    (attributed : new.role = .owner → new.active = true ∨ HasActive r.rows new.fipsAddr) :
    ({ r with rows := r.rows ++ [new], nextId := n }).Valid ident where
  keyed := by simpa using keyed
  index := activeIndex_append valid.index free
  invited := List.forall_mem_append.mpr ⟨valid.invited, List.forall_mem_singleton.mpr invited⟩
  attributed := by
    have grows : ∀ addr, HasActive r.rows addr → HasActive (r.rows ++ [new]) addr :=
      fun addr ⟨w, member, isActive⟩ => ⟨w, List.mem_append_left _ member, isActive⟩
    refine List.forall_mem_append.mpr ⟨fun w member isOwner => ?_, List.forall_mem_singleton.mpr ?_⟩
    · exact grows _ (valid.attributed w member isOwner)
    · intro isOwner
      rcases attributed isOwner with active | held
      · exact ⟨new, by simp, rfl, active⟩
      · exact grows _ held

/-- Deleting rows that are not active. -/
theorem Valid.delete (valid : r.Valid ident) {p : WhitelistEntry → Bool}
    (inactive : ∀ w, p w = true → w.active = false) :
    ({ r with rows := deleteWhere p r.rows }).Valid ident where
  keyed := valid.keyed.sublist (List.filter_sublist.map _)
  index := List.Pairwise.sublist List.filter_sublist valid.index
  invited := fun w member => valid.invited w (mem_deleteWhere.mp member).1
  attributed := by
    intro w member isOwner
    obtain ⟨o, row, atAddr, active⟩ := valid.attributed w (mem_deleteWhere.mp member).1 isOwner
    refine ⟨o, mem_deleteWhere.mpr ⟨row, ?_⟩, atAddr, active⟩
    by_contra deleted
    rw [inactive o (by simpa using deleted)] at active
    cases active

/-- A row for an npub other than the account's own is a guest row. -/
theorem Valid.guest_of_entry (valid : r.Valid ident) {acct : Account} {guest : String} {addr : Addr}
    (member : acct ∈ r.accounts) (derived : ident.fromNpub guest = some addr)
    (other : addr ≠ acct.fipsAddr) {w : WhitelistEntry} (row : w ∈ r.rows)
    (isRow : isEntry acct.id guest w = true) : w.role = .guest := by
  simp only [isEntry, Bool.and_eq_true, decide_eq_true_eq] at isRow
  cases isRole : w.role with
  | guest => rfl
  | owner =>
      -- an owner row has the account's own npub, and so the account's own address
      obtain ⟨a, isAccount, onIt, own, -⟩ := valid.keyed.ownerAccount row isRole
      have eq : a = acct := eq_of_key_eq valid.keyed.accountIds isAccount member (onIt.trans isRow.1)
      have own : acct.npub = guest := by rw [← eq, own, isRow.2]
      have atOwn := valid.keyed.accountsDerived acct member
      rw [own, derived] at atOwn
      exact absurd (Option.some.inj atOwn) other

theorem noEntry_keys {rows : List WhitelistEntry} {acct : AccountId} {npub : String}
    (noRow : ∀ w ∈ rows, isEntry acct npub w = false) :
    ∀ k ∈ rows.map (·.key), (k.accountId, k.npub) ≠ (acct, npub) := by
  intro k member same
  obtain ⟨w, row, rfl⟩ := List.mem_map.mp member
  have isRow := noRow w row
  simp only [Prod.mk.injEq] at same
  have onIt : w.accountId = acct := same.1
  have isNpub : w.npub = npub := same.2
  simp [isEntry, onIt, isNpub] at isRow

theorem Valid.grow (valid : r.Valid ident) {n : Nat} (le : r.nextId ≤ n) :
    ({ r with nextId := n }).Valid ident :=
  { valid with keyed := valid.keyed.grow le }

theorem reinvited_key (label : String) (w : WhitelistEntry) : (reinvited label w).key = w.key := rfl

theorem readded_key (label : String) (w : WhitelistEntry) : (readded label w).key = w.key := rfl

/-- **An invitation activates nothing.** -/
theorem reinvited_active (label : String) (w : WhitelistEntry) :
    (reinvited label w).active = w.active := by
  simp [reinvited, WhitelistEntry.active]

theorem Valid.invite (valid : r.Valid ident) {acct : Account} {guest : String} {addr : Addr}
    (label : String) (now : Time) (member : acct ∈ r.accounts)
    (derived : ident.fromNpub guest = some addr) (other : addr ≠ acct.fipsAddr) :
    ({ r with
        rows := inviteRows ⟨r.nextId, acct.id, guest, addr, .guest, true, true, some label, now⟩
          label r.rows
        nextId := r.nextId + 1 } : Registry).Valid ident := by
  unfold inviteRows upsert
  split
  · refine Valid.grow (r := { r with rows := updateWhere _ _ r.rows }) ?_ (Nat.le_succ _)
    refine { valid.toFlagged.update (reinvited_key label) ?_ ?_ with attributed := ?_ }
    · refine valid.toFlagged.index_update (reinvited_key label) fun w _ _ active => ?_
      rwa [reinvited_active] at active
    · exact fun w row isRow _ => ⟨rfl, valid.guest_of_entry member derived other row isRow⟩
    · refine attributed_update (reinvited_key label) fun o row isOwner => ?_
      refine hasActive_updateWhere (reinvited_key label) (fun w _ _ _ active => ?_)
        (valid.attributed o row isOwner)
      rwa [reinvited_active]
  · rename_i noRow
    have noRow : ∀ w ∈ r.rows, isEntry acct.id guest w = false := by simpa using noRow
    refine valid.append (valid.keyed.insertRow member derived (noEntry_keys noRow) ?_) ?_ ?_ ?_
    · exact fun isOwner => by cases isOwner
    · exact fun active => by cases active
    · exact fun _ => ⟨rfl, rfl⟩
    · exact fun isOwner => by cases isOwner

theorem Valid.add (valid : r.Valid ident) {acct : Account} {guest : String} {addr : Addr}
    (label : String) (now : Time) (member : acct ∈ r.accounts)
    (derived : ident.fromNpub guest = some addr)
    (index : ActiveIndex (addRows
      ⟨r.nextId, acct.id, guest, addr, .guest, true, false, some label, now⟩ label r.rows)) :
    ({ r with
        rows := addRows ⟨r.nextId, acct.id, guest, addr, .guest, true, false, some label, now⟩
          label r.rows
        nextId := r.nextId + 1 } : Registry).Valid ident := by
  unfold addRows upsert at index ⊢
  split
  · rename_i present
    rw [if_pos present] at index
    refine Valid.grow (r := { r with rows := updateWhere _ _ r.rows }) ?_ (Nat.le_succ _)
    refine { valid.toFlagged.update (readded_key label) index ?_ with attributed := ?_ }
    · exact fun w _ _ pending => by cases pending
    · refine attributed_update (readded_key label) fun o row isOwner => ?_
      exact hasActive_updateWhere (readded_key label) (fun _ _ _ _ _ => rfl)
        (valid.attributed o row isOwner)
  · rename_i absent
    rw [if_neg absent] at index
    have noRow : ∀ w ∈ r.rows, isEntry acct.id guest w = false := by simpa using absent
    refine valid.append (valid.keyed.insertRow member derived (noEntry_keys noRow) ?_) ?_ ?_ ?_
    · exact fun isOwner => by cases isOwner
    · -- the database has checked the index, so the address was free
      rintro - ⟨w, row, atAddr, active⟩
      have apart := (List.pairwise_append.mp index).2.2 w row _ (List.mem_singleton.mpr rfl)
      exact apart ⟨active, rfl, atAddr⟩
    · exact fun pending => by cases pending
    · exact fun isOwner => by cases isOwner

theorem Valid.owner (valid : r.Valid ident) {acct : Account} {addr : Addr} {enabled : Bool}
    (now : Time) (member : acct ∈ r.accounts) (derived : ident.fromNpub acct.npub = some addr)
    (noRow : ∀ w ∈ r.rows, isEntry acct.id acct.npub w = false)
    (unlessActive : enabled = false ↔ HasActive r.rows addr) :
    ({ r with
        rows := r.rows ++ [⟨r.nextId, acct.id, acct.npub, addr, .owner, enabled, false, none, now⟩]
        nextId := r.nextId + 1 } : Registry).Valid ident := by
  refine valid.append (valid.keyed.insertRow member derived (noEntry_keys noRow) fun _ => rfl) ?_ ?_ ?_
  · intro active held
    have disabled := unlessActive.mpr held
    subst disabled
    cases active
  · exact fun pending => by cases pending
  · intro _
    cases enabled with
    | true => exact .inl rfl
    | false => exact .inr (unlessActive.mp rfl)

end Registry

/-! ## Activation succeeds -/

/-- On a valid registry neither statement of `activateRowTx` runs into the index. -/
theorem exec_activateRowTx {ident : Identity} {db : Db} (valid : db.registry.Valid ident)
    {w : WhitelistEntry} (member : w ∈ db.whitelist) :
    exec (activateRowTx w.id w.fipsAddr) db =
      (.ok (), { db with whitelist := activateRow w.id w.fipsAddr db.whitelist }) := by
  have parked : ActiveIndex (updateWhere
      (fun o => decide (o.fipsAddr = w.fipsAddr) && o.active && decide (o.id ≠ w.id))
      (fun o => { o with enabled := false }) db.whitelist) :=
    valid.toFlagged.index_update (f := fun o => { o with enabled := false }) (fun _ => rfl)
      fun o _ _ active => by simp [WhitelistEntry.active] at active
  unfold activateRowTx
  rw [exec_bind_ok (exec_writeWhitelist parked)]
  exact exec_writeWhitelist (valid.activate member).index

theorem exec_activateOwnerTx {ident : Identity} {db : Db} (valid : db.registry.Valid ident)
    (acct : AccountId) : ∃ db', exec (activateOwnerTx acct) db = (.ok (), db') := by
  unfold activateOwnerTx
  rw [exec_get_bind]
  split
  · exact ⟨db, rfl⟩
  · rename_i w found
    exact ⟨_, exec_activateRowTx valid (List.mem_of_find?_eq_some found)⟩

/-! ## The run -/

/-- **Step**: every move keeps the invariant. -/
theorem valid_move {ident : Identity} {l : Label} {r r' : Registry} (move : Move ident l r r')
    (valid : r.Valid ident) : r'.Valid ident := by
  cases move with
  | idle _ n le => exact valid.grow le
  | account _ npub addr derived newNpub newAddr =>
      exact { valid with keyed := valid.keyed.insertAccount derived newNpub newAddr }
  | owner _ acct addr enabled now member derived noRow unlessActive =>
      exact valid.owner now member derived noRow unlessActive
  | invite _ acct guest addr label now member derived other =>
      exact valid.invite label now member derived other
  | withdraw _ p isOpen =>
      refine valid.delete fun w deleted => ?_
      simp [WhitelistEntry.active, (isOpen w deleted).2]
  | accept _ host w member isHost onHost isGuest isPending => exact valid.activate member
  | home _ w member isOwner => exact valid.activate member
  | add _ acct guest addr label now member derived index =>
      exact valid.add label now member derived index
  | toggleOn _ acct guest member index => exact valid.toggleOn index
  | toggleOff _ acct guest w member row isRow noInvite active =>
      exact valid.toggleOff row isRow noInvite active
  | toggleOffHome _ acct guest w member row isRow noInvite orphan =>
      exact valid.toggleOffHome row isRow noInvite orphan

/-- Whatever every move of an operation keeps, the operation keeps. -/
theorem leads_invariant {s : Store} {db₀ : Db} {op : Op} {J : Registry → Prop}
    (kept : ∀ l r r', s.Allows db₀ op r l → Move s.ident l r r' → J r → J r') {r r' : Registry}
    (leads : s.Leads db₀ op r r') (h : J r) : J r' := by
  induction leads with
  | refl => exact h
  | tail _ step ih =>
      obtain ⟨l, allowed, move⟩ := step
      exact kept l _ _ allowed move ih

theorem valid_empty (ident : Identity) : Db.empty.registry.Valid ident := by
  refine { keyed := ?_, index := List.Pairwise.nil, invited := ?_, attributed := ?_ }
  · constructor <;> simp [Db.registry, Db.empty]
  · simp [Db.registry, Db.empty]
  · simp [Db.registry, Db.empty]

/-- **Run**: the invariant holds after every sequence of calls. -/
theorem valid_after (s : Store) (calls : List Call) : (s.after calls).registry.Valid s.ident := by
  induction calls using List.reverseRecOn with
  | nil => exact valid_empty s.ident
  | append_singleton calls c ih =>
      rw [after_append_singleton]
      exact leads_invariant (fun _ _ _ _ move => valid_move move) (leads_of_call s _ c) ih

/-- The rows that are active for an address. -/
def activeRows (addr : Addr) (rows : List WhitelistEntry) : List WhitelistEntry :=
  rows.filter fun w => decide (w.fipsAddr = addr) && w.active

theorem length_activeRows_le {rows : List WhitelistEntry} (index : ActiveIndex rows) (addr : Addr) :
    (activeRows addr rows).length ≤ 1 := by
  have apart : ActiveIndex (activeRows addr rows) := List.Pairwise.sublist List.filter_sublist index
  have all : ∀ w ∈ activeRows addr rows, w.fipsAddr = addr ∧ w.active = true := by
    intro w member
    simpa using (List.mem_filter.mp member).2
  match active : activeRows addr rows with
  | [] => simp
  | [_] => simp
  | w₁ :: w₂ :: rest =>
      rw [active] at apart all
      have both := (List.pairwise_cons.mp apart).1 w₂ (by simp)
      have first := all w₁ (by simp)
      have second := all w₂ (by simp)
      exact absurd ⟨first.2, second.2, first.1.trans second.1.symm⟩ both

/-- **One active row per address, never none for an owner.**  After every sequence of
calls, whichever of their transactions were lost: an address has at most one active
row, an address with an owner row has exactly one, and every pending row is an enabled
guest row. -/
theorem one_active_row_per_address (s : Store) (calls : List Call) :
    (∀ addr, (activeRows addr (s.after calls).whitelist).length ≤ 1) ∧
    (∀ w ∈ (s.after calls).whitelist, w.role = .owner →
      (activeRows w.fipsAddr (s.after calls).whitelist).length = 1) ∧
    (∀ w ∈ (s.after calls).whitelist, w.pending = true → w.enabled = true ∧ w.role = .guest) := by
  have valid := valid_after s calls
  refine ⟨length_activeRows_le valid.index, fun w member isOwner => ?_, valid.invited⟩
  obtain ⟨o, row, atAddr, active⟩ := valid.attributed w member isOwner
  have present : o ∈ activeRows w.fipsAddr (s.after calls).whitelist :=
    List.mem_filter.mpr ⟨row, by simp [atAddr, active]⟩
  have positive := List.length_pos_of_mem present
  have atMost := length_activeRows_le valid.index w.fipsAddr
  have atMost : (activeRows w.fipsAddr (s.after calls).whitelist).length ≤ 1 := atMost
  omega

end FipsExitGate
