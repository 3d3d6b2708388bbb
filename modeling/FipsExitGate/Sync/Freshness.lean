import FipsExitGate.Whitelist.Attribution

/-!
# The authorized set is never stale

`authz_current` is a materialized view: the desired set of the tables, evaluated at
the time of the last `RecomputeAuthz`.  About half of the methods end in a recompute.
The others write tables the desired set does not read (packages, purchases, usage,
WireGuard peers), accounts that have no rows yet, or open invitations, which are not
desired at any time; a duplicate usage report writes nothing.

`Db.Desires` states the desired set as a relation, table by table.  That the store's
map is this relation (`lookup_desired`) rests on the unique index: two active rows of
one address would overwrite each other in the map.

## Main results

* `watch_fresh` — freshness is an assertion that every call carries
* `authorized_set_fresh` — the view is fresh after every sequence of completed calls
-/

namespace FipsExitGate

open Program Table LastWriter

/-- **The address should be authorized for the account at time `t`**: it has an enabled
row on the account that is not pending, the account is active, and one of its
entitlements has started, has not expired, and is a time pass or has volume left. -/
def Db.Desires (db : Db) (t : Time) (addr : Addr) (acct : AccountId) : Prop :=
  (∃ w ∈ db.whitelist, w.fipsAddr = addr ∧ w.accountId = acct ∧ w.enabled = true ∧
    w.pending = false) ∧
  (∃ o ∈ db.accounts, o.id = acct ∧ o.status = .active) ∧
  ∃ e ∈ db.entitlements, e.accountId = acct ∧ e.startsAt ≤ t ∧ t ≤ e.expiresAt ∧
    (e.kind = .time ∨ ∃ total, e.volumeBytes = some total ∧ e.volumeUsed < total)

/-- The authorized set is the desired set of the tables, at the time of the last
recompute. -/
def Db.Fresh (db : Db) : Prop :=
  ∀ addr acct, db.authz.current.lookup addr = some acct ↔
    db.Desires db.authz.evaluatedAt addr acct

/-! ## The map of `desiredSQL` -/

theorem activeAt_iff {now : Time} {e : Entitlement} :
    e.activeAt now = true ↔ e.startsAt ≤ now ∧ now ≤ e.expiresAt ∧
      (e.kind = .time ∨ ∃ total, e.volumeBytes = some total ∧ e.volumeUsed < total) := by
  unfold Entitlement.activeAt
  cases e.volumeBytes with
  | none => simp [and_assoc]
  | some total => simp [and_assoc]

theorem hasActiveEntitlement_iff {now : Time} {db : Db} {acct : AccountId} :
    db.hasActiveEntitlement now acct = true ↔
      ∃ e ∈ db.entitlements, e.accountId = acct ∧ e.startsAt ≤ now ∧ now ≤ e.expiresAt ∧
        (e.kind = .time ∨ ∃ total, e.volumeBytes = some total ∧ e.volumeUsed < total) := by
  simp [Db.hasActiveEntitlement, activeAt_iff]

/-- The `WHERE` clause, row by row. -/
theorem desires_iff_desiredRow {db : Db} {t : Time} {addr : Addr} {acct : AccountId} :
    db.Desires t addr acct ↔
      ∃ w ∈ db.whitelist.filter (db.desiredRow t), w.fipsAddr = addr ∧ w.accountId = acct := by
  unfold Db.Desires
  rw [← hasActiveEntitlement_iff]
  constructor
  · rintro ⟨⟨w, row, rfl, rfl, enabled, pending⟩, ⟨o, member, isIt, active⟩, entitled⟩
    refine ⟨w, List.mem_filter.mpr ⟨row, ?_⟩, rfl, rfl⟩
    have joined : (db.accounts.any fun a => decide (a.id = w.accountId) &&
        decide (a.status = .active)) = true :=
      List.any_eq_true.mpr ⟨o, member, by simp [isIt, active]⟩
    simp [Db.desiredRow, WhitelistEntry.active, enabled, pending, joined, entitled]
  · rintro ⟨w, row, rfl, rfl⟩
    obtain ⟨row, desired⟩ := List.mem_filter.mp row
    simp only [Db.desiredRow, WhitelistEntry.active, Bool.and_eq_true, Bool.not_eq_true',
      List.any_eq_true, decide_eq_true_eq] at desired
    obtain ⟨⟨⟨enabled, pending⟩, joined⟩, entitled⟩ := desired
    exact ⟨⟨w, row, rfl, rfl, enabled, pending⟩, joined, entitled⟩

theorem active_of_desiredRow {db : Db} {t : Time} {w : WhitelistEntry}
    (desired : db.desiredRow t w = true) : w.active = true := by
  simp only [Db.desiredRow, Bool.and_eq_true] at desired
  exact desired.1.1

/-- **The map of `desiredSQL` is the desired set**: by the unique index no row of it
is overwritten by another. -/
theorem lookup_desired {db : Db} (index : ActiveIndex db.whitelist) {t : Time} {addr : Addr}
    {acct : AccountId} : (db.desired t).lookup addr = some acct ↔ db.Desires t addr acct := by
  rw [desires_iff_desiredRow]
  refine lookup_foldl_insert_eq_some _ fun w row w' row' same => ?_
  obtain ⟨row, desired⟩ := List.mem_filter.mp row
  obtain ⟨row', desired'⟩ := List.mem_filter.mp row'
  rw [index.eq row row' (active_of_desiredRow desired) (active_of_desiredRow desired') same]

/-! ## What the desired set does not depend on -/

/-- An account without rows desires nothing. -/
theorem desires_withAccount {ident : Identity} {db : Db} (valid : db.registry.Valid ident)
    {npub : String} {addr : Addr} {t : Time} {a : Addr} {acct : AccountId} :
    (db.withAccount npub addr).Desires t a acct ↔ db.Desires t a acct := by
  refine and_congr_right fun ⟨w, row, _, onAcct, _⟩ => and_congr_left fun _ => ?_
  -- the row's account is an old one, so it is not the one that was added
  obtain ⟨o, member, isIt, -⟩ := valid.keyed.rowAccounts w.key (List.mem_map_of_mem row)
  have old : acct < db.nextId := by
    rw [← onAcct, ← show o.id = w.accountId from isIt]
    exact valid.keyed.accountsOld o member
  simp only [Db.withAccount, List.mem_append, List.mem_singleton]
  constructor
  · rintro ⟨o, member | rfl, isIt, active⟩
    · exact ⟨o, member, isIt, active⟩
    · exact absurd isIt (Nat.ne_of_gt old)
  · rintro ⟨o, member, isIt, active⟩
    exact ⟨o, .inl member, isIt, active⟩

/-- An open invitation desires nothing. -/
theorem desires_withdraw {db : Db} {p : WhitelistEntry → Bool} (invites : Invites p) {t : Time}
    {a : Addr} {acct : AccountId} :
    ({ db with whitelist := deleteWhere p db.whitelist } : Db).Desires t a acct ↔
      db.Desires t a acct := by
  refine and_congr_left fun _ => exists_congr fun w => ?_
  simp only [mem_deleteWhere]
  constructor
  · rintro ⟨⟨row, -⟩, desired⟩
    exact ⟨row, desired⟩
  · rintro ⟨row, atAddr, onAcct, enabled, pending⟩
    refine ⟨⟨row, ?_⟩, atAddr, onAcct, enabled, pending⟩
    by_contra hit
    have isPending := (invites w (by simpa using hit)).2
    exact absurd (isPending.symm.trans pending) (by simp)

/-- A recompute makes the authorized set fresh. -/
theorem fresh_recomputed {db : Db} (index : ActiveIndex db.whitelist) (order : MapOrder Member)
    (now : Time) : (db.recomputed order now).Fresh := by
  intro addr acct
  have lookup : (db.recomputed order now).authz.current.lookup addr = (db.desired now).lookup addr :=
    AuthzTables.lookup_recompute order now (db.desired now) db.authz addr
  rw [lookup]
  exact lookup_desired index

/-! ## Calls -/

theorem led_valid {s : Store} {db₀ db : Db} {op : Op} (valid : db₀.registry.Valid s.ident)
    (led : s.Led db₀ op db) : db.registry.Valid s.ident :=
  leads_invariant (fun _ _ _ _ move => valid_move move) led valid

/-- **Every completed call carries freshness.** -/
theorem watch_fresh {s : Store} {env : Env} {db₀ : Db} {op : Op}
    (valid : db₀.registry.Valid s.ident) (completes : env.Completes) :
    Watch s env db₀ op fun db => s.Led db₀ op db ∧ db.Fresh where
  led _ h := h.1
  rolledBack db db' h := ⟨led_rollback db db' h.1, h.2⟩
  account db npub addr h led :=
    ⟨led, fun a acct => (h.2 a acct).trans (desires_withAccount (led_valid valid h.1)).symm⟩
  withdraw db p invites h led :=
    ⟨led, fun a acct => (h.2 a acct).trans (desires_withdraw invites).symm⟩
  unread db _ _ _ _ _ _ _ _ n le h := ⟨led_nextId db n le h.1, h.2⟩
  compacted _ _ h := h
  recomputed k := by
    refine ⟨fun db led => ?_⟩
    obtain ⟨result, run⟩ := exec_recomputeAuthz (completes k) db
    rw [run]
    exact ⟨led, fresh_recomputed (led_valid valid led).index env.order (env.now k)⟩

theorem fresh_empty : Db.empty.Fresh := by
  intro addr acct
  simp [Db.Desires, Db.empty, AuthzTables.empty]

/-- **The authorized set is never stale.**  After every sequence of calls whose
transactions go through, with whatever result, `authz_current` maps an address to an
account exactly when the tables as they are now desire it at the time of the last
recompute. -/
theorem authorized_set_fresh (s : Store) (calls : List Call)
    (completed : ∀ c ∈ calls, c.env.Completes) (addr : Addr) (acct : AccountId) :
    (s.after calls).authz.current.lookup addr = some acct ↔
      (s.after calls).Desires (s.after calls).authz.evaluatedAt addr acct := by
  suffices fresh : (s.after calls).Fresh from fresh addr acct
  induction calls using List.reverseRecOn with
  | nil => exact fresh_empty
  | append_singleton calls c ih =>
      rw [after_append_singleton]
      have fresh := ih fun c member => completed c (List.mem_append_left _ member)
      have completes : c.env.Completes := completed c (by simp)
      exact (watch_call (watch_fresh (valid_after s calls) completes) ⟨.refl, fresh⟩).2

/-- A host with a time pass invites a guest, who accepts; then an invitation of
somebody else is declined, without a recompute. -/
def hostedCalls : List Call :=
  [⟨calm 0, .creditTime firstNpub 30⟩,
    ⟨calm 1, .inviteGuest firstNpub secondNpub "phone"⟩,
    ⟨calm 2, .acceptInvite secondNpub firstNpub⟩,
    ⟨calm 3, .inviteGuest firstNpub thirdNpub "laptop"⟩,
    ⟨calm 4, .declineInvite thirdNpub firstNpub⟩]

/-- The guest is authorized on the host's account, and the visitor is not desired. -/
theorem authorized_set_fresh_hosted :
    (plainStore.after hostedCalls).Desires (plainStore.after hostedCalls).authz.evaluatedAt
        secondAddr 1 ∧
      ∀ acct, ¬ (plainStore.after hostedCalls).Desires
        (plainStore.after hostedCalls).authz.evaluatedAt thirdAddr acct := by
  have fresh := authorized_set_fresh plainStore hostedCalls fun c member k => by
    simp only [hostedCalls, List.mem_cons, List.not_mem_nil, or_false] at member
    rcases member with rfl | rfl | rfl | rfl | rfl <;> rfl
  have guest : (plainStore.after hostedCalls).authz.current.lookup secondAddr = some 1 := by
    decide +kernel
  have visitor : (plainStore.after hostedCalls).authz.current.lookup thirdAddr = none := by
    decide +kernel
  refine ⟨(fresh _ _).mp guest, fun acct desired => ?_⟩
  exact absurd (visitor.symm.trans ((fresh _ _).mpr desired)) (by simp)

end FipsExitGate
