import FipsExitGate.Lib.Machine
import FipsExitGate.Store.Methods
import FipsExitGate.Sync.Freshness

/-!
# Recomputes and the clock they evaluate at

`now()` in `desiredSQL` is the start of the transaction, and the advisory lock is
taken after the start.  A `RecomputeAuthz` that waits for the lock therefore
evaluates the desired set at a time that may lie before grants it can see, and before
the times at which recomputes that overtook it have evaluated.  Such a recompute
takes a fresh grant for one that has not started yet and revokes its address.

The machine here splits a recompute where the code does: it begins, it gets the lock
and reads the desired set, it commits.  Grants and credits begin and commit around
it.  `InOrder` is a condition on the schedule alone: the lock goes to the waiting
transaction that began first, and no grant commits past an open recompute that began
before it or has read already.

## Main results

* `orderly_step` — along a schedule in order, every open recompute began after
  everything in the tables started and after every time evaluated at
* `recompute_keeps_fresh_grants` — then what a commit removes is not desired at that
  moment, and what it adds had not lapsed at any earlier evaluation
* `overtaken_recompute_revokes` — a schedule out of order that revokes a fresh grant
-/

namespace FipsExitGate

open Program Table

/-! ## When entitlements start -/

/-- No entitlement starts later than `t`. -/
def Db.StartedBy (db : Db) (t : Time) : Prop :=
  ∀ e ∈ db.entitlements, e.startsAt ≤ t

theorem startedBy_withEntitlement {db : Db} {t : Time} (started : db.StartedBy t)
    {new : Nat → Entitlement} (starts : (new db.nextId).startsAt ≤ t) :
    (db.withEntitlement new).StartedBy t := by
  intro e member
  rcases List.mem_append.mp member with member | isNew
  · exact started e member
  · rw [List.mem_singleton.mp isNew]
    exact starts

theorem startedBy_draw {db : Db} {t : Time} (started : db.StartedBy t) (id : Nat) (amount : Int) :
    ({ db with
      entitlements := updateWhere (fun e => decide (e.id = id)) (Entitlement.draw amount)
        db.entitlements } : Db).StartedBy t :=
  forall_updateWhere (fun e member _ => started e member) fun e member _ => started e member

theorem startedBy_activateOwnerTx {acct : AccountId} {t : Time} {db db' : Db} {u : Unit}
    (started : db.StartedBy t) (run : exec (activateOwnerTx acct) db = (.ok u, db')) :
    db'.StartedBy t :=
  (keeps_activateOwnerTx (I := fun db => db.StartedBy t) (fun _ _ _ _ _ h => h) acct).ok started run

/-- A grant starts when its transaction does. -/
theorem startedBy_grantEntitlementTx {purchaseId : Nat} {now t : Time} {db db' : Db} {u : Unit}
    (past : now ≤ t) (started : db.StartedBy t)
    (run : exec (grantEntitlementTx purchaseId now) db = (.ok u, db')) : db'.StartedBy t :=
  (keeps_grantEntitlementTx (I := fun db => db.StartedBy t) (fun _ _ _ _ _ h => h)
    (fun _ _ _ h => startedBy_withEntitlement h past) (fun _ _ h => h) purchaseId).ok started run

/-- Whatever the store does in an environment whose clock stays below `t`. -/
theorem startedBy_survives {env : Env} {t : Time} (past : ∀ k, env.now k ≤ t) :
    Survives env fun db => db.StartedBy t where
  rolledBack _ _ started := started
  registry _ _ _ _ _ started := started
  unread _ _ _ _ _ _ started := started
  createPackage := keeps_createPackage (fun _ _ h => h) (fun _ _ _ _ h => h) env
  deactivatePackage := keeps_deactivatePackage (fun _ _ h => h) (fun _ _ h => h) env
  createPurchase s := keeps_createPurchase (fun _ _ h => h) (fun _ _ _ _ h => h) s env
  attachInvoice := keeps_attachInvoice (fun _ _ h => h) (fun _ _ h => h) env
  markProcessing := keeps_markProcessing (fun _ _ h => h) (fun _ _ h => h) env
  credited _ _ _ _ _ k started := startedBy_withEntitlement started (past k)
  granted _ _ _ k started _ _ run := startedBy_grantEntitlementTx (past k) started run
  voided _ _ _ started _ _ e member := started e (mem_deleteWhere.mp member).1
  recorded _ _ started := started
  sampled _ _ started := started
  drawn _ id amount started := startedBy_draw started id amount
  recomputed k := keeps_recomputeAuthz env k (fun _ _ h => h) fun _ _ h => h
  compacted _ _ started := started

theorem startedBy_after (s : Store) {t : Time} (calls : List Call)
    (past : ∀ c ∈ calls, ∀ k, c.env.now k ≤ t) : (s.after calls).StartedBy t := by
  induction calls using List.reverseRecOn with
  | nil => exact fun e member => absurd member (by simp [Db.empty])
  | append_singleton calls c ih =>
      rw [after_append_singleton]
      have started := ih fun c member => past c (List.mem_append_left _ member)
      refine ((startedBy_survives (past c (by simp))).method c.op fun cutoff _ => ?_).exec started
      exact keeps_aggregateUsage (fun _ _ h => h) (fun _ _ _ _ h => h) c.env cutoff

namespace RecomputeClock

open Machine

/-! ## The machine -/

/-- The transactions that grant: `GrantByInvoice`, `SettlePurchase`, and the credits. -/
inductive Grant where
  | invoice (invoiceId : String)
  | settle (purchaseId : Nat)
  | credit (acct : AccountId) (kind : Kind) (volume : Option Int) (expires : Time)

def Grant.tx : Grant → Time → StoreM Unit
  | .invoice invoiceId, now => grantByInvoiceTx invoiceId now
  | .settle purchaseId, now => settlePurchaseTx purchaseId now
  | .credit acct kind volume expires, now => creditTx acct kind volume expires now

/-- A recompute that has the lock: its `now()`, and the desired set it has read. -/
structure Reading where
  began : Time
  desired : AList fun _ : Addr => AccountId

structure World where
  db : Db
  clock : Time
  /-- The start times of the recomputes that wait for the lock. -/
  waiting : List Time
  /-- The recompute that has the lock. -/
  holder : Option Reading
  /-- The start times of the grants that have not committed yet. -/
  granting : List Time
  /-- Ghost: the times recomputes have evaluated at, in commit order. -/
  evaluated : List Time

def World.initial (db : Db) (start : Time) (evaluated : List Time) : World :=
  ⟨db, start, [], none, [], evaluated⟩

inductive Event where
  /-- Time passes. -/
  | tick (elapsed : Nat)
  /-- A `RecomputeAuthz` transaction begins; its `now()` is fixed here. -/
  | begin
  /-- The `i`-th waiting transaction gets the lock and reads the desired set. -/
  | lock (i : Nat)
  /-- The transaction that has the lock writes the difference and commits. -/
  | commit (order : MapOrder Member)
  /-- It rolls back instead, after it drew `n` revision numbers. -/
  | rollback (n : Nat)
  /-- A waiting transaction gives up. -/
  | cancel (i : Nat)
  | beginGrant
  | commitGrant (i : Nat) (grant : Grant)

/-- One event.  `authz_current` is only written by transactions that hold the lock, so
it does not matter when the holder reads it. -/
def step (w : World) : Event → Option World
  | .tick elapsed => some { w with clock := w.clock + elapsed }
  | .begin => some { w with waiting := w.waiting ++ [w.clock] }
  | .lock i =>
      match w.waiting[i]?, w.holder with
      | some began, none =>
          some { w with
            waiting := w.waiting.eraseIdx i
            holder := some ⟨began, w.db.desired began⟩ }
      | _, _ => none
  | .commit order =>
      match w.holder with
      | none => none
      | some r =>
          some { w with
            db := { w.db with authz := w.db.authz.recompute order r.began r.desired }
            holder := none
            evaluated := w.evaluated ++ [r.began] }
  | .rollback n =>
      match w.holder with
      | none => none
      | some _ => some { w with db := { w.db with authz := w.db.authz.burn n }, holder := none }
  | .cancel i => some { w with waiting := w.waiting.eraseIdx i }
  | .beginGrant => some { w with granting := w.granting ++ [w.clock] }
  | .commitGrant i grant =>
      match w.granting[i]? with
      | none => none
      | some began =>
          some { w with
            db := (exec (transaction FipsExitGate.rollback none (grant.tx began)) w.db).2
            granting := w.granting.eraseIdx i }

/-! ## Schedules in order -/

/-- **The schedule is in order**: the lock goes to a waiting recompute that began
first, and when a grant commits, no recompute has read that has not committed, and
those that wait began after it. -/
def InOrder (w : World) : Event → Prop
  | .lock i => ∀ began, w.waiting[i]? = some began → ∀ t ∈ w.waiting, began ≤ t
  | .commitGrant i _ =>
      ∀ began, w.granting[i]? = some began → w.holder = none ∧ ∀ t ∈ w.waiting, began ≤ t
  | _ => True

instance (w : World) (e : Event) : Decidable (InOrder w e) :=
  match e with
  | .lock i => inferInstanceAs (Decidable (∀ began ∈ w.waiting[i]?, ∀ t ∈ w.waiting, began ≤ t))
  | .commitGrant i _ =>
      have : Decidable (w.holder = none) := decidable_of_iff _ Option.isNone_iff_eq_none
      inferInstanceAs (Decidable
        (∀ began ∈ w.granting[i]?, w.holder = none ∧ ∀ t ∈ w.waiting, began ≤ t))
  | .tick _ | .begin | .commit _ | .rollback _ | .cancel _ | .beginGrant => isTrue trivial

/-- A recompute that began at `t` is up to date: nothing in the tables starts after
it, and no recompute has evaluated after it. -/
structure UpToDate (entitlements : List Entitlement) (clock : Time) (evaluated : List Time)
    (t : Time) : Prop where
  past : t ≤ clock
  started : ∀ e ∈ entitlements, e.startsAt ≤ t
  latest : ∀ t' ∈ evaluated, t' ≤ t

def World.UpToDate (w : World) (t : Time) : Prop :=
  RecomputeClock.UpToDate w.db.entitlements w.clock w.evaluated t

/-- The invariant of schedules in order. -/
structure Orderly (w : World) : Prop where
  index : ActiveIndex w.db.whitelist
  now : w.UpToDate w.clock
  waiting : ∀ t ∈ w.waiting, w.UpToDate t
  granting : ∀ t ∈ w.granting, t ≤ w.clock
  holder : ∀ r, w.holder = some r → r.desired = w.db.desired r.began ∧ w.UpToDate r.began ∧
    ∀ t ∈ w.waiting, r.began ≤ t

/-! ## Grants -/

/-- The unique index holds after a grant, and no entitlement starts later than the
grant did. -/
theorem grantTx_ok {grant : Grant} {now t : Time} {db db' : Db} {u : Unit} (past : now ≤ t)
    (index : ActiveIndex db.whitelist) (started : db.StartedBy t)
    (run : exec (grant.tx now) db = (.ok u, db')) :
    ActiveIndex db'.whitelist ∧ db'.StartedBy t := by
  have home {acct : AccountId} (db₁ : Db) {db₂ : Db} {u : Unit} (index : ActiveIndex db₁.whitelist)
      (run : exec (activateOwnerTx acct) db₁ = (.ok u, db₂)) : ActiveIndex db₂.whitelist := by
    rcases activateOwnerTx_ok run with ⟨rfl, -⟩ | ⟨w, -, -, -, rfl, index⟩
    · exact index
    · exact index
  have granted {purchaseId : Nat} (run : exec (grantEntitlementTx purchaseId now) db = (.ok u, db')) :
      ActiveIndex db'.whitelist ∧ db'.StartedBy t := by
    refine ⟨?_, startedBy_grantEntitlementTx past started run⟩
    obtain ⟨p, -, pt, -, -, -, ⟨-, rfl⟩ | ⟨-, db₁, back, rfl⟩⟩ := grantEntitlementTx_ok run
    · exact index
    · have index : ActiveIndex db₁.whitelist := home (db.withEntitlement _) index back
      exact index
  cases grant with
  | invoice invoiceId =>
      rcases grantByInvoiceTx_ok run with ⟨rfl, -⟩ | ⟨p, -, -, -, run⟩
      · exact ⟨index, started⟩
      · exact granted run
  | settle purchaseId =>
      rcases settlePurchaseTx_ok run with ⟨rfl, -⟩ | ⟨-, run⟩
      · exact ⟨index, started⟩
      · exact granted run
  | credit acct kind volume expires =>
      have run := creditTx_ok run
      have credited : (db.withEntitlement fun id =>
          ⟨id, acct, none, kind, volume, 0, now, expires⟩).StartedBy t :=
        startedBy_withEntitlement started past
      exact ⟨home (db.withEntitlement _) index run, startedBy_activateOwnerTx credited run⟩

/-- The same of the transaction, whether it commits or rolls back. -/
theorem commitGrant_kept (grant : Grant) {now t : Time} {db : Db} (past : now ≤ t)
    (index : ActiveIndex db.whitelist) (started : db.StartedBy t) :
    ActiveIndex (exec (transaction rollback none (grant.tx now)) db).2.whitelist ∧
      (exec (transaction rollback none (grant.tx now)) db).2.StartedBy t := by
  have kept : Keeps (fun db => ActiveIndex db.whitelist ∧ db.StartedBy t)
      (transaction rollback none (grant.tx now)) :=
    Keeps.transaction (fun db u db' h run => grantTx_ok past h.1 h.2 run) fun _ _ h => h
  exact kept.exec ⟨index, started⟩

/-! ## The invariant -/

theorem UpToDate.later {entitlements : List Entitlement} {clock clock' : Time}
    {evaluated : List Time} {t : Time} (upToDate : UpToDate entitlements clock evaluated t)
    (later : clock ≤ clock') : UpToDate entitlements clock' evaluated t :=
  { upToDate with past := upToDate.past.trans later }

/-- **Step**: an event in order keeps every open recompute up to date. -/
theorem orderly_step (w : World) (e : Event) (w' : World) (orderly : Orderly w)
    (inOrder : InOrder w e) (taken : step w e = some w') : Orderly w' := by
  cases e with
  | tick elapsed =>
      cases taken
      have later : w.clock ≤ w.clock + elapsed := Int.le_add_of_nonneg_right (Int.natCast_nonneg _)
      refine { index := orderly.index, now := ?_, waiting := ?_, granting := ?_, holder := ?_ }
      · refine ⟨le_rfl, fun e member => ?_, fun t member => ?_⟩
        · exact (orderly.now.started e member).trans later
        · exact (orderly.now.latest t member).trans later
      · exact fun t member => (orderly.waiting t member).later later
      · exact fun t member => (orderly.granting t member).trans later
      · intro r isHolder
        obtain ⟨read, upToDate, first⟩ := orderly.holder r isHolder
        exact ⟨read, upToDate.later later, first⟩
  | begin =>
      cases taken
      refine { orderly with waiting := fun t member => ?_, holder := fun r isHolder => ?_ }
      · rcases List.mem_append.mp member with member | isNew
        · exact orderly.waiting t member
        · obtain rfl := List.mem_singleton.mp isNew
          exact orderly.now
      · obtain ⟨read, upToDate, first⟩ := orderly.holder r isHolder
        refine ⟨read, upToDate, fun t member => ?_⟩
        rcases List.mem_append.mp member with member | isNew
        · exact first t member
        · obtain rfl := List.mem_singleton.mp isNew
          exact upToDate.past
  | lock i =>
      simp only [step] at taken
      split at taken
      · rename_i began isWaiting isFree
        cases taken
        refine { orderly with waiting := ?_, holder := ?_ }
        · exact fun t member => orderly.waiting t (List.mem_of_mem_eraseIdx member)
        · rintro _ ⟨⟩
          refine ⟨rfl, orderly.waiting began (List.mem_of_getElem? isWaiting), ?_⟩
          exact fun t member => inOrder began isWaiting t (List.mem_of_mem_eraseIdx member)
      · cases taken
  | commit order =>
      simp only [step] at taken
      split at taken
      · cases taken
      rename_i r isHolder
      cases taken
      obtain ⟨-, upToDate, first⟩ := orderly.holder r isHolder
      have latest {t : Time} (before : w.UpToDate t) (le : r.began ≤ t) :
          ∀ t' ∈ w.evaluated ++ [r.began], t' ≤ t := by
        intro t' member
        rcases List.mem_append.mp member with member | isNew
        · exact before.latest t' member
        · exact List.mem_singleton.mp isNew ▸ le
      refine { orderly with now := ?_, waiting := ?_, holder := ?_ }
      · exact { orderly.now with latest := latest orderly.now upToDate.past }
      · intro t member
        have before := orderly.waiting t member
        exact { before with latest := latest before (first t member) }
      · rintro _ ⟨⟩
  | rollback n =>
      simp only [step] at taken
      split at taken
      · cases taken
      cases taken
      refine { orderly with holder := ?_ }
      rintro _ ⟨⟩
  | cancel i =>
      cases taken
      refine { orderly with waiting := ?_, holder := ?_ }
      · exact fun t member => orderly.waiting t (List.mem_of_mem_eraseIdx member)
      · intro r isHolder
        obtain ⟨read, upToDate, first⟩ := orderly.holder r isHolder
        exact ⟨read, upToDate, fun t member => first t (List.mem_of_mem_eraseIdx member)⟩
  | beginGrant =>
      cases taken
      refine { orderly with granting := fun t member => ?_ }
      rcases List.mem_append.mp member with member | isNew
      · exact orderly.granting t member
      · exact (List.mem_singleton.mp isNew).le
  | commitGrant i grant =>
      simp only [step] at taken
      split at taken
      · cases taken
      rename_i began isOpen
      cases taken
      obtain ⟨isFree, first⟩ := inOrder began isOpen
      have past := orderly.granting began (List.mem_of_getElem? isOpen)
      have kept {t : Time} (before : w.UpToDate t) (le : began ≤ t) :=
        commitGrant_kept grant le orderly.index before.started
      refine { index := (kept orderly.now past).1, now := ?_, waiting := ?_, granting := ?_, holder := ?_ }
      · exact { orderly.now with started := (kept orderly.now past).2 }
      · intro t member
        have before := orderly.waiting t member
        exact { before with started := (kept before (first t member)).2 }
      · exact fun t member => orderly.granting t (List.mem_of_mem_eraseIdx member)
      · intro r isHolder
        exact absurd (isFree.symm.trans isHolder) (by simp)

/-! ## What a commit does -/

/-- **The commit of a recompute is sound**, from the world before it to the one after. -/
structure CommitSound (w w' : World) : Prop where
  /-- An address it removes is not desired at the moment of the commit. -/
  removed : ∀ addr, (w.db.authz.current.lookup addr).isSome →
    w'.db.authz.current.lookup addr = none → ∀ acct, ¬ w.db.Desires w.clock addr acct
  /-- An address it adds has an entitlement that had not lapsed when the recomputes
  before it evaluated. -/
  added : ∀ addr acct, w'.db.authz.current.lookup addr = some acct →
    w.db.authz.current.lookup addr ≠ some acct →
    ∃ e ∈ w.db.entitlements, e.accountId = acct ∧ (∀ t ∈ w.evaluated, t ≤ e.expiresAt) ∧
      (e.kind = .time ∨ ∃ total, e.volumeBytes = some total ∧ e.volumeUsed < total)
  /-- It evaluates no earlier than the recomputes before it. -/
  ordered : ∀ t ∈ w.evaluated, t ≤ w'.db.authz.evaluatedAt

theorem commit_ok {w w' : World} {order : MapOrder Member} (taken : step w (.commit order) = some w') :
    ∃ r, w.holder = some r ∧ w'.db.authz = w.db.authz.recompute order r.began r.desired := by
  simp only [step] at taken
  split at taken
  · cases taken
  · rename_i r isHolder
    cases taken
    exact ⟨r, isHolder, rfl⟩

/-- What is desired at the moment was desired when an up-to-date recompute began. -/
theorem desires_of_upToDate {w : World} {t : Time} (upToDate : w.UpToDate t) {addr : Addr}
    {acct : AccountId} (desires : w.db.Desires w.clock addr acct) : w.db.Desires t addr acct := by
  obtain ⟨row, account, e, member, isIt, -, unexpired, volume⟩ := desires
  exact ⟨row, account, e, member, isIt, upToDate.started e member, upToDate.past.trans unexpired,
    volume⟩

theorem commitSound_of_orderly {w w' : World} {order : MapOrder Member} (orderly : Orderly w)
    (taken : step w (.commit order) = some w') : CommitSound w w' := by
  obtain ⟨r, isHolder, tables⟩ := commit_ok taken
  obtain ⟨read, upToDate, -⟩ := orderly.holder r isHolder
  have lookup (addr : Addr) :
      w'.db.authz.current.lookup addr = (w.db.desired r.began).lookup addr := by
    rw [tables, AuthzTables.lookup_recompute, read]
  refine ⟨fun addr _ gone acct desires => ?_, fun addr acct present _ => ?_, fun t member => ?_⟩
  · -- what is desired now was desired at `began` already, so the recompute has it
    have desired := (lookup_desired orderly.index).mpr (desires_of_upToDate upToDate desires)
    rw [lookup, desired] at gone
    cases gone
  · rw [lookup] at present
    obtain ⟨-, -, e, member, isIt, -, unexpired, volume⟩ := (lookup_desired orderly.index).mp present
    exact ⟨e, member, isIt, fun t earlier => (upToDate.latest t earlier).trans unexpired, volume⟩
  · rw [tables]
    exact upToDate.latest t member

theorem orderly_initial {db : Db} {start : Time} {evaluated : List Time}
    (index : ActiveIndex db.whitelist) (started : db.StartedBy start)
    (earlier : ∀ t ∈ evaluated, t ≤ start) : Orderly (.initial db start evaluated) where
  index := index
  now := ⟨le_rfl, started, earlier⟩
  waiting t member := absurd member (by simp [World.initial])
  granting t member := absurd member (by simp [World.initial])
  holder r isHolder := absurd isHolder (by simp [World.initial])

/-- **Along a schedule in order no recompute revokes a fresh grant.**  The schedule
starts on any database that calls have led to by the time `start`, where recomputes may
have evaluated at the times `evaluated`; every commit in it is sound. -/
theorem recompute_keeps_fresh_grants (s : Store) (calls : List Call) (start : Time)
    (past : ∀ c ∈ calls, ∀ k, c.env.now k ≤ start) (evaluated : List Time)
    (earlier : ∀ t ∈ evaluated, t ≤ start) (es : List Event)
    (inOrder : Meets step InOrder (.initial (s.after calls) start evaluated) es)
    (es₁ es₂ : List Event) (order : MapOrder Member) (split : es = es₁ ++ .commit order :: es₂)
    (w w' : World) (reached : run step (.initial (s.after calls) start evaluated) es₁ = some w)
    (taken : step w (.commit order) = some w') : CommitSound w w' := by
  have initial := orderly_initial (valid_after s calls).index (startedBy_after s calls past) earlier
  subst split
  exact commitSound_of_orderly (inOrder.of_append.run_invariant orderly_step initial reached) taken

/-- A customer without a package. -/
def customerCalls : List Call := [⟨calm 0, .createAccount firstNpub⟩]

/-- A time pass for the customer, for a day. -/
def customerPass : Grant := .credit 1 .time none day

/-- A recompute comes and goes, a credit commits, and a recompute follows it. -/
def inTurn : List Event :=
  [.tick 1, .begin, .lock 0, .commit .id, .tick 1, .beginGrant, .commitGrant 0 customerPass,
    .tick 1, .begin, .lock 0]

/-- The second recompute adds the customer, whose pass had not lapsed at the first. -/
theorem recompute_keeps_fresh_grants_inTurn :
    ∃ w w', run step (.initial (plainStore.after customerCalls) 0 []) inTurn = some w ∧
      step w (.commit .id) = some w' ∧
      w.db.authz.current.lookup firstAddr = none ∧
      w'.db.authz.current.lookup firstAddr = some 1 ∧ CommitSound w w' := by
  refine ⟨_, _, rfl, rfl, by decide +kernel, by decide +kernel, ?_⟩
  refine recompute_keeps_fresh_grants plainStore customerCalls 0 ?_ [] (by simp)
    (inTurn ++ [.commit .id]) ?_ inTurn [] .id rfl _ _ rfl rfl
  · intro c member k
    rw [List.mem_singleton.mp member]
    exact le_rfl
  · exact meets_of_checks (by decide +kernel)

/-! ## A recompute that is overtaken -/

/-- One recompute begins and waits; a credit begins and commits; the recompute that
follows the credit begins, gets the lock first and authorizes the customer.  Then the
first one gets the lock. -/
def overtaken : List Event :=
  [.tick 1, .begin, .tick 1, .beginGrant, .commitGrant 0 customerPass, .tick 1, .begin,
    .lock 1, .commit .id, .tick 1, .lock 0]

/-- The customer has just paid, is authorized, and is desired now; the commit of the
recompute that was overtaken revokes the address, and evaluates at an earlier time than
the recompute before it. -/
theorem overtaken_recompute_revokes :
    ∃ w w', run step (.initial (plainStore.after customerCalls) 0 []) overtaken = some w ∧
      step w (.commit .id) = some w' ∧
      w.db.authz.current.lookup firstAddr = some 1 ∧
      w'.db.authz.current.lookup firstAddr = none ∧
      w.db.Desires w.clock firstAddr 1 ∧
      w.evaluated = [3] ∧ w'.db.authz.evaluatedAt = 1 := by
  refine ⟨_, _, rfl, rfl, by decide +kernel, by decide +kernel, ?_, by decide +kernel,
    by decide +kernel⟩
  refine desires_iff_desiredRow.mpr ?_
  decide +kernel

end RecomputeClock

end FipsExitGate
