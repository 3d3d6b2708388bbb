import FipsExitGate.Lib.Machine
import FipsExitGate.Usage.Billing

/-!
# Traffic of an address that has just been removed

Reports arrive late: they are buffered through outages, and bytes are counted up to the moment a
revocation reaches the node.  A sample of an address that is no longer in `authz_current` is
therefore billed to the account of the address's newest row in the revision log, as long as the
row is less than seven days old.

What that row says is a matter of the whole history of the address.  The specification,
`Standing`, does not know the log: it follows an address through the authorized sets, from
`never` to `holds` and, when a set no longer has it, to `left` with the account it was in and
the time.  Against it stands the log with its moves, which are recorded as repeated additions,
and with the compactions that cut it.  The link between the two is the last change of an address
on record, `lastChange`; what a recompute does to it is `lastChange_recompute`.

## Main results

* `lastChange_recompute` — the last change of an address after a recompute
* `chronicles_run` — along every run the log tells the standing of each address
* `late_traffic_to_last_holder` — the account that `IngestUsage` records for a sample
-/

namespace FipsExitGate.LateTraffic

open AuthzTables LastWriter Machine Program Table

/-! ## The specification -/

/-- What has become of an address. -/
inductive Standing where
  | never
  | holds (acct : AccountId)
  | left (acct : AccountId) (since : Time)
  deriving DecidableEq, Repr

/-- The standing after the set has become another one. -/
def Standing.after (now : Time) (desired : Option AccountId) (s : Standing) : Standing :=
  match desired, s with
  | some acct, _ => .holds acct
  | none, .holds acct => .left acct now
  | none, s => s

/-! ## The machine -/

/-- The tables and the database clock. -/
structure World where
  tables : AuthzTables
  clock : Time

def World.initial (start : Time) : World := ⟨AuthzTables.empty, start⟩

inductive Event where
  /-- Time passes. -/
  | tick (elapsed : Nat)
  /-- `RecomputeAuthz` finds `desired` and commits. -/
  | recompute (order : MapOrder Member) (desired : AList fun _ : Addr => AccountId)
  /-- `RecomputeAuthz` draws `n` numbers and rolls back. -/
  | rollback (n : Nat)
  /-- `CompactAuthzRevisions`. -/
  | compact (cutoff : Time)

/-- One event.  A compaction keeps at least seven days of the log. -/
def step (w : World) : Event → Option World
  | .tick elapsed => some { w with clock := w.clock + elapsed }
  | .recompute order desired => some { w with tables := recompute order w.clock desired w.tables }
  | .rollback n => some { w with tables := w.tables.burn n }
  | .compact cutoff =>
      if cutoff ≤ w.clock - 7 * day then some { w with tables := w.tables.compact cutoff } else none

/-- The clock and the standings that a sequence of events leads to. -/
def chronicle (start : Time) (es : List Event) : Time × (Addr → Standing) :=
  es.foldl (fun (clock, standing) e =>
    match e with
    | .tick elapsed => (clock + elapsed, standing)
    | .recompute _ desired => (clock, fun a => (standing a).after clock (desired.lookup a))
    | .rollback _ | .compact _ => (clock, standing)) (start, fun _ => .never)

/-! ## The last change of an address -/

/-- The last change of an address in a log: what it was, the account, and when. -/
def lastChange (log : List Revision) (a : Addr) : Option (RevOp × AccountId × Time) :=
  (lastWrite (·.fipsAddr) log a).map fun r => (r.op, r.accountId, r.createdAt)

theorem lastChange_insertRevision (now : Time) (op : RevOp) (addr : Addr) (acct : AccountId)
    (t : AuthzTables) (a : Addr) :
    lastChange (insertRevision now op addr acct t).appended a =
      if a = addr then some (op, acct, now) else lastChange t.appended a := by
  unfold lastChange
  simp only [insertRevision]
  split
  next same =>
    subst same
    have last := lastWrite_concat_self (fun r : Revision => r.fipsAddr) t.appended
      ⟨t.revSeq + 1, op, a, acct, now⟩
    rw [last]
    rfl
  next other =>
    rw [lastWrite_concat_of_ne (fun r : Revision => r.fipsAddr) _ (Ne.symm other)]

/-- A loop over a map that skips some of its members and records a change of each other one. -/
theorem lastChange_foldl (body : AuthzTables → Member → AuthzTables) (skips : Member → Bool)
    (op : RevOp) (now : Time) (a : Addr)
    (records : ∀ t m, lastChange (body t m).appended a =
      if skips m = false ∧ a = m.1 then some (op, m.2, now) else lastChange t.appended a) :
    ∀ (l : List Member) (t : AuthzTables), l.NodupKeys →
      lastChange (l.foldl body t).appended a =
        match l.dlookup a with
        | some acct => if skips ⟨a, acct⟩ then lastChange t.appended a else some (op, acct, now)
        | none => lastChange t.appended a := by
  intro l
  induction l with
  | nil => intro t _; rfl
  | cons m l ih =>
      intro t nodup
      obtain ⟨addr, acct⟩ := m
      obtain ⟨absent, nodup⟩ := List.nodupKeys_cons.mp nodup
      rw [List.foldl_cons, ih _ nodup, records]
      by_cases same : a = addr
      · -- keys are distinct, so no later member touches the address
        subst same
        rw [List.dlookup_cons_eq, List.dlookup_eq_none.mpr absent]
        cases skipped : skips ⟨a, acct⟩ <;> simp [skipped]
      · have skip : List.dlookup a (⟨addr, acct⟩ :: l) = List.dlookup a l :=
          List.dlookup_cons_ne l (⟨addr, acct⟩ : Member) same
        rw [skip, if_neg fun h => same h.2]

/-- **The last change of an address after a recompute.**  An address that joins or moves is
added, one that goes is deleted from the account it was in, and no other one is mentioned. -/
theorem lastChange_recompute (order : MapOrder Member) (now : Time)
    (desired : AList fun _ : Addr => AccountId) (t : AuthzTables) (a : Addr) :
    lastChange (recompute order now desired t).appended a =
      match desired.lookup a, t.current.lookup a with
      | some acct, held =>
          if held = some acct then lastChange t.appended a else some (.add, acct, now)
      | none, some acct => some (.del, acct, now)
      | none, none => lastChange t.appended a := by
  have nodup (m : AList fun _ : Addr => AccountId) : (order.reorder m.entries).NodupKeys :=
    (List.perm_nodupKeys (order.perm m.entries)).mpr m.nodupKeys
  have dlookup (m : AList fun _ : Addr => AccountId) :
      (order.reorder m.entries).dlookup a = m.lookup a :=
    List.perm_dlookup a (nodup m) (order.perm m.entries)
  have adds := lastChange_foldl (addMember t.current now)
    (fun m => decide (t.current.lookup m.1 = some m.2)) .add now a fun t' m => by
      unfold addMember
      by_cases same : t.current.lookup m.1 = some m.2
      · simp [same]
      · rw [if_neg same, lastChange_insertRevision]
        simp [same]
  have dels := lastChange_foldl (delMember desired now)
    (fun m => (desired.lookup m.1).isSome) .del now a fun t' m => by
      unfold delMember
      cases wanted : (desired.lookup m.1).isSome with
      | true => simp
      | false =>
          rw [if_neg Bool.false_ne_true, lastChange_insertRevision]
          simp
  simp only [recompute]
  rw [dels _ _ (nodup _), adds _ _ (nodup _), dlookup, dlookup]
  cases wanted : desired.lookup a with
  | some acct => cases held : t.current.lookup a <;> simp [wanted, held]
  | none => cases held : t.current.lookup a <;> simp [wanted]

/-! ## The log tells the standing -/

/-- The standing that the last change of an address stands for. -/
def Standing.ofChange : Option (RevOp × AccountId × Time) → Standing
  | none => .never
  | some (.add, acct, _) => .holds acct
  | some (.del, acct, since) => .left acct since

/-- The account of a member is the one its last change put it in. -/
theorem lookup_eq_of_lastChange {t : AuthzTables} (inv : LogInv t) (a : Addr) :
    t.current.lookup a =
      match Standing.ofChange (lastChange t.appended a) with
      | .holds acct => some acct
      | _ => none := by
  rw [inv.coupled, holder, lastChange]
  cases lastWrite (·.fipsAddr) t.appended a with
  | none => rfl
  | some r =>
      cases isOp : r.op <;> simp [Standing.ofChange, isOp]

theorem standing_recompute {t : AuthzTables} (inv : LogInv t) (order : MapOrder Member) (now : Time)
    (desired : AList fun _ : Addr => AccountId) (a : Addr) :
    Standing.ofChange (lastChange (recompute order now desired t).appended a) =
      (Standing.ofChange (lastChange t.appended a)).after now (desired.lookup a) := by
  have held := lookup_eq_of_lastChange inv a
  rw [lastChange_recompute]
  generalize lastChange t.appended a = change at held ⊢
  match change with
  | none =>
      rw [held]
      cases desired.lookup a <;> rfl
  | some (.del, acct', since) =>
      rw [held]
      cases desired.lookup a <;> rfl
  | some (.add, acct', since) =>
      rw [held]
      cases desired.lookup a with
      | none => rfl
      | some acct =>
          by_cases same : acct' = acct
          · simp [Standing.ofChange, Standing.after, same]
          · simp [Standing.ofChange, Standing.after, same]

/-- **What the log keeps of the past**: its rows in the order of their times, the standing of
every address, and the last change of an address at least for seven days. -/
structure Chronicles (clock : Time) (standing : Addr → Standing) (w : World) : Prop where
  isClock : w.clock = clock
  inv : LogInv w.tables
  timed : w.tables.appended.Pairwise fun r₁ r₂ => r₁.createdAt ≤ r₂.createdAt
  past : ∀ r ∈ w.tables.appended, r.createdAt ≤ w.clock
  tells : ∀ a, standing a = Standing.ofChange (lastChange w.tables.appended a)
  kept : ∀ r ∈ w.tables.appended, w.clock - 7 * day < r.createdAt → r ∈ w.tables.revisions

theorem chronicles_initial (start : Time) :
    Chronicles start (fun _ => .never) (World.initial start) where
  isClock := rfl
  inv := empty_logInv
  timed := List.Pairwise.nil
  past := by simp [World.initial, AuthzTables.empty]
  tells := fun _ => rfl
  kept := by simp [World.initial, AuthzTables.empty]

theorem Chronicles.tick {clock : Time} {standing : Addr → Standing} {w : World}
    (h : Chronicles clock standing w) (elapsed : Nat) :
    Chronicles (clock + elapsed) standing { w with clock := w.clock + elapsed } := by
  have later : w.clock ≤ w.clock + elapsed := Int.le_add_of_nonneg_right (Int.natCast_nonneg _)
  refine ⟨by rw [h.isClock], h.inv, h.timed, fun r isRow => (h.past r isRow).trans later, h.tells,
    fun r isRow young => h.kept r isRow (lt_of_le_of_lt ?_ young)⟩
  exact Int.sub_le_sub_right later _

theorem Chronicles.recompute {clock : Time} {standing : Addr → Standing} {w : World}
    (h : Chronicles clock standing w) (order : MapOrder Member)
    (desired : AList fun _ : Addr => AccountId) :
    Chronicles clock (fun a => (standing a).after clock (desired.lookup a))
      { w with tables := AuthzTables.recompute order w.clock desired w.tables } := by
  obtain ⟨new, revisions, appended, fresh⟩ := (recompute_appends order w.clock desired w.tables).grows
  have isNow : ∀ r ∈ new, r.createdAt = w.clock := fun r isNew => (fresh r isNew).2
  refine ⟨h.isClock, recompute_logInv h.inv order w.clock desired, ?_, ?_, fun a => ?_, ?_⟩ <;>
    dsimp only
  · rw [appended, List.pairwise_append]
    refine ⟨h.timed, List.pairwise_of_forall_mem_list fun r₁ isNew₁ r₂ isNew₂ => ?_,
      fun r₁ isOld r₂ isNew => ?_⟩
    · rw [isNow r₁ isNew₁, isNow r₂ isNew₂]
    · rw [isNow r₂ isNew]
      exact h.past r₁ isOld
  · rw [appended]
    intro r isRow
    rcases List.mem_append.mp isRow with isOld | isNew
    · exact h.past r isOld
    · exact (isNow r isNew).le
  · rw [standing_recompute h.inv, ← h.tells, h.isClock]
  · rw [appended, revisions]
    intro r isRow young
    exact List.mem_append.mpr ((List.mem_append.mp isRow).imp_left fun isOld => h.kept r isOld young)

theorem Chronicles.compact {clock : Time} {standing : Addr → Standing} {w : World}
    (h : Chronicles clock standing w) {cutoff : Time} (old : cutoff ≤ w.clock - 7 * day) :
    Chronicles clock standing { w with tables := w.tables.compact cutoff } where
  isClock := h.isClock
  inv := compact_logInv h.inv cutoff
  timed := h.timed
  past := h.past
  tells := h.tells
  kept := by
    intro r isRow young
    refine mem_compact.mpr ⟨h.kept r isRow young, fun doomed => ?_⟩
    exact absurd doomed.1 (not_lt.mpr (old.trans young.le))

/-- **Along every run the log tells the standing of every address.** -/
theorem chronicles_run {start : Time} {es : List Event} {w : World}
    (ran : run step (World.initial start) es = some w) :
    Chronicles (chronicle start es).1 (chronicle start es).2 w := by
  let Told (es : List Event) (w : World) : Prop :=
    Chronicles (chronicle start es).1 (chronicle start es).2 w
  have base : Told [] (World.initial start) := chronicles_initial start
  refine run_history base (fun es w e w' _ h taken => ?_) es ran
  show Chronicles _ _ w'
  rw [chronicle, List.foldl_concat, ← chronicle]
  cases e with
  | tick elapsed =>
      cases taken
      exact h.tick elapsed
  | recompute order desired =>
      cases taken
      exact h.recompute order desired
  | rollback n =>
      cases taken
      exact { h with inv := burn_logInv h.inv n }
  | compact cutoff =>
      simp only [step] at taken
      split at taken
      · cases taken
        exact h.compact ‹_›
      · cases taken

/-! ## What `IngestUsage` resolves -/

/-- **The account that a sample is billed to**, by the standing of its address. -/
theorem resolveAccount_eq {clock : Time} {standing : Addr → Standing} {w : World}
    (h : Chronicles clock standing w) {db : Db} (same : db.authz = w.tables) (a : Addr) :
    db.resolveAccount w.clock a =
      match standing a with
      | .holds acct => some acct
      | .left acct since => if w.clock - since < 7 * day then some acct else none
      | .never => none := by
  have held := lookup_eq_of_lastChange h.inv a
  rw [h.tells]
  unfold Db.resolveAccount
  rw [same]
  have nothing (none : ∀ r ∈ w.tables.appended, r.fipsAddr = a → r.createdAt ≤ w.clock - 7 * day) :
      (w.tables.revisions.filter fun r => decide (r.fipsAddr = a) &&
        decide (w.clock - 7 * day < r.createdAt)) = [] := by
    rw [List.filter_eq_nil_iff]
    intro r isRow hit
    simp only [Bool.and_eq_true, decide_eq_true_eq] at hit
    exact absurd hit.2 (not_lt.mpr (none r (revisions_subset h.inv isRow) hit.1))
  unfold lastChange at held ⊢
  cases isLast : lastWrite (·.fipsAddr) w.tables.appended a with
  | none =>
      rw [isLast] at held
      have unwritten := (lastWrite_eq_none Revision.fipsAddr).mp isLast
      rw [held, nothing fun r isRow isHis => absurd isHis (unwritten r isRow)]
      rfl
  | some last =>
      rw [isLast] at held
      obtain ⟨isRow, isHis⟩ := mem_of_lastWrite _ isLast
      cases isOp : last.op with
      | add =>
          simp only [Option.map_some, isOp, Standing.ofChange] at held ⊢
          rw [held]
      | del =>
          simp only [Option.map_some, isOp, Standing.ofChange] at held ⊢
          rw [held]
          dsimp only
          split
          next young =>
            have recent : w.clock - 7 * day < last.createdAt := sub_lt_comm.mp young
            have member : last ∈ w.tables.revisions.filter fun r => decide (r.fipsAddr = a) &&
                decide (w.clock - 7 * day < r.createdAt) :=
              List.mem_filter.mpr ⟨h.kept last isRow recent, by simp [isHis, recent]⟩
            rw [maxOn?_eq_of_unique (f := (·.rev)) member fun r isIn reaches => ?_]
            · rfl
            · obtain ⟨present, hit⟩ := List.mem_filter.mp isIn
              simp only [Bool.and_eq_true, decide_eq_true_eq] at hit
              refine (eq_or_rel_lastWrite _ h.inv.sorted isLast (revisions_subset h.inv present)
                hit.1).resolve_right fun earlier => ?_
              exact absurd reaches (not_le.mpr earlier)
          next old =>
            rw [nothing fun r isRow' isHis' => ?_]
            · rfl
            · have gone : last.createdAt ≤ w.clock - 7 * day := le_sub_comm.mp (not_lt.mp old)
              rcases eq_or_rel_lastWrite _ h.timed isLast isRow' isHis' with rfl | before
              · exact gone
              · exact before.trans gone

/-- **Late traffic is billed to the last holder.**  After any run of recomputes, with whatever
sets, and of compactions that keep seven days, a sample is recorded for the account that holds
its address; if nobody does, for the account the address was in when it left, as long as that is
less than seven days ago; and for no account if it left earlier or was never authorized. -/
theorem late_traffic_to_last_holder (start : Time) (es : List Event) (w : World)
    (ran : run step (World.initial start) es = some w) (db : Db) (same : db.authz = w.tables)
    (services : List Service) (reportId : String) (smp : SampleInput) (a : Addr)
    (isAddr : smp.addr = some a) :
    ∃ row db', exec (recordSample services reportId w.clock smp) db = (.ok (), db') ∧
      db'.samples = db.samples ++ [row] ∧ row.fipsAddr = a ∧
      match (chronicle start es).2 a with
      | .holds acct => db.authz.current.lookup a = some acct ∧ row.accountId = some acct
      | .left acct since => db.authz.current.lookup a = none ∧
          row.accountId = if w.clock - since < 7 * day then some acct else none
      | .never => db.authz.current.lookup a = none ∧ row.accountId = none := by
  have history := chronicles_run ran
  obtain ⟨rows', run⟩ := exec_recordSample services reportId w.clock isAddr db
  refine ⟨_, _, run, rfl, rfl, ?_⟩
  have held := lookup_eq_of_lastChange history.inv a
  have resolved := resolveAccount_eq history same a
  rw [← history.tells] at held
  rw [same]
  dsimp only [recordedRow]
  rw [held, resolved]
  cases (chronicle start es).2 a <;> exact ⟨rfl, rfl⟩

/-- An address that moves from one account to another, is revoked, and sends six days later. -/
def movedAndRevoked : List Event :=
  [.recompute MapOrder.id [⟨firstAddr, 1⟩].toAList, .tick 5,
    .recompute MapOrder.id [⟨firstAddr, 2⟩].toAList, .tick 5, .recompute MapOrder.id ∅,
    .tick (6 * 86400 * 1000000), .compact (-86400 * 1000000)]

/-- The second account pays. -/
theorem late_traffic_to_last_holder_moved :
    ∃ w, run step (World.initial 0) movedAndRevoked = some w ∧
      ∃ row db', exec (recordSample [] "report" w.clock ⟨"web", some firstAddr, 100⟩)
          { Db.empty with authz := w.tables } = (.ok (), db') ∧
        db'.samples = [row] ∧ row.accountId = some 2 := by
  obtain ⟨w, ran⟩ : ∃ w, run step (World.initial 0) movedAndRevoked = some w := ⟨_, rfl⟩
  obtain ⟨row, db', run, samples, -, account⟩ := late_traffic_to_last_holder 0 movedAndRevoked w ran
    { Db.empty with authz := w.tables } rfl [] "report" ⟨"web", some firstAddr, 100⟩ firstAddr rfl
  have standing : (chronicle 0 movedAndRevoked).2 firstAddr = .left 2 10 := by decide +kernel
  have clock : w.clock = 10 + 6 * 86400 * 1000000 := (chronicles_run ran).isClock
  rw [standing, clock] at account
  exact ⟨w, ran, row, db', run, samples, account.2⟩

end FipsExitGate.LateTraffic
