import FipsExitGate.Store.Methods
import Mathlib.Algebra.BigOperators.Group.List.Basic

/-!
# Redelivered reports

A node redelivers a report until it sees an acknowledgement.  `IngestUsage` knows a
report by its row in `usage_reports` and does nothing for a known one.  The row is
deleted by the retention sweep, and the sweep goes by `window_end`, a time the node
itself has put into the report (or the zero time, where it could not be parsed).
`mem_reports_swept` says exactly which rows a sweep leaves.  A report whose window
ended before the cutoff is forgotten, however recently it was ingested, and its next
delivery is charged again.

## Main results

* `call_known` — the delivery of a known report changes nothing at all
* `row_kept` — a row stays through every call but a sweep past its `window_end`
* `redelivery_charges_nothing` — so a redelivery charges nothing, as long as no sweep
  in between went past the `window_end` on record
* `swept_report_charged_twice` — a report that is swept right after it was ingested
-/

namespace FipsExitGate

open Program Table

/-! ## Totals -/

/-- The bytes on record for an account, raw and folded. -/
def Db.usageTotal (db : Db) (acct : AccountId) : Int :=
  ((db.samples.filter fun smp => decide (smp.accountId = some acct)).map (·.bytes)).sum +
    ((db.daily.entries.filter fun row => decide (row.1.accountId = acct)).map (·.2)).sum

/-! ## Known reports -/

/-- **A known report changes nothing**, whether the transaction is lost or not. -/
theorem call_known {s : Store} {env : Env} {nodeId : String} {r : ReportInput} {db : Db}
    (known : db.knows r.reportId) : s.call db ⟨env, .ingestUsage nodeId r⟩ = db := by
  have body : exec (ingestUsageTx db.services nodeId r (env.now 0)) db = (.ok false, db) := by
    have present : (db.reports.any fun rep => decide (rep.id = r.reportId)) = true := by
      simpa [Db.knows] using known
    unfold ingestUsageTx
    rw [exec_get_bind, if_pos present]
    rfl
  have tx : exec (inTx env 0 fun now => ingestUsageTx db.services nodeId r now) db =
      if env.fails 0 then (.error .lost, db) else (.ok false, db) := exec_inTx_eq body
  show (exec (ingestUsage env nodeId r >>= fun _ => pure ()) db).2 = db
  unfold ingestUsage
  rw [exec_bind, exec_get_bind]
  cases lost : env.fails 0 with
  | true =>
      rw [lost, if_pos rfl] at tx
      rw [exec_bind_error tx]
  | false =>
      rw [lost, if_neg Bool.false_ne_true] at tx
      rw [exec_bind_ok tx]
      rfl

/-- A report that was ingested is known. -/
theorem knows_of_ingested {env : Env} {nodeId : String} {r : ReportInput} {db db' : Db}
    {revoked : List Addr} (ingested : exec (ingestUsage env nodeId r) db = (.ok revoked, db')) :
    db'.knows r.reportId := by
  unfold ingestUsage at ingested
  rw [exec_get_bind] at ingested
  obtain ⟨fresh, db₁, tx, rest⟩ := exec_bind_eq_ok ingested
  have known : db₁.knows r.reportId := by
    rcases ingestUsageTx_ok (exec_inTx_ok tx) with ⟨-, known, rfl⟩ | ⟨-, -, recorded⟩
    · exact known
    · have kept := Keeps.forM (keeps_recordSample (I := fun db => db.knows r.reportId)
        (fun _ _ h => h) (fun _ _ _ h => h) db.services r.reportId (env.now 0)) r.samples
      refine kept.ok ⟨_, List.mem_append_right _ (List.mem_singleton_self _), rfl⟩ recorded
  have kept : Keeps (fun db => db.knows r.reportId) (recomputeAuthz env 1) :=
    keeps_recomputeAuthz env 1 (fun _ _ h => h) fun _ _ h => h
  split at rest
  · exact (Keeps.bind kept fun _ => Keeps.pure _).ok known rest
  · cases rest
    exact known

/-! ## What a sweep forgets -/

/-- **A sweep leaves the rows whose window ends at or after the cutoff**: the samples of
any other report are deleted first, so that nothing holds its row back. -/
theorem mem_reports_swept {db : Db} {cutoff : Time} {rep : UsageReport} :
    rep ∈ deleteWhere (fun r : UsageReport => decide (r.windowEnd < cutoff) &&
        !(deleteWhere (fun smp => (db.oldReport cutoff smp).isSome) db.samples).any fun smp =>
          decide (smp.reportId = r.id)) db.reports ↔
      rep ∈ db.reports ∧ cutoff ≤ rep.windowEnd := by
  rw [mem_deleteWhere]
  refine and_congr_right fun member => ?_
  by_cases old : rep.windowEnd < cutoff
  · -- the samples of an old report are old themselves and have just been deleted
    have noSample : ((deleteWhere (fun smp => (db.oldReport cutoff smp).isSome) db.samples).any
        fun smp => decide (smp.reportId = rep.id)) = false := by
      rw [List.any_eq_false]
      intro smp left isIts
      have gone := (mem_deleteWhere.mp left).2
      have isIts : smp.reportId = rep.id := by simpa using isIts
      have found : (db.oldReport cutoff smp).isSome = true :=
        List.find?_isSome.mpr ⟨rep, member, by simp [isIts, old]⟩
      exact absurd (found.symm.trans gone) (by simp)
    simp [noSample, old]
  · simp [old, Int.not_lt.mp old]

/-- A sweep that does not go past its `window_end` leaves a row. -/
theorem keeps_row_aggregateUsage {rep : UsageReport} {cutoff : Time} (young : cutoff ≤ rep.windowEnd)
    (env : Env) : Keeps (fun db => rep ∈ db.reports) (aggregateUsage env cutoff) := by
  refine keeps_inTx (fun now db n db' member run => ?_) fun _ _ h => h
  cases run
  exact mem_reports_swept.mpr ⟨member, young⟩

theorem row_survives (env : Env) (rep : UsageReport) : Survives env fun db => rep ∈ db.reports where
  rolledBack _ _ member := member
  registry _ _ _ _ _ member := member
  unread _ _ _ _ _ _ member := member
  createPackage := keeps_createPackage (fun _ _ h => h) (fun _ _ _ _ h => h) env
  deactivatePackage := keeps_deactivatePackage (fun _ _ h => h) (fun _ _ h => h) env
  createPurchase s := keeps_createPurchase (fun _ _ h => h) (fun _ _ _ _ h => h) s env
  attachInvoice := keeps_attachInvoice (fun _ _ h => h) (fun _ _ h => h) env
  markProcessing := keeps_markProcessing (fun _ _ h => h) (fun _ _ h => h) env
  credited _ _ _ _ _ _ member := member
  granted _ _ _ _ member _ _ run :=
    (keeps_grantEntitlementTx (I := fun db => rep ∈ db.reports) (fun _ _ _ _ _ h => h)
      (fun _ _ _ h => h) (fun _ _ h => h) _).ok member run
  voided _ _ _ member _ _ := member
  recorded _ _ member := List.mem_append_left _ member
  sampled _ _ member := member
  drawn _ _ _ member := member
  recomputed k := keeps_recomputeAuthz env k (fun _ _ h => h) fun _ _ h => h
  compacted _ _ member := member

/-- **A row stays** through every sequence of calls in which no sweep goes past its
`window_end`. -/
theorem row_kept (s : Store) {rep : UsageReport} (calls : List Call)
    (young : ∀ c ∈ calls, ∀ cutoff, c.op = .aggregateUsage cutoff → cutoff ≤ rep.windowEnd)
    {db : Db} (member : rep ∈ db.reports) : rep ∈ (calls.foldl s.call db).reports := by
  induction calls using List.reverseRecOn with
  | nil => exact member
  | append_singleton calls c ih =>
      rw [List.foldl_concat]
      have before := ih fun c isIn => young c (List.mem_append_left _ isIn)
      refine ((row_survives c.env rep).method c.op fun cutoff isSweep => ?_).exec before
      exact keeps_row_aggregateUsage (young c (by simp) cutoff isSweep) c.env

/-! ## Redelivery -/

/-- **A redelivered report charges nothing while its row is retained.**  After any calls
a report is ingested; any calls follow, among them sweeps whose cutoff is at most the
`window_end` on record for the report.  A delivery of a report with its id then leaves
every entitlement and both usage tables as they are. -/
theorem redelivery_charges_nothing (s : Store) (before between : List Call) (env : Env)
    (nodeId : String) (r : ReportInput) (revoked : List Addr)
    (ingested : (exec (ingestUsage env nodeId r) (s.after before)).1 = .ok revoked)
    (retained : ∀ c ∈ between, ∀ cutoff, c.op = .aggregateUsage cutoff →
      ∀ rep ∈ (s.after (before ++ [⟨env, .ingestUsage nodeId r⟩])).reports,
        rep.id = r.reportId → cutoff ≤ rep.windowEnd)
    (env' : Env) (nodeId' : String) (r' : ReportInput) (same : r'.reportId = r.reportId)
    (db : Db) (isDb : db = s.after (before ++ ⟨env, .ingestUsage nodeId r⟩ :: between)) :
    (s.call db ⟨env', .ingestUsage nodeId' r'⟩).entitlements = db.entitlements ∧
      (s.call db ⟨env', .ingestUsage nodeId' r'⟩).samples = db.samples ∧
      (s.call db ⟨env', .ingestUsage nodeId' r'⟩).daily = db.daily := by
  have known : (s.after (before ++ [⟨env, .ingestUsage nodeId r⟩])).knows r.reportId := by
    rw [after_append_singleton]
    rcases run : exec (ingestUsage env nodeId r) (s.after before) with ⟨outcome, db₁⟩
    rw [run] at ingested
    cases ingested
    have reached : s.call (s.after before) ⟨env, .ingestUsage nodeId r⟩ = db₁ :=
      congrArg Prod.snd (exec_bind_ok (f := fun _ => pure ()) run)
    rw [reached]
    exact knows_of_ingested run
  obtain ⟨rep, member, isIt⟩ := known
  have still : rep ∈ db.reports := by
    have split : db = between.foldl s.call (s.after (before ++ [⟨env, .ingestUsage nodeId r⟩])) := by
      rw [isDb, Store.after, Store.after, List.append_cons, List.foldl_append]
    rw [split]
    refine row_kept s between (fun c isIn cutoff isSweep => ?_) member
    exact retained c isIn cutoff isSweep rep member isIt
  rw [call_known ⟨rep, still, isIt.trans same.symm⟩]
  exact ⟨rfl, rfl, rfl⟩

/-- A customer with a volume package, and a service. -/
def meteredCalls : List Call :=
  [⟨calm 0, .creditVolume firstNpub 1000 30⟩,
    ⟨calm 0, .createService "web" "Web" 443 1000000 true⟩]

/-- The id of an enrolled exit node. -/
def exitNode : String := "5f0c1d5e-0b1a-4c57-9a55-3f6f1f0a7e21"

/-- A report of 100 bytes for a window that ends at `windowEnd`. -/
def customerReport (windowEnd : Time) : ReportInput :=
  ⟨"report-1", "epoch-1", windowEnd, [⟨"web", some firstAddr, 100⟩]⟩

/-- The sweep of the retention job, with ninety days of retention. -/
def retentionSweep (now : Time) : Call := ⟨calm now, .aggregateUsage (now - 90 * day)⟩

/-- A report with a plausible `window_end` is delivered, a sweep follows, and the report
is delivered again. -/
theorem redelivery_charges_nothing_recentReport :
    (plainStore.call (plainStore.after
        (meteredCalls ++ ⟨calm 1, .ingestUsage exitNode (customerReport 1)⟩ :: [retentionSweep 2]))
      ⟨calm 3, .ingestUsage exitNode (customerReport 1)⟩).entitlements.map (·.volumeUsed) =
        [100] := by
  have unchanged := redelivery_charges_nothing plainStore meteredCalls [retentionSweep 2] (calm 1)
    exitNode (customerReport 1) [] (by decide +kernel) (fun c isIn cutoff isSweep => ?_) (calm 3) exitNode
    (customerReport 1) rfl _ rfl
  · rw [unchanged.1]
    decide +kernel
  · rw [List.mem_singleton.mp isIn] at isSweep
    cases isSweep
    decide +kernel

/-- **A report that is swept is charged twice.**  The `window_end` of the report could
not be parsed, so it is the zero time; the next sweep deletes the row of the report,
and the redelivery draws the same bytes again and counts them again. -/
theorem swept_report_charged_twice :
    (exec (ingestUsage (calm 1) exitNode (customerReport zeroTime))
      (plainStore.after meteredCalls)).1 = .ok [] ∧
    ∃ db, db = plainStore.after (meteredCalls ++
        [⟨calm 1, .ingestUsage exitNode (customerReport zeroTime)⟩, retentionSweep 2]) ∧
      db.entitlements.map (·.volumeUsed) = [100] ∧ db.usageTotal 1 = 100 ∧
      (plainStore.call db ⟨calm 3, .ingestUsage exitNode (customerReport zeroTime)⟩).entitlements.map
        (·.volumeUsed) = [200] ∧
      (plainStore.call db ⟨calm 3, .ingestUsage exitNode (customerReport zeroTime)⟩).usageTotal 1 =
        200 := by
  refine ⟨by decide +kernel, _, rfl, ?_⟩
  decide +kernel

end FipsExitGate
