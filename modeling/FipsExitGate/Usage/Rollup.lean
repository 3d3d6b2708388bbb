import FipsExitGate.Lib.Tally
import FipsExitGate.Store.Readers
import FipsExitGate.Usage.Idempotence

/-!
# The roll-up keeps the totals

`AggregateUsage` folds the samples of old reports into daily totals and deletes them, together
with the reports.  What it may not do is to change a total that somebody is billed or shown:
`Db.recorded q` counts the bytes on record, raw and folded, of the accounts and services that
`q` selects, and a sweep leaves it as it is for every `q` (`recorded_swept`).  What does not come
back in a daily total are samples without an account or a service.

## Whole runs

To compare a store that sweeps with one that never does, both have to treat new reports alike,
although their ledgers differ.  `Uniform` says that a program does: its result and its effect
are the same whatever the ledger is, to which it only appends.  `IngestUsage` is uniform as long
as it finds the report's id unknown.  So the two stores go on to differ in nothing but what the
sweeps have folded and dropped (`Trails`).

## Main results

* `recorded_swept` — a sweep keeps the totals
* `ingestUsage_uniform` — a new report is treated alike whatever the ledger is
* `rollup_conserves` — one sweep, and any sequence of sweeps and new reports
-/

namespace FipsExitGate

open Program Table

/-! ## Totals -/

/-- The bytes of a sample, if it has an account and a service and `q` selects them. -/
def UsageSample.counts (q : AccountId → Nat → Bool) (smp : UsageSample) : Int :=
  match smp.accountId, smp.serviceId with
  | some acct, some svc => if q acct svc then smp.bytes else 0
  | _, _ => 0

/-- The sample has an account and a service. -/
def UsageSample.billable (smp : UsageSample) : Bool :=
  smp.accountId.isSome && smp.serviceId.isSome

/-- The bytes of a sample of the account on a service that is not in the catalog. -/
def UsageSample.unserved (acct : AccountId) (smp : UsageSample) : Int :=
  if smp.accountId = some acct ∧ smp.serviceId = none then smp.bytes else 0

/-- The bytes on record, raw and folded, of the accounts and services that `q` selects. -/
def Db.recorded (q : AccountId → Nat → Bool) (db : Db) : Int :=
  (db.samples.map (UsageSample.counts q)).sum +
    Tally.total (fun key : DailyKey => q key.accountId key.serviceId) db.daily

/-- One account and one service. -/
def isPair (acct : AccountId) (svc : Nat) (a : AccountId) (s : Nat) : Bool :=
  decide (a = acct) && decide (s = svc)

/-- The bytes of the samples of an account on a service. -/
def Db.sampledBytes (db : Db) (acct : AccountId) (svc : Nat) : Int :=
  (db.samples.map (UsageSample.counts (isPair acct svc))).sum

/-- The bytes in the daily totals of an account on a service. -/
def Db.foldedBytes (db : Db) (acct : AccountId) (svc : Nat) : Int :=
  Tally.total (fun key : DailyKey => isPair acct svc key.accountId key.serviceId) db.daily

/-- `UsageByService` has two groups for a service, of which an empty one is no row. -/
theorem sum_map_rawUsage {M : Type} [AddCommMonoid M] {f : Int → M} (zero : f 0 = 0) (db : Db)
    (acct : AccountId) (svc : Nat) :
    ((db.rawUsage acct svc).map f).sum =
      f (db.sampledBytes acct svc) + f (db.foldedBytes acct svc) := by
  have optional (bytes : List Int) :
      ((if bytes = [] then none else some bytes.sum : Option Int).map f).getD 0 = f bytes.sum := by
    split
    next empty => rw [empty]; exact zero.symm
    next => rfl
  have sum (a b : Option Int) :
      (([a, b].filterMap id).map f).sum = (a.map f).getD 0 + (b.map f).getD 0 := by
    cases a <;> cases b <;> simp
  have samples : ((db.samples.filter fun smp =>
      decide (smp.accountId = some acct) && decide (smp.serviceId = some svc)).map (·.bytes)).sum =
        db.sampledBytes acct svc := by
    rw [sum_map_filter_eq]
    refine congrArg List.sum (List.map_congr_left fun smp _ => ?_)
    unfold UsageSample.counts isPair
    cases smp.accountId <;> cases smp.serviceId <;> simp
  rw [← samples, Db.rawUsage]
  exact (sum _ _).trans (congrArg₂ (· + ·) (optional _) (optional _))

/-- The bytes that `UsageByService` has for a service. -/
theorem sum_rawUsage (db : Db) (acct : AccountId) (svc : Nat) :
    (db.rawUsage acct svc).sum = db.recorded (isPair acct svc) := by
  have groups := sum_map_rawUsage (f := fun bytes : Int => bytes) rfl db acct svc
  rwa [List.map_id'] at groups

/-- The bytes that the dashboard has for an account. -/
theorem usageBytes_eq (db : Db) (acct : AccountId) :
    db.usageBytes acct =
      db.recorded (fun a _ => decide (a = acct)) +
        (db.samples.map (UsageSample.unserved acct)).sum := by
  have samples : ((db.samples.filter fun smp => decide (smp.accountId = some acct)).map
      (·.bytes)).sum = (db.samples.map (UsageSample.counts fun a _ => decide (a = acct))).sum +
        (db.samples.map (UsageSample.unserved acct)).sum := by
    rw [sum_map_filter_eq, ← List.sum_map_add]
    congr 1
    refine List.map_congr_left fun smp _ => ?_
    unfold UsageSample.counts UsageSample.unserved
    cases smp.accountId <;> cases smp.serviceId <;> simp
  rw [Db.usageBytes, Db.recorded, samples, add_right_comm]
  rfl

/-! ## One sweep -/

/-- The report of the sample ended before the cutoff. -/
def Db.isOld (db : Db) (cutoff : Time) (smp : UsageSample) : Bool :=
  db.reports.any fun r => decide (r.id = smp.reportId) && decide (r.windowEnd < cutoff)

theorem isOld_eq (db : Db) (cutoff : Time) :
    db.isOld cutoff = fun smp => (db.oldReport cutoff smp).isSome :=
  funext fun _ => List.isSome_find?.symm

/-- The database after a sweep. -/
def Db.swept (db : Db) (cutoff : Time) : Db :=
  let left := deleteWhere (db.isOld cutoff) db.samples
  { db with
    daily := db.samples.foldl (foldSample cutoff db) db.daily
    samples := left
    reports := deleteWhere (fun r => decide (r.windowEnd < cutoff) &&
      !left.any fun smp => decide (smp.reportId = r.id)) db.reports }

theorem exec_aggregateUsage (env : Env) (cutoff : Time) (db : Db) :
    exec (aggregateUsage env cutoff) db =
      if env.fails 0 then (.error .lost, db)
      else (.ok ((db.samples.filter (db.isOld cutoff)).length,
        (db.reports.filter fun r => decide (r.windowEnd < cutoff) &&
          !(db.swept cutoff).samples.any fun smp => decide (smp.reportId = r.id)).length),
        db.swept cutoff) := by
  unfold Db.swept
  rw [isOld_eq]
  exact exec_inTx_eq rfl

theorem isOld_iff {db : Db} {cutoff : Time} {smp : UsageSample} :
    db.isOld cutoff smp = true ↔
      ∃ r ∈ db.reports, r.id = smp.reportId ∧ r.windowEnd < cutoff := by
  simp [Db.isOld]

theorem mem_swept_reports {db : Db} {cutoff : Time} {rep : UsageReport} :
    rep ∈ (db.swept cutoff).reports ↔ rep ∈ db.reports ∧ cutoff ≤ rep.windowEnd := by
  unfold Db.swept
  rw [isOld_eq]
  exact mem_reports_swept

/-- A sample is added to the daily totals if it is old. -/
theorem total_foldSample (q : AccountId → Nat → Bool) (cutoff : Time) (db : Db)
    (daily : AList fun _ : DailyKey => Int) (smp : UsageSample) :
    Tally.total (fun key : DailyKey => q key.accountId key.serviceId)
        (foldSample cutoff db daily smp) =
      Tally.total (fun key : DailyKey => q key.accountId key.serviceId) daily +
        if db.isOld cutoff smp then smp.counts q else 0 := by
  simp only [isOld_eq]
  unfold foldSample UsageSample.counts
  cases db.oldReport cutoff smp with
  | none => simp
  | some r =>
      cases smp.accountId with
      | none => simp
      | some acct =>
          cases smp.serviceId with
          | none => simp
          | some svc =>
              rw [Tally.total_insert]
              simp

/-- **A sweep keeps the bytes on record**, whichever accounts and services are counted. -/
theorem recorded_swept (q : AccountId → Nat → Bool) (db : Db) (cutoff : Time) :
    (db.swept cutoff).recorded q = db.recorded q := by
  have folded (samples : List UsageSample) (daily : AList fun _ : DailyKey => Int) :
      Tally.total (fun key : DailyKey => q key.accountId key.serviceId)
          (samples.foldl (foldSample cutoff db) daily) =
        Tally.total (fun key : DailyKey => q key.accountId key.serviceId) daily +
          ((samples.filter (db.isOld cutoff)).map (UsageSample.counts q)).sum := by
    rw [sum_map_filter_eq]
    induction samples generalizing daily with
    | nil => simp
    | cons smp samples ih =>
        rw [List.foldl_cons, ih, total_foldSample, List.map_cons, List.sum_cons, add_assoc]
  have split := sum_deleteWhere (db.isOld cutoff) (UsageSample.counts q) db.samples
  unfold Db.recorded Db.swept
  dsimp only
  rw [folded, ← split]
  omega

/-! ## Programs that only append to the ledger -/

/-- The database with another ledger. -/
def Db.withLedger (db : Db) (samples : List UsageSample) (daily : AList fun _ : DailyKey => Int)
    (reports : List UsageReport) : Db :=
  { db with samples, daily, reports }

/-- The program treats all ledgers with `P` alike: it appends the same rows to them, and its
result and what else it does are the same. -/
def Uniform {α : Type} (P : List UsageReport → Prop) (m : StoreM α) : Prop :=
  ∀ db : Db, ∃ (result : Except StoreErr α) (db' : Db) (newSamples : List UsageSample)
    (newReports : List UsageReport), ∀ samples daily reports, P reports →
    exec m (db.withLedger samples daily reports) =
      (result, db'.withLedger (samples ++ newSamples) daily (reports ++ newReports))

namespace Uniform

variable {α β : Type} {P : List UsageReport → Prop}

theorem pure (a : α) : Uniform P (Pure.pure a) :=
  fun db => ⟨.ok a, db, [], [], fun _ _ _ _ => by simp only [List.append_nil]; rfl⟩

theorem throw (e : StoreErr) : Uniform P (throw e : StoreM α) :=
  fun db => ⟨.error e, db, [], [], fun _ _ _ _ => by simp only [List.append_nil]; rfl⟩

theorem modify {f : Db → Db}
    (blind : ∀ db samples daily reports,
      f (db.withLedger samples daily reports) = (f db).withLedger samples daily reports) :
    Uniform P (modify f : StoreM PUnit) := by
  refine fun db => ⟨.ok ⟨⟩, f db, [], [], fun samples daily reports _ => ?_⟩
  rw [exec_modify, blind, List.append_nil, List.append_nil]

/-- The statement that appends a sample. -/
theorem sample (smp : UsageSample) :
    Uniform P (MonadState.modifyGet fun db : Db =>
      (PUnit.unit, { db with samples := db.samples ++ [smp] }) : StoreM PUnit) := by
  refine fun db => ⟨.ok ⟨⟩, db, [smp], [], fun samples daily reports _ => ?_⟩
  rw [List.append_nil]
  rfl

theorem bind {m : StoreM α} {k : α → StoreM β} (first : Uniform P m)
    (rest : ∀ a, Uniform (fun _ => True) (k a)) : Uniform P (m >>= k) := by
  intro db
  obtain ⟨result, db₁, samples₁, reports₁, run⟩ := first db
  cases result with
  | error e =>
      refine ⟨.error e, db₁, samples₁, reports₁, fun samples daily reports ok => ?_⟩
      rw [exec_bind_error (run samples daily reports ok)]
  | ok a =>
      obtain ⟨result, db₂, samples₂, reports₂, run'⟩ := rest a db₁
      refine ⟨result, db₂, samples₁ ++ samples₂, reports₁ ++ reports₂,
        fun samples daily reports ok => ?_⟩
      rw [exec_bind_ok (run samples daily reports ok), run' _ _ _ trivial, List.append_assoc,
        List.append_assoc]

/-- A program that reads the database, but not the ledger. -/
theorem get_bind {k : Db → StoreM α}
    (blind : ∀ db samples daily reports, k (db.withLedger samples daily reports) = k db)
    (rest : ∀ db, Uniform P (k db)) : Uniform P (get >>= k) := by
  intro db
  obtain ⟨result, db', samples', reports', run⟩ := rest db db
  refine ⟨result, db', samples', reports', fun samples daily reports ok => ?_⟩
  rw [exec_get_bind, blind, run samples daily reports ok]

theorem ite {c : Prop} [Decidable c] {m₁ m₂ : StoreM α} (yes : Uniform P m₁) (no : Uniform P m₂) :
    Uniform P (if c then m₁ else m₂) := by
  split
  · exact yes
  · exact no

theorem forM {γ : Type} {f : γ → StoreM PUnit} (body : ∀ c, Uniform (fun _ => True) (f c))
    (cs : List γ) : Uniform (fun _ => True) (cs.forM f) := by
  induction cs with
  | nil => exact Uniform.pure PUnit.unit
  | cons c cs ih => exact Uniform.bind (body c) fun _ => ih

/-- A rollback takes back what was appended. -/
theorem inTx {env : Env} {k : Nat} {body : Time → StoreM α} (h : Uniform P (body (env.now k))) :
    Uniform P (inTx env k body) := by
  intro db
  obtain ⟨result, db', samples', reports', run⟩ := h db
  cases result with
  | error e =>
      refine ⟨.error e, rollback db db', [], [], fun samples daily reports ok => ?_⟩
      rw [FipsExitGate.inTx, exec_transaction, run samples daily reports ok, List.append_nil,
        List.append_nil]
      rfl
  | ok a =>
      cases lost : env.fails k with
      | true =>
          refine ⟨.error .lost, rollback db db', [], [], fun samples daily reports ok => ?_⟩
          rw [exec_inTx_eq (run samples daily reports ok), lost, List.append_nil, List.append_nil]
          rfl
      | false =>
          refine ⟨.ok a, db', samples', reports', fun samples daily reports ok => ?_⟩
          rw [exec_inTx lost (run samples daily reports ok)]

end Uniform

theorem recomputeAuthz_uniform (env : Env) (k : Nat) :
    Uniform (fun _ => True) (recomputeAuthz env k) := by
  refine Uniform.inTx (Uniform.get_bind (fun _ _ _ _ => rfl) fun db => ?_)
  exact Uniform.bind (Uniform.modify fun _ _ _ _ => rfl) fun _ => Uniform.pure _

theorem consumeVolume_uniform (now : Time) (acct : AccountId) (weighted : Int) :
    Uniform (fun _ => True) (consumeVolume now acct weighted) := by
  have loop (fuel : Nat) :
      ∀ weighted, Uniform (fun _ => True) (consumeVolumeLoop now acct fuel weighted) := by
    induction fuel with
    | zero => exact fun weighted => Uniform.pure _
    | succ fuel ih =>
        intro weighted
        refine Uniform.ite (Uniform.pure _) (Uniform.get_bind (fun _ _ _ _ => rfl) fun db => ?_)
        split
        · exact Uniform.pure _
        · exact Uniform.bind (Uniform.modify fun _ _ _ _ => rfl) fun _ => ih _
  exact Uniform.get_bind (fun _ _ _ _ => rfl) fun db => loop _ _

theorem recordSample_uniform (services : List Service) (reportId : String) (now : Time)
    (smp : SampleInput) : Uniform (fun _ => True) (recordSample services reportId now smp) := by
  unfold recordSample
  split
  · exact Uniform.throw _
  next addr _ =>
    refine Uniform.get_bind (fun _ _ _ _ => rfl) fun db => Uniform.bind ?_ fun _ => ?_
    · exact Uniform.sample _
    · split
      · exact Uniform.ite (consumeVolume_uniform _ _ _) (Uniform.pure _)
      · exact Uniform.pure _

/-- **A new report is treated alike** whatever the ledger is. -/
theorem ingestUsage_uniform (env : Env) (nodeId : String) (r : ReportInput) :
    Uniform (fun reports => ∀ rep ∈ reports, rep.id ≠ r.reportId) (ingestUsage env nodeId r) := by
  refine Uniform.get_bind (fun _ _ _ _ => rfl) fun db => Uniform.bind (Uniform.inTx ?_) fun fresh => ?_
  · have record := Uniform.bind (Uniform.forM (recordSample_uniform db.services r.reportId
      (env.now 0)) r.samples) fun _ => Uniform.pure true
    intro db'
    obtain ⟨result, db₁, samples', reports', run⟩ := record db'
    refine ⟨result, db₁, samples',
      ⟨r.reportId, nodeId, r.counterEpoch, r.windowEnd, env.now 0⟩ :: reports',
      fun samples daily reports unknown => ?_⟩
    have absent : (reports.any fun rep => decide (rep.id = r.reportId)) = false := by
      simpa using unknown
    have appended := run samples daily
      (reports ++ [⟨r.reportId, nodeId, r.counterEpoch, r.windowEnd, env.now 0⟩]) trivial
    rw [List.append_assoc, List.singleton_append] at appended
    unfold ingestUsageTx
    rw [exec_get_bind, if_neg (by simpa [Db.withLedger] using unknown)]
    exact appended
  · refine Uniform.ite (Uniform.bind (recomputeAuthz_uniform env 1) fun _ => Uniform.pure _)
      (Uniform.pure _)

/-! ## Sweeping and never sweeping -/

/-- A call that changes the ledger. -/
inductive LedgerCall where
  | report (env : Env) (nodeId : String) (r : ReportInput)
  | sweep (env : Env) (cutoff : Time)

def LedgerCall.toCall : LedgerCall → Call
  | .report env nodeId r => ⟨env, .ingestUsage nodeId r⟩
  | .sweep env cutoff => ⟨env, .aggregateUsage cutoff⟩

def LedgerCall.isReport : LedgerCall → Bool
  | .report .. => true
  | .sweep .. => false

/-- The database after the calls. -/
def Store.runLedger (s : Store) (db : Db) (calls : List LedgerCall) : Db :=
  (calls.map LedgerCall.toCall).foldl s.call db

/-- Every report is new, to a store that never sweeps, when it comes in. -/
def Store.AllNew (s : Store) (db : Db) : List LedgerCall → Prop
  | [] => True
  | .sweep .. :: calls => s.AllNew db calls
  | .report env nodeId r :: calls =>
      ¬ db.knows r.reportId ∧ s.AllNew (s.call db (LedgerCall.report env nodeId r).toCall) calls

/-- One database has the same rows as the other, except that it folded some samples into the
daily totals and dropped others. -/
structure Trails (x y : Db) (folded dropped : List UsageSample) : Prop where
  rows : x = y.withLedger x.samples x.daily x.reports
  samples : (x.samples ++ (folded ++ dropped)).Perm y.samples
  billable : ∀ smp ∈ folded, smp.billable = true
  unbillable : ∀ smp ∈ dropped, smp.billable = false
  reports : ∀ rep ∈ x.reports, rep ∈ y.reports
  recorded : ∀ q, x.recorded q = y.recorded q

theorem Trails.refl (db : Db) : Trails db db [] [] :=
  ⟨rfl, by simp, by simp, by simp, fun _ member => member, fun _ => rfl⟩

/-- A sweep folds the billable samples that are old and drops the others. -/
theorem Trails.sweep {x y : Db} {folded dropped : List UsageSample}
    (trails : Trails x y folded dropped) (cutoff : Time) :
    Trails (x.swept cutoff) y
      (folded ++ (x.samples.filter (x.isOld cutoff)).filter UsageSample.billable)
      (dropped ++ (x.samples.filter (x.isOld cutoff)).filter fun smp => !smp.billable) where
  rows := by
    rw [trails.rows]
    rfl
  samples := by
    refine List.Perm.trans ?_ trails.samples
    have old := List.filter_append_perm (x.isOld cutoff) x.samples
    have parts := List.filter_append_perm UsageSample.billable
      (x.samples.filter (x.isOld cutoff))
    rw [List.perm_iff_count] at old parts ⊢
    intro smp
    have counted := old smp
    have split := parts smp
    simp only [List.count_append] at counted split ⊢
    change List.count smp (deleteWhere (x.isOld cutoff) x.samples) + _ = _
    unfold deleteWhere
    omega
  billable := by
    intro smp member
    rcases List.mem_append.1 member with before | now
    · exact trails.billable smp before
    · exact (List.mem_filter.1 now).2
  unbillable := by
    intro smp member
    rcases List.mem_append.1 member with before | now
    · exact trails.unbillable smp before
    · simpa using (List.mem_filter.1 now).2
  reports := fun rep left => trails.reports rep (mem_swept_reports.1 left).1
  recorded := fun q => (recorded_swept q x cutoff).trans (trails.recorded q)

/-- A new report leaves the two databases as far apart as they were. -/
theorem Trails.report {x y : Db} {folded dropped : List UsageSample}
    (trails : Trails x y folded dropped) (env : Env) (nodeId : String) {r : ReportInput}
    (new : ¬ y.knows r.reportId) :
    Trails (exec (ingestUsage env nodeId r) x).2 (exec (ingestUsage env nodeId r) y).2
      folded dropped := by
  have unknown : ∀ rep ∈ y.reports, rep.id ≠ r.reportId := fun rep member same =>
    new ⟨rep, member, same⟩
  obtain ⟨result, db', samples', reports', run⟩ := ingestUsage_uniform env nodeId r y
  have left := run x.samples x.daily x.reports fun rep member =>
    unknown rep (trails.reports rep member)
  have right : exec (ingestUsage env nodeId r) y = _ := run y.samples y.daily y.reports unknown
  rw [← trails.rows] at left
  rw [left, right]
  refine ⟨rfl, ?_, trails.billable, trails.unbillable, fun rep => ?_, fun q => ?_⟩
  · have before := trails.samples
    rw [List.perm_iff_count] at before ⊢
    intro smp
    have counted := before smp
    simp only [Db.withLedger, List.count_append] at counted ⊢
    omega
  · simp only [Db.withLedger, List.mem_append]
    exact Or.imp_left (trails.reports rep)
  · have before := trails.recorded q
    simp only [Db.recorded, Db.withLedger, List.map_append, List.sum_append] at before ⊢
    omega

theorem call_sweep (s : Store) (db : Db) (env : Env) (cutoff : Time) :
    s.call db (LedgerCall.sweep env cutoff).toCall =
      if env.fails 0 then db else db.swept cutoff := by
  have dropped : s.call db (LedgerCall.sweep env cutoff).toCall =
      (exec (aggregateUsage env cutoff) db).2 := snd_exec_drop _ db
  rw [dropped, exec_aggregateUsage]
  cases env.fails 0 <;> rfl

theorem call_report (s : Store) (db : Db) (env : Env) (nodeId : String) (r : ReportInput) :
    s.call db (LedgerCall.report env nodeId r).toCall = (exec (ingestUsage env nodeId r) db).2 :=
  snd_exec_drop _ db

/-- **A store that sweeps trails one that never does.** -/
theorem trails_runLedger (s : Store) {calls : List LedgerCall} {x y : Db}
    {folded dropped : List UsageSample} (trails : Trails x y folded dropped)
    (new : s.AllNew y calls) :
    ∃ folded dropped, Trails (s.runLedger x calls)
      (s.runLedger y (calls.filter LedgerCall.isReport)) folded dropped := by
  induction calls generalizing x y folded dropped with
  | nil => exact ⟨folded, dropped, trails⟩
  | cons c calls ih =>
      cases c with
      | sweep env cutoff =>
          have after := call_sweep s x env cutoff
          split at after
          · exact ih (after.symm ▸ trails) new
          · exact ih (after.symm ▸ trails.sweep cutoff) new
      | report env nodeId r =>
          have step := trails.report env nodeId new.1
          rw [← call_report s, ← call_report s] at step
          exact ih step new.2

/-- An account's overall total falls behind by what was dropped of it. -/
theorem Trails.usageBytes {x y : Db} {folded dropped : List UsageSample}
    (trails : Trails x y folded dropped) (acct : AccountId) :
    x.usageBytes acct + (dropped.map (UsageSample.unserved acct)).sum = y.usageBytes acct := by
  have served : (folded.map (UsageSample.unserved acct)).sum = 0 := by
    refine List.sum_eq_zero fun bytes member => ?_
    obtain ⟨smp, isFolded, rfl⟩ := List.mem_map.1 member
    have both := trails.billable smp isFolded
    simp only [UsageSample.billable, Bool.and_eq_true] at both
    unfold UsageSample.unserved
    refine if_neg fun absent => ?_
    simp [absent.2] at both
  have sums := (trails.samples.map (UsageSample.unserved acct)).sum_eq
  rw [usageBytes_eq, usageBytes_eq, trails.recorded, ← sums, List.map_append, List.map_append,
    List.sum_append, List.sum_append, served]
  omega

/-- **The roll-up conserves the totals.**

One sweep that is not lost removes exactly the samples whose report ended before the cutoff.
It changes the total of no account on a service of the catalog, and lowers the overall total of
an account by its removed samples without a service.  The report of a removed sample goes with
it, and a report with a sample left stays.

Any sequence of sweeps and new reports ends with the totals of the same sequence without the
sweeps, up to samples that have no account or no service. -/
theorem rollup_conserves (s : Store) (db : Db) (unique : (db.reports.map (·.id)).Nodup) :
    (∀ env cutoff counts db', exec (aggregateUsage env cutoff) db = (.ok counts, db') →
      db'.samples = db.samples.filter (fun smp => !db.isOld cutoff smp) ∧
      counts.1 = (db.samples.filter (db.isOld cutoff)).length ∧
      (∀ acct svc, (db'.rawUsage acct svc).sum = (db.rawUsage acct svc).sum) ∧
      (∀ acct, db'.usageBytes acct = db.usageBytes acct -
        ((db.samples.filter (db.isOld cutoff)).map (UsageSample.unserved acct)).sum) ∧
      (∀ smp ∈ db.samples, db.isOld cutoff smp = true →
        ∀ rep ∈ db'.reports, rep.id ≠ smp.reportId) ∧
      (∀ rep ∈ db.reports, (∃ smp ∈ db'.samples, smp.reportId = rep.id) → rep ∈ db'.reports)) ∧
    (∀ calls, s.AllNew db calls →
      ∃ folded dropped : List UsageSample,
        let swept := s.runLedger db calls
        let unswept := s.runLedger db (calls.filter LedgerCall.isReport)
        (swept.samples ++ (folded ++ dropped)).Perm unswept.samples ∧
        (∀ smp ∈ folded, smp.accountId.isSome ∧ smp.serviceId.isSome) ∧
        (∀ smp ∈ dropped, smp.accountId = none ∨ smp.serviceId = none) ∧
        (∀ acct svc, (swept.rawUsage acct svc).sum = (unswept.rawUsage acct svc).sum) ∧
        (∀ acct, swept.usageBytes acct =
          unswept.usageBytes acct - (dropped.map (UsageSample.unserved acct)).sum)) := by
  refine ⟨fun env cutoff counts db' run => ?_, fun calls new => ?_⟩
  · rw [exec_aggregateUsage] at run
    split at run
    · cases run
    cases run
    refine ⟨rfl, rfl, fun acct svc => ?_, fun acct => ?_, fun smp _ old rep left its => ?_,
      fun rep member left => ?_⟩
    · rw [sum_rawUsage, sum_rawUsage, recorded_swept]
    · have removed := sum_deleteWhere (db.isOld cutoff) (UsageSample.unserved acct) db.samples
      rw [usageBytes_eq, usageBytes_eq, recorded_swept, ← removed]
      exact (Int.add_sub_cancel ..).symm.trans (by rw [add_assoc]; rfl)
    · -- the report that is old is the only one with the id
      obtain ⟨oldRep, member, isIts, ended⟩ := isOld_iff.1 old
      obtain ⟨stayed, recent⟩ := mem_swept_reports.1 left
      have same := List.inj_on_of_nodup_map unique stayed member (its.trans isIts.symm)
      exact absurd ended (not_lt.2 (same ▸ recent))
    · refine (mem_deleteWhere ..).2 ⟨member, ?_⟩
      obtain ⟨smp, isLeft, isIts⟩ := left
      have held : ∃ smp ∈ deleteWhere (db.isOld cutoff) db.samples, smp.reportId = rep.id :=
        ⟨smp, isLeft, isIts⟩
      simpa using fun _ => held
  · obtain ⟨folded, dropped, trails⟩ := trails_runLedger s (Trails.refl db) new
    refine ⟨folded, dropped, trails.samples, fun smp member => ?_, fun smp member => ?_,
      fun acct svc => ?_, fun acct => ?_⟩
    · simpa [UsageSample.billable] using trails.billable smp member
    · simpa [UsageSample.billable, Decidable.imp_iff_not_or] using trails.unbillable smp member
    · rw [sum_rawUsage, sum_rawUsage, trails.recorded]
    · have total := trails.usageBytes acct
      omega

/-- Two reports of a customer, each with a sample for a service that nobody offers, and a sweep
after each. -/
def sweptReports : List LedgerCall :=
  [.report (calm 1) exitNode ⟨"report-1", "epoch-1", 1,
      [⟨"web", some firstAddr, 100⟩, ⟨"gopher", some firstAddr, 7⟩]⟩,
    .sweep (calm 2) 2,
    .report (calm 3) exitNode ⟨"report-2", "epoch-1", 3, [⟨"web", some firstAddr, 50⟩]⟩,
    .sweep (calm 4) 4]

/-- The customer's 150 bytes on the service are all there, and the other seven are not. -/
theorem rollup_conserves_sweptReports :
    ((plainStore.runLedger (plainStore.after meteredCalls) sweptReports).rawUsage 1 4).sum = 150 ∧
      ∃ dropped : List UsageSample,
        (plainStore.runLedger (plainStore.after meteredCalls) sweptReports).usageBytes 1 =
          157 - (dropped.map (UsageSample.unserved 1)).sum := by
  have conserved := (rollup_conserves plainStore (plainStore.after meteredCalls)
    (by decide +kernel)).2 sweptReports (by
      simp only [sweptReports, Store.AllNew, Db.knows]
      decide +kernel)
  obtain ⟨folded, dropped, _, _, _, pairs, accounts⟩ := conserved
  have total : (plainStore.runLedger (plainStore.after meteredCalls)
      (sweptReports.filter LedgerCall.isReport)).usageBytes 1 = 157 := by decide +kernel
  refine ⟨(pairs 1 4).trans (by decide +kernel), dropped, ?_⟩
  rw [accounts 1, total]

end FipsExitGate
