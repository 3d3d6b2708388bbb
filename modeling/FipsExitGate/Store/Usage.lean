import FipsExitGate.Store.Purchases

/-!
# Usage ingest and retention

`usage.go` and `retention.go`: a node's report is recorded once, keyed by its
`report_id`; each sample is attributed to an account and its rate-weighted bytes
are drawn from that account's volume entitlements, the earliest-expiring first.
The retention sweep later folds old samples into daily totals and deletes the
reports they came from.

## Design notes

* Entitlements that expire at the same instant are drawn in table order; SQL leaves
  the order among them open.
* Postgres cannot cast every `netip.Addr` to `inet` (the zero value, one with a
  zone); such a sample address is `none`.
-/

namespace FipsExitGate

open Program Table

/-! ## The service catalog -/

/-- `CreateService`: upsert on the key; the port has a unique key of its own. -/
def createService (env : Env) (key name : String) (port : BitVec 16) (ratePpm : Int)
    (enabled : Bool) : StoreM Unit :=
  inTx env 0 fun _ => do
    let db ← get
    let rate := if ratePpm ≤ 0 then 1000000 else ratePpm
    if db.services.any fun svc => decide (svc.key ≠ key) && decide (svc.port = port) then
      throw (.constraint "services_port_key")
    else
      let id ← newId
      modify fun db => { db with
        services := upsert (fun svc => decide (svc.key = key)) ⟨id, key, name, port, rate, enabled⟩
          (fun svc => { svc with name, port, ratePpm := rate, enabled }) db.services }

/-! ## Reports -/

/-- `SampleInput`; `bytes` is a `uint64`. -/
structure SampleInput where
  service : String
  addr : Option Addr
  bytes : BitVec 64
  deriving DecidableEq, Repr

/-- `ReportInput`. -/
structure ReportInput where
  reportId : String
  counterEpoch : String
  windowEnd : Time
  samples : List SampleInput
  deriving DecidableEq, Repr

/-- `maxSampleBytes`. -/
def maxSampleBytes : Nat := 2 ^ 40

/-- The bytes of a sample as recorded, after the clamp. -/
def SampleInput.clamped (smp : SampleInput) : Int :=
  min smp.bytes.toNat maxSampleBytes

/-- The account a sample is billed to: the current holder of the address, else the
one of its newest revision within the last seven days. -/
def Db.resolveAccount (now : Time) (db : Db) (addr : Addr) : Option AccountId :=
  match db.authz.current.lookup addr with
  | some acct => some acct
  | none =>
      (db.authz.revisions.filter fun r =>
        decide (r.fipsAddr = addr) && decide (now - 7 * day < r.createdAt)).maxOn? (·.rev)
        |>.map (·.accountId)

/-- `b/1_000_000*rate + b%1_000_000*rate/1_000_000` in `int64`. -/
def weightedBytes (b rate : Int) : Int :=
  wrap64 (wrap64 (b.tdiv 1000000 * rate) + (wrap64 (b.tmod 1000000 * rate)).tdiv 1000000)

/-- The entitlement `consumeVolume` draws from next. -/
def Db.nextVolume (now : Time) (db : Db) (acct : AccountId) : Option Entitlement :=
  (db.entitlements.filter fun e =>
    decide (e.accountId = acct) && decide (e.kind = .volume) && e.activeAt now).minOn? (·.expiresAt)

/-- `volume_used = volume_used + $1`. -/
def Entitlement.draw (amount : Int) (e : Entitlement) : Entitlement :=
  { e with volumeUsed := e.volumeUsed + amount }

/-- `consumeVolume`.  Every round but the last one empties an entitlement, so as
many rounds as there are entitlements, and one more, are enough. -/
def consumeVolumeLoop (now : Time) (acct : AccountId) : Nat → Int → StoreM Unit
  | 0, _ => return ()
  | fuel + 1, weighted => do
      if weighted ≤ 0 then return ()
      else
        let db ← get
        match db.nextVolume now acct with
        | none => return ()
        | some e =>
            let remaining := e.volumeBytes.getD 0 - e.volumeUsed
            let consume := min weighted remaining
            modify fun db => { db with
              entitlements := updateWhere (fun e' => decide (e'.id = e.id)) (Entitlement.draw consume)
                db.entitlements }
            consumeVolumeLoop now acct fuel (weighted - consume)

def consumeVolume (now : Time) (acct : AccountId) (weighted : Int) : StoreM Unit := do
  let db ← get
  consumeVolumeLoop now acct (db.entitlements.length + 1) weighted

/-- The body of the loop over a report's samples. -/
def recordSample (services : List Service) (reportId : String) (now : Time) (smp : SampleInput) :
    StoreM Unit := do
  match smp.addr with
  | none => throw (.constraint "inet")
  | some addr =>
      let db ← get
      -- the catalog was read before the transaction began
      let svcMeta := services.find? fun svc => svc.enabled && decide (svc.key = smp.service)
      let acct := db.resolveAccount now addr
      modify fun db => { db with
        samples := db.samples ++ [⟨reportId, svcMeta.map (·.id), addr, acct, smp.clamped⟩] }
      match acct, svcMeta with
      | some acct, some svc =>
          if 0 < svc.ratePpm then
            consumeVolume now acct (weightedBytes smp.clamped svc.ratePpm)
          else return ()
      | _, _ => return ()

/-- The transaction of `IngestUsage`; returns whether the report is new. -/
def ingestUsageTx (services : List Service) (nodeId : String) (r : ReportInput) (now : Time) :
    StoreM Bool := do
  let db ← get
  -- ON CONFLICT (id) DO NOTHING
  if db.reports.any fun rep => decide (rep.id = r.reportId) then return false
  else
    modify fun db => { db with
      reports := db.reports ++ [⟨r.reportId, nodeId, r.counterEpoch, r.windowEnd, now⟩] }
    r.samples.forM (recordSample services r.reportId now)
    return true

/-- The report is known. -/
def Db.knows (db : Db) (reportId : String) : Prop :=
  ∃ rep ∈ db.reports, rep.id = reportId

/-- A known report changes nothing; any other is recorded and its samples are. -/
theorem ingestUsageTx_ok {services : List Service} {nodeId : String} {r : ReportInput} {now : Time}
    {db db' : Db} {fresh : Bool}
    (run : exec (ingestUsageTx services nodeId r now) db = (.ok fresh, db')) :
    (fresh = false ∧ db.knows r.reportId ∧ db' = db) ∨
      (fresh = true ∧ ¬ db.knows r.reportId ∧
        exec (r.samples.forM (recordSample services r.reportId now))
          { db with
            reports := db.reports ++ [⟨r.reportId, nodeId, r.counterEpoch, r.windowEnd, now⟩] } =
          (.ok (), db')) := by
  unfold ingestUsageTx at run
  rw [exec_get_bind] at run
  split at run
  · rename_i known
    cases run
    exact .inl ⟨rfl, by simpa [Db.knows] using known, rfl⟩
  · rename_i unknown
    rw [exec_bind_ok (exec_modify _ db)] at run
    obtain ⟨⟨⟩, db₁, recorded, run⟩ := exec_bind_eq_ok run
    cases run
    exact .inr ⟨rfl, by simpa [Db.knows] using unknown, recorded⟩

/-- `IngestUsage`: a known report changes nothing and revokes nobody. -/
def ingestUsage (env : Env) (nodeId : String) (r : ReportInput) : StoreM (List Addr) := do
  let db ← get
  let fresh ← inTx env 0 fun now => ingestUsageTx db.services nodeId r now
  if fresh then
    let (removed, _) ← recomputeAuthz env 1
    return removed
  else return []

/-! ## Retention -/

/-- `date_trunc('day', t)::date`, as days since the epoch. -/
def dayOf (t : Time) : Int :=
  t / day

/-- The report of a sample, if it ended before the cutoff. -/
def Db.oldReport (cutoff : Time) (db : Db) (smp : UsageSample) : Option UsageReport :=
  db.reports.find? fun r => decide (r.id = smp.reportId) && decide (r.windowEnd < cutoff)

/-- Add a sample to the daily total of its account and service. -/
def foldSample (cutoff : Time) (db : Db) (daily : AList fun _ : DailyKey => Int)
    (smp : UsageSample) : AList fun _ : DailyKey => Int :=
  match db.oldReport cutoff smp, smp.accountId, smp.serviceId with
  | some r, some acct, some svc =>
      let key : DailyKey := ⟨acct, dayOf r.windowEnd, svc⟩
      daily.insert key ((daily.lookup key).getD 0 + smp.bytes)
  | _, _, _ => daily

/-- `AggregateUsage`: one snapshot for the fold and the deletion of the samples,
then the reports that have no sample left. -/
def aggregateUsage (env : Env) (cutoff : Time) : StoreM (Nat × Nat) :=
  inTx env 0 fun _ => do
    let db ← get
    let isOld := fun smp => (db.oldReport cutoff smp).isSome
    -- one statement: samples without an account or a service are deleted but not folded
    modify fun db' => { db' with
      daily := db.samples.foldl (foldSample cutoff db) db.daily
      samples := deleteWhere isOld db.samples }
    let left ← get
    let isDone := fun r : UsageReport => decide (r.windowEnd < cutoff) &&
      !left.samples.any fun smp => decide (smp.reportId = r.id)
    modify fun db' => { db' with reports := deleteWhere isDone left.reports }
    return ((db.samples.filter isOld).length, (left.reports.filter isDone).length)

/-- `CompactAuthzRevisions` as a method. -/
def compactAuthz (env : Env) (cutoff : Time) : StoreM Nat :=
  inTx env 0 fun _ => do
    let db ← get
    let (deleted, authz) := db.authz.compactAuthzRevisions cutoff
    modify fun db => { db with authz }
    return deleted

end FipsExitGate
