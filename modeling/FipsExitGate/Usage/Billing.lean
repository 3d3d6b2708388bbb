import FipsExitGate.Usage.Charging
import FipsExitGate.Usage.Rollup
import Mathlib.Algebra.BigOperators.Ring.List

/-!
# What the dashboard shows as billed

The rate of a service is applied twice.  `IngestUsage` weights each sample, in whole bytes, and
draws the result from the volume of the account; `UsageByService` weights the sums of the
samples and of the daily totals, as `numeric`, and scans the result into an `int64`.  The two
agree exactly if no sample has a fraction to lose: with a fraction left over the scan fails, and
the dashboard with it, and fractions that add up to a whole byte are shown but were never drawn.

## Runs

The ledger is built by reports and sweeps from an empty one (`LedgerCall`).  `ledgerLog` has all
samples that were recorded on the way, swept or not, and `Books` says how the database keeps
track of them: the bytes on record are those of the log, and what was drawn of an account, as
long as it can afford its traffic, is the sum of its charges.

## Main results

* `recordSamples_charges` — what a report draws
* `books_runLedger` — the books after a run
* `billed_is_drawn` — when the dashboard shows what was drawn
* `fraction_breaks_dashboard` — a single byte at a rate of 1.5
-/

namespace FipsExitGate

open Program Table Allocation

/-! ## Volume that is drawn and volume that is left -/

/-- The volume that has been drawn from an account. -/
def usedBy (acct : AccountId) (rows : List Entitlement) : Int :=
  ((rows.filter fun e => decide (e.accountId = acct)).map (·.volumeUsed)).sum

/-- The volume that `consumeVolume` can draw from. -/
def available (now : Time) (acct : AccountId) (rows : List Entitlement) : Int :=
  ((rows.filter (Entitlement.drawable now acct)).map Entitlement.remaining).sum

theorem available_nonneg (now : Time) (acct : AccountId) (rows : List Entitlement) :
    0 ≤ available now acct rows := by
  refine List.sum_nonneg fun x isIn => ?_
  obtain ⟨e, drawable, rfl⟩ := List.mem_map.mp isIn
  exact (Entitlement.remaining_pos (List.mem_filter.mp drawable).2).le

section Drawing

variable {now : Time} {acct : AccountId} {weighted : Int} {rows rows' : List Entitlement}

theorem usedBy_drawn (a : AccountId) (amount : Nat → Int) (rows : List Entitlement) :
    usedBy a (drawn amount rows) = usedBy a rows +
      ((rows.filter fun e => decide (e.accountId = a)).map fun e => amount e.id).sum := by
  rw [usedBy, usedBy, drawn, List.filter_map, List.map_map, ← List.sum_map_add]
  rfl

theorem Allocates.available_drawn {amount : Nat → Int}
    (h : Allocates now acct weighted rows amount) (a : AccountId) :
    available now a (drawn amount rows) = available now a rows -
      ((rows.filter (Entitlement.inPeriod now a)).map fun e => amount e.id).sum := by
  rw [available, available, ← sum_capacity, ← sum_capacity, filter_inPeriod_drawn, List.map_map,
    eq_sub_iff_add_eq, ← List.sum_map_add]
  refine congrArg List.sum (List.map_congr_left fun e isIn => ?_)
  obtain ⟨isRow, -⟩ := List.mem_filter.mp isIn
  have nonneg := h.nonneg isRow
  by_cases touched : amount e.id = 0
  · simp [touched, Entitlement.draw_zero]
  · have le := (h.le_remaining isRow touched).2
    rw [Function.comp_apply, Entitlement.capacity_draw nonneg (le.trans (le_max_right 0 _))]
    omega

/-- **An amount that is available is drawn**, from its account and from no other. -/
theorem Consumes.charges (run : Consumes now acct weighted rows rows')
    (keys : (rows.map (·.id)).Nodup) (enough : max 0 weighted ≤ available now acct rows)
    (a : AccountId) :
    usedBy a rows' = usedBy a rows + (if a = acct then max 0 weighted else 0) ∧
      available now a rows' = available now a rows - (if a = acct then max 0 weighted else 0) := by
  rcases le_or_gt weighted 0 with spent | unspent
  · obtain rfl : rows' = rows := by
      cases run with
      | done => rfl
      | dry unspent => rfl
      | draw unspent => omega
    simp [max_eq_left spent]
  rw [max_eq_right unspent.le] at enough ⊢
  obtain ⟨amount, rfl, allocates⟩ := run.allocates unspent.le keys
  have total : (rows.map fun e => amount e.id).sum = weighted :=
    allocates.sum_eq.trans (min_eq_left enough)
  have elsewhere : ∀ e ∈ rows, e.accountId ≠ acct → amount e.id = 0 := by
    intro e isRow other
    refine allocates.elsewhere e isRow ?_
    simp [Entitlement.inPeriod, other]
  rw [usedBy_drawn, allocates.available_drawn]
  by_cases isIts : a = acct
  · subst isIts
    rw [if_pos rfl, sum_map_filter fun e isRow other => elsewhere e isRow (by simpa using other),
      sum_map_filter allocates.elsewhere, total]
    exact ⟨rfl, rfl⟩
  · have none (p : Entitlement → Bool) (own : ∀ e, p e = true → e.accountId = a) :
        ((rows.filter p).map fun e => amount e.id).sum = 0 := by
      refine List.sum_eq_zero fun x isIn => ?_
      obtain ⟨e, selected, rfl⟩ := List.mem_map.mp isIn
      obtain ⟨isRow, hit⟩ := List.mem_filter.mp selected
      exact elsewhere e isRow fun same => isIts ((own e hit).symm.trans same)
    have ownPeriod : ∀ e, Entitlement.inPeriod now a e = true → e.accountId = a := by
      intro e inPeriod
      simp only [Entitlement.inPeriod, Bool.and_eq_true, decide_eq_true_eq] at inPeriod
      exact inPeriod.1.1.1.1
    rw [if_neg isIts, none _ (by simp), none _ ownPeriod]
    exact ⟨rfl, rfl⟩

theorem Consumes.map_id (run : Consumes now acct weighted rows rows') :
    rows'.map (·.id) = rows.map (·.id) := by
  induction run with
  | done => rfl
  | dry => rfl
  | draw unspent next rest ih => exact ih.trans (map_id_drawFrom ..)

end Drawing

/-! ## What a report draws -/

/-- The service that `IngestUsage` finds for a sample. -/
def servedBy (services : List Service) (smp : SampleInput) : Option Service :=
  services.find? fun svc => svc.enabled && decide (svc.key = smp.service)

/-- The row that is recorded for a sample. -/
def recordedRow (services : List Service) (reportId : String) (now : Time) (db : Db)
    (smp : SampleInput) (addr : Addr) : UsageSample :=
  ⟨reportId, (servedBy services smp).map (·.id), addr, db.resolveAccount now addr, smp.clamped⟩

/-- What is drawn from an account for a sample on record. -/
def charge (services : List Service) (acct : AccountId) (smp : UsageSample) : Int :=
  match smp.serviceId.bind fun id => services.find? fun svc => decide (svc.id = id) with
  | some svc =>
      if smp.accountId = some acct ∧ 0 < svc.ratePpm then
        max 0 (weightedBytes smp.bytes svc.ratePpm)
      else 0
  | none => 0

theorem charge_nonneg (services : List Service) (acct : AccountId) (smp : UsageSample) :
    0 ≤ charge services acct smp := by
  unfold charge
  split
  · split
    · exact le_max_left ..
    · exact le_rfl
  · exact le_rfl

theorem charge_of_ne {services : List Service} {acct : AccountId} {smp : UsageSample}
    (other : smp.accountId ≠ some acct) : charge services acct smp = 0 := by
  unfold charge
  split
  · exact if_neg fun own => other own.1
  · rfl

/-- The id of a service leads back to it. -/
theorem find?_id {services : List Service} (ids : (services.map (·.id)).Nodup) {svc : Service}
    (isRow : svc ∈ services) : (services.find? fun sv => decide (sv.id = svc.id)) = some svc := by
  refine find?_eq_of_unique isRow (decide_eq_true rfl) fun sv member isIt => ?_
  exact eq_of_key_eq ids member isRow (of_decide_eq_true isIt)

/-- What a report does to the entitlements, for each account: the volume drawn goes up by an
amount, and the volume left goes down by it. -/
def Charges (now : Time) (rows rows' : List Entitlement) (amount : AccountId → Int) : Prop :=
  ∀ acct, usedBy acct rows' = usedBy acct rows + amount acct ∧
    available now acct rows' = available now acct rows - amount acct

theorem Charges.refl {now : Time} {rows : List Entitlement} {amount : AccountId → Int}
    (zero : ∀ acct, amount acct = 0) : Charges now rows rows amount := by
  intro acct
  simp [zero]

theorem Charges.trans {now : Time} {rows rows₁ rows₂ : List Entitlement}
    {amount amount' : AccountId → Int} (first : Charges now rows rows₁ amount)
    (second : Charges now rows₁ rows₂ amount') :
    Charges now rows rows₂ fun acct => amount acct + amount' acct := by
  intro acct
  obtain ⟨used, left⟩ := first acct
  obtain ⟨used', left'⟩ := second acct
  dsimp only
  constructor <;> omega

/-- The charge of a sample for a service of the catalog. -/
theorem charge_recordedRow {services : List Service} (ids : (services.map (·.id)).Nodup)
    {smp : SampleInput} {svc : Service} (served : servedBy services smp = some svc)
    (reportId : String) (now : Time) (db : Db) (addr : Addr) (acct : AccountId) :
    charge services acct (recordedRow services reportId now db smp addr) =
      if db.resolveAccount now addr = some acct ∧ 0 < svc.ratePpm then
        max 0 (weightedBytes smp.clamped svc.ratePpm)
      else 0 := by
  have found := find?_id ids (List.mem_of_find?_eq_some served)
  simp only [charge, recordedRow, served, Option.map_some, Option.bind_some, found]

/-- The database with new samples, and other entitlements. -/
def Db.withUsage (db : Db) (new : List UsageSample) (rows : List Entitlement) : Db :=
  { db with samples := db.samples ++ new, entitlements := rows }

theorem withUsage_withUsage (db : Db) (new new' : List UsageSample) (rows rows' : List Entitlement) :
    (db.withUsage new rows).withUsage new' rows' = db.withUsage (new ++ new') rows' := by
  simp [Db.withUsage]

theorem exec_consumeVolume_ok (now : Time) (acct : AccountId) (weighted : Int) (db : Db) :
    ∃ rows', exec (consumeVolume now acct weighted) db = (.ok (), { db with entitlements := rows' }) := by
  have loop (fuel : Nat) : ∀ (weighted : Int) (db : Db), ∃ rows',
      exec (consumeVolumeLoop now acct fuel weighted) db =
        (.ok (), { db with entitlements := rows' }) := by
    induction fuel with
    | zero => exact fun _ db => ⟨db.entitlements, rfl⟩
    | succ fuel ih =>
        intro weighted db
        unfold consumeVolumeLoop
        split
        · exact ⟨db.entitlements, rfl⟩
        · rw [exec_get_bind]
          split
          · exact ⟨db.entitlements, rfl⟩
          · exact ih _ { db with entitlements := _ }
  unfold consumeVolume
  rw [exec_get_bind]
  exact loop _ weighted db

/-- A sample with an address is recorded, whatever becomes of its charge. -/
theorem exec_recordSample (services : List Service) (reportId : String) (now : Time)
    {smp : SampleInput} {addr : Addr} (isAddr : smp.addr = some addr) (db : Db) :
    ∃ rows', exec (recordSample services reportId now smp) db =
      (.ok (), db.withUsage [recordedRow services reportId now db smp addr] rows') := by
  unfold recordSample
  rw [isAddr]
  dsimp only
  rw [exec_get_bind, exec_bind_ok (exec_modify _ _)]
  split
  · split
    · exact exec_consumeVolume_ok _ _ _
        (db.withUsage [recordedRow services reportId now db smp addr] db.entitlements)
    · exact ⟨db.entitlements, rfl⟩
  · exact ⟨db.entitlements, rfl⟩

/-- One sample. -/
theorem recordSample_charges {services : List Service} (ids : (services.map (·.id)).Nodup)
    {reportId : String} {now : Time} {smp : SampleInput} {db db' : Db}
    (keys : (db.entitlements.map (·.id)).Nodup)
    (run : exec (recordSample services reportId now smp) db = (.ok (), db')) :
    ∃ addr rows',
      db' = db.withUsage [recordedRow services reportId now db smp addr] rows' ∧
      rows'.map (·.id) = db.entitlements.map (·.id) ∧
      ((∀ acct, charge services acct (recordedRow services reportId now db smp addr) ≤
          available now acct db.entitlements) →
        Charges now db.entitlements rows' fun acct =>
          charge services acct (recordedRow services reportId now db smp addr)) := by
  unfold recordSample at run
  split at run
  · cases run
  next addr isAddr =>
  rw [exec_get_bind, exec_bind_ok (exec_modify _ _)] at run
  rw [show services.find? _ = servedBy services smp from rfl] at run
  change exec _ (db.withUsage [recordedRow services reportId now db smp addr] db.entitlements) = _
    at run
  refine ⟨addr, ?_⟩
  cases served : servedBy services smp with
  | none =>
      have zero : ∀ acct,
          charge services acct (recordedRow services reportId now db smp addr) = 0 := by
        simp [charge, recordedRow, served]
      cases resolved : db.resolveAccount now addr <;>
      · rw [served, resolved] at run
        cases run
        exact ⟨db.entitlements, rfl, rfl, fun _ => Charges.refl zero⟩
  | some svc =>
      have amounts := charge_recordedRow ids served reportId now db addr
      cases resolved : db.resolveAccount now addr with
      | none =>
          rw [served, resolved] at run
          cases run
          exact ⟨db.entitlements, rfl, rfl, fun _ => Charges.refl (by simp [amounts, resolved])⟩
      | some acct =>
          simp only [served, resolved] at run
          by_cases rated : 0 < svc.ratePpm
          · rw [if_pos rated] at run
            obtain ⟨rows', consumed, consumes⟩ := exec_consumeVolume now acct
              (weightedBytes smp.clamped svc.ratePpm)
              (db.withUsage [recordedRow services reportId now db smp addr] db.entitlements) keys
            cases consumed.symm.trans run
            refine ⟨rows', rfl, consumes.map_id, fun enough a => ?_⟩
            have asked : ∀ a,
                charge services a (recordedRow services reportId now db smp addr) =
                  if a = acct then max 0 (weightedBytes smp.clamped svc.ratePpm) else 0 := by
              intro a
              simp [amounts, resolved, rated, eq_comm]
            have own := enough acct
            rw [asked, if_pos rfl] at own
            dsimp only
            rw [asked]
            exact consumes.charges keys own a
          · rw [if_neg rated] at run
            cases run
            exact ⟨db.entitlements, rfl, rfl, fun _ => Charges.refl (by simp [amounts, rated])⟩

/-- **The samples of a report.**  They are recorded one by one, and an account that can afford
its charges has exactly these drawn. -/
theorem recordSamples_charges {services : List Service} (ids : (services.map (·.id)).Nodup)
    {reportId : String} {now : Time} {samples : List SampleInput} {db db' : Db}
    (keys : (db.entitlements.map (·.id)).Nodup)
    (run : exec (samples.forM (recordSample services reportId now)) db = (.ok (), db')) :
    ∃ new rows', db' = db.withUsage new rows' ∧
      rows'.map (·.id) = db.entitlements.map (·.id) ∧
      (∀ row ∈ new, 0 ≤ row.bytes ∧
        ∀ id, row.serviceId = some id → ∃ svc ∈ services, svc.enabled = true ∧ svc.id = id) ∧
      ((∀ acct, (new.map (charge services acct)).sum ≤ available now acct db.entitlements) →
        Charges now db.entitlements rows' fun acct => (new.map (charge services acct)).sum) := by
  induction samples generalizing db with
  | nil =>
      cases run
      exact ⟨[], _, by simp [Db.withUsage], rfl, by simp,
        fun _ => Charges.refl fun _ => rfl⟩
  | cons smp samples ih =>
      obtain ⟨⟨⟩, db₁, first, rest⟩ := exec_bind_eq_ok run
      obtain ⟨addr, rows₁, isDb₁, ids₁, charged⟩ := recordSample_charges ids keys first
      have rowsOf : db₁.entitlements = rows₁ := by rw [isDb₁]; rfl
      obtain ⟨new, rows', isDb', ids', facts, charged'⟩ := ih (by rwa [rowsOf, ids₁]) rest
      rw [rowsOf] at ids' charged'
      refine ⟨recordedRow services reportId now db smp addr :: new, rows', ?_, ids'.trans ids₁, ?_,
        fun enough => ?_⟩
      · rw [isDb', isDb₁, withUsage_withUsage]
        rfl
      · refine List.forall_mem_cons.mpr ⟨⟨smp.clamped_nonneg, fun id isId => ?_⟩, facts⟩
        obtain ⟨svc, served, isIts⟩ := Option.map_eq_some_iff.mp isId
        have found := List.find?_some served
        simp only [Bool.and_eq_true, decide_eq_true_eq] at found
        exact ⟨svc, List.mem_of_find?_eq_some served, found.1, isIts⟩
      · simp only [List.map_cons, List.sum_cons] at enough ⊢
        have later (acct : AccountId) : 0 ≤ (new.map (charge services acct)).sum := by
          refine List.sum_nonneg fun x isIn => ?_
          obtain ⟨row, -, rfl⟩ := List.mem_map.mp isIn
          exact charge_nonneg ..
        have first := charged fun acct => by have := enough acct; have := later acct; omega
        refine first.trans (charged' fun acct => ?_)
        have left := (first acct).2
        have both := enough acct
        dsimp only at left
        omega

/-! ## The books -/

/-- The samples that a call records. -/
def LedgerCall.recorded (s : Store) (db : Db) (c : LedgerCall) : List UsageSample :=
  match c with
  | .report .. => (s.call db c.toCall).samples.drop db.samples.length
  | .sweep .. => []

/-- All samples that a run records, swept or not. -/
def Store.ledgerLog (s : Store) (db : Db) : List LedgerCall → List UsageSample
  | [] => []
  | c :: calls => c.recorded s db ++ s.ledgerLog (s.call db c.toCall) calls

/-- Whenever a report comes in, every account has the volume that its samples cost. -/
def Store.Affords (s : Store) (db : Db) : List LedgerCall → Prop
  | [] => True
  | c :: calls =>
      (∀ env nodeId r, c = .report env nodeId r → ∀ acct,
        ((c.recorded s db).map (charge db.services acct)).sum ≤
          available (env.now 0) acct db.entitlements) ∧
      s.Affords (s.call db c.toCall) calls

/-- How a database that began as `db₀` with an empty ledger keeps track of the log. -/
structure Books (db₀ db : Db) (log : List UsageSample) : Prop where
  services : db.services = db₀.services
  keys : (db.entitlements.map (·.id)).Nodup
  samples : ∀ row ∈ db.samples, row ∈ log
  recorded : ∀ q, db.recorded q = (log.map (UsageSample.counts q)).sum
  bytes : ∀ row ∈ log, 0 ≤ row.bytes
  served : ∀ row ∈ log, ∀ id, row.serviceId = some id →
    ∃ svc ∈ db₀.services, svc.enabled = true ∧ svc.id = id
  used : ∀ acct, usedBy acct db.entitlements =
    usedBy acct db₀.entitlements + (log.map (charge db₀.services acct)).sum

/-- What the samples of a report may leave of a database: the new rows, and their charges. -/
def Db.Extends (now : Time) (db db' : Db) : Prop :=
  ∃ new, db'.samples = db.samples ++ new ∧ db'.services = db.services ∧ db'.daily = db.daily ∧
    db'.entitlements.map (·.id) = db.entitlements.map (·.id) ∧
    (∀ row ∈ new, 0 ≤ row.bytes ∧
      ∀ id, row.serviceId = some id → ∃ svc ∈ db.services, svc.enabled = true ∧ svc.id = id) ∧
    ((∀ acct, (new.map (charge db.services acct)).sum ≤ available now acct db.entitlements) →
      Charges now db.entitlements db'.entitlements fun acct =>
        (new.map (charge db.services acct)).sum)

theorem Db.Extends.refl (now : Time) (db : Db) : db.Extends now db :=
  ⟨[], by simp, rfl, rfl, rfl, by simp, fun _ => Charges.refl fun _ => rfl⟩

/-- Whether it returns or fails, `IngestUsage` leaves the books in one of these states. -/
theorem ingestUsage_extends (env : Env) (nodeId : String) (r : ReportInput) {db : Db}
    (ids : (db.services.map (·.id)).Nodup) (keys : (db.entitlements.map (·.id)).Nodup) :
    db.Extends (env.now 0) (exec (ingestUsage env nodeId r) db).2 := by
  unfold ingestUsage
  rw [exec_get_bind]
  refine Triple.exec (P := fun x => x = db) (Triple.bind (Q := fun _ => db.Extends (env.now 0))
    (Triple.transaction (Triple.of_ok ?_) ?_) fun fresh => ?_) rfl
  · rintro _ fresh db' rfl run
    rcases ingestUsageTx_ok run with ⟨-, -, rfl⟩ | ⟨-, -, recorded⟩
    · exact Db.Extends.refl _ _
    · obtain ⟨new, rows', rfl, sameIds, facts, charged⟩ := recordSamples_charges ids (by exact keys)
        recorded
      exact ⟨new, rfl, rfl, rfl, sameIds, facts, charged⟩
  · rintro _ db' rfl
    exact Db.Extends.refl _ _
  · have kept : Keeps (db.Extends (env.now 0)) (recomputeAuthz env 1) :=
      keeps_recomputeAuthz env 1 (fun _ _ h => h) fun _ _ h => h
    exact Keeps.ite (Keeps.bind kept fun _ => Keeps.pure _) (Keeps.pure _)

/-- A step keeps the books. -/
theorem Books.call {s : Store} {db₀ db : Db} {log : List UsageSample} (books : Books db₀ db log)
    (ids : (db₀.services.map (·.id)).Nodup) (c : LedgerCall)
    (affords : ∀ env nodeId r, c = .report env nodeId r → ∀ acct,
      ((c.recorded s db).map (charge db.services acct)).sum ≤
        available (env.now 0) acct db.entitlements) :
    Books db₀ (s.call db c.toCall) (log ++ c.recorded s db) := by
  cases c with
  | sweep env cutoff =>
      have nothing : (LedgerCall.sweep env cutoff).recorded s db = [] := rfl
      rw [nothing, List.append_nil, call_sweep]
      split
      · exact books
      · exact { books with
          samples := fun row left => books.samples row (mem_deleteWhere.mp left).1
          recorded := fun q => (recorded_swept q db cutoff).trans (books.recorded q) }
  | report env nodeId r =>
      have extends_ := ingestUsage_extends env nodeId r (books.services ▸ ids) books.keys
      rw [← call_report s] at extends_
      obtain ⟨new, samples, services, daily, sameIds, facts, charged⟩ := extends_
      have isNew : (LedgerCall.report env nodeId r).recorded s db = new := by
        change List.drop _ (s.call db _).samples = new
        rw [samples, List.drop_left]
      rw [isNew] at affords ⊢
      have charges := charged (affords env nodeId r rfl)
      rw [books.services] at charges facts
      exact {
        services := services.trans books.services
        keys := sameIds ▸ books.keys
        samples := fun row isRow => by
          rw [samples, List.mem_append] at isRow
          exact List.mem_append.mpr (isRow.imp_left (books.samples row))
        recorded := fun q => by
          rw [List.map_append, List.sum_append, ← books.recorded q]
          unfold Db.recorded
          rw [samples, daily, List.map_append, List.sum_append]
          omega
        bytes := fun row isRow =>
          (List.mem_append.mp isRow).elim (books.bytes row) fun isNew => (facts row isNew).1
        served := fun row isRow =>
          (List.mem_append.mp isRow).elim (books.served row) fun isNew => (facts row isNew).2
        used := fun acct => by
          rw [(charges acct).1, books.used, List.map_append, List.sum_append, add_assoc] }

/-- **The books after a run.** -/
theorem books_runLedger {s : Store} {db₀ : Db} (ids : (db₀.services.map (·.id)).Nodup)
    {calls : List LedgerCall} {db : Db} {log : List UsageSample} (books : Books db₀ db log)
    (affords : s.Affords db calls) :
    Books db₀ (s.runLedger db calls) (log ++ s.ledgerLog db calls) := by
  induction calls generalizing db log with
  | nil => simpa [Store.runLedger, Store.ledgerLog] using books
  | cons c calls ih =>
      have step := ih (books.call ids c affords.1) affords.2
      rwa [List.append_assoc] at step

/-! ## `numeric` -/

/-- Only a whole number in the range can be scanned. -/
theorem scanInt64_eq_some {q : Rat} {n : Int} : scanInt64 q = some n ↔ q = n ∧ IsInt64 n := by
  unfold scanInt64 IsInt64
  constructor
  · intro scanned
    split at scanned
    next fits =>
      cases scanned
      exact ⟨(Rat.den_eq_one_iff q).mp fits.1 |>.symm, fits.2⟩
    next => cases scanned
  · rintro ⟨rfl, fits⟩
    simpa using fits

/-- Where there is no fraction, nothing is rounded. -/
theorem divideByMillion_mul (m : Int) : divideByMillion (1000000 * m) = m := by
  have scaled (scale : Nat) :
      (2 * (1000000 * m.natAbs) * 10 ^ scale + 1000000) / 2000000 = m.natAbs * 10 ^ scale := by
    have regroup : 2 * (1000000 * m.natAbs) * 10 ^ scale + 1000000 =
        1000000 + 2000000 * (m.natAbs * 10 ^ scale) := by ring
    rw [regroup, Nat.add_mul_div_left _ _ (by decide), Nat.div_eq_of_lt (by decide), zero_add]
  have size : (1000000 * m).natAbs = 1000000 * m.natAbs := Int.natAbs_mul ..
  have sign : (1000000 * m).sign = m.sign := by rw [Int.sign_mul]; exact one_mul _
  unfold divideByMillion
  dsimp only
  rw [size, scaled, sign, Nat.cast_mul, ← mul_assoc, Int.sign_mul_natAbs]
  push_cast
  exact mul_div_cancel_right₀ _ (pow_ne_zero _ (by decide))

/-! ## The dashboard -/

/-- The sample is one of the account on the service. -/
def UsageSample.isOn (acct : AccountId) (svc : Nat) (smp : UsageSample) : Bool :=
  decide (smp.accountId = some acct) && decide (smp.serviceId = some svc)

/-- The bytes of an account on a service. -/
def meteredIn (log : List UsageSample) (acct : AccountId) (svc : Service) : Int :=
  ((log.filter (UsageSample.isOn acct svc.id)).map (·.bytes)).sum

/-- The weighted bytes of an account on a service, each sample rounded down by itself. -/
def billedIn (log : List UsageSample) (acct : AccountId) (svc : Service) : Int :=
  ((log.filter (UsageSample.isOn acct svc.id)).map fun smp => smp.bytes * svc.ratePpm / 1000000).sum

/-- The row of the dashboard for a service. -/
def usageRow (log : List UsageSample) (acct : AccountId) (svc : Service) : ServiceUsage :=
  ⟨svc.key, svc.name, svc.ratePpm, meteredIn log acct svc, billedIn log acct svc⟩

/-- The enabled services by key. -/
def shownServices (services : List Service) : List Service :=
  (services.filter fun sv => sv.enabled).insertionSort fun v w => v.key ≤ w.key

theorem mem_shownServices {services : List Service} {svc : Service} :
    svc ∈ shownServices services ↔ svc ∈ services ∧ svc.enabled = true := by
  rw [shownServices, List.mem_insertionSort, List.mem_filter]

/-- The two sums of `UsageByService`. -/
theorem usageByService_iff (db : Db) (acct : AccountId) (log : List UsageSample) :
    db.usageByService acct = some ((shownServices db.services).map (usageRow log acct)) ↔
      ∀ svc ∈ db.services, svc.enabled = true →
        (db.recorded (isPair acct svc.id) = meteredIn log acct svc ∧
          IsInt64 (meteredIn log acct svc)) ∧
        divideByMillion (db.sampledBytes acct svc.id * svc.ratePpm) +
            divideByMillion (db.foldedBytes acct svc.id * svc.ratePpm) = billedIn log acct svc ∧
          IsInt64 (billedIn log acct svc) := by
  have row (svc : Service) (metered billed : Option Int) :
      (do return (⟨svc.key, svc.name, svc.ratePpm, ← metered, ← billed⟩ : ServiceUsage)) =
          some (usageRow log acct svc) ↔
        metered = some (meteredIn log acct svc) ∧ billed = some (billedIn log acct svc) := by
    cases metered <;> cases billed <;> simp [usageRow]
  refine mapM_eq_some_map.trans ?_
  change (∀ svc ∈ shownServices db.services, _) ↔ _
  simp only [mem_shownServices, and_imp]
  refine forall₃_congr fun svc _ _ => (row svc _ _).trans ?_
  have groups := sum_map_rawUsage (f := fun bytes => divideByMillion (bytes * svc.ratePpm))
    (by rw [zero_mul]; exact divideByMillion_mul 0) db acct svc.id
  rw [groups, scanInt64_eq_some, scanInt64_eq_some, sum_rawUsage, Int.cast_inj]

/-- Rounding each amount down loses the remainders. -/
theorem floors_add_remainders (xs : List Int) :
    1000000 * (xs.map (· / 1000000)).sum + (xs.map (· % 1000000)).sum = xs.sum := by
  induction xs with
  | nil => rfl
  | cons x xs ih =>
      simp only [List.map_cons, List.sum_cons]
      omega

/-- **Nothing is lost exactly if there are no remainders.** -/
theorem floors_exact_iff (xs : List Int) :
    1000000 * (xs.map (· / 1000000)).sum = xs.sum ↔ ∀ x ∈ xs, 1000000 ∣ x := by
  have split := floors_add_remainders xs
  have nonneg : ∀ y ∈ xs.map (· % 1000000), 0 ≤ y := by
    intro y isIn
    obtain ⟨x, -, rfl⟩ := List.mem_map.mp isIn
    exact Int.emod_nonneg x (by decide)
  constructor
  · intro exact_ x isIn
    have le := List.single_le_sum nonneg _ (List.mem_map_of_mem isIn)
    exact Int.dvd_of_emod_eq_zero (by omega)
  · intro whole
    have zero : (xs.map (· % 1000000)).sum = 0 := by
      refine List.sum_eq_zero fun y isIn => ?_
      obtain ⟨x, isAmount, rfl⟩ := List.mem_map.mp isIn
      exact Int.emod_eq_zero_of_dvd (whole x isAmount)
    omega

section Shown

variable {acct : AccountId} {svc : Service} {log : List UsageSample}

/-- No sample of the account has a fraction of a byte to lose. -/
def Whole (log : List UsageSample) (acct : AccountId) (svc : Service) : Prop :=
  ∀ smp ∈ log, smp.isOn acct svc.id = true → 1000000 ∣ smp.bytes * svc.ratePpm

instance (log : List UsageSample) (acct : AccountId) (svc : Service) :
    Decidable (Whole log acct svc) :=
  inferInstanceAs (Decidable (∀ smp ∈ log, smp.isOn acct svc.id = true →
    1000000 ∣ smp.bytes * svc.ratePpm))

theorem meteredIn_mul (log : List UsageSample) (acct : AccountId) (svc : Service) :
    meteredIn log acct svc * svc.ratePpm =
      ((log.filter (UsageSample.isOn acct svc.id)).map fun smp => smp.bytes * svc.ratePpm).sum := by
  rw [meteredIn, List.sum_map_mul_right]

/-- What is shown is what was drawn exactly if nothing is lost. -/
theorem whole_iff :
    1000000 * billedIn log acct svc = meteredIn log acct svc * svc.ratePpm ↔
      Whole log acct svc := by
  have exact_iff := floors_exact_iff
    ((log.filter (UsageSample.isOn acct svc.id)).map fun smp => smp.bytes * svc.ratePpm)
  rw [List.map_map, ← meteredIn_mul] at exact_iff
  refine exact_iff.trans (List.forall_mem_map.trans ?_)
  simp [Whole]

theorem meteredIn_eq (log : List UsageSample) (acct : AccountId) (svc : Service) :
    meteredIn log acct svc = (log.map (UsageSample.counts (isPair acct svc.id))).sum := by
  rw [meteredIn, sum_map_filter_eq]
  refine congrArg List.sum (List.map_congr_left fun smp _ => ?_)
  unfold UsageSample.isOn UsageSample.counts isPair
  cases smp.accountId <;> cases smp.serviceId <;> simp

/-- The samples that have not been swept are whole if all are. -/
theorem Whole.sampled {db : Db} (whole : Whole log acct svc)
    (samples : ∀ row ∈ db.samples, row ∈ log) :
    1000000 ∣ db.sampledBytes acct svc.id * svc.ratePpm := by
  have left : Whole db.samples acct svc := fun smp isRow => whole smp (samples smp isRow)
  have exact_ := whole_iff.mpr left
  rw [meteredIn_eq] at exact_
  exact ⟨_, exact_.symm⟩

/-- No sum and no product of the account on the service leaves `int64`. -/
@[mk_iff]
structure InRange (log : List UsageSample) (acct : AccountId) (svc : Service) : Prop where
  metered : meteredIn log acct svc < 2 ^ 63
  billed : billedIn log acct svc < 2 ^ 63
  remainders : ∀ smp ∈ log, smp.isOn acct svc.id = true → smp.bytes % 1000000 * svc.ratePpm < 2 ^ 63

instance (log : List UsageSample) (acct : AccountId) (svc : Service) :
    Decidable (InRange log acct svc) :=
  decidable_of_iff _ (inRange_iff log acct svc).symm

theorem floor_nonneg {smp : UsageSample} (bytes : 0 ≤ smp.bytes) (rate : 0 < svc.ratePpm) :
    0 ≤ smp.bytes * svc.ratePpm / 1000000 :=
  Int.ediv_nonneg (Int.mul_nonneg bytes rate.le) (by decide)

theorem floor_le_billedIn (bytes : ∀ smp ∈ log, 0 ≤ smp.bytes) (rate : 0 < svc.ratePpm)
    {smp : UsageSample} (isIn : smp ∈ log) (isOn : smp.isOn acct svc.id = true) :
    smp.bytes * svc.ratePpm / 1000000 ≤ billedIn log acct svc := by
  refine List.single_le_sum (fun y isAmount => ?_) _
    (List.mem_map_of_mem (List.mem_filter.mpr ⟨isIn, isOn⟩))
  obtain ⟨smp', selected, rfl⟩ := List.mem_map.mp isAmount
  exact floor_nonneg (bytes smp' (List.mem_filter.mp selected).1) rate

/-- In the range the amount that is drawn is the floor. -/
theorem InRange.weighted (inRange : InRange log acct svc) (bytes : ∀ smp ∈ log, 0 ≤ smp.bytes)
    (rate : 0 < svc.ratePpm) {smp : UsageSample} (isIn : smp ∈ log)
    (isOn : smp.isOn acct svc.id = true) :
    max 0 (weightedBytes smp.bytes svc.ratePpm) = smp.bytes * svc.ratePpm / 1000000 := by
  have floor := floor_le_billedIn bytes rate isIn isOn
  have total := inRange.billed
  have weighs := (weightedBytes_iff (bytes smp isIn) rate).mpr
    ⟨by omega, inRange.remainders smp isIn isOn⟩
  rw [weighs.eq_floor, max_eq_right (floor_nonneg (bytes smp isIn) rate)]

/-- The charge of a sample, looked for among all services that are shown. -/
theorem charge_eq_sum {services : List Service} (ids : (services.map (·.id)).Nodup)
    (rates : ∀ svc ∈ services, 0 < svc.ratePpm)
    (inRange : ∀ svc ∈ services, svc.enabled = true → InRange log acct svc)
    (bytes : ∀ smp ∈ log, 0 ≤ smp.bytes) {smp : UsageSample} (isIn : smp ∈ log)
    (served : ∀ id, smp.serviceId = some id → ∃ svc ∈ services, svc.enabled = true ∧ svc.id = id) :
    charge services acct smp = ((shownServices services).map fun svc =>
      if smp.isOn acct svc.id then smp.bytes * svc.ratePpm / 1000000 else 0).sum := by
  have nothing (none : ∀ svc ∈ services, smp.isOn acct svc.id = false) :
      ((shownServices services).map fun svc =>
        if smp.isOn acct svc.id then smp.bytes * svc.ratePpm / 1000000 else 0).sum = 0 := by
    refine List.sum_eq_zero fun x isAmount => ?_
    obtain ⟨svc, shown, rfl⟩ := List.mem_map.mp isAmount
    rw [none svc (mem_shownServices.mp shown).1]
    rfl
  cases isService : smp.serviceId with
  | none =>
      rw [nothing fun svc _ => by simp [UsageSample.isOn, isService]]
      simp [charge, isService]
  | some id =>
      obtain ⟨svc, isRow, enabled, rfl⟩ := served id isService
      have amount : charge services acct smp = if smp.accountId = some acct ∧ 0 < svc.ratePpm then
          max 0 (weightedBytes smp.bytes svc.ratePpm) else 0 := by
        simp only [charge, isService, Option.bind_some, find?_id ids isRow]
      by_cases isHis : smp.accountId = some acct
      · have isOn (svc' : Service) : smp.isOn acct svc'.id = decide (svc'.id = svc.id) := by
          simp [UsageSample.isOn, isHis, isService, eq_comm]
        have shownIds : ((shownServices services).map (·.id)).Nodup := by
          refine ((List.perm_insertionSort ..).map _).nodup_iff.mpr ?_
          exact ids.sublist (List.filter_sublist.map _)
        have one := sum_map_ite_key shownIds (mem_shownServices.mpr ⟨isRow, enabled⟩)
          fun svc => smp.bytes * svc.ratePpm / 1000000
        simp only [isOn, decide_eq_true_eq]
        rw [one, amount, if_pos ⟨isHis, rates svc isRow⟩]
        exact (inRange svc isRow enabled).weighted bytes (rates svc isRow) isIn (by simp [isOn])
      · rw [nothing fun svc _ => by simp [UsageSample.isOn, isHis], amount,
          if_neg fun h => isHis h.1]

/-- **The rows of the dashboard add up to what was drawn.** -/
theorem sum_billedIn {services : List Service} (ids : (services.map (·.id)).Nodup)
    (rates : ∀ svc ∈ services, 0 < svc.ratePpm)
    (inRange : ∀ svc ∈ services, svc.enabled = true → InRange log acct svc)
    (bytes : ∀ smp ∈ log, 0 ≤ smp.bytes)
    (served : ∀ smp ∈ log, ∀ id, smp.serviceId = some id →
      ∃ svc ∈ services, svc.enabled = true ∧ svc.id = id) :
    ((shownServices services).map (billedIn log acct)).sum =
      (log.map (charge services acct)).sum := by
  have charges : log.map (charge services acct) = log.map fun smp =>
      ((shownServices services).map fun svc =>
        if smp.isOn acct svc.id then smp.bytes * svc.ratePpm / 1000000 else 0).sum :=
    List.map_congr_left fun smp isIn =>
      charge_eq_sum ids rates inRange bytes isIn (served smp isIn)
  have rows : billedIn log acct = fun svc => (log.map fun smp =>
      if smp.isOn acct svc.id then smp.bytes * svc.ratePpm / 1000000 else 0).sum :=
    funext fun svc => sum_map_filter_eq ..
  rw [charges, rows]
  clear charges rows served bytes inRange
  induction log with
  | nil => simp
  | cons smp log ih =>
      simp only [List.map_cons, List.sum_cons]
      rw [List.sum_map_add, ih]

end Shown

theorem Books.start {db : Db} (noSamples : db.samples = []) (noDaily : db.daily.entries = [])
    (keys : (db.entitlements.map (·.id)).Nodup) : Books db db [] where
  services := rfl
  keys := keys
  samples := by simp [noSamples]
  recorded := fun q => by
    unfold Db.recorded Tally.total
    rw [noSamples, noDaily]
    rfl
  bytes := by simp
  served := by simp
  used := by simp

/-- **The dashboard shows what was drawn, if no sample has a fraction.**

Take any run of reports and sweeps from an empty ledger in which every account can afford its
traffic, and an account whose sums stay in the range of `int64`.  If every sample of the account
is worth a whole number of bytes, `UsageByService` returns for each enabled service the sum of
the floors of its samples, and these add up to the volume that has been drawn.  If a sample is
not, and `numeric` keeps the fractions, then it does not return these sums. -/
theorem billed_is_drawn (s : Store) (db : Db) (calls : List LedgerCall)
    (noSamples : db.samples = []) (noDaily : db.daily.entries = [])
    (ids : (db.services.map (·.id)).Nodup) (keys : (db.entitlements.map (·.id)).Nodup)
    (rates : ∀ svc ∈ db.services, 0 < svc.ratePpm) (affords : s.Affords db calls)
    (acct : AccountId)
    (inRange : ∀ svc ∈ db.services, svc.enabled = true → InRange (s.ledgerLog db calls) acct svc) :
    let log := s.ledgerLog db calls
    let after := s.runLedger db calls
    let shown := (shownServices db.services).map (usageRow log acct)
    ((∀ svc ∈ db.services, Whole log acct svc) →
      after.usageByService acct = some shown ∧
      usedBy acct after.entitlements =
        usedBy acct db.entitlements + (shown.map (·.billed)).sum) ∧
    ((∀ svc ∈ db.services, svc.enabled = true → ∀ bytes ∈ after.rawUsage acct svc.id,
        divideByMillion (bytes * svc.ratePpm) = (bytes * svc.ratePpm : Int) / (1000000 : Rat)) →
      after.usageByService acct = some shown → ∀ svc ∈ db.services, Whole log acct svc) := by
  intro log after shown
  have books : Books db after log := books_runLedger ids (Books.start noSamples noDaily keys) affords
  have isMetered (svc : Service) : after.recorded (isPair acct svc.id) = meteredIn log acct svc := by
    rw [books.recorded, meteredIn_eq]
  have isShown := usageByService_iff after acct log
  rw [books.services] at isShown
  refine ⟨fun whole => ⟨isShown.mpr fun svc isRow enabled => ?_, ?_⟩,
    fun keepsFractions succeeds svc isRow smp isIn isOn => ?_⟩
  · have range := inRange svc isRow enabled
    have rate := rates svc isRow
    have metered : 0 ≤ meteredIn log acct svc := by
      refine List.sum_nonneg fun x isBytes => ?_
      obtain ⟨smp, selected, rfl⟩ := List.mem_map.mp isBytes
      exact books.bytes smp (List.mem_filter.mp selected).1
    have exact_ := whole_iff.mpr (whole svc isRow)
    have billed : 0 ≤ billedIn log acct svc := by
      have := Int.mul_nonneg metered rate.le
      omega
    -- the samples that are left are whole, hence so is what was folded
    obtain ⟨m, sampled⟩ := (whole svc isRow).sampled books.samples
    have groups : after.sampledBytes acct svc.id + after.foldedBytes acct svc.id =
        meteredIn log acct svc := isMetered svc
    have folded : after.foldedBytes acct svc.id * svc.ratePpm =
        1000000 * (billedIn log acct svc - m) := by
      rw [mul_sub, exact_, ← sampled, ← groups]
      ring
    refine ⟨⟨isMetered svc, by constructor <;> [omega; exact range.metered]⟩, ?_,
      by constructor <;> [omega; exact range.billed]⟩
    rw [sampled, folded, divideByMillion_mul, divideByMillion_mul]
    push_cast
    ring
  · rw [books.used, ← sum_billedIn ids rates inRange books.bytes books.served, List.map_map]
    rfl
  · -- only an enabled service has samples
    obtain ⟨svc', isRow', enabled, same⟩ := books.served smp isIn svc.id (by
      simp only [UsageSample.isOn, Bool.and_eq_true, decide_eq_true_eq] at isOn
      exact isOn.2)
    obtain rfl := eq_of_key_eq ids isRow' isRow same
    have kept := List.map_congr_left (keepsFractions svc' isRow enabled)
    obtain ⟨-, billed, -⟩ := isShown.mp succeeds svc' isRow enabled
    have rounded := sum_map_rawUsage (f := fun bytes => divideByMillion (bytes * svc'.ratePpm))
      (by rw [zero_mul]; exact divideByMillion_mul 0) after acct svc'.id
    have exact_ := sum_map_rawUsage (f := fun bytes : Int =>
      ((bytes * svc'.ratePpm : Int) / (1000000 : Rat))) (by simp) after acct svc'.id
    have sums : (((after.sampledBytes acct svc'.id + after.foldedBytes acct svc'.id) *
        svc'.ratePpm : Int) : Rat) = billedIn log acct svc' * 1000000 := by
      rw [← div_eq_iff (by decide), ← billed, ← rounded, kept, exact_, ← add_div, add_mul,
        Int.cast_add]
    refine whole_iff.mp ?_ smp isIn isOn
    rw [← isMetered, mul_comm]
    exact_mod_cast sums.symm

/-- A customer with a gigabyte, and a service with the rate given. -/
def ratedCalls (ratePpm : Int) : List Call :=
  [⟨calm 0, .creditVolume firstNpub 1000000000 30⟩,
    ⟨calm 0, .createService "fast" "Fast lane" 8080 ratePpm true⟩]

/-- A report with one sample for each of the byte counts. -/
def fastReport (bytes : List (BitVec 64)) : LedgerCall :=
  .report (calm 1) exitNode
    ⟨"report-1", "epoch-1", 1, bytes.map fun b => ⟨"fast", some firstAddr, b⟩⟩

/-- At a rate of 1.5, two samples of two bytes each and a sweep: six bytes are drawn and shown. -/
theorem billed_is_drawn_evenBytes :
    (plainStore.runLedger (plainStore.after (ratedCalls 1500000))
        [fastReport [2, 2], .sweep (calm 2) 2]).usageByService 1 =
      some [⟨"fast", "Fast lane", 1500000, 4, 6⟩] := by
  have rows : (fastReport [2, 2]).recorded plainStore (plainStore.after (ratedCalls 1500000)) =
      [⟨"report-1", some 4, firstAddr, some 1, 2⟩, ⟨"report-1", some 4, firstAddr, some 1, 2⟩] := by
    decide +kernel
  have affords : plainStore.Affords (plainStore.after (ratedCalls 1500000))
      [fastReport [2, 2], .sweep (calm 2) 2] := by
    refine ⟨?_, nofun, trivial⟩
    rintro env nodeId r ⟨⟩ acct
    by_cases isHis : acct = 1
    · subst isHis
      decide +kernel
    · have free : ((fastReport [2, 2]).recorded plainStore
          (plainStore.after (ratedCalls 1500000))).map
            (charge (plainStore.after (ratedCalls 1500000)).services acct) = [0, 0] := by
        have other : some 1 ≠ some acct := fun same => isHis (Option.some.inj same).symm
        rw [rows, List.map_cons, List.map_cons, charge_of_ne other, List.map_nil]
      have nonneg := available_nonneg ((calm 1).now 0) acct
        (plainStore.after (ratedCalls 1500000)).entitlements
      exact (congrArg List.sum free).le.trans nonneg
  have shown := (billed_is_drawn plainStore (plainStore.after (ratedCalls 1500000))
    [fastReport [2, 2], .sweep (calm 2) 2] (by decide +kernel) (by decide +kernel)
    (by decide +kernel) (by decide +kernel) (by decide +kernel) affords 1
    (by decide +kernel)).1 (by decide +kernel)
  refine shown.1.trans ?_
  decide +kernel

/-- **A fraction of a byte breaks the dashboard.**  At a rate of 1.5, one byte of traffic is
charged with one byte of volume; the dashboard has one and a half, and fails.  After a second
such sample it shows three bytes, of which two were drawn. -/
theorem fraction_breaks_dashboard :
    ((usedBy 1 (plainStore.runLedger (plainStore.after (ratedCalls 1500000))
        [fastReport [1]]).entitlements = 1 ∧
      (plainStore.runLedger (plainStore.after (ratedCalls 1500000))
        [fastReport [1]]).usageByService 1 = none)) ∧
    (usedBy 1 (plainStore.runLedger (plainStore.after (ratedCalls 1500000))
        [fastReport [1, 1]]).entitlements = 2 ∧
      (plainStore.runLedger (plainStore.after (ratedCalls 1500000))
        [fastReport [1, 1]]).usageByService 1 = some [⟨"fast", "Fast lane", 1500000, 2, 3⟩]) := by
  decide +kernel

end FipsExitGate
