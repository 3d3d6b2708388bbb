import FipsExitGate.Agent.AcctJson
import FipsExitGate.Agent.Metering
import FipsExitGate.Lib.Json

/-!
# The size of a usage report

Three sizes were chosen independently.  The accounting set of the gate has room for 131072
elements, `collectAndBuffer` makes one report of whatever has grown in it, and the backend's
`decode` reads 1 MiB of a request.  A sample takes 34 bytes and its texts, so a report of some
ten thousand samples is refused.

A report that is refused stays where it is.  `flushBuffer` posts the oldest report, and gives up
on any error until its next round, where the oldest report is the same.

## The argument

The length of a report is a sum over the elements of the snapshot (`length_body`), and the decoder
needs all of it (`complete_take_encode`), so whether a report is accepted is a matter of that sum.
For the queue, `Stuck` is an invariant of the machine of `Metering`, with a backend that refuses
what it cannot read: nothing but the refused report is posted.

## Main results

* `usage_report_accepted_iff` — the report of a snapshot is accepted, exactly if it is short
* `oversize_report_stays` — a report that is too long stays at the head of the queue
* `full_set_report_refused` — the report of a full set is too long
-/

namespace FipsExitGate.Agent

open Counter Json Machine

/-! ## The request -/

/-- The JSON of a `usageSample`. -/
def sampleJson (smp : UsageSample) : Json :=
  .obj [(utf8 "service", .str (utf8 smp.service)), (utf8 "addr", .str (addrString smp.addr)),
    (utf8 "bytes", .num (Decimal.formatNat smp.bytes))]

/-- The members of a `usageReport`. -/
def reportMembers (r : UsageReport) : Members :=
  [(utf8 "report_id", .str (utf8 r.reportId)), (utf8 "counter_epoch", .str (utf8 r.counterEpoch)),
    (utf8 "window_end", .str (utf8 r.windowEnd)), (utf8 "samples", .arr (r.samples.map sampleJson))]

/-- The body that `postUsage` sends. -/
def body (r : UsageReport) : Text := encode (.obj (reportMembers r))

/-- The limit of `decode`. -/
def maxBody : Nat := 2 ^ 20

/-- `decode` of the backend can read the report: `MaxBytesReader` lets the first bytes through. -/
def accepts (r : UsageReport) : Bool := complete .start ((body r).take maxBody)

theorem plainNumbers_formatNat (n : Nat) : PlainNumbers (.num (Decimal.formatNat n)) := by
  intro b member
  have digit := Decimal.isDigit_of_mem_formatNat member
  refine ⟨?_, ?_, ?_, ?_, ?_⟩ <;>
  · rintro rfl
    exact absurd digit (by decide)

theorem plainElems_samples (samples : List UsageSample) :
    PlainElems (samples.map sampleJson) := by
  induction samples with
  | nil => trivial
  | cons smp samples ih => exact ⟨⟨trivial, trivial, plainNumbers_formatNat smp.bytes, trivial⟩, ih⟩

/-- **A report is accepted exactly if it is within the limit.** -/
theorem accepts_iff (r : UsageReport) : accepts r = true ↔ (body r).length ≤ maxBody := by
  have plain : PlainMembers (reportMembers r) :=
    ⟨trivial, trivial, trivial, plainElems_samples r.samples, trivial⟩
  exact complete_take_encode plain maxBody

/-! ## The length of a report -/

/-- The service that a sample is reported under. -/
def serviceOf (services : BitVec 16 → Option String) (port : BitVec 16) : String :=
  (services port).getD ("unknown:" ++ toString port.toNat)

/-- What a report has besides its samples. -/
def headerCost (reportId epoch windowEnd : String) : Nat :=
  63 + (escape (utf8 reportId)).length + (escape (utf8 epoch)).length +
    (escape (utf8 windowEnd)).length

/-- What an element of the snapshot adds to the report, if it has grown. -/
def elementCost (prev : Counters) (services : BitVec 16 → Option String) (entry : Reading) : Nat :=
  let grown := growth (prev.get entry.1) entry.2
  if grown = 0 then 0
  else 34 + (escape (utf8 (serviceOf services entry.1.port))).length +
    (escape (addrString entry.1.addr)).length + (Decimal.formatNat grown).length

theorem length_sampleJson (smp : UsageSample) :
    (encode (sampleJson smp)).length + 1 = 34 + (escape (utf8 smp.service)).length +
      (escape (addrString smp.addr)).length + (Decimal.formatNat smp.bytes).length := by
  have service : (escape (utf8 "service")).length = 7 := rfl
  have addr : (escape (utf8 "addr")).length = 4 := rfl
  have bytes : (escape (utf8 "bytes")).length = 5 := rfl
  simp only [sampleJson, encode, encodeMembers, List.length_cons, List.length_append,
    length_quote, service, addr, bytes, List.length_nil]
  omega

/-- The length of a report with samples. -/
theorem length_body {r : UsageReport} (notEmpty : r.samples ≠ []) :
    (body r).length = headerCost r.reportId r.counterEpoch r.windowEnd +
      (r.samples.map fun smp => (encode (sampleJson smp)).length + 1).sum := by
  have reportId : (escape (utf8 "report_id")).length = 9 := rfl
  have epoch : (escape (utf8 "counter_epoch")).length = 13 := rfl
  have windowEnd : (escape (utf8 "window_end")).length = 10 := rfl
  have samples : (escape (utf8 "samples")).length = 7 := rfl
  have array : (encode (.arr (r.samples.map sampleJson))).length =
      1 + (r.samples.map fun smp => (encode (sampleJson smp)).length + 1).sum := by
    rw [length_encode_arr (by simpa using notEmpty), List.map_map]
    rfl
  have strings : ∀ s, (encode (.str s)).length = (escape s).length + 2 := length_quote
  simp only [body, headerCost]
  rw [encode]
  simp only [reportMembers, encodeMembers, List.length_cons, List.length_append, length_quote,
    reportId, epoch, windowEnd, samples, array, strings, List.length_nil]
  omega

/-! ## What is reported -/

/-- The sample of an element, if it has grown. -/
def sampleOf (prev : Counters) (services : BitVec 16 → Option String) (entry : Reading) :
    Option UsageSample :=
  let grown := growth (prev.get entry.1) entry.2
  if grown = 0 then none
  else some ⟨serviceOf services entry.1.port, entry.1.addr, grown, entry.1⟩

section Collect

variable (prev : Counters) (services : BitVec 16 → Option String)

theorem deltaEntry_fst (acc : List UsageSample × Counters) (entry : Reading) :
    (deltaEntry prev services acc entry).1 =
      acc.1 ++ (sampleOf prev services entry).toList := by
  by_cases still : growth (prev.get entry.1) entry.2 = 0
  · have noSample : sampleOf prev services entry = none := if_pos still
    have skipped : deltaEntry prev services acc entry = (acc.1, acc.2.insert entry.1 entry.2) :=
      if_pos still
    rw [noSample, skipped, Option.toList_none, List.append_nil]
  · have sample : sampleOf prev services entry = some _ := if_neg still
    rw [sample]
    exact congrArg Prod.fst (if_neg still)

/-- **The samples are those of the elements that have grown.** -/
theorem computeDelta_samples (cur : List Reading) :
    (computeDelta prev cur services).1 = cur.filterMap (sampleOf prev services) := by
  induction cur using List.reverseRecOn with
  | nil => rfl
  | append_singleton cur entry ih =>
      rw [computeDelta_concat, deltaEntry_fst, ih, List.filterMap_append]
      cases isSample : sampleOf prev services entry <;> simp [isSample]

/-- What an element adds is the length of its sample. -/
theorem elementCost_eq (entry : Reading) :
    elementCost prev services entry =
      ((sampleOf prev services entry).toList.map fun smp =>
        (encode (sampleJson smp)).length + 1).sum := by
  by_cases still : growth (prev.get entry.1) entry.2 = 0
  · have noSample : sampleOf prev services entry = none := if_pos still
    rw [noSample]
    exact if_pos still
  · have sample : sampleOf prev services entry = some _ := if_neg still
    rw [sample, Option.toList_some, List.map_singleton, List.sum_singleton, length_sampleJson]
    exact if_neg still

theorem sum_elementCost (cur : List Reading) :
    ((cur.filterMap (sampleOf prev services)).map fun smp =>
      (encode (sampleJson smp)).length + 1).sum = (cur.map (elementCost prev services)).sum := by
  induction cur with
  | nil => rfl
  | cons entry cur ih =>
      rw [List.map_cons, List.sum_cons, ← ih, elementCost_eq, List.filterMap_cons]
      cases sampleOf prev services entry <;> simp

theorem filterMap_sampleOf_eq_nil (cur : List Reading) :
    cur.filterMap (sampleOf prev services) = [] ↔
      ∀ entry ∈ cur, growth (prev.get entry.1) entry.2 = 0 := by
  rw [List.filterMap_eq_nil_iff]
  refine forall₂_congr fun entry _ => ?_
  simp [sampleOf]

end Collect

section Report

variable (bufferCap : Nat) (cur : List Reading) (services : BitVec 16 → Option String)
  (reportId epoch windowEnd : String) (rt : Runtime)

/-- What `collectAndBuffer` reports. -/
theorem report_collect :
    (collect bufferCap cur services reportId epoch windowEnd rt).report =
      if rt.primeBaselines = true ∨ ∀ entry ∈ cur, growth (rt.baselines.get entry.1) entry.2 = 0
      then none
      else some ⟨reportId, epoch, windowEnd, cur.filterMap (sampleOf rt.baselines services)⟩ := by
  have samples := computeDelta_samples rt.baselines services cur
  have quiet := filterMap_sampleOf_eq_nil rt.baselines services cur
  unfold collect
  generalize computeDelta rt.baselines cur services = delta at samples
  obtain ⟨smps, next⟩ := delta
  dsimp only at samples ⊢
  rw [← samples] at quiet ⊢
  by_cases primes : rt.primeBaselines = true
  · rw [if_pos primes, if_pos (.inl primes)]
  · rw [if_neg primes]
    by_cases empty : smps = []
    · rw [if_pos empty, if_pos (.inr (quiet.mp empty))]
    · rw [if_neg empty, if_neg (not_or.mpr ⟨primes, fun still => empty (quiet.mpr still)⟩)]
      split <;> rfl

/-- **The length of a report is that of what has grown.** -/
theorem length_report {r : UsageReport}
    (isReport : (collect bufferCap cur services reportId epoch windowEnd rt).report = some r) :
    (body r).length = headerCost reportId epoch windowEnd +
      (cur.map (elementCost rt.baselines services)).sum := by
  rw [report_collect, Option.ite_none_left_eq_some, Option.some.injEq, not_or] at isReport
  obtain ⟨⟨-, grown⟩, rfl⟩ := isReport
  have samples : cur.filterMap (sampleOf rt.baselines services) ≠ [] := fun empty =>
    grown ((filterMap_sampleOf_eq_nil rt.baselines services cur).mp empty)
  rw [length_body samples, sum_elementCost]

/-- **The report of a snapshot is accepted exactly if it is short.**  There is no report while the
baselines are primed, or if nothing has grown. -/
theorem usage_report_accepted_iff :
    (∀ r, (collect bufferCap cur services reportId epoch windowEnd rt).report = some r →
      accepts r = true) ↔
    rt.primeBaselines = true ∨ (∀ entry ∈ cur, growth (rt.baselines.get entry.1) entry.2 = 0) ∨
      headerCost reportId epoch windowEnd +
        (cur.map (elementCost rt.baselines services)).sum ≤ maxBody := by
  rw [← or_assoc]
  have reported := report_collect bufferCap cur services reportId epoch windowEnd rt
  by_cases noReport : rt.primeBaselines = true ∨
      ∀ entry ∈ cur, growth (rt.baselines.get entry.1) entry.2 = 0
  · rw [if_pos noReport] at reported
    simp [reported, noReport]
  · rw [if_neg noReport] at reported
    have length := length_report bufferCap cur services reportId epoch windowEnd rt reported
    rw [reported, or_iff_right noReport, ← length]
    simp only [Option.some.injEq, forall_eq']
    rw [accepts_iff]

end Report

/-! ## The head of the queue -/

/-- The machine of the usage loop, with a backend that refuses what it cannot read. -/
def boundedStep (bufferCap : Nat) (w : World) (e : Event) : Option World :=
  match e with
  | .deliver i =>
      if ∀ r ∈ w.inFlight[i]?, accepts r = true then step bufferCap w (.deliver i) else none
  | e => step bufferCap w e

/-- No request and no report on record has the id of the report. -/
structure Unsent (r : UsageReport) (w : World) : Prop where
  inFlight : ∀ r' ∈ w.inFlight, r'.reportId ≠ r.reportId
  ingested : ∀ r' ∈ w.ingested, r'.reportId ≠ r.reportId

/-- **The report is at the head of the queue**, in memory and in the file, and since the state
`since` nothing else was posted. -/
structure Stuck (r : UsageReport) (since w : World) : Prop where
  mem : w.mem.bufferedUsage.head? = some r
  disk : w.disk.bufferedUsage.head? = some r
  posting : ∀ r', w.phase = .posting r' → r' = r
  acked : ∀ r', w.phase ≠ .acked r'
  sent : ∀ r' ∈ w.inFlight, r' = r ∨ r' ∈ since.inFlight
  delivered : ∀ r' ∈ w.ingested, r' ∈ since.ingested ∨ r' ∈ since.inFlight

section Stuck

variable {bufferCap : Nat} {r : UsageReport} {since w w' : World}

/-- Without a drop at the cap, a collection leaves the head of the queue. -/
theorem head_collect {cur : List Reading} (nodup : cur.NodupKeys)
    (services : BitVec 16 → Option String) (reportId epoch windowEnd : String) {rt : Runtime}
    (head : rt.bufferedUsage.head? = some r)
    (kept : (collect bufferCap cur services reportId epoch windowEnd rt).dropped = false) :
    (collect bufferCap cur services reportId epoch windowEnd rt).rt.bufferedUsage.head? =
      some r := by
  obtain ⟨n, noDrop, queue⟩ :=
    (collects_collect nodup bufferCap services reportId epoch windowEnd rt).queued
  rw [queue, noDrop kept, List.drop_zero, List.head?_append, head]
  rfl

/-- What is ingested was ingested before, or is the report that arrives. -/
theorem of_mem_ingest {r' : UsageReport} {ingested : List UsageReport}
    (member : r' ∈ ingest r ingested) : r' ∈ ingested ∨ r' = r := by
  unfold ingest at member
  split at member
  · exact .inl member
  · simpa using member

/-- A report that is refused is not on record. -/
theorem Stuck.refused (stuck : Stuck r since w) (unsent : Unsent r since) :
    ∀ r' ∈ w.ingested, r'.reportId ≠ r.reportId := by
  intro r' member
  rcases stuck.delivered r' member with before | before
  · exact unsent.ingested r' before
  · exact unsent.inFlight r' before

/-- One step: the report is dropped at the cap, or the file is lost, or it stays. -/
theorem stuck_step {e : Event} (oversize : accepts r = false) (unsent : Unsent r since)
    (stuck : Stuck r since w) (taken : boundedStep bufferCap w e = some w') :
    w'.dropped = true ∨ w'.recovered = true ∨ Stuck r since w' := by
  cases e with
  | count | reset | delete =>
      cases taken
      exact .inr (.inr { stuck with })
  | readAcct =>
      simp only [boundedStep, step] at taken
      split at taken <;> cases taken
      exact .inr (.inr { stuck with posting := by rintro _ ⟨⟩, acked := by rintro _ ⟨⟩ })
  | collect order services reportId epoch windowEnd =>
      simp only [boundedStep, step] at taken
      split at taken
      · rename_i cur _
        split at taken <;> cases taken
        cases dropped : (collect bufferCap (order.reorder cur.entries) services reportId epoch
          windowEnd w.mem).dropped with
        | true => exact .inl (Bool.or_true _)
        | false =>
            have head := head_collect (nodupKeys_reorder order cur) services reportId epoch
              windowEnd stuck.mem dropped
            exact .inr (.inr { stuck with mem := head, posting := by rintro _ ⟨⟩, acked := by rintro _ ⟨⟩ })
      · cases taken
  | persist =>
      simp only [boundedStep, step] at taken
      split at taken <;> cases taken
      exact .inr (.inr { stuck with
        disk := stuck.mem
        posting := by rintro _ ⟨⟩
        acked := by rintro _ ⟨⟩ })
  | post =>
      simp only [boundedStep, step] at taken
      split at taken <;> cases taken
      rename_i r' _ _ isQueue
      -- the report behind the head is not reached
      have isHead : some r' = some r := by
        rw [← stuck.mem, isQueue]
        rfl
      obtain rfl := Option.some.inj isHead
      refine .inr (.inr { stuck with posting := ?_, acked := by rintro _ ⟨⟩, sent := ?_ })
      · rintro _ ⟨⟩
        rfl
      · exact List.forall_mem_append.mpr ⟨stuck.sent, List.forall_mem_singleton.mpr (.inl rfl)⟩
  | deliver i =>
      simp only [boundedStep] at taken
      split at taken
      · rename_i readable
        simp only [step] at taken
        split at taken <;> cases taken
        rename_i r' isRequest
        have isOther : r' ∈ since.inFlight := by
          rcases stuck.sent r' (List.mem_of_getElem? isRequest) with rfl | before
          · exact absurd (oversize.symm.trans (readable r' isRequest)) Bool.false_ne_true
          · exact before
        refine .inr (.inr { stuck with delivered := fun r'' member => ?_ })
        rcases of_mem_ingest member with before | rfl
        · exact stuck.delivered r'' before
        · exact .inr isOther
      · cases taken
  | giveUp =>
      simp only [boundedStep, step] at taken
      split at taken <;> cases taken
      all_goals exact .inr (.inr { stuck with posting := by rintro _ ⟨⟩, acked := by rintro _ ⟨⟩ })
  | ack =>
      simp only [boundedStep, step] at taken
      split at taken
      · rename_i r' isPosting
        split at taken
        · rename_i onRecord
          -- the backend would have to have ingested what it cannot read
          obtain ⟨known, member, same⟩ := List.any_eq_true.mp onRecord
          rw [stuck.posting r' isPosting] at same
          exact absurd (of_decide_eq_true same) (stuck.refused unsent known member)
        · cases taken
      · cases taken
  | acknowledge =>
      simp only [boundedStep, step] at taken
      split at taken <;> cases taken
      rename_i r' isAcked
      exact absurd isAcked (stuck.acked r')
  | crash =>
      cases taken
      exact .inr (.inr { stuck with mem := stuck.disk, posting := by rintro _ ⟨⟩, acked := by rintro _ ⟨⟩ })
  | recover =>
      cases taken
      exact .inr (.inl rfl)

/-- The ghosts that say that a report was lost are not taken back. -/
theorem lost_step {e : Event} (lost : w.dropped = true ∨ w.recovered = true)
    (taken : boundedStep bufferCap w e = some w') : w'.dropped = true ∨ w'.recovered = true := by
  cases e with
  | count | reset | delete | crash =>
      cases taken
      exact lost
  | recover =>
      cases taken
      exact .inr rfl
  | collect =>
      simp only [boundedStep, step] at taken
      split at taken
      · split at taken <;> cases taken
        exact lost.imp (fun dropped => by simp [dropped]) id
      · cases taken
  | deliver i =>
      simp only [boundedStep, step] at taken
      split at taken
      · split at taken <;> cases taken
        exact lost
      · cases taken
  | ack =>
      simp only [boundedStep, step] at taken
      split at taken
      · split at taken <;> cases taken
        exact lost
      · cases taken
  | readAcct | persist | post | giveUp | acknowledge =>
      simp only [boundedStep, step] at taken
      split at taken <;> cases taken <;> exact lost

/-- **A report that is too long stays at the head of the queue**, and nothing behind it is posted,
until it is dropped at the cap or the file is lost. -/
theorem oversize_report_stays (oversize : accepts r = false) (unsent : Unsent r since)
    (stuck : Stuck r since since) (es : List Event)
    (h : Machine.run (boundedStep bufferCap) since es = some w) :
    w.dropped = true ∨ w.recovered = true ∨ Stuck r since w := by
  let Inv (w : World) : Prop := w.dropped = true ∨ w.recovered = true ∨ Stuck r since w
  have kept : ∀ w e w', Inv w → boundedStep bufferCap w e = some w' → Inv w' := by
    intro w e w' inv taken
    rcases or_assoc.mpr inv with lost | stuck
    · exact or_assoc.mp (.inl (lost_step lost taken))
    · exact stuck_step oversize unsent stuck taken
  exact run_invariant kept es (.inr (.inr stuck)) h

end Stuck

/-! ## A full set -/

/-- Nothing is dropped while there is room. -/
theorem dropped_collect {bufferCap : Nat} {rt : Runtime}
    (room : rt.bufferedUsage.length < bufferCap) (cur : List Reading)
    (services : BitVec 16 → Option String) (reportId epoch windowEnd : String) :
    (collect bufferCap cur services reportId epoch windowEnd rt).dropped = false := by
  unfold collect
  dsimp only
  split
  · rfl
  split
  · rfl
  rw [if_neg]
  rw [List.length_append, List.length_singleton]
  omega

/-- The first report of an agent is at the head of its queue. -/
theorem stuck_first_report {bufferCap : Nat} (room : 1 ≤ bufferCap) {counters : Counters}
    (order : MapOrder Reading) (services : BitVec 16 → Option String)
    (reportId epoch windowEnd : String) {r : UsageReport}
    (isReport : (collect bufferCap (order.reorder counters.entries) services reportId epoch
      windowEnd .fresh).report = some r) :
    ∃ w, Machine.run (boundedStep bufferCap) (.initial counters)
        [.readAcct, .collect order services reportId epoch windowEnd, .persist] = some w ∧
      Unsent r w ∧ Stuck r w w := by
  have queue : (collect bufferCap (order.reorder counters.entries) services reportId epoch
      windowEnd .fresh).rt.bufferedUsage = [r] := by
    obtain ⟨n, noDrop, queue⟩ := (collects_collect (nodupKeys_reorder order counters) bufferCap
      services reportId epoch windowEnd .fresh).queued
    rw [queue, noDrop (dropped_collect room _ services reportId epoch windowEnd), isReport]
    rfl
  generalize isCollected : collect bufferCap (order.reorder counters.entries) services reportId
    epoch windowEnd .fresh = c at isReport queue
  let w : World := { World.initial counters with
    mem := c.rt, disk := c.rt, created := c.report.toList, dropped := c.dropped }
  have head : c.rt.bufferedUsage.head? = some r := by rw [queue, List.head?_cons]
  refine ⟨w, ?_, ⟨nofun, nofun⟩, head, head, nofun, nofun, nofun, nofun⟩
  subst isCollected
  rfl

/-- The element of the `i`-th customer, on the SOCKS port. -/
def customerKey (i : Nat) : AcctKey :=
  ⟨.v6 (BitVec.ofNat 128 (0xfd000000000000000000000000000000 + i)), 1080⟩

theorem customerKey_inj {i i' : Nat} (small : i < 2 ^ 64) (small' : i' < 2 ^ 64)
    (same : customerKey i = customerKey i') : i = i' := by
  have numbers := congrArg BitVec.toNat (Addr.v6.inj (AcctKey.mk.inj same).1)
  rw [BitVec.toNat_ofNat, BitVec.toNat_ofNat, Nat.mod_eq_of_lt (by omega),
    Nat.mod_eq_of_lt (by omega)] at numbers
  omega

/-- A set of `n` customers, with one byte counted for each. -/
def customers (n : Nat) (small : n ≤ 2 ^ 64) : Counters where
  entries := (List.range n).map fun i => ⟨customerKey i, 1⟩
  nodupKeys := by
    rw [List.NodupKeys, List.keys, List.map_map]
    refine List.Nodup.map_on ?_ List.nodup_range
    intro i member i' member' same
    rw [List.mem_range] at member member'
    exact customerKey_inj (by omega) (by omega) same

theorem of_mem_customers {n : Nat} {small : n ≤ 2 ^ 64} {entry : Reading}
    (member : entry ∈ (customers n small).entries) : ∃ i, entry = ⟨customerKey i, 1⟩ := by
  obtain ⟨i, -, rfl⟩ := List.mem_map.mp member
  exact ⟨i, rfl⟩

theorem length_customers (n : Nat) (small : n ≤ 2 ^ 64) :
    (customers n small).entries.length = n := by
  rw [customers, List.length_map, List.length_range]

/-- Every customer takes 34 bytes at least. -/
theorem le_sum_customers (n : Nat) (small : n ≤ 2 ^ 64) (services : BitVec 16 → Option String) :
    34 * n ≤ ((customers n small).entries.map (elementCost ∅ services)).sum := by
  have each : ∀ cost ∈ (customers n small).entries.map (elementCost ∅ services), 34 ≤ cost := by
    intro cost member
    obtain ⟨entry, isEntry, rfl⟩ := List.mem_map.mp member
    obtain ⟨i, rfl⟩ := of_mem_customers isEntry
    have grown : growth (Counters.get ∅ (customerKey i)) 1 = 1 := rfl
    simp only [elementCost, grown, one_ne_zero, if_false]
    omega
  have sum := List.card_nsmul_le_sum _ 34 each
  rw [List.length_map, length_customers] at sum
  exact (Nat.mul_comm 34 n).trans_le sum

/-- The report of many customers is refused. -/
theorem customers_refused {n : Nat} (small : n ≤ 2 ^ 64) (many : maxBody < 34 * n) (bufferCap : Nat)
    (services : BitVec 16 → Option String) (reportId epoch windowEnd : String) :
    ∃ r, (collect bufferCap (customers n small).entries services reportId epoch windowEnd
      .fresh).report = some r ∧ accepts r = false := by
  have first : ⟨customerKey 0, 1⟩ ∈ (customers n small).entries :=
    List.mem_map_of_mem (List.mem_range.mpr (by omega))
  have grown : ¬ (Runtime.fresh.primeBaselines = true ∨ ∀ entry ∈ (customers n small).entries,
      growth (Runtime.fresh.baselines.get entry.1) entry.2 = 0) := by
    rintro (primes | still)
    · cases primes
    · exact absurd (still _ first) one_ne_zero
  have isReport := report_collect bufferCap (customers n small).entries services reportId epoch
    windowEnd .fresh
  rw [if_neg grown] at isReport
  refine ⟨_, isReport, ?_⟩
  have samples := le_sum_customers n small services
  have length := length_report bufferCap _ services reportId epoch windowEnd .fresh isReport
  rw [Bool.eq_false_iff, ne_eq, accepts_iff, length]
  have baselines : Runtime.fresh.baselines = ∅ := rfl
  rw [baselines]
  omega

/-- The service of the catalog on the SOCKS port. -/
def clearnet (port : BitVec 16) : Option String := if port = 1080 then some "clearnet" else none

/-- **A full set is not billed**: its first report is refused, and stays at the head of the queue
whatever happens, until it is lost. -/
theorem full_set_report_refused :
    ∃ kernel : Counters, kernel.entries.length = 131072 ∧
      (∀ entry ∈ kernel.entries, entry.1.addr.Is6 ∧ entry.2 < 2 ^ 64) ∧
      ∃ r w, Machine.run (boundedStep 2880) (.initial kernel)
          [.readAcct, .collect .id clearnet "8f14e45fceea167a5a36dedd4bea2543"
            "boot-7f3a" "2026-08-08T12:00:30Z", .persist] = some w ∧
        accepts r = false ∧ Stuck r w w ∧
        ∀ es w', Machine.run (boundedStep 2880) w es = some w' →
          w'.dropped = true ∨ w'.recovered = true ∨ Stuck r w w' := by
  have small : 131072 ≤ 2 ^ 64 := by decide
  refine ⟨customers 131072 small, length_customers _ small, fun entry member => ?_, ?_⟩
  · obtain ⟨i, rfl⟩ := of_mem_customers member
    exact ⟨trivial, Nat.one_lt_two_pow (by decide)⟩
  · obtain ⟨r, isReport, oversize⟩ := customers_refused small (by decide) 2880 clearnet
      "8f14e45fceea167a5a36dedd4bea2543" "boot-7f3a" "2026-08-08T12:00:30Z"
    generalize customers 131072 small = kernel at isReport ⊢
    obtain ⟨w, isRun, unsent, stuck⟩ := stuck_first_report (by decide) .id clearnet _ _ _ isReport
    exact ⟨r, w, isRun, oversize, stuck, fun es w' h =>
      oversize_report_stays oversize unsent stuck es h⟩

end FipsExitGate.Agent
