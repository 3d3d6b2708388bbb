import FipsExitGate.Lib.Counter
import FipsExitGate.Store.Basic
import Mathlib.Algebra.Order.BigOperators.Group.List
import Mathlib.Algebra.Order.Ring.Nat
import Mathlib.Data.List.Induction

/-!
# The agent's usage reports

`usage.go` and the usage half of `agent.go` and `state.go`: `computeDelta` turns
absolute kernel counters into samples, `collectAndBuffer` advances the baselines and
queues a report, and `flushBuffer` takes the oldest report off the queue once it is
acknowledged.

## Design notes

* `baselineKey` spells a key as a text, address and port; two keys have two texts, so
  the baselines are kept by key here.
* A sample does not say which port it was counted on.  The ghost field `key` does.
* The loop over the counters is over a Go map; `cur` is the list of its entries in the
  order in which the loop meets them.
* Counters are natural numbers.  A 64-bit counter that wraps around is one that was
  reset.
* The fields of the runtime that other loops use, and the metrics, are left out.
-/

namespace FipsExitGate.Agent

open Counter

/-- `acctKey`. -/
structure AcctKey where
  addr : Addr
  port : BitVec 16
  deriving DecidableEq, Repr

/-- Absolute byte counts by key. -/
abbrev Counters := AList fun _ : AcctKey => Nat

/-- An entry of a map of counters. -/
abbrev Reading := Σ _ : AcctKey, Nat

/-- A Go map read at a key: zero if it is absent. -/
def Counters.get (m : Counters) (k : AcctKey) : Nat :=
  (m.lookup k).getD 0

/-- `usageSample`. -/
structure UsageSample where
  service : String
  addr : Addr
  bytes : Nat
  /-- Ghost: the counter element it was computed from. -/
  key : AcctKey
  deriving DecidableEq, Repr

/-- `usageReport`. -/
structure UsageReport where
  reportId : String
  counterEpoch : String
  windowEnd : String
  samples : List UsageSample
  deriving DecidableEq, Repr

/-- The part of `runtime` that is about usage. -/
structure Runtime where
  counterEpoch : String
  baselines : Counters
  bufferedUsage : List UsageReport
  primeBaselines : Bool

/-- The runtime of an agent that has no file. -/
def Runtime.fresh : Runtime := ⟨"", ∅, [], false⟩

/-- The runtime `load` starts from when the file is corrupt. -/
def Runtime.recovered : Runtime := ⟨"", ∅, [], true⟩

/-- The body of the loop of `computeDelta`. -/
def deltaEntry (prev : Counters) (services : BitVec 16 → Option String)
    (acc : List UsageSample × Counters) (entry : Reading) : List UsageSample × Counters :=
  let next := acc.2.insert entry.1 entry.2
  let last := prev.get entry.1
  let delta := if last ≤ entry.2 then entry.2 - last else entry.2
  if delta = 0 then (acc.1, next)
  else
    let service := (services entry.1.port).getD ("unknown:" ++ toString entry.1.port.toNat)
    (acc.1 ++ [⟨service, entry.1.addr, delta, entry.1⟩], next)

/-- `computeDelta`: the samples, and the new baselines. -/
def computeDelta (prev : Counters) (cur : List Reading) (services : BitVec 16 → Option String) :
    List UsageSample × Counters :=
  cur.foldl (deltaEntry prev services) ([], ∅)

/-- What `collectAndBuffer` makes of a runtime: the new one, the report it has queued,
and whether older ones were dropped at the cap. -/
structure Collected where
  rt : Runtime
  report : Option UsageReport
  dropped : Bool

/-- The update of `collectAndBuffer`. -/
def collect (bufferCap : Nat) (cur : List Reading) (services : BitVec 16 → Option String)
    (reportId epoch windowEnd : String) (rt : Runtime) : Collected :=
  let (samples, next) := computeDelta rt.baselines cur services
  let rt := { rt with baselines := next, counterEpoch := epoch }
  -- after a state recovery the counters hold bytes that were reported already
  if rt.primeBaselines then ⟨{ rt with primeBaselines := false }, none, false⟩
  else if samples = [] then ⟨rt, none, false⟩
  else
    let report : UsageReport := ⟨reportId, epoch, windowEnd, samples⟩
    let buffered := rt.bufferedUsage ++ [report]
    if bufferCap < buffered.length then
      ⟨{ rt with bufferedUsage := buffered.drop (buffered.length - bufferCap) }, some report, true⟩
    else ⟨{ rt with bufferedUsage := buffered }, some report, false⟩

/-- The update of `flushBuffer` after the report was acknowledged. -/
def acknowledge (reportId : String) (rt : Runtime) : Runtime :=
  match rt.bufferedUsage with
  | oldest :: rest =>
      if oldest.reportId = reportId then { rt with bufferedUsage := rest } else rt
  | [] => rt

/-! ## Bytes by key -/

/-- The bytes of the samples that were counted under the key. -/
def bytesOf (k : AcctKey) (samples : List UsageSample) : Nat :=
  ((samples.filter fun smp => decide (smp.key = k)).map (·.bytes)).sum

/-- The bytes of the reports that were counted under the key. -/
def attributed (k : AcctKey) (reports : List UsageReport) : Nat :=
  (reports.map fun r => bytesOf k r.samples).sum

@[simp] theorem attributed_nil (k : AcctKey) : attributed k [] = 0 := rfl

theorem attributed_append (k : AcctKey) (l₁ l₂ : List UsageReport) :
    attributed k (l₁ ++ l₂) = attributed k l₁ + attributed k l₂ := by
  simp [attributed]

theorem attributed_perm (k : AcctKey) {l₁ l₂ : List UsageReport} (perm : l₁.Perm l₂) :
    attributed k l₁ = attributed k l₂ :=
  (perm.map _).sum_nat

/-- Reports that are among others have no more bytes, if none is counted twice. -/
theorem attributed_le_of_subset (k : AcctKey) {l₁ l₂ : List UsageReport} (nodup : l₁.Nodup)
    (subset : l₁ ⊆ l₂) : attributed k l₁ ≤ attributed k l₂ := by
  obtain ⟨l, perm, sub⟩ := List.subperm_of_subset nodup subset
  rw [← attributed_perm k perm]
  exact (sub.map _).sum_le_sum fun _ _ => Nat.zero_le _

/-! ## What `computeDelta` computes -/

/-- The value of a key in a list of readings. -/
def valueIn (cur : List Reading) (k : AcctKey) : Nat :=
  (cur.dlookup k).getD 0

theorem valueIn_concat_self {cur : List Reading} {k : AcctKey} (absent : cur.dlookup k = none)
    (n : Nat) : valueIn (cur ++ [⟨k, n⟩]) k = n := by
  simp [valueIn, List.dlookup_append, absent]

theorem valueIn_concat_of_ne (cur : List Reading) {k k' : AcctKey} (other : k' ≠ k) (n : Nat) :
    valueIn (cur ++ [⟨k', n⟩]) k = valueIn cur k := by
  have absent : List.dlookup k [(⟨k', n⟩ : Reading)] = none :=
    List.dlookup_cons_ne [] (⟨k', n⟩ : Reading) (Ne.symm other)
  simp [valueIn, List.dlookup_append, absent]

theorem nodupKeys_reorder (order : MapOrder Reading) (m : Counters) :
    (order.reorder m.entries).NodupKeys :=
  (List.perm_nodupKeys (order.perm m.entries)).mpr m.nodupKeys

theorem dlookup_reorder (order : MapOrder Reading) (m : Counters) (k : AcctKey) :
    (order.reorder m.entries).dlookup k = m.lookup k :=
  List.perm_dlookup k (nodupKeys_reorder order m) (order.perm m.entries)

/-- The entries of a map, in any order, have its values. -/
theorem valueIn_reorder (order : MapOrder Reading) (m : Counters) (k : AcctKey) :
    valueIn (order.reorder m.entries) k = m.get k := by
  rw [valueIn, dlookup_reorder]
  rfl

theorem dlookup_of_nodup_concat {cur : List Reading} {k : AcctKey} {n : Nat}
    (nodup : (cur ++ [(⟨k, n⟩ : Reading)]).NodupKeys) : cur.dlookup k = none := by
  rw [List.dlookup_eq_none]
  intro member
  have distinct : (cur.keys ++ [k]).Nodup := by simpa [List.NodupKeys, List.keys] using nodup
  exact (List.nodup_append.mp distinct).2.2 k member k (by simp) rfl

section ComputeDelta

variable (prev : Counters) (services : BitVec 16 → Option String)

theorem computeDelta_concat (cur : List Reading) (entry : Reading) :
    computeDelta prev (cur ++ [entry]) services =
      deltaEntry prev services (computeDelta prev cur services) entry := by
  simp [computeDelta]

theorem deltaEntry_snd (acc : List UsageSample × Counters) (entry : Reading) :
    (deltaEntry prev services acc entry).2 = acc.2.insert entry.1 entry.2 := by
  simp only [deltaEntry, apply_ite Prod.snd, ite_self]

/-- The loop adds the growth of the entry's counter to the entry's key. -/
theorem bytesOf_deltaEntry (acc : List UsageSample × Counters) (entry : Reading) (k : AcctKey) :
    bytesOf k (deltaEntry prev services acc entry).1 =
      bytesOf k acc.1 + if entry.1 = k then growth (prev.get entry.1) entry.2 else 0 := by
  have isGrowth : (if prev.get entry.1 ≤ entry.2 then entry.2 - prev.get entry.1 else entry.2) =
      growth (prev.get entry.1) entry.2 := rfl
  unfold deltaEntry
  dsimp only
  rw [isGrowth]
  split
  · rename_i still
    simp [still]
  · by_cases same : entry.1 = k
    · simp [bytesOf, List.filter_append, same]
    · simp [bytesOf, List.filter_append, same]

variable {cur : List Reading}

/-- **The new baselines are the readings.** -/
theorem lookup_computeDelta (nodup : cur.NodupKeys) (k : AcctKey) :
    (computeDelta prev cur services).2.lookup k = cur.dlookup k := by
  induction cur using List.reverseRecOn with
  | nil => rfl
  | append_singleton cur entry ih =>
      obtain ⟨k', n⟩ := entry
      have ih := ih (nodup.sublist (List.sublist_append_left _ _))
      rw [computeDelta_concat, deltaEntry_snd, List.dlookup_append]
      by_cases same : k' = k
      · subst same
        rw [AList.lookup_insert, dlookup_of_nodup_concat nodup, Option.none_or,
          List.dlookup_cons_eq]
      · have absent : List.dlookup k [(⟨k', n⟩ : Reading)] = none :=
          List.dlookup_cons_ne [] (⟨k', n⟩ : Reading) (Ne.symm same)
        rw [AList.lookup_insert_ne (Ne.symm same), absent, Option.or_none]
        exact ih

theorem get_computeDelta (nodup : cur.NodupKeys) (k : AcctKey) :
    (computeDelta prev cur services).2.get k = valueIn cur k := by
  rw [Counters.get, lookup_computeDelta prev services nodup]
  rfl

/-- **The samples of a key have the growth of its counter.** -/
theorem bytesOf_computeDelta (nodup : cur.NodupKeys) (k : AcctKey) :
    bytesOf k (computeDelta prev cur services).1 = growth (prev.get k) (valueIn cur k) := by
  induction cur using List.reverseRecOn with
  | nil => exact (growth_zero _).symm
  | append_singleton cur entry ih =>
      obtain ⟨k', n⟩ := entry
      have ih := ih (nodup.sublist (List.sublist_append_left _ _))
      rw [computeDelta_concat, bytesOf_deltaEntry, ih]
      by_cases same : k' = k
      · -- the key has not been met before, so nothing was counted for it yet
        subst same
        have absent := dlookup_of_nodup_concat nodup
        have before : valueIn cur k' = 0 := by simp [valueIn, absent]
        rw [valueIn_concat_self absent, before, growth_zero, if_pos rfl, Nat.zero_add]
      · rw [valueIn_concat_of_ne cur same, if_neg same, Nat.add_zero]

end ComputeDelta

/-! ## What a collection does -/

/-- What the runtime would still report of a counter that reads `now`: its growth since
the baseline, or nothing before the baselines are primed. -/
def Runtime.owed (rt : Runtime) (k : AcctKey) (now : Nat) : Nat :=
  if rt.primeBaselines then 0 else growth (rt.baselines.get k) now

/-- **What a collection does**: the readings become the baselines, what was owed is
reported, and the report is queued, at the cost of the oldest ones if it must be. -/
structure Collects (rt : Runtime) (cur : List Reading) (reportId : String) (c : Collected) : Prop where
  baselines : ∀ k, c.rt.baselines.get k = valueIn cur k
  primed : c.rt.primeBaselines = false
  reported : ∀ k, attributed k c.report.toList = rt.owed k (valueIn cur k)
  named : ∀ r ∈ c.report, r.reportId = reportId
  queued : ∃ n, (c.dropped = false → n = 0) ∧
    c.rt.bufferedUsage = (rt.bufferedUsage ++ c.report.toList).drop n

theorem collects_collect {cur : List Reading} (nodup : cur.NodupKeys) (bufferCap : Nat)
    (services : BitVec 16 → Option String) (reportId epoch windowEnd : String) (rt : Runtime) :
    Collects rt cur reportId (collect bufferCap cur services reportId epoch windowEnd rt) := by
  have baselines := get_computeDelta rt.baselines services nodup
  have bytes := bytesOf_computeDelta rt.baselines services nodup
  unfold collect
  generalize computeDelta rt.baselines cur services = delta at baselines bytes
  obtain ⟨samples, next⟩ := delta
  have owed (unprimed : rt.primeBaselines = false) (k : AcctKey) :
      bytesOf k samples = rt.owed k (valueIn cur k) := by
    rw [Runtime.owed, unprimed]
    exact bytes k
  dsimp only
  split
  · rename_i primes
    refine ⟨baselines, rfl, fun k => ?_, by simp, 0, fun _ => rfl, by simp⟩
    simp [Runtime.owed, primes]
  rename_i primes
  have unprimed : rt.primeBaselines = false := by simpa using primes
  split
  · rename_i quiet
    refine ⟨baselines, unprimed, fun k => ?_, by simp, 0, fun _ => rfl, by simp⟩
    rw [← owed unprimed k, quiet]
    rfl
  split
  · refine ⟨baselines, unprimed, fun k => ?_, by simp, _, by simp, rfl⟩
    simp [attributed, owed unprimed k]
  · refine ⟨baselines, unprimed, fun k => ?_, by simp, 0, fun _ => rfl, rfl⟩
    simp [attributed, owed unprimed k]

/-- An acknowledged report leaves the queue if it is still its oldest. -/
theorem mem_acknowledge {reportId : String} {rt : Runtime} {r : UsageReport}
    (member : r ∈ rt.bufferedUsage) :
    r.reportId = reportId ∨ r ∈ (acknowledge reportId rt).bufferedUsage := by
  unfold acknowledge
  split
  · rename_i oldest rest queue
    split
    · rename_i isIt
      rw [queue] at member
      rcases List.mem_cons.mp member with rfl | later
      · exact .inl isIt
      · exact .inr later
    · exact .inr member
  · exact .inr member

theorem acknowledge_sublist (reportId : String) (rt : Runtime) :
    (acknowledge reportId rt).bufferedUsage.Sublist rt.bufferedUsage := by
  unfold acknowledge
  split
  · rename_i oldest rest queue
    split
    · rw [queue]
      exact List.sublist_cons_self oldest rest
    · exact List.Sublist.refl _
  · exact List.Sublist.refl _

/-- Nothing else of the runtime changes. -/
theorem acknowledge_owed (reportId : String) (rt : Runtime) :
    (acknowledge reportId rt).baselines = rt.baselines ∧
      (acknowledge reportId rt).primeBaselines = rt.primeBaselines := by
  unfold acknowledge
  split
  · split <;> exact ⟨rfl, rfl⟩
  · exact ⟨rfl, rfl⟩

end FipsExitGate.Agent
