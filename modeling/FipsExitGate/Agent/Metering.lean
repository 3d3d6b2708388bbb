import FipsExitGate.Agent.Usage
import FipsExitGate.Lib.Machine
import FipsExitGate.Store.Frames

/-!
# Every byte is billed at most once

The kernel counts bytes; the agent reads the counters, turns what came in since the
last reading into a report, and delivers reports until they are acknowledged; the
backend ingests a report unless it knows its id.  Anything may happen in between: the
kernel resets or deletes a counter, the agent crashes and restarts from its file, a
POST fails or only its answer is lost, old reports are dropped at the cap.

## The argument

A runtime owes what it would still report of the counters as they are.  `Sound` says,
for each key, that the bytes in all reports ever made and the bytes still owed do not
exceed what the kernel has counted.  This is kept because a report takes over exactly
what was owed (`Collects.reported`), and because a counter that is reset owes no more
than before.  Between a reading and its collection the bytes owed are those owed at the
reading and those that came in after it (`ReadSound`).

From then on until the write is done there are two runtimes: the one on disk, to which a
crash returns, and the one in memory, which becomes durable.  Both are sound at every
moment, each for the reports it has made.

## Main results

* `metered_step` — the invariant is kept by every event
* `ingest_of_ingestUsage` — the machine's backend is the store's `IngestUsage`
* `metering_sound` — at most the counted bytes are ingested, and exactly those, with
  the bytes still buffered and still owed, if nothing was reset, dropped or lost
-/

namespace FipsExitGate.Agent

open Counter Machine

/-! ## The kernel -/

structure Kernel where
  counters : Counters
  /-- Ghost: the bytes ever counted under a key. -/
  counted : AcctKey → Nat
  /-- Ghost: the keys whose counter was reset or deleted. -/
  reset : AcctKey → Bool

/-- The kernel as the agent finds it when it first starts. -/
def Kernel.initial (counters : Counters) : Kernel :=
  ⟨counters, counters.get, fun _ => false⟩

/-- Traffic is counted; the element is made if it is not there. -/
def Kernel.count (κ : Kernel) (k : AcctKey) (n : Nat) : Kernel :=
  { κ with
    counters := κ.counters.insert k (κ.counters.get k + n)
    counted := Function.update κ.counted k (κ.counted k + n) }

/-- A counter is set to zero; one that is absent reads zero as well. -/
def Kernel.resetCounter (κ : Kernel) (k : AcctKey) : Kernel :=
  { κ with
    counters := κ.counters.insert k 0
    reset := Function.update κ.reset k true }

def Kernel.deleteElement (κ : Kernel) (k : AcctKey) : Kernel :=
  { κ with
    counters := κ.counters.erase k
    reset := Function.update κ.reset k true }

/-- **What can happen to a counter**: it grows by what is counted, or it is zero. -/
structure Kernel.Evolves (κ κ' : Kernel) : Prop where
  counter : ∀ k, (∃ n, κ'.counters.get k = κ.counters.get k + n ∧ κ'.counted k = κ.counted k + n) ∨
    (κ'.counters.get k = 0 ∧ κ'.counted k = κ.counted k ∧ κ'.reset k = true)
  reset : ∀ k, κ'.reset k = false → κ.reset k = false

theorem Counters.get_insert (m : Counters) (k k' : AcctKey) (n : Nat) :
    Counters.get (m.insert k n) k' = if k' = k then n else m.get k' := by
  unfold Counters.get
  split
  · rename_i same
    rw [same, AList.lookup_insert, Option.getD_some]
  · rename_i other
    rw [AList.lookup_insert_ne other]

theorem Counters.get_erase (m : Counters) (k k' : AcctKey) :
    Counters.get (m.erase k) k' = if k' = k then 0 else m.get k' := by
  unfold Counters.get
  split
  · rename_i same
    rw [same, AList.lookup_erase, Option.getD_none]
  · rename_i other
    rw [AList.lookup_erase_ne other]

theorem Kernel.evolves_count (κ : Kernel) (k : AcctKey) (n : Nat) : κ.Evolves (κ.count k n) := by
  refine ⟨fun k' => .inl ?_, fun _ h => h⟩
  by_cases same : k' = k
  · subst same
    exact ⟨n, by simp [Kernel.count, Counters.get_insert], by simp [Kernel.count]⟩
  · exact ⟨0, by simp [Kernel.count, Counters.get_insert, same], by simp [Kernel.count, same]⟩

/-- A counter that goes to zero is marked. -/
theorem Kernel.evolves_zero {κ κ' : Kernel} {k : AcctKey}
    (zero : ∀ k', κ'.counters.get k' = if k' = k then 0 else κ.counters.get k')
    (counted : κ'.counted = κ.counted) (marked : κ'.reset = Function.update κ.reset k true) :
    κ.Evolves κ' := by
  refine ⟨fun k' => ?_, fun k' unmarked => ?_⟩
  · by_cases same : k' = k
    · subst same
      exact .inr ⟨by simp [zero], by rw [counted], by simp [marked]⟩
    · exact .inl ⟨0, by simp [zero, same], by simp [counted]⟩
  · by_cases same : k' = k
    · simp [marked, same] at unmarked
    · simpa [marked, same] using unmarked

theorem Kernel.evolves_resetCounter (κ : Kernel) (k : AcctKey) : κ.Evolves (κ.resetCounter k) :=
  Kernel.evolves_zero (fun k' => Counters.get_insert κ.counters k k' 0) rfl rfl

theorem Kernel.evolves_deleteElement (κ : Kernel) (k : AcctKey) : κ.Evolves (κ.deleteElement k) :=
  Kernel.evolves_zero (fun k' => Counters.get_erase κ.counters k k') rfl rfl

/-! ## The machine -/

/-- Where the usage loop is. -/
inductive Phase where
  | idle
  /-- `ReadAcct` has returned. -/
  | read (cur : Counters)
  /-- The runtime in memory is changed, with this new report, and not written yet. -/
  | writing (report : Option UsageReport)
  /-- A POST is under way. -/
  | posting (r : UsageReport)
  /-- The answer has arrived. -/
  | acked (r : UsageReport)

structure World where
  kernel : Kernel
  mem : Runtime
  /-- `runtime.json`. -/
  disk : Runtime
  phase : Phase
  /-- The requests that were sent; the network may deliver one late, or twice. -/
  inFlight : List UsageReport
  /-- The reports the backend has ingested. -/
  ingested : List UsageReport
  /-- Ghost: the reports that were ever written to the file. -/
  created : List UsageReport
  /-- Ghost: a report was dropped at the cap. -/
  dropped : Bool
  /-- Ghost: the file was lost and the baselines had to be primed. -/
  recovered : Bool

def World.initial (counters : Counters) : World :=
  ⟨.initial counters, .fresh, .fresh, .idle, [], [], [], false, false⟩

inductive Event where
  | count (k : AcctKey) (n : Nat)
  | reset (k : AcctKey)
  | delete (k : AcctKey)
  | readAcct
  /-- `collectAndBuffer` changes the runtime; `randID` gives the id. -/
  | collect (order : MapOrder Reading) (services : BitVec 16 → Option String)
      (reportId epoch windowEnd : String)
  /-- `writeJSONAtomic` succeeds. -/
  | persist
  /-- `flushBuffer` posts the oldest report. -/
  | post
  /-- The backend receives the `i`-th request. -/
  | deliver (i : Nat)
  /-- The loop gives up on a reading or a POST, for whatever error. -/
  | giveUp
  | ack
  /-- `flushBuffer` takes the acknowledged report off the queue. -/
  | acknowledge
  /-- The agent crashes and restarts from the file. -/
  | crash
  /-- It restarts and finds the file corrupt; `openStore` moves it aside and writes a
  clean one, which is one event here. -/
  | recover

/-- `IngestUsage`: a known id is a no-op. -/
def ingest (r : UsageReport) (ingested : List UsageReport) : List UsageReport :=
  if ingested.any fun known => decide (known.reportId = r.reportId) then ingested
  else ingested ++ [r]

/-- One event.  A report id is never given twice. -/
def step (bufferCap : Nat) (w : World) : Event → Option World
  | .count k n => some { w with kernel := w.kernel.count k n }
  | .reset k => some { w with kernel := w.kernel.resetCounter k }
  | .delete k => some { w with kernel := w.kernel.deleteElement k }
  | .readAcct =>
      match w.phase with
      | .idle => some { w with phase := .read w.kernel.counters }
      | _ => none
  | .collect order services reportId epoch windowEnd =>
      match w.phase with
      | .read cur =>
          -- `randID` gives no id that a report on record has
          if w.created.any fun r => decide (r.reportId = reportId) then none
          else
            let c := collect bufferCap (order.reorder cur.entries) services reportId epoch
              windowEnd w.mem
            some { w with mem := c.rt, phase := .writing c.report, dropped := w.dropped || c.dropped }
      | _ => none
  | .persist =>
      match w.phase with
      | .writing report =>
          some { w with disk := w.mem, phase := .idle, created := w.created ++ report.toList }
      | _ => none
  | .post =>
      match w.phase, w.mem.bufferedUsage with
      | .idle, r :: _ => some { w with phase := .posting r, inFlight := w.inFlight ++ [r] }
      | _, _ => none
  | .deliver i =>
      match w.inFlight[i]? with
      | some r => some { w with ingested := ingest r w.ingested }
      | none => none
  | .giveUp =>
      match w.phase with
      | .read _ => some { w with phase := .idle }
      | .posting _ => some { w with phase := .idle }
      | _ => none
  | .ack =>
      match w.phase with
      | .posting r =>
          -- the backend answers after it has committed
          if w.ingested.any fun known => decide (known.reportId = r.reportId) then
            some { w with phase := .acked r }
          else none
      | _ => none
  | .acknowledge =>
      match w.phase with
      | .acked r =>
          some { w with mem := acknowledge r.reportId w.mem, phase := .writing none }
      | _ => none
  | .crash => some { w with mem := w.disk, phase := .idle }
  | .recover =>
      some { w with mem := .recovered, disk := .recovered, phase := .idle, recovered := true }

/-! ## Soundness of a runtime -/

/-- **The books of a runtime balance**: `made` are the reports that were made up to it. -/
structure Sound (κ : Kernel) (ingested : List UsageReport) (dropped recovered : Bool) (rt : Runtime)
    (made : List UsageReport) : Prop where
  ids : (made.map (·.reportId)).Nodup
  queue : rt.bufferedUsage.Nodup
  queued : ∀ r ∈ rt.bufferedUsage, r ∈ made
  known : ∀ r ∈ ingested, r ∈ made
  primes : rt.primeBaselines = true → recovered = true
  /-- What is reported and what is owed was counted. -/
  bound : ∀ k, attributed k made + rt.owed k (κ.counters.get k) ≤ κ.counted k
  /-- A counter that was never reset is not below its baseline, and nothing is missing. -/
  complete : recovered = false → ∀ k, κ.reset k = false → rt.baselines.get k ≤ κ.counters.get k ∧
    attributed k made + (κ.counters.get k - rt.baselines.get k) = κ.counted k
  /-- A report is ingested or still queued. -/
  covered : dropped = false → recovered = false → ∀ r ∈ made, r ∈ ingested ∨ r ∈ rt.bufferedUsage

/-- The same, between a reading and its collection. -/
structure ReadSound (κ : Kernel) (recovered : Bool) (rt : Runtime) (made : List UsageReport)
    (cur : Counters) : Prop where
  bound : ∀ k, attributed k made + rt.owed k (cur.get k) + growth (cur.get k) (κ.counters.get k) ≤
    κ.counted k
  complete : recovered = false → ∀ k, κ.reset k = false →
    rt.baselines.get k ≤ cur.get k ∧ cur.get k ≤ κ.counters.get k

theorem owed_zero (rt : Runtime) (k : AcctKey) : rt.owed k 0 = 0 := by
  simp [Runtime.owed]

theorem owed_add_le (rt : Runtime) (k : AcctKey) (now n : Nat) :
    rt.owed k (now + n) ≤ rt.owed k now + n := by
  unfold Runtime.owed
  split
  · exact Nat.zero_le _
  · exact growth_add_le _ _ _

theorem owed_of_unprimed {rt : Runtime} (unprimed : rt.primeBaselines = false) (k : AcctKey)
    (now : Nat) : rt.owed k now = growth (rt.baselines.get k) now := by
  simp [Runtime.owed, unprimed]

section Sound

variable {κ κ' : Kernel} {ingested : List UsageReport} {dropped recovered : Bool} {rt : Runtime}
  {made : List UsageReport} {cur : Counters}

/-- Whatever the kernel does to its counters keeps the books balanced. -/
theorem Sound.evolve (sound : Sound κ ingested dropped recovered rt made) (evolves : κ.Evolves κ') :
    Sound κ' ingested dropped recovered rt made := by
  refine { sound with bound := fun k => ?_, complete := fun unrecovered k unmarked => ?_ }
  · have bound := sound.bound k
    rcases evolves.counter k with ⟨n, counter, counted⟩ | ⟨zero, counted, -⟩
    · have grows := owed_add_le rt k (κ.counters.get k) n
      rw [counter, counted]
      omega
    · rw [zero, counted, owed_zero]
      omega
  · obtain ⟨le, complete⟩ := sound.complete unrecovered k (evolves.reset k unmarked)
    rcases evolves.counter k with ⟨n, counter, counted⟩ | ⟨-, -, marked⟩
    · rw [counter, counted]
      omega
    · exact absurd (unmarked.symm.trans marked) (by simp)

theorem ReadSound.evolve (sound : ReadSound κ recovered rt made cur) (evolves : κ.Evolves κ') :
    ReadSound κ' recovered rt made cur := by
  refine ⟨fun k => ?_, fun unrecovered k unmarked => ?_⟩
  · have bound := sound.bound k
    rcases evolves.counter k with ⟨n, counter, counted⟩ | ⟨zero, counted, -⟩
    · have grows := growth_add_le (cur.get k) (κ.counters.get k) n
      rw [counter, counted]
      omega
    · rw [zero, counted, growth_zero]
      omega
  · obtain ⟨le, le'⟩ := sound.complete unrecovered k (evolves.reset k unmarked)
    rcases evolves.counter k with ⟨n, counter, counted⟩ | ⟨-, -, marked⟩
    · rw [counter]
      exact ⟨le, le'.trans (Nat.le_add_right _ _)⟩
    · exact absurd (unmarked.symm.trans marked) (by simp)

/-- Right after a reading nothing has come in. -/
theorem Sound.read (sound : Sound κ ingested dropped recovered rt made) :
    ReadSound κ recovered rt made κ.counters := by
  refine ⟨fun k => ?_, fun unrecovered k unmarked =>
    ⟨(sound.complete unrecovered k unmarked).1, le_rfl⟩⟩
  rw [growth_self, Nat.add_zero]
  exact sound.bound k

/-- The backend ingests a report that was made. -/
theorem Sound.deliver (sound : Sound κ ingested dropped recovered rt made) {r : UsageReport}
    (member : r ∈ made) : Sound κ (ingest r ingested) dropped recovered rt made := by
  unfold ingest
  split
  · exact sound
  refine { sound with
    known := fun r' isIn => ?_, covered := fun undropped unrecovered r' isIn => ?_ }
  · rcases List.mem_append.mp isIn with isIn | isNew
    · exact sound.known r' isIn
    · exact List.mem_singleton.mp isNew ▸ member
  · exact (sound.covered undropped unrecovered r' isIn).imp_left (List.mem_append_left _)

/-- **A collection keeps the books balanced**: what was owed at the reading is now in a
report, and what came in since is owed. -/
theorem Sound.collect (sound : Sound κ ingested dropped recovered rt made)
    (read : ReadSound κ recovered rt made cur) {readings : List Reading}
    (values : ∀ k, valueIn readings k = cur.get k) {reportId : String}
    (fresh : ∀ r ∈ made, r.reportId ≠ reportId) {c : Collected}
    (collects : Collects rt readings reportId c) :
    Sound κ ingested (dropped || c.dropped) recovered c.rt (made ++ c.report.toList) := by
  obtain ⟨n, undropped, queue⟩ := collects.queued
  have notMade : ∀ r ∈ c.report.toList, r ∉ made := fun r isNew isOld =>
    fresh r isOld (collects.named r (Option.mem_toList.mp isNew))
  constructor
  · rw [List.map_append, List.nodup_append]
    refine ⟨sound.ids, ?_, ?_⟩
    · cases c.report <;> simp
    · intro id isOld id' isNew
      obtain ⟨r, member, rfl⟩ := List.mem_map.mp isOld
      obtain ⟨r', isHere, rfl⟩ := List.mem_map.mp isNew
      rw [collects.named r' (Option.mem_toList.mp isHere)]
      exact fresh r member
  · rw [queue]
    refine List.Nodup.sublist (List.drop_sublist _ _) (List.nodup_append.mpr ⟨sound.queue, ?_, ?_⟩)
    · cases c.report <;> simp
    · rintro r isQueued r' isNew rfl
      exact notMade r isNew (sound.queued r isQueued)
  · intro r member
    rw [queue] at member
    rcases List.mem_append.mp (List.mem_of_mem_drop member) with isQueued | isNew
    · exact List.mem_append_left _ (sound.queued r isQueued)
    · exact List.mem_append_right _ isNew
  · exact fun r member => List.mem_append_left _ (sound.known r member)
  · exact fun primes => absurd (collects.primed.symm.trans primes) (by simp)
  · intro k
    rw [attributed_append, collects.reported, values, owed_of_unprimed collects.primed,
      collects.baselines, values]
    exact read.bound k
  · intro unrecovered k unmarked
    obtain ⟨le, le'⟩ := read.complete unrecovered k unmarked
    have complete := (sound.complete unrecovered k unmarked).2
    have unprimed : rt.primeBaselines = false := by
      by_contra primes
      exact absurd (unrecovered.symm.trans (sound.primes (by simpa using primes))) (by simp)
    rw [attributed_append, collects.reported, values, owed_of_unprimed unprimed, growth_of_le le,
      collects.baselines, values]
    omega
  · intro undroppedNow unrecovered r member
    obtain ⟨undroppedBefore, undroppedHere⟩ : dropped = false ∧ c.dropped = false := by
      simpa using undroppedNow
    rw [queue, undropped undroppedHere, List.drop_zero]
    rcases List.mem_append.mp member with isOld | isNew
    · exact (sound.covered undroppedBefore unrecovered r isOld).imp_right (List.mem_append_left _)
    · exact .inr (List.mem_append_right _ isNew)

/-- An ingested report may leave the queue. -/
theorem Sound.acknowledge (sound : Sound κ ingested dropped recovered rt made) {r : UsageReport}
    (isIngested : r ∈ ingested) :
    Sound κ ingested dropped recovered (acknowledge r.reportId rt) made := by
  have sublist := acknowledge_sublist r.reportId rt
  obtain ⟨baselines, primes⟩ := acknowledge_owed r.reportId rt
  refine
    { ids := sound.ids
      queue := sound.queue.sublist sublist
      queued := fun r' member => sound.queued r' (sublist.subset member)
      known := sound.known
      primes := fun h => sound.primes (primes ▸ h)
      bound := fun k => ?_
      complete := fun unrecovered k unmarked => ?_
      covered := fun undropped unrecovered r' member => ?_ }
  · rw [Runtime.owed, primes, baselines]
    exact sound.bound k
  · rw [baselines]
    exact sound.complete unrecovered k unmarked
  · rcases sound.covered undropped unrecovered r' member with done | isQueued
    · exact .inl done
    rcases mem_acknowledge isQueued with isIt | left
    · -- ids are unique, so the report that left is the one that was acknowledged
      have same := List.inj_on_of_nodup_map sound.ids member (sound.known r isIngested) isIt
      exact .inl (same ▸ isIngested)
    · exact .inr left

/-- A corrupt file: nothing is queued, and nothing is owed before the next reading. -/
theorem Sound.recover (sound : Sound κ ingested dropped recovered rt made) :
    Sound κ ingested dropped true .recovered made where
  ids := sound.ids
  queue := List.nodup_nil
  queued r member := absurd member (by simp [Runtime.recovered])
  known := sound.known
  primes _ := rfl
  bound k := (Nat.le_add_right _ _).trans (sound.bound k)
  complete unrecovered := absurd unrecovered (by simp)
  covered _ unrecovered := absurd unrecovered (by simp)

end Sound

/-! ## The invariant -/

/-- What the phase of the loop says about the runtime in memory. -/
def World.PhaseSound (w : World) : Prop :=
  match w.phase with
  | .idle => w.mem = w.disk
  | .read cur => w.mem = w.disk ∧ ReadSound w.kernel w.recovered w.disk w.created cur
  | .writing report =>
      Sound w.kernel w.ingested w.dropped w.recovered w.mem (w.created ++ report.toList)
  | .posting r => w.mem = w.disk ∧ r ∈ w.created
  | .acked r => w.mem = w.disk ∧ r ∈ w.ingested

/-- **The invariant.** -/
structure Metered (w : World) : Prop where
  disk : Sound w.kernel w.ingested w.dropped w.recovered w.disk w.created
  phase : w.PhaseSound
  inFlight : ∀ r ∈ w.inFlight, r ∈ w.created
  distinct : (w.ingested.map (·.reportId)).Nodup

theorem metered_initial (counters : Counters) : Metered (.initial counters) where
  disk :=
    { ids := List.nodup_nil
      queue := List.nodup_nil
      queued := fun r member => absurd member (by simp [World.initial, Runtime.fresh])
      known := fun r member => absurd member (by simp [World.initial])
      primes := fun primes => absurd primes (by simp [World.initial, Runtime.fresh])
      bound := fun k => by
        show attributed k [] + growth 0 (counters.get k) ≤ counters.get k
        simp [growth]
      complete := fun _ k _ => ⟨Nat.zero_le _, Nat.zero_add _⟩
      covered := fun _ _ r member => absurd member (by simp [World.initial]) }
  phase := rfl
  inFlight r member := absurd member (by simp [World.initial])
  distinct := List.nodup_nil

/-- The kernel may do anything at any time. -/
theorem Metered.evolve {w : World} (metered : Metered w) {κ : Kernel} (evolves : w.kernel.Evolves κ) :
    Metered { w with kernel := κ } := by
  refine { metered with disk := metered.disk.evolve evolves, phase := ?_ }
  have before := metered.phase
  unfold World.PhaseSound at before ⊢
  dsimp only
  split at before
  · exact before
  · exact ⟨before.1, before.2.evolve evolves⟩
  · exact before.evolve evolves
  · exact before
  · exact before

theorem distinct_ingest {r : UsageReport} {ingested : List UsageReport}
    (distinct : (ingested.map (·.reportId)).Nodup) :
    ((ingest r ingested).map (·.reportId)).Nodup := by
  unfold ingest
  split
  · exact distinct
  rename_i unknown
  rw [List.map_append, List.nodup_append]
  refine ⟨distinct, by simp, fun id isKnown id' isNew => ?_⟩
  obtain ⟨known, member, rfl⟩ := List.mem_map.mp isKnown
  obtain rfl : id' = r.reportId := by simpa using isNew
  exact fun same => unknown (List.any_eq_true.mpr ⟨known, member, by simpa using same⟩)

theorem mem_ingest_of_mem {r r' : UsageReport} {ingested : List UsageReport} (member : r' ∈ ingested) :
    r' ∈ ingest r ingested := by
  unfold ingest
  split
  · exact member
  · exact List.mem_append_left _ member

/-- So may the network. -/
theorem Metered.deliver {w : World} (metered : Metered w) {r : UsageReport} (sent : r ∈ w.created) :
    Metered { w with ingested := ingest r w.ingested } := by
  refine { metered with
    disk := metered.disk.deliver sent, phase := ?_, distinct := distinct_ingest metered.distinct }
  have before := metered.phase
  unfold World.PhaseSound at before ⊢
  dsimp only
  split at before
  · exact before
  · exact before
  · exact before.deliver (List.mem_append_left _ sent)
  · exact before
  · exact ⟨before.1, mem_ingest_of_mem before.2⟩

/-- **Step**: every event keeps the books balanced. -/
theorem metered_step (bufferCap : Nat) (w : World) (e : Event) (w' : World) (metered : Metered w)
    (taken : step bufferCap w e = some w') : Metered w' := by
  have now := metered.phase
  unfold World.PhaseSound at now
  cases e with
  | count k n =>
      cases taken
      exact metered.evolve (w.kernel.evolves_count k n)
  | reset k =>
      cases taken
      exact metered.evolve (w.kernel.evolves_resetCounter k)
  | delete k =>
      cases taken
      exact metered.evolve (w.kernel.evolves_deleteElement k)
  | readAcct =>
      simp only [step] at taken
      split at taken <;> cases taken
      rename_i isIdle
      rw [isIdle] at now
      exact { metered with phase := ⟨now, metered.disk.read⟩ }
  | collect order services reportId epoch windowEnd =>
      simp only [step] at taken
      split at taken
      · rename_i cur isRead
        rw [isRead] at now
        split at taken
        · cases taken
        rename_i unused
        cases taken
        obtain ⟨same, read⟩ := now
        have nodup := nodupKeys_reorder order cur
        have fresh : ∀ r ∈ w.created, r.reportId ≠ reportId := by simpa using unused
        have collects := collects_collect nodup bufferCap services reportId epoch windowEnd w.mem
        rw [same] at collects ⊢
        have written := metered.disk.collect read (valueIn_reorder order cur) fresh collects
        -- a drop is on record from the moment it happens, so the file's books only claim less
        refine { metered with disk := { metered.disk with covered := ?_ }, phase := written }
        intro undropped
        have undropped : w.dropped = false := by
          simp only [Bool.or_eq_false_iff] at undropped
          exact undropped.1
        exact metered.disk.covered undropped
      · cases taken
  | persist =>
      simp only [step] at taken
      split at taken <;> cases taken
      rename_i report isWriting
      rw [isWriting] at now
      refine { metered with disk := now, phase := rfl, inFlight := fun r sent => ?_ }
      exact List.mem_append_left _ (metered.inFlight r sent)
  | post =>
      simp only [step] at taken
      split at taken <;> cases taken
      rename_i r rest isIdle queue
      rw [isIdle] at now
      have queued : r ∈ w.created := by
        refine metered.disk.queued r ?_
        rw [← now, queue]
        exact List.mem_cons_self
      refine { metered with phase := ⟨now, queued⟩, inFlight := fun r' sent => ?_ }
      rcases List.mem_append.mp sent with sent | isNew
      · exact metered.inFlight r' sent
      · exact List.mem_singleton.mp isNew ▸ queued
  | deliver i =>
      simp only [step] at taken
      split at taken
      · rename_i r isSent
        cases taken
        exact metered.deliver (metered.inFlight r (List.mem_of_getElem? isSent))
      · cases taken
  | giveUp =>
      simp only [step] at taken
      split at taken <;> cases taken
      · rename_i cur isRead
        rw [isRead] at now
        exact { metered with phase := now.1 }
      · rename_i r isPosting
        rw [isPosting] at now
        exact { metered with phase := now.1 }
  | ack =>
      simp only [step] at taken
      split at taken
      · rename_i r isPosting
        rw [isPosting] at now
        split at taken
        · rename_i answered
          cases taken
          -- the id the backend knows is that of this very report
          obtain ⟨known, isIn, sameId⟩ := List.any_eq_true.mp answered
          have sameId : known.reportId = r.reportId := by simpa using sameId
          have same := List.inj_on_of_nodup_map metered.disk.ids (metered.disk.known known isIn)
            now.2 sameId
          exact { metered with phase := ⟨now.1, same ▸ isIn⟩ }
        · cases taken
      · cases taken
  | acknowledge =>
      simp only [step] at taken
      split at taken <;> cases taken
      rename_i r isAcked
      rw [isAcked] at now
      have sound := metered.disk.acknowledge now.2
      refine { metered with phase := ?_ }
      show Sound _ _ _ _ (Agent.acknowledge r.reportId w.mem) (w.created ++ [])
      rw [now.1, List.append_nil]
      exact sound
  | crash =>
      cases taken
      exact { metered with phase := rfl }
  | recover =>
      cases taken
      exact { metered with disk := metered.disk.recover, phase := rfl }

/-! ## The bill -/

/-- A runtime whose books balance: the reports made are those ingested and those that
are still queued. -/
theorem Sound.bill {κ : Kernel} {ingested : List UsageReport} {rt : Runtime}
    {made : List UsageReport} (sound : Sound κ ingested false false rt made)
    (distinct : ingested.Nodup) (k : AcctKey) :
    attributed k made = attributed k ingested +
      attributed k (rt.bufferedUsage.filter fun r => decide (r ∉ ingested)) := by
  rw [← attributed_append]
  refine attributed_perm k ?_
  refine (List.perm_ext_iff_of_nodup (List.Nodup.of_map _ sound.ids) ?_).mpr fun r => ?_
  · refine List.nodup_append.mpr ⟨distinct, sound.queue.sublist List.filter_sublist, ?_⟩
    rintro r isIn r' left rfl
    exact absurd isIn (by simpa using (List.mem_filter.mp left).2)
  · rw [List.mem_append, List.mem_filter]
    constructor
    · intro member
      by_cases isIn : r ∈ ingested
      · exact .inl isIn
      · exact .inr ⟨(sound.covered rfl rfl r member).resolve_left isIn, by simpa using isIn⟩
    · rintro (isIn | ⟨isQueued, -⟩)
      · exact sound.known r isIn
      · exact sound.queued r isQueued

/-- The runtime in memory is sound as well, for the reports it has made. -/
theorem Metered.mem {w : World} (metered : Metered w) :
    ∃ made, Sound w.kernel w.ingested w.dropped w.recovered w.mem made := by
  have now := metered.phase
  unfold World.PhaseSound at now
  split at now
  · exact ⟨w.created, now ▸ metered.disk⟩
  · exact ⟨w.created, now.1 ▸ metered.disk⟩
  · exact ⟨_, now⟩
  · exact ⟨w.created, now.1 ▸ metered.disk⟩
  · exact ⟨w.created, now.1 ▸ metered.disk⟩

/-- **No byte is billed twice.** -/
theorem Metered.ingested_le {w : World} (metered : Metered w) (k : AcctKey) :
    attributed k w.ingested ≤ w.kernel.counted k := by
  have distinct : w.ingested.Nodup := List.Nodup.of_map _ metered.distinct
  have among := attributed_le_of_subset k distinct metered.disk.known
  have bound := metered.disk.bound k
  omega

/-- **Metering never bills a byte twice, and loses none when nothing is reset.**  In
every state of every run, and for every key, the bytes the backend has ingested are at
most those the kernel has counted.  If the counter was never reset or deleted, nothing
was dropped at the cap and the file was never lost, then the bytes ingested, the bytes
in reports still queued and not ingested, and the bytes since the baseline are exactly
the bytes counted: for the runtime in the file and for the one in memory. -/
theorem metering_sound (bufferCap : Nat) (counters : Counters) (es : List Event) (w : World)
    (reached : run (step bufferCap) (.initial counters) es = some w) (k : AcctKey) :
    attributed k w.ingested ≤ w.kernel.counted k ∧
      (w.kernel.reset k = false → w.dropped = false → w.recovered = false →
        ∀ rt, rt = w.disk ∨ rt = w.mem →
          rt.baselines.get k ≤ w.kernel.counters.get k ∧
          attributed k w.ingested +
              attributed k (rt.bufferedUsage.filter fun r => decide (r ∉ w.ingested)) +
              (w.kernel.counters.get k - rt.baselines.get k) =
            w.kernel.counted k) := by
  have metered : Metered w :=
    run_invariant (metered_step bufferCap) es (metered_initial counters) reached
  have distinct : w.ingested.Nodup := List.Nodup.of_map _ metered.distinct
  refine ⟨metered.ingested_le k, fun unmarked undropped unrecovered rt isRt => ?_⟩
  obtain ⟨made, sound⟩ : ∃ made, Sound w.kernel w.ingested w.dropped w.recovered rt made := by
    rcases isRt with rfl | rfl
    · exact ⟨w.created, metered.disk⟩
    · exact metered.mem
  obtain ⟨le, complete⟩ := sound.complete unrecovered k unmarked
  rw [undropped, unrecovered] at sound
  refine ⟨le, ?_⟩
  rw [← sound.bill distinct k]
  exact complete

/-- The traffic of one customer on one port. -/
def webTraffic : AcctKey := ⟨firstAddr, 443⟩

/-- More traffic arrives between the reading and the collection; the report is posted and
ingested, but the answer is lost and the agent crashes; the report is posted again, and
this time the answer arrives. -/
def lostAnswer : List Event :=
  [.count webTraffic 100, .readAcct, .count webTraffic 20,
    .collect .id (fun _ => some "web") "report-1" "boot-1" "", .persist, .post, .deliver 0, .giveUp,
    .crash, .post, .deliver 1, .ack, .acknowledge, .persist, .count webTraffic 5]

theorem metering_sound_lostAnswer :
    ∃ w, run (step 2880) (.initial ∅) lostAnswer = some w ∧
      attributed webTraffic w.ingested = 100 ∧ w.kernel.counted webTraffic = 125 ∧
      attributed webTraffic w.ingested +
          attributed webTraffic (w.disk.bufferedUsage.filter fun r => decide (r ∉ w.ingested)) +
          (w.kernel.counters.get webTraffic - w.disk.baselines.get webTraffic) = 125 := by
  refine ⟨_, rfl, by decide +kernel, by decide +kernel, ?_⟩
  exact ((metering_sound 2880 ∅ lostAnswer _ rfl webTraffic).2 rfl rfl rfl _ (.inl rfl)).2

/-! ## The backend's side -/

/-- **The machine's `ingest` is what `IngestUsage` does to the ids on record**: if the
rows of `usage_reports` have the ids of the reports ingested so far, they do after one
more report was ingested. -/
theorem ingest_of_ingestUsage {env : Env} {nodeId : String} {input : ReportInput} {r : UsageReport}
    {ingested : List UsageReport} {db db' : Db} {revoked : List Addr}
    (sameId : input.reportId = r.reportId)
    (agree : db.reports.map (·.id) = ingested.map (·.reportId))
    (done : Program.exec (ingestUsage env nodeId input) db = (.ok revoked, db')) :
    db'.reports.map (·.id) = (ingest r ingested).map (·.reportId) := by
  have knows : db.knows input.reportId ↔
      (ingested.any fun known => decide (known.reportId = r.reportId)) = true := by
    have ids : db.knows input.reportId ↔ r.reportId ∈ db.reports.map (·.id) := by
      simp [Db.knows, sameId]
    rw [ids, agree]
    simp
  unfold ingestUsage at done
  rw [Program.exec_get_bind] at done
  obtain ⟨fresh, db₁, tx, rest⟩ := Program.exec_bind_eq_ok done
  rcases ingestUsageTx_ok (exec_inTx_ok tx) with ⟨rfl, known, rfl⟩ | ⟨rfl, unknown, recorded⟩
  · cases rest
    rw [ingest, if_pos (knows.mp known)]
    exact agree
  · let row := (⟨input.reportId, nodeId, input.counterEpoch, input.windowEnd, env.now 0⟩ :
      FipsExitGate.UsageReport)
    have sampled := Program.Keeps.forM (keeps_recordSample
      (I := fun d => d.reports = db.reports ++ [row]) (fun _ _ h => h) (fun _ _ _ h => h)
      db.services input.reportId (env.now 0)) input.samples
    have recomputed : Program.Keeps (fun d => d.reports = db.reports ++ [row])
        (recomputeAuthz env 1) := keeps_recomputeAuthz env 1 (fun _ _ h => h) fun _ _ h => h
    have reports : db'.reports = db.reports ++ [row] :=
      (Program.Keeps.bind recomputed fun _ => Program.Keeps.pure _).ok (sampled.ok rfl recorded) rest
    rw [ingest, if_neg (fun known => unknown (knows.mpr known)), reports]
    simp [agree, row, sameId]

end FipsExitGate.Agent
