import FipsExitGate.Agent.Authz
import FipsExitGate.Agent.Metering

/-!
# Counters of revoked addresses

The answer to a usage report may name addresses to revoke.  `applyRevocations` takes them out of
the authorized set, and `gcAcct` deletes their counters.  The counters are not collected first:
what has come in since the last reading goes with them.  A revocation that arrives through the
sync loop deletes no counter, and the next collection reports what is left in it.

## The argument

`Agent.Metering` gives up on a counter once it was deleted.  Here the books are kept exactly:
`Exact` says that the bytes reported and the bytes owed *are* the bytes counted.  Two things can
break that.  A counter is deleted while something is owed on it; or its address is let in again
before the next collection and its new counter gets up to the old baseline, so that it is not
seen to have started from zero.  `SparesOwed` excludes these two, and a report that is dropped at
the cap.

## Design notes

* The rules that count match the authorized set, so there is no traffic of other addresses.
* The usage loop waits for `applyRevocations`.  The kernel, the network and the sync loop do not.
* The order of the keys in a batch does not matter; the counters are listed in theirs.

## Main results

* `kept_step` — the books stay exact
* `revocation_keeps_bytes` — what was counted when the last completed collection read the
  counters is delivered or still queued
* `revocation_discards_bytes` — traffic between the reading and the deletion
-/

namespace FipsExitGate.Agent

open Counter Machine

/-! ## The machine -/

/-- Where `applyRevocations` is. -/
inductive Revoking where
  | idle
  /-- `presentOnly` has returned. -/
  | listed (revoke del : List Addr)
  /-- `ApplyAuthorized` has returned. -/
  | removed (revoke : List Addr)
  /-- `gcAcct` has read the counters. -/
  | picked (keys : List AcctKey)

def Revoking.isIdle : Revoking → Bool
  | .idle => true
  | _ => false

def Revoking.keys : Revoking → List AcctKey
  | .picked keys => keys
  | _ => []

structure Gate where
  world : World
  authorized : AddrSet
  revoking : Revoking
  /-- Ghost: the bytes counted when the collection under way read the counters. -/
  pending : Option (AcctKey → Nat)
  /-- Ghost: the bytes counted when the last completed collection read the counters. -/
  collected : AcctKey → Nat

def Gate.initial (counters : Counters) (authorized : AddrSet) : Gate :=
  ⟨.initial counters, authorized, .idle, none, fun _ => 0⟩

inductive GateEvent where
  | traffic (k : AcctKey) (n : Nat)
  /-- A batch of the sync loop. -/
  | sync (add del : List Addr)
  | usage (e : Event)
  /-- `presentOnly`, with the addresses the answer names. -/
  | list (revoke : List Addr)
  /-- `ApplyAuthorized`. -/
  | remove
  /-- `ReadAcct` in `gcAcct`. -/
  | pick
  /-- `DeleteAcct`. -/
  | delete
  /-- One of these fails, and `applyRevocations` returns. -/
  | abort

/-- The events of the usage loop, of the network, and a restart. -/
def Gate.admits (g : Gate) : Event → Bool
  | .count .. | .reset _ | .delete _ | .recover => false
  | .deliver _ | .crash => true
  | .readAcct | .collect .. | .persist | .post | .giveUp | .ack | .acknowledge => g.revoking.isIdle

/-- Keeps the ghosts. -/
def Gate.note (g : Gate) (e : Event) (w : World) : Gate :=
  match e with
  | .readAcct => { g with world := w, pending := some w.kernel.counted }
  | .persist => { g with world := w, pending := none, collected := g.pending.getD g.collected }
  | .giveUp => { g with world := w, pending := none }
  | .crash => { g with world := w, pending := none, revoking := .idle }
  | _ => { g with world := w }

def Kernel.deleteAcct (κ : Kernel) (keys : List AcctKey) : Kernel :=
  keys.foldl Kernel.deleteElement κ

/-- One event.  A batch that names an absent element fails as a whole. -/
def gateStep (bufferCap : Nat) (g : Gate) : GateEvent → Option Gate
  | .traffic k n =>
      if k.addr ∈ g.authorized then
        some { g with world := { g.world with kernel := g.world.kernel.count k n } }
      else none
  | .sync add del =>
      if ∀ a ∈ del, a ∈ g.authorized then
        some { g with authorized := batch g.authorized add del }
      else none
  | .usage e => if g.admits e then (step bufferCap g.world e).map (g.note e) else none
  | .list revoke =>
      match g.world.phase, g.revoking with
      | .acked _, .idle =>
          let del := revoke.filter fun a => decide (a ∈ g.authorized)
          some { g with revoking := .listed revoke del }
      | _, _ => none
  | .remove =>
      match g.revoking with
      | .listed revoke del =>
          if ∀ a ∈ del, a ∈ g.authorized then
            some { g with authorized := batch g.authorized [] del, revoking := .removed revoke }
          else none
      | _ => none
  | .pick =>
      match g.revoking with
      | .removed revoke =>
          let keys := g.world.kernel.counters.keys.filter fun k => decide (k.addr ∈ revoke)
          some { g with revoking := .picked keys }
      | _ => none
  | .delete =>
      match g.world.phase, g.revoking with
      | .acked _, .picked keys =>
          if ∀ k ∈ keys, k ∈ g.world.kernel.counters then
            some { g with
              world := { g.world with kernel := g.world.kernel.deleteAcct keys }
              revoking := .idle }
          else none
      | _, _ => none
  | .abort => some { g with revoking := .idle }

/-- **The condition**: nothing is owed on a counter that is deleted, no traffic takes a counter
from below its baseline up to it, and the queue has room for a report. -/
def SparesOwed (bufferCap : Nat) (g : Gate) : GateEvent → Prop
  | .traffic k n =>
      ∀ rt ∈ [g.world.mem, g.world.disk],
        g.world.kernel.counters.get k < rt.baselines.get k →
          g.world.kernel.counters.get k + n < rt.baselines.get k
  | .delete =>
      ∀ k ∈ g.revoking.keys,
        g.world.kernel.counters.get k = g.world.mem.baselines.get k ∨
          g.world.kernel.counters.get k = 0
  | .usage (.collect ..) => g.world.mem.bufferedUsage.length < bufferCap
  | _ => True

/-! ## Exact books -/

/-- **The books are exact**: what is reported and what is owed is what was counted. -/
def Exact (κ : Kernel) (rt : Runtime) (made : List UsageReport) : Prop :=
  ∀ k, attributed k made + growth (rt.baselines.get k) (κ.counters.get k) = κ.counted k

/-- The same, between a reading and its collection; `seen` are the bytes counted at the reading. -/
structure ReadExact (κ : Kernel) (rt : Runtime) (made : List UsageReport) (cur : Counters)
    (seen : AcctKey → Nat) : Prop where
  owed : ∀ k, attributed k made + growth (rt.baselines.get k) (cur.get k) = seen k
  grown : ∀ k, cur.get k ≤ κ.counters.get k
  since : ∀ k, seen k + (κ.counters.get k - cur.get k) = κ.counted k

section Exact

variable {κ : Kernel} {rt : Runtime} {made : List UsageReport} {cur : Counters}
  {seen : AcctKey → Nat}

theorem counters_count (κ : Kernel) (k k' : AcctKey) (n : Nat) :
    (κ.count k n).counters.get k' = κ.counters.get k' + if k' = k then n else 0 := by
  rw [Kernel.count, Counters.get_insert]
  split
  · rename_i same
    rw [same]
  · rfl

theorem counted_count (κ : Kernel) (k k' : AcctKey) (n : Nat) :
    (κ.count k n).counted k' = κ.counted k' + if k' = k then n else 0 := by
  by_cases same : k' = k
  · simp [Kernel.count, same]
  · simp [Kernel.count, same]

/-- Traffic is owed, if it does not hide that the counter started anew. -/
theorem Exact.count (exact : Exact κ rt made) {k : AcctKey} {n : Nat}
    (below : κ.counters.get k < rt.baselines.get k → κ.counters.get k + n < rt.baselines.get k) :
    Exact (κ.count k n) rt made := by
  intro k'
  have before := exact k'
  rw [counters_count, counted_count]
  by_cases same : k' = k
  · subst same
    rw [if_pos rfl, growth_add below]
    omega
  · rw [if_neg same]
    exact before

theorem ReadExact.count (exact : ReadExact κ rt made cur seen) (k : AcctKey) (n : Nat) :
    ReadExact (κ.count k n) rt made cur seen := by
  refine { exact with grown := fun k' => ?_, since := fun k' => ?_ }
  · rw [counters_count]
    exact (exact.grown k').trans (Nat.le_add_right _ _)
  · have grown := exact.grown k'
    have since := exact.since k'
    rw [counters_count, counted_count]
    omega

theorem get_deleteAcct (κ : Kernel) (keys : List AcctKey) (k : AcctKey) :
    (κ.deleteAcct keys).counters.get k = if k ∈ keys then 0 else κ.counters.get k := by
  induction keys generalizing κ with
  | nil => rfl
  | cons k' keys ih =>
      rw [Kernel.deleteAcct, List.foldl_cons]
      refine (ih (κ.deleteElement k')).trans ?_
      have first : (κ.deleteElement k').counters.get k = if k = k' then 0 else κ.counters.get k :=
        Counters.get_erase κ.counters k' k
      rw [first]
      by_cases later : k ∈ keys
      · simp [later]
      · simp [later]

theorem counted_deleteAcct (κ : Kernel) (keys : List AcctKey) :
    (κ.deleteAcct keys).counted = κ.counted := by
  induction keys generalizing κ with
  | nil => rfl
  | cons k' keys ih => exact ih (κ.deleteElement k')

/-- Counters on which nothing is owed may be deleted. -/
theorem Exact.deleteAcct (exact : Exact κ rt made) {keys : List AcctKey}
    (spared : ∀ k ∈ keys, κ.counters.get k = rt.baselines.get k ∨ κ.counters.get k = 0) :
    Exact (κ.deleteAcct keys) rt made := by
  intro k
  have before := exact k
  rw [get_deleteAcct, counted_deleteAcct]
  split
  · rename_i deleted
    rw [growth_eq_zero (spared k deleted)] at before
    rw [growth_zero]
    exact before
  · exact before

/-- Right after a reading nothing has come in. -/
theorem Exact.read (exact : Exact κ rt made) : ReadExact κ rt made κ.counters κ.counted where
  owed := exact
  grown _ := le_rfl
  since k := by rw [Nat.sub_self, Nat.add_zero]

/-- **A collection reports what was owed at the reading.** -/
theorem ReadExact.collect (exact : ReadExact κ rt made cur seen)
    (unprimed : rt.primeBaselines = false) {readings : List Reading}
    (values : ∀ k, valueIn readings k = cur.get k) {reportId : String} {c : Collected}
    (collects : Collects rt readings reportId c) :
    (∀ k, attributed k (made ++ c.report.toList) = seen k) ∧
      Exact κ c.rt (made ++ c.report.toList) := by
  have reported (k : AcctKey) : attributed k (made ++ c.report.toList) = seen k := by
    rw [attributed_append, collects.reported, values, owed_of_unprimed unprimed]
    exact exact.owed k
  refine ⟨reported, fun k => ?_⟩
  rw [reported, collects.baselines, values, growth_of_le (exact.grown k)]
  exact exact.since k

end Exact

theorem collect_undropped {bufferCap : Nat} {rt : Runtime}
    (room : rt.bufferedUsage.length < bufferCap) (cur : List Reading)
    (services : BitVec 16 → Option String) (reportId epoch windowEnd : String) :
    (collect bufferCap cur services reportId epoch windowEnd rt).dropped = false := by
  unfold collect
  dsimp only
  split
  · rfl
  split
  · rfl
  rw [if_neg]
  rw [List.length_append]
  exact Nat.not_lt.mpr room

/-! ## The invariant -/

/-- What the phase of the loop says about the books. -/
def Gate.PhaseKept (g : Gate) : Prop :=
  match g.world.phase with
  | .read cur =>
      ∃ seen, g.pending = some seen ∧
        ReadExact g.world.kernel g.world.disk g.world.created cur seen
  | .writing report =>
      Exact g.world.kernel g.world.mem (g.world.created ++ report.toList) ∧
        ∀ seen ∈ g.pending, ∀ k, seen k ≤ attributed k (g.world.created ++ report.toList)
  | .idle | .posting _ | .acked _ => g.pending = none

/-- **The invariant.** -/
structure Kept (g : Gate) : Prop where
  metered : Metered g.world
  undropped : g.world.dropped = false
  unrecovered : g.world.recovered = false
  disk : Exact g.world.kernel g.world.disk g.world.created
  phase : g.PhaseKept
  collected : ∀ k, g.collected k ≤ attributed k g.world.created

theorem kept_initial (counters : Counters) (authorized : AddrSet) :
    Kept (.initial counters authorized) where
  metered := metered_initial counters
  undropped := rfl
  unrecovered := rfl
  disk k := by
    show attributed k [] + growth 0 (counters.get k) = counters.get k
    rw [growth_of_le (Nat.zero_le _)]
    exact Nat.zero_add _
  phase := rfl
  collected k := Nat.zero_le _

section Kept

variable {bufferCap : Nat} {g g' : Gate}

theorem Kept.traffic (kept : Kept g) {k : AcctKey} {n : Nat}
    (spared : SparesOwed bufferCap g (.traffic k n)) :
    Kept { g with world := { g.world with kernel := g.world.kernel.count k n } } := by
  refine { kept with
    metered := kept.metered.evolve (g.world.kernel.evolves_count k n)
    disk := kept.disk.count (spared g.world.disk (by simp)), phase := ?_ }
  have before := kept.phase
  unfold Gate.PhaseKept at before ⊢
  dsimp only
  split at before
  · obtain ⟨seen, isPending, exact⟩ := before
    exact ⟨seen, isPending, exact.count k n⟩
  · exact ⟨before.1.count (spared g.world.mem (by simp)), before.2⟩
  · exact before
  · exact before
  · exact before

theorem metered_deleteAcct {w : World} (metered : Metered w) (keys : List AcctKey) :
    Metered { w with kernel := w.kernel.deleteAcct keys } := by
  induction keys generalizing w with
  | nil => exact metered
  | cons k keys ih => exact ih (metered.evolve (w.kernel.evolves_deleteElement k))

theorem Kept.deleteAcct (kept : Kept g) {r : UsageReport} (isAcked : g.world.phase = .acked r)
    {keys : List AcctKey} (spared : ∀ k ∈ keys,
      g.world.kernel.counters.get k = g.world.mem.baselines.get k ∨
        g.world.kernel.counters.get k = 0) :
    Kept { g with
      world := { g.world with kernel := g.world.kernel.deleteAcct keys }, revoking := .idle } := by
  have same : g.world.mem = g.world.disk := by
    have now := kept.metered.phase
    rw [World.PhaseSound, isAcked] at now
    exact now.1
  rw [same] at spared
  refine { kept with
    metered := metered_deleteAcct kept.metered keys, disk := kept.disk.deleteAcct spared
    phase := ?_ }
  have before := kept.phase
  rw [Gate.PhaseKept, isAcked] at before
  rw [Gate.PhaseKept, isAcked]
  exact before

/-- **The events of the usage loop keep the books exact.** -/
theorem Kept.usage (kept : Kept g) {e : Event} (admitted : g.admits e = true)
    (spared : SparesOwed bufferCap g (.usage e)) {w : World}
    (taken : step bufferCap g.world e = some w) : Kept (g.note e w) := by
  have metered : Metered w := metered_step bufferCap g.world e w kept.metered taken
  have now := kept.phase
  have sound := kept.metered.phase
  unfold Gate.PhaseKept at now
  unfold World.PhaseSound at sound
  cases e with
  | count => cases admitted
  | reset => cases admitted
  | delete => cases admitted
  | recover => cases admitted
  | readAcct =>
      simp only [step] at taken
      split at taken <;> cases taken
      exact { kept with metered := metered, phase := ⟨_, rfl, kept.disk.read⟩ }
  | collect order services reportId epoch windowEnd =>
      simp only [step] at taken
      split at taken
      · rename_i cur isRead
        rw [isRead] at now sound
        split at taken <;> cases taken
        obtain ⟨seen, isPending, exact⟩ := now
        obtain ⟨same, -⟩ := sound
        have undropped := collect_undropped spared (order.reorder cur.entries) services reportId
          epoch windowEnd
        have unprimed : g.world.mem.primeBaselines = false := by
          rw [same, ← Bool.not_eq_true]
          intro primes
          have recovered := kept.metered.disk.primes primes
          rw [kept.unrecovered] at recovered
          cases recovered
        rw [← same] at exact
        obtain ⟨reported, exact⟩ := exact.collect unprimed (valueIn_reorder order cur)
          (collects_collect (nodupKeys_reorder order cur) bufferCap services reportId epoch
            windowEnd g.world.mem)
        refine { kept with metered := metered, undropped := ?_, phase := ⟨exact, ?_⟩ }
        · show (g.world.dropped || _) = false
          rw [undropped, kept.undropped]
          rfl
        · intro seen' isPending' k
          obtain rfl : seen = seen' := Option.some.inj (isPending.symm.trans isPending')
          exact (reported k).ge
      · cases taken
  | persist =>
      simp only [step] at taken
      split at taken <;> cases taken
      rename_i report isWriting
      rw [isWriting] at now
      refine { kept with metered := metered, disk := now.1, phase := rfl, collected := fun k => ?_ }
      show g.pending.getD g.collected k ≤ attributed k (g.world.created ++ report.toList)
      cases isPending : g.pending with
      | none =>
          rw [attributed_append]
          exact (kept.collected k).trans (Nat.le_add_right _ _)
      | some seen => exact now.2 seen isPending k
  | post =>
      simp only [step] at taken
      split at taken <;> cases taken
      rename_i r rest isIdle queue
      rw [isIdle] at now
      exact { kept with metered := metered, phase := now }
  | deliver i =>
      simp only [step] at taken
      split at taken <;> cases taken
      exact { kept with metered := metered }
  | giveUp =>
      simp only [step] at taken
      split at taken <;> cases taken
      · exact { kept with metered := metered, phase := rfl }
      · exact { kept with metered := metered, phase := rfl }
  | ack =>
      simp only [step] at taken
      split at taken
      · rename_i r isPosting
        rw [isPosting] at now
        split at taken <;> cases taken
        exact { kept with metered := metered, phase := now }
      · cases taken
  | acknowledge =>
      simp only [step] at taken
      split at taken <;> cases taken
      rename_i r isAcked
      rw [isAcked] at now sound
      have exact : Exact g.world.kernel (acknowledge r.reportId g.world.mem)
          (g.world.created ++ []) := by
        intro k
        rw [List.append_nil, (acknowledge_owed r.reportId g.world.mem).1, sound.1]
        exact kept.disk k
      refine { kept with metered := metered, phase := ⟨exact, fun seen isPending => ?_⟩ }
      exact absurd (now.symm.trans isPending) (by simp)
  | crash =>
      cases taken
      exact { kept with metered := metered, phase := rfl }

/-- **Step.** -/
theorem kept_step (g : Gate) (e : GateEvent) (g' : Gate) (kept : Kept g)
    (spared : SparesOwed bufferCap g e) (taken : gateStep bufferCap g e = some g') : Kept g' := by
  cases e with
  | traffic k n =>
      simp only [gateStep] at taken
      split at taken <;> cases taken
      exact kept.traffic spared
  | sync add del =>
      simp only [gateStep] at taken
      split at taken <;> cases taken
      exact { kept with }
  | usage e =>
      simp only [gateStep] at taken
      split at taken
      · rename_i admitted
        obtain ⟨w, stepped, rfl⟩ := Option.map_eq_some_iff.mp taken
        exact kept.usage admitted spared stepped
      · cases taken
  | list revoke =>
      simp only [gateStep] at taken
      split at taken <;> cases taken
      exact { kept with }
  | remove =>
      simp only [gateStep] at taken
      split at taken
      · split at taken <;> cases taken
        exact { kept with }
      · cases taken
  | pick =>
      simp only [gateStep] at taken
      split at taken <;> cases taken
      exact { kept with }
  | delete =>
      simp only [gateStep] at taken
      split at taken
      · rename_i r keys isAcked isPicked
        split at taken <;> cases taken
        simp only [SparesOwed, isPicked, Revoking.keys] at spared
        exact kept.deleteAcct isAcked spared
      · cases taken
  | abort =>
      cases taken
      exact { kept with }

/-- The runtimes in the file and in memory have their books exact, and hold what was collected. -/
theorem Kept.runtime (kept : Kept g) {rt : Runtime} (isRt : rt = g.world.disk ∨ rt = g.world.mem) :
    ∃ made, Sound g.world.kernel g.world.ingested false false rt made ∧
      Exact g.world.kernel rt made ∧ ∀ k, g.collected k ≤ attributed k made := by
  have file : ∃ made, Sound g.world.kernel g.world.ingested false false g.world.disk made ∧
      Exact g.world.kernel g.world.disk made ∧ ∀ k, g.collected k ≤ attributed k made := by
    have sound := kept.metered.disk
    rw [kept.undropped, kept.unrecovered] at sound
    exact ⟨_, sound, kept.disk, kept.collected⟩
  rcases isRt with rfl | rfl
  · exact file
  have now := kept.phase
  have sound := kept.metered.phase
  unfold Gate.PhaseKept at now
  unfold World.PhaseSound at sound
  split at sound
  · rw [sound]
    exact file
  · rw [sound.1]
    exact file
  · rename_i report isWriting
    rw [isWriting] at now
    rw [kept.undropped, kept.unrecovered] at sound
    refine ⟨_, sound, now.1, fun k => ?_⟩
    rw [attributed_append]
    exact (kept.collected k).trans (Nat.le_add_right _ _)
  · rw [sound.1]
    exact file
  · rw [sound.1]
    exact file

end Kept

/-- **Revocation keeps the bytes on which nothing is owed.**  In every run that meets the
condition, in every state, for every key and for the runtime in the file as for the one in
memory: the bytes delivered, those queued and not delivered, and those owed on the counter are
the bytes counted; and the bytes that were counted when the last completed collection read the
counters are delivered or queued. -/
theorem revocation_keeps_bytes (bufferCap : Nat) (counters : Counters) (authorized : AddrSet)
    (es : List GateEvent) (g : Gate)
    (reached : run (gateStep bufferCap) (.initial counters authorized) es = some g)
    (spared : Meets (gateStep bufferCap) (SparesOwed bufferCap) (.initial counters authorized) es)
    (rt : Runtime) (isRt : rt = g.world.disk ∨ rt = g.world.mem) (k : AcctKey) :
    attributed k g.world.ingested +
          attributed k (rt.bufferedUsage.filter fun r => decide (r ∉ g.world.ingested)) +
          growth (rt.baselines.get k) (g.world.kernel.counters.get k) =
        g.world.kernel.counted k ∧
      g.collected k ≤ attributed k g.world.ingested +
          attributed k (rt.bufferedUsage.filter fun r => decide (r ∉ g.world.ingested)) := by
  have kept : Kept g := spared.run_invariant kept_step (kept_initial counters authorized) reached
  have distinct : g.world.ingested.Nodup := List.Nodup.of_map _ kept.metered.distinct
  obtain ⟨made, sound, exact, collected⟩ := kept.runtime isRt
  rw [← sound.bill distinct k]
  exact ⟨exact k, collected k⟩

instance (bufferCap : Nat) (g : Gate) : (e : GateEvent) → Decidable (SparesOwed bufferCap g e)
  | .traffic k n => inferInstanceAs (Decidable (∀ rt ∈ [g.world.mem, g.world.disk],
      g.world.kernel.counters.get k < rt.baselines.get k →
        g.world.kernel.counters.get k + n < rt.baselines.get k))
  | .delete => inferInstanceAs (Decidable (∀ k ∈ g.revoking.keys,
      g.world.kernel.counters.get k = g.world.mem.baselines.get k ∨
        g.world.kernel.counters.get k = 0))
  | .usage (.collect ..) =>
      inferInstanceAs (Decidable (g.world.mem.bufferedUsage.length < bufferCap))
  | .usage (.count ..) | .usage (.reset _) | .usage (.delete _) | .usage .readAcct
  | .usage .persist | .usage .post | .usage (.deliver _) | .usage .giveUp | .usage .ack
  | .usage .acknowledge | .usage .crash | .usage .recover
  | .sync .. | .list _ | .remove | .pick | .abort => inferInstanceAs (Decidable True)

/-- A report of the customer's traffic, up to the answer of the backend. -/
def reportTraffic (reportId : String) (i : Nat) : List GateEvent :=
  [.usage .readAcct, .usage (.collect .id (fun _ => some "web") reportId "boot-1" ""),
    .usage .persist, .usage .post, .usage (.deliver i), .usage .ack]

/-- The customer is revoked, and the next collection completes. -/
def revokeCustomer (reportId : String) : List GateEvent :=
  [.list [firstAddr], .remove, .pick, .delete, .usage .acknowledge, .usage .persist,
    .usage .readAcct, .usage (.collect .id (fun _ => some "web") reportId "boot-1" ""),
    .usage .persist]

/-- A customer who is quiet when they are revoked, and comes back later. -/
def quietRevocation : List GateEvent :=
  [.traffic webTraffic 100] ++ reportTraffic "report-1" 0 ++ revokeCustomer "report-2" ++
    [.sync [firstAddr] [], .traffic webTraffic 30] ++ reportTraffic "report-3" 1

theorem revocation_keeps_bytes_quiet :
    ∃ g, run (gateStep 2880) (.initial ∅ (desiredSet [⟨firstAddr, 1⟩])) quietRevocation = some g ∧
      g.collected webTraffic = 130 ∧
      g.collected webTraffic ≤ attributed webTraffic g.world.ingested +
        attributed webTraffic
          (g.world.disk.bufferedUsage.filter fun r => decide (r ∉ g.world.ingested)) := by
  refine ⟨_, rfl, by decide +kernel, ?_⟩
  exact (revocation_keeps_bytes 2880 ∅ (desiredSet [⟨firstAddr, 1⟩]) quietRevocation _ rfl
    (meets_of_checks (by decide +kernel)) _ (.inl rfl) webTraffic).2

/-- **Revocation discards bytes.**  Twenty bytes are counted after the reading and before the
customer, still authorized, is revoked.  The counter is deleted, and the collection that
completes next has nothing to report. -/
theorem revocation_discards_bytes :
    ∃ g, run (gateStep 2880) (.initial ∅ (desiredSet [⟨firstAddr, 1⟩]))
        ([.traffic webTraffic 100] ++ reportTraffic "report-1" 0 ++ [.traffic webTraffic 20] ++
          revokeCustomer "report-2") = some g ∧
      g.collected webTraffic = 120 ∧ attributed webTraffic g.world.ingested = 100 ∧
      g.world.mem.bufferedUsage = [] ∧ g.world.disk.bufferedUsage = [] := by
  exact ⟨_, rfl, by decide +kernel, by decide +kernel, by decide +kernel, by decide +kernel⟩

end FipsExitGate.Agent
