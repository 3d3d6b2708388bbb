import FipsExitGate.Agent.Metering
import FipsExitGate.Store.Ops
import Mathlib.Data.List.Sort

/-!
# Traffic is charged to its service

A counter element names a port; the report that is made of it names a service.  The map
from ports to services is the agent's `services` field: it is empty when the agent starts
and is replaced by `applyConfig` after each heartbeat that the backend answers.  A port
that the map does not have is labelled `unknown:<port>`, and `IngestUsage` records a
sample under such a label without drawing anything from the account.

The machine of this module is the one of `Agent.Metering` with the map added: a
`Node` runs the usage loop of a `World`, and its collections use the map as it was when
`collectAndBuffer` took it.

## The argument

Nothing but a heartbeat makes the map, and nothing but a restart empties it.  So the map
of a node that has heard from the backend since it started is that of the catalog
(`Charged.served`), the map a collection has taken is if it was taken then
(`Charged.taken`), and the samples of its report carry the keys of the catalog
(`computeDelta_labels`).

## Main results

* `catalogued_samples_charged` — if every collection takes its map after an answered
  heartbeat, every sample on a catalogued port carries the service's key, for which
  `IngestUsage` draws the weighted bytes from the account
* `unheard_collection_is_free` — a collection before the first answer is not charged
-/

namespace FipsExitGate.Agent

open Machine Program

/-- The field `services`: a map from ports to service keys. -/
abbrev ServiceMap := BitVec 16 → Option String

/-- `serviceInfo`. -/
structure ServiceInfo where
  key : String
  port : BitVec 16
  deriving DecidableEq, Repr

/-- `m[s.Port] = s.Key`. -/
def ServiceMap.set (m : ServiceMap) (info : ServiceInfo) : ServiceMap :=
  Function.update m info.port (some info.key)

/-- `applyConfig`, as far as it concerns the services: an empty list changes nothing. -/
def applyConfig (services : ServiceMap) (infos : List ServiceInfo) : ServiceMap :=
  if infos = [] then services else infos.foldl ServiceMap.set fun _ => none

/-! ## The catalog -/

/-- A catalog of enabled services with positive rates; keys and ports are unique columns. -/
structure Catalog where
  services : List Service
  enabled : ∀ svc ∈ services, svc.enabled = true
  positive : ∀ svc ∈ services, 0 < svc.ratePpm
  keys : (services.map (·.key)).Nodup
  ports : (services.map (·.port)).Nodup

/-- What the backend's answer to a heartbeat lists: `WHERE enabled ORDER BY port`. -/
def Catalog.infos (catalog : Catalog) : List ServiceInfo :=
  ((catalog.services.filter fun svc => svc.enabled).insertionSort
    fun a b => a.port.toNat ≤ b.port.toNat).map fun svc => ⟨svc.key, svc.port⟩

/-- The map has the catalog's key for every port of the catalog. -/
def Catalog.Serves (catalog : Catalog) (services : ServiceMap) : Prop :=
  ∀ svc ∈ catalog.services, services svc.port = some svc.key

theorem foldl_set_of_notMem {infos : List ServiceInfo} {port : BitVec 16}
    (absent : port ∉ infos.map (·.port)) (m : ServiceMap) :
    infos.foldl ServiceMap.set m port = m port := by
  induction infos generalizing m with
  | nil => rfl
  | cons info infos ih =>
      rw [List.map_cons, List.mem_cons, not_or] at absent
      rw [List.foldl_cons, ih absent.2, ServiceMap.set, Function.update_of_ne absent.1]

theorem foldl_set_of_mem {infos : List ServiceInfo} (ports : (infos.map (·.port)).Nodup)
    {info : ServiceInfo} (member : info ∈ infos) (m : ServiceMap) :
    infos.foldl ServiceMap.set m info.port = some info.key := by
  induction infos generalizing m with
  | nil => cases member
  | cons first infos ih =>
      rw [List.map_cons, List.nodup_cons] at ports
      rw [List.foldl_cons]
      rcases List.mem_cons.mp member with rfl | later
      · rw [foldl_set_of_notMem ports.1, ServiceMap.set, Function.update_self]
      · exact ih ports.2 later _

theorem Catalog.perm_infos (catalog : Catalog) :
    catalog.infos.Perm (catalog.services.map fun svc => ⟨svc.key, svc.port⟩) := by
  have all : (catalog.services.filter fun svc => svc.enabled) = catalog.services :=
    List.filter_eq_self.mpr catalog.enabled
  rw [Catalog.infos, all]
  exact (List.perm_insertionSort _ _).map _

/-- **An answered heartbeat makes the catalog's map.** -/
theorem Catalog.serves_applyConfig (catalog : Catalog) (services : ServiceMap) :
    catalog.Serves (applyConfig services catalog.infos) := by
  intro svc member
  have listed : (⟨svc.key, svc.port⟩ : ServiceInfo) ∈ catalog.infos :=
    catalog.perm_infos.mem_iff.mpr (List.mem_map_of_mem member)
  have ports : (catalog.infos.map (·.port)).Nodup := by
    rw [(catalog.perm_infos.map _).nodup_iff, List.map_map]
    exact catalog.ports
  rw [applyConfig, if_neg (List.ne_nil_of_mem listed)]
  exact foldl_set_of_mem ports listed _

/-! ## Labels -/

/-- A sample is labelled with the key of its port, or as unknown. -/
theorem computeDelta_labels (prev : Counters) (cur : List Reading) (services : ServiceMap) :
    ∀ smp ∈ (computeDelta prev cur services).1,
      smp.service = (services smp.key.port).getD ("unknown:" ++ toString smp.key.port.toNat) ∧
        smp.addr = smp.key.addr := by
  induction cur using List.reverseRecOn with
  | nil => simp [computeDelta]
  | append_singleton cur entry ih =>
      intro smp member
      rw [computeDelta_concat, deltaEntry] at member
      dsimp only at member
      generalize (if prev.get entry.1 ≤ entry.2 then _ else _) = delta at member
      split at member
      · exact ih smp member
      · rcases List.mem_append.mp member with before | isNew
        · exact ih smp before
        · cases List.mem_singleton.mp isNew
          exact ⟨rfl, rfl⟩

/-- The samples of a report are those of its collection. -/
theorem collect_report {bufferCap : Nat} {cur : List Reading} {services : ServiceMap}
    {reportId epoch windowEnd : String} {rt : Runtime} {r : UsageReport}
    (queued : r ∈ (collect bufferCap cur services reportId epoch windowEnd rt).report) :
    r.samples = (computeDelta rt.baselines cur services).1 := by
  unfold collect at queued
  dsimp only at queued
  split at queued
  · cases queued
  split at queued
  · cases queued
  split at queued <;> cases queued <;> rfl

/-! ## The machine -/

/-- An exit node: the usage loop, and the map it labels samples with. -/
structure Node where
  world : World
  services : ServiceMap
  /-- The map a collection under way has taken. -/
  taken : Option ServiceMap
  /-- Ghost: a heartbeat was answered since the agent started. -/
  heard : Bool
  /-- Ghost: the reports that collections have queued. -/
  enqueued : List UsageReport

/-- The node as the agent first starts. -/
def Node.initial (counters : Counters) : Node :=
  ⟨.initial counters, fun _ => none, none, false, []⟩

inductive NodeEvent where
  /-- An event of the usage loop, of the kernel or of the network; `crash` and `recover` are
  the restarts. -/
  | loop (e : Event)
  /-- `collectAndBuffer` takes the map, under the lock. -/
  | takeServices
  /-- `collectAndBuffer` changes the runtime, with the map it has taken. -/
  | collect (order : MapOrder Reading) (reportId epoch windowEnd : String)
  /-- A heartbeat; it fails unless it is answered. -/
  | heartbeat (answered : Bool)

/-- The report that a collection has just made. -/
def World.made (w : World) : List UsageReport :=
  match w.phase with
  | .writing report => report.toList
  | _ => []

/-- One event of a node whose backend has the given catalog. -/
def nodeStep (catalog : Catalog) (bufferCap : Nat) (n : Node) : NodeEvent → Option Node
  -- a collection is an event of its own
  | .loop (.collect ..) => none
  | .loop .crash => (step bufferCap n.world .crash).map fun w =>
      { n with world := w, services := fun _ => none, taken := none, heard := false }
  | .loop .recover => (step bufferCap n.world .recover).map fun w =>
      { n with world := w, services := fun _ => none, taken := none, heard := false }
  | .loop .giveUp => (step bufferCap n.world .giveUp).map fun w =>
      { n with world := w, taken := none }
  | .loop e => (step bufferCap n.world e).map fun w => { n with world := w }
  | .takeServices =>
      match n.world.phase with
      | .read _ => some { n with taken := some n.services }
      | _ => none
  | .collect order reportId epoch windowEnd =>
      match n.taken with
      | none => none
      | some services =>
          (step bufferCap n.world (.collect order services reportId epoch windowEnd)).map fun w =>
            { n with world := w, taken := none, enqueued := n.enqueued ++ w.made }
  | .heartbeat true =>
      some { n with services := applyConfig n.services catalog.infos, heard := true }
  | .heartbeat false => some n

/-- The reports of a collection have the samples it has computed. -/
theorem collect_made {bufferCap : Nat} {w w' : World} {order : MapOrder Reading}
    {services : ServiceMap} {reportId epoch windowEnd : String}
    (collected : step bufferCap w (.collect order services reportId epoch windowEnd) = some w') :
    ∀ r ∈ w'.made, ∃ prev cur, r.samples = (computeDelta prev cur services).1 := by
  intro r made
  rw [step] at collected
  split at collected
  · split at collected
    · cases collected
    · cases collected
      exact ⟨_, _, collect_report (Option.mem_toList.mp made)⟩
  · cases collected

/-- **What an event can do to the map and the reports.** -/
theorem nodeStep_cases {catalog : Catalog} {bufferCap : Nat} {n n' : Node} {e : NodeEvent}
    (stepped : nodeStep catalog bufferCap n e = some n') :
    (∃ w, n' = { n with world := w } ∨ n' = { n with world := w, taken := none }) ∨
    (∃ w, n' = { n with world := w, services := fun _ => none, taken := none, heard := false }) ∨
    (e = .takeServices ∧ n' = { n with taken := some n.services }) ∨
    (∃ services w, n.taken = some services ∧
      (∀ r ∈ w.made, ∃ prev cur, r.samples = (computeDelta prev cur services).1) ∧
      n' = { n with world := w, taken := none, enqueued := n.enqueued ++ w.made }) ∨
    n' = { n with services := applyConfig n.services catalog.infos, heard := true } := by
  cases e with
  | loop e =>
      have plain (h : (step bufferCap n.world e).map (fun w => { n with world := w }) = some n') :
          ∃ w, n' = { n with world := w } ∨ n' = { n with world := w, taken := none } := by
        obtain ⟨w, -, rfl⟩ := Option.map_eq_some_iff.mp h
        exact ⟨w, .inl rfl⟩
      cases e with
      | collect => cases stepped
      | crash =>
          cases stepped
          exact .inr (.inl ⟨_, rfl⟩)
      | recover =>
          cases stepped
          exact .inr (.inl ⟨_, rfl⟩)
      | giveUp =>
          obtain ⟨w, -, rfl⟩ := Option.map_eq_some_iff.mp stepped
          exact .inl ⟨w, .inr rfl⟩
      | _ => exact .inl (plain stepped)
  | takeServices =>
      rw [nodeStep] at stepped
      split at stepped
      · cases stepped
        exact .inr (.inr (.inl ⟨rfl, rfl⟩))
      · cases stepped
  | collect order reportId epoch windowEnd =>
      rw [nodeStep] at stepped
      cases hasTaken : n.taken with
      | none => simp [hasTaken] at stepped
      | some services =>
          rw [hasTaken] at stepped
          obtain ⟨w, collected, rfl⟩ := Option.map_eq_some_iff.mp stepped
          refine .inr (.inr (.inr (.inl ⟨services, w, rfl, fun r made => ?_, rfl⟩)))
          exact collect_made collected r made
  | heartbeat answered =>
      cases answered with
      | true =>
          cases stepped
          exact .inr (.inr (.inr (.inr rfl)))
      | false =>
          cases stepped
          exact .inl ⟨n.world, .inl rfl⟩

/-! ## The map of a node that has heard from the backend -/

/-- The sample names the catalog's service for its port. -/
def Catalog.Labels (catalog : Catalog) (smp : UsageSample) : Prop :=
  smp.addr = smp.key.addr ∧
    ∀ svc ∈ catalog.services, svc.port = smp.key.port → smp.service = svc.key

theorem Catalog.labels_computeDelta {catalog : Catalog} {services : ServiceMap}
    (serves : catalog.Serves services) (prev : Counters) (cur : List Reading) :
    ∀ smp ∈ (computeDelta prev cur services).1, catalog.Labels smp := by
  intro smp member
  obtain ⟨label, addr⟩ := computeDelta_labels prev cur services smp member
  refine ⟨addr, fun svc catalogued port => ?_⟩
  rw [label, ← port, serves svc catalogued, Option.getD_some]

/-- **The invariant**: the maps are those of the catalog, and so are the labels. -/
structure Charged (catalog : Catalog) (n : Node) : Prop where
  served : n.heard = true → catalog.Serves n.services
  taken : ∀ services ∈ n.taken, catalog.Serves services
  labelled : ∀ r ∈ n.enqueued, ∀ smp ∈ r.samples, catalog.Labels smp

/-- A collection takes the map only after a heartbeat was answered since the start. -/
def HeardFirst (n : Node) (e : NodeEvent) : Prop :=
  e = .takeServices → n.heard = true

instance (n : Node) (e : NodeEvent) : Decidable (HeardFirst n e) :=
  match e with
  | .takeServices => decidable_of_iff (n.heard = true) ⟨fun h _ => h, fun h => h rfl⟩
  | .loop _ | .collect .. | .heartbeat _ => isTrue nofun

theorem charged_step {catalog : Catalog} {bufferCap : Nat} {n n' : Node} {e : NodeEvent}
    (charged : Charged catalog n) (heard : HeardFirst n e)
    (stepped : nodeStep catalog bufferCap n e = some n') : Charged catalog n' := by
  rcases nodeStep_cases stepped with ⟨w, rfl | rfl⟩ | ⟨w, rfl⟩ | ⟨isTake, rfl⟩ |
    ⟨services, w, hasTaken, made, rfl⟩ | rfl
  · exact ⟨charged.served, charged.taken, charged.labelled⟩
  · exact ⟨charged.served, by simp, charged.labelled⟩
  · exact ⟨by simp, by simp, charged.labelled⟩
  · refine ⟨charged.served, ?_, charged.labelled⟩
    rintro services ⟨⟩
    exact charged.served (heard isTake)
  · refine ⟨charged.served, by simp, fun r member => ?_⟩
    rcases List.mem_append.mp member with before | isNew
    · exact charged.labelled r before
    · obtain ⟨prev, cur, samples⟩ := made r isNew
      rw [samples]
      exact catalog.labels_computeDelta (charged.taken services hasTaken) prev cur
  · exact ⟨fun _ => catalog.serves_applyConfig _, charged.taken, charged.labelled⟩

/-! ## What the backend draws -/

/-- The sample as the usage handler passes it on. -/
def UsageSample.input (smp : UsageSample) : SampleInput :=
  ⟨smp.service, some smp.addr, BitVec.ofNat 64 smp.bytes⟩

/-- The catalog's service of a key. -/
theorem Catalog.find?_key (catalog : Catalog) {svc : Service} (member : svc ∈ catalog.services) :
    catalog.services.find? (fun s => s.enabled && decide (s.key = svc.key)) = some svc := by
  refine Table.find?_eq_of_unique member (by simp [catalog.enabled svc member]) fun s isIn hit => ?_
  simp only [Bool.and_eq_true, decide_eq_true_eq] at hit
  exact Table.eq_of_key_eq catalog.keys isIn member hit.2

/-- **A sample under a service's key is recorded for the service and drawn from the
account**, at the service's rate. -/
theorem exec_recordSample_of_key (catalog : Catalog) {svc : Service}
    (member : svc ∈ catalog.services) {smp : UsageSample} (label : smp.service = svc.key)
    {db : Db} {now : Time} {acct : AccountId} (resolved : db.resolveAccount now smp.addr = some acct)
    (reportId : String) :
    exec (recordSample catalog.services reportId now smp.input) db =
      exec (consumeVolume now acct (weightedBytes smp.input.clamped svc.ratePpm))
        { db with
          samples := db.samples ++
            [⟨reportId, some svc.id, smp.addr, some acct, smp.input.clamped⟩] } := by
  unfold recordSample
  simp only [UsageSample.input, label, exec_get_bind, resolved, catalog.find?_key member]
  rw [exec_bind_ok (exec_modify _ db), if_pos (catalog.positive svc member)]
  rfl

/-- **Catalogued traffic is charged if the agent has heard from the backend.**  In every
run in which each collection takes the map after a heartbeat was answered since the last
start, every sample that was ever queued for a catalogued port carries the key of the
port's service; for a sample so labelled `IngestUsage` draws its bytes, weighted by the
service's rate, from the account its address belongs to. -/
theorem catalogued_samples_charged (catalog : Catalog) (bufferCap : Nat) (counters : Counters)
    (es : List NodeEvent) {n : Node}
    (reached : run (nodeStep catalog bufferCap) (.initial counters) es = some n)
    (heard : Meets (nodeStep catalog bufferCap) HeardFirst (.initial counters) es) :
    ∀ r ∈ n.enqueued, ∀ smp ∈ r.samples, ∀ svc ∈ catalog.services, svc.port = smp.key.port →
      smp.service = svc.key ∧ smp.addr = smp.key.addr ∧
      ∀ db now acct reportId, db.resolveAccount now smp.addr = some acct →
        exec (recordSample catalog.services reportId now smp.input) db =
          exec (consumeVolume now acct (weightedBytes smp.input.clamped svc.ratePpm))
            { db with
              samples := db.samples ++
                [⟨reportId, some svc.id, smp.addr, some acct, smp.input.clamped⟩] } := by
  have initial : Charged catalog (.initial counters) := ⟨by simp [Node.initial], by simp [Node.initial],
    by simp [Node.initial]⟩
  have charged : Charged catalog n :=
    heard.run_invariant (fun _ _ _ charged heard stepped => charged_step charged heard stepped)
      initial reached
  intro r queued smp member svc catalogued port
  obtain ⟨addr, label⟩ := charged.labelled r queued smp member
  have isKey := label svc catalogued port
  refine ⟨isKey, addr, fun db now acct reportId resolved => ?_⟩
  exact exec_recordSample_of_key catalog catalogued isKey resolved reportId

/-! ## A collection before the first answer -/

/-- The catalog of `SeedDefaults`. -/
def seededCatalog : Catalog where
  services := [⟨1, "clearnet", "Connectivity", 1080, 1000000, true⟩]
  enabled := by decide
  positive := by decide
  keys := by decide
  ports := by decide

/-- The traffic of one customer on the connectivity port. -/
def proxyTraffic : AcctKey := ⟨firstAddr, 1080⟩

/-- The first heartbeat is answered before the first collection. -/
def heardCollection : List NodeEvent :=
  [.heartbeat true, .loop (.count proxyTraffic 5000), .loop .readAcct, .takeServices,
    .collect .id "report-1" "boot-1" "", .loop .persist]

theorem catalogued_samples_charged_heard :
    ∃ n, run (nodeStep seededCatalog 2880) (.initial ∅) heardCollection = some n ∧
      (∃ r ∈ n.enqueued, ∃ smp ∈ r.samples, smp.bytes = 5000 ∧ smp.service = "clearnet") := by
  have heard : Meets (nodeStep seededCatalog 2880) HeardFirst (.initial ∅) heardCollection :=
    meets_of_checks rfl
  refine ⟨_, rfl, _, List.mem_cons_self, _, List.mem_cons_self, rfl, ?_⟩
  exact (catalogued_samples_charged seededCatalog 2880 ∅ heardCollection rfl heard _
    List.mem_cons_self _ List.mem_cons_self _ List.mem_cons_self rfl).1

/-- The agent starts while the backend does not answer; it collects before the first
heartbeat that is answered. -/
def unheardCollection : List NodeEvent :=
  [.heartbeat false, .loop (.count proxyTraffic 5000), .loop .readAcct, .takeServices,
    .collect .id "report-1" "boot-1" "", .loop .persist, .heartbeat true]

/-- The backend of the customer: the seeded catalog, and ten gigabytes of credit. -/
def creditedCalls : List Call :=
  [⟨calm 1, .createService "clearnet" "Connectivity" 1080 1000000 true⟩,
    ⟨calm 2, .creditVolume firstNpub (10 * 2 ^ 30) 30⟩]

/-- **A collection before the first answered heartbeat is free.**  Its sample is labelled
as unknown; ingested later, it is recorded for the customer's account without a service,
and nothing is drawn. -/
theorem unheard_collection_is_free :
    ∃ n, run (nodeStep seededCatalog 2880) (.initial ∅) unheardCollection = some n ∧
      n.enqueued.flatMap (·.samples) = [⟨"unknown:1080", firstAddr, 5000, proxyTraffic⟩] ∧
      ∀ db, db = plainStore.after (creditedCalls ++
        [⟨calm 3, .ingestUsage "node" ⟨"report-1", "boot-1", 0,
          (n.enqueued.flatMap (·.samples)).map UsageSample.input⟩⟩]) →
        db.services = seededCatalog.services ∧
          db.samples.map (fun smp => (smp.serviceId, smp.accountId, smp.bytes)) =
            [(none, some 2, 5000)] ∧
          db.entitlements.map (·.volumeUsed) = [0] := by
  have labelled : (run (nodeStep seededCatalog 2880) (.initial ∅) unheardCollection).map
      (fun n => n.enqueued.flatMap (·.samples)) =
        some [⟨"unknown:1080", firstAddr, 5000, proxyTraffic⟩] := by
    decide +kernel
  obtain ⟨n, reached, samples⟩ := Option.map_eq_some_iff.mp labelled
  refine ⟨n, reached, samples, ?_⟩
  rw [samples]
  rintro db rfl
  decide +kernel

end FipsExitGate.Agent
