import FipsExitGate.Agent.StateFile

/-!
# Failed writes

Every loop of the agent changes the runtime through `withRuntime`, which changes it in memory
and then writes it to `runtime.json`.  When the write fails the file is as it was, and the
change in memory stays.  The loops go on from there: after a collection that was not written,
`flushBuffer` posts the report all the same, and a restart before the next write that succeeds
collects its bytes once more, for a second report.

## The argument

A failed write does no harm exactly if there was nothing to write: `sameBooks_apply_iff` says
when a change leaves the cursor, the baselines, the flag and the queue as they are.  A run all
of whose failed writes are of that kind is a run of the machine of `Agent.Metering`, in which a
write never fails.  The two do not have the same runtimes, since a map that was built anew may
list its keys in another order, but runtimes with the same books (`Runtime.Alike`).

## Design notes

* `withRuntime` holds the lock from the change to the end of the write, so no other loop sees
  the runtime in between, and a crash in between is one before it or after it.
* Of `applyAuthz` and `markAuthzOK` only the change of the runtime is here.

## Main results

* `sameBooks_apply_iff` — a failed write changes nothing exactly if the change is idle
* `Host.Follows` and `follows_step` — the simulation
* `failed_write_harmless_iff` — both of these, for every state and every run
* `failed_write_bills_twice` — a full disk, a delivery and a restart
-/

namespace FipsExitGate.Agent

open AtomicFile Machine

/-! ## `withRuntime` -/

/-- The calls of `writeJSONAtomic` whose error it returns. -/
inductive WriteStep where
  | marshal
  | openFile
  | write
  | sync
  | close
  | rename
  deriving DecidableEq, Repr

/-- The steps that are done when this one fails. -/
def WriteStep.done : WriteStep → Nat
  | .marshal | .openFile => 0
  | .write => 1
  | .sync => 2
  | .close => 3
  | .rename => 4

/-- A write that fails, and what it leaves in the temporary file. -/
structure WriteFault where
  step : WriteStep
  tmp : Option Content

/-- The directory after a failed write. -/
def WriteFault.leave (fault : WriteFault) (d : Dir Content) (rt : NodeRuntime) : Dir Content :=
  { AtomicFile.run d ((writeJSONAtomic rt).take fault.step.done) with tmp := fault.tmp }

/-- The functions that are passed to `withRuntime`. -/
inductive Mutation where
  | applyAuthz (rev : Int)
  | collectAndBuffer (bufferCap : Nat) (cur : Counters) (order : MapOrder Reading)
      (services : BitVec 16 → Option String) (reportId epoch windowEnd : String)
  | flushBuffer (reportId : String)
  | markAuthzOK (now : Time)

def Mutation.apply : Mutation → NodeRuntime → NodeRuntime
  | .applyAuthz rev, rt => { rt with authzRev := rev }
  | .collectAndBuffer bufferCap cur order services reportId epoch windowEnd, rt =>
      { rt with
        toRuntime := (collect bufferCap (order.reorder cur.entries) services reportId epoch
          windowEnd rt.toRuntime).rt }
  | .flushBuffer reportId, rt => { rt with toRuntime := acknowledge reportId rt.toRuntime }
  | .markAuthzOK now, rt => { rt with lastAuthzOK := now }

/-- `store`. -/
structure StateStore where
  rt : NodeRuntime
  dir : Dir Content

/-- `withRuntime`, with the fault of its write if there is one. -/
def withRuntime (m : Mutation) (fault : Option WriteFault) (s : StateStore) :
    Except WriteFault Unit × StateStore :=
  let rt := m.apply s.rt
  match fault with
  | none => (.ok (), ⟨rt, AtomicFile.run s.dir (writeJSONAtomic rt)⟩)
  | some fault => (.error fault, ⟨rt, fault.leave s.dir rt⟩)

/-- The runtime a restart would begin with: that of the last write that succeeded. -/
def StateStore.persisted (s : StateStore) : NodeRuntime :=
  (load s.dir).rt

theorem load_congr {d d' : Dir Content} (file : d'.file = d.file) : (load d').rt = (load d).rt := by
  unfold load
  rw [file]

/-- **A write that succeeds is what a restart finds.** -/
theorem persisted_withRuntime_none (m : Mutation) (s : StateStore) :
    (withRuntime m none s).2.persisted = m.apply s.rt := by
  have written := file_run_replace s.dir .unparsable (.runtime (m.apply s.rt))
  show (load (AtomicFile.run s.dir (writeJSONAtomic (m.apply s.rt)))).rt = _
  rw [load, writeJSONAtomic, written]

/-- **One that fails leaves the file as it was.** -/
theorem persisted_withRuntime_some (m : Mutation) (fault : WriteFault) (s : StateStore) :
    (withRuntime m (some fault) s).2.persisted = s.persisted := by
  refine load_congr ?_
  show (AtomicFile.run s.dir ((writeJSONAtomic _).take fault.step.done)).file = s.dir.file
  rw [writeJSONAtomic, file_run_take_replace]
  have early : fault.step.done < 5 := by cases fault.step <;> decide
  rw [if_pos early]

/-! ## The books -/

/-- Runtimes from which the usage loop goes on alike. -/
structure Runtime.Alike (a b : Runtime) : Prop where
  baselines : ∀ k, a.baselines.lookup k = b.baselines.lookup k
  primed : a.primeBaselines = b.primeBaselines
  queue : a.bufferedUsage = b.bufferedUsage

/-- The same cursor, baselines, flag and queue. -/
structure SameBooks (a b : NodeRuntime) : Prop where
  cursor : a.authzRev = b.authzRev
  usage : a.toRuntime.Alike b.toRuntime

/-- The runtime in memory has the books of the file. -/
def StateStore.InSync (s : StateStore) : Prop :=
  SameBooks s.rt s.persisted

/-- **Nothing to write**: the cursor stands there already, the counters read what the baselines
say, or the queue begins with another report. -/
def Mutation.Idle : Mutation → NodeRuntime → Prop
  | .applyAuthz rev, rt => rev = rt.authzRev
  | .collectAndBuffer _ cur _ _ _ _ _, rt =>
      rt.primeBaselines = false ∧ ∀ k, cur.lookup k = rt.baselines.lookup k
  | .flushBuffer reportId, rt => ∀ r ∈ rt.bufferedUsage.head?, r.reportId ≠ reportId
  | .markAuthzOK _, _ => True

theorem Runtime.Alike.refl (a : Runtime) : a.Alike a := ⟨fun _ => rfl, rfl, rfl⟩

theorem Runtime.Alike.symm {a b : Runtime} (h : a.Alike b) : b.Alike a :=
  ⟨fun k => (h.baselines k).symm, h.primed.symm, h.queue.symm⟩

theorem Runtime.Alike.trans {a b c : Runtime} (h : a.Alike b) (h' : b.Alike c) : a.Alike c :=
  ⟨fun k => (h.baselines k).trans (h'.baselines k), h.primed.trans h'.primed,
    h.queue.trans h'.queue⟩

theorem SameBooks.refl (a : NodeRuntime) : SameBooks a a := ⟨rfl, .refl _⟩

theorem SameBooks.trans {a b c : NodeRuntime} (h : SameBooks a b) (h' : SameBooks b c) :
    SameBooks a c :=
  ⟨h.cursor.trans h'.cursor, h.usage.trans h'.usage⟩

theorem SameBooks.symm {a b : NodeRuntime} (h : SameBooks a b) : SameBooks b a :=
  ⟨h.cursor.symm, h.usage.symm⟩

/-- Counters that read what the baselines say give no samples. -/
theorem computeDelta_still {prev : Counters} {cur : List Reading}
    (services : BitVec 16 → Option String) (still : ∀ entry ∈ cur, prev.get entry.1 = entry.2) :
    (computeDelta prev cur services).1 = [] := by
  induction cur using List.reverseRecOn with
  | nil => rfl
  | append_singleton cur entry ih =>
      have before := ih fun entry member => still entry (List.mem_append_left _ member)
      rw [computeDelta_concat, deltaEntry, still entry (by simp)]
      simp [before]

section Collect

variable (bufferCap : Nat) (cur : Counters) (order : MapOrder Reading)
  (services : BitVec 16 → Option String) (reportId epoch windowEnd : String) (rt : Runtime)

theorem collect_baselines (readings : List Reading) :
    (collect bufferCap readings services reportId epoch windowEnd rt).rt.baselines =
      (computeDelta rt.baselines readings services).2 := by
  unfold collect
  dsimp only
  split
  · rfl
  split
  · rfl
  split <;> rfl

/-- **A collection is idle exactly if there is nothing to collect.** -/
theorem collect_alike_iff :
    (collect bufferCap (order.reorder cur.entries) services reportId epoch windowEnd rt).rt.Alike
        rt ↔
      rt.primeBaselines = false ∧ ∀ k, cur.lookup k = rt.baselines.lookup k := by
  have nodup := nodupKeys_reorder order cur
  have collects := collects_collect nodup bufferCap services reportId epoch windowEnd rt
  have recorded (k : AcctKey) :
      (collect bufferCap (order.reorder cur.entries) services reportId epoch windowEnd
        rt).rt.baselines.lookup k = cur.lookup k := by
    rw [collect_baselines, lookup_computeDelta _ _ nodup, dlookup_reorder]
  constructor
  · intro alike
    exact ⟨alike.primed.symm.trans collects.primed,
      fun k => (recorded k).symm.trans (alike.baselines k)⟩
  · rintro ⟨unprimed, still⟩
    refine ⟨fun k => (recorded k).trans (still k), collects.primed.trans unprimed.symm, ?_⟩
    have quiet : (computeDelta rt.baselines (order.reorder cur.entries) services).1 = [] := by
      refine computeDelta_still services fun ⟨k, n⟩ member => ?_
      have found : cur.lookup k = some n := AList.mem_lookup_iff.mpr (order.mem_reorder.mp member)
      rw [Counters.get, ← still k, found]
      rfl
    simp [collect, unprimed, quiet]

/-- What a collection makes of a runtime depends on its books only. -/
theorem collect_congr {a b : Runtime} (alike : a.Alike b) (readings : List Reading) :
    collect bufferCap readings services reportId epoch windowEnd a =
      collect bufferCap readings services reportId epoch windowEnd b := by
  have entry : deltaEntry a.baselines services = deltaEntry b.baselines services := by
    funext acc entry
    have last : a.baselines.get entry.1 = b.baselines.get entry.1 := by
      rw [Counters.get, alike.baselines, Counters.get]
    rw [deltaEntry, last, deltaEntry]
  have delta : computeDelta a.baselines readings services =
      computeDelta b.baselines readings services := by
    rw [computeDelta, entry, computeDelta]
  unfold collect
  rw [delta, alike.primed, alike.queue]

end Collect

theorem acknowledge_congr {a b : Runtime} (alike : a.Alike b) (reportId : String) :
    (acknowledge reportId a).Alike (acknowledge reportId b) := by
  unfold acknowledge
  rw [alike.queue]
  split
  · split
    · exact ⟨alike.baselines, alike.primed, rfl⟩
    · exact alike
  · exact alike

/-- An acknowledgment is idle exactly if the queue begins with another report. -/
theorem acknowledge_alike_iff (reportId : String) (rt : Runtime) :
    (acknowledge reportId rt).Alike rt ↔ ∀ r ∈ rt.bufferedUsage.head?, r.reportId ≠ reportId := by
  unfold acknowledge
  split
  · rename_i oldest rest queue
    rw [queue]
    split
    · rename_i isIt
      refine iff_of_false (fun alike => ?_) (fun other => other oldest rfl isIt)
      exact List.cons_ne_self oldest rest (alike.queue.trans queue).symm
    · rename_i other
      refine iff_of_true (.refl rt) fun r first => ?_
      cases first
      exact other
  · rename_i queue
    refine iff_of_true (.refl rt) fun r first => ?_
    rw [queue] at first
    cases first

/-- **A change leaves the books as they are exactly if it is idle.** -/
theorem sameBooks_apply_iff (m : Mutation) (rt : NodeRuntime) :
    SameBooks (m.apply rt) rt ↔ m.Idle rt := by
  cases m with
  | applyAuthz rev => exact ⟨fun same => same.cursor, fun same => ⟨same, .refl _⟩⟩
  | collectAndBuffer bufferCap cur order services reportId epoch windowEnd =>
      have alike := collect_alike_iff bufferCap cur order services reportId epoch windowEnd
        rt.toRuntime
      exact ⟨fun same => alike.mp same.usage, fun idle => ⟨rfl, alike.mpr idle⟩⟩
  | flushBuffer reportId =>
      have alike := acknowledge_alike_iff reportId rt.toRuntime
      exact ⟨fun same => alike.mp same.usage, fun idle => ⟨rfl, alike.mpr idle⟩⟩
  | markAuthzOK now => exact iff_of_true ⟨rfl, .refl _⟩ trivial

/-- **A failed write**: the file is as it was, and memory keeps to it exactly if the change is
idle. -/
theorem inSync_withRuntime_iff {s : StateStore} (synced : s.InSync) (m : Mutation)
    (fault : WriteFault) : (withRuntime m (some fault) s).2.InSync ↔ m.Idle s.rt := by
  rw [StateStore.InSync, persisted_withRuntime_some, ← sameBooks_apply_iff]
  exact ⟨fun same => same.trans (SameBooks.symm synced), fun same => same.trans synced⟩

theorem inSync_withRuntime_none (m : Mutation) (s : StateStore) :
    (withRuntime m none s).2.InSync := by
  rw [StateStore.InSync, persisted_withRuntime_none]
  exact .refl _

/-! ## The machine -/

/-- An exit and its agent. -/
structure Host where
  kernel : Kernel
  store : StateStore
  phase : Phase
  inFlight : List UsageReport
  ingested : List UsageReport
  /-- Ghost: the reports that have been in the file. -/
  written : List UsageReport
  /-- Ghost: the ids `randID` has given. -/
  given : List String

/-- An agent that is started for the first time. -/
def Host.initial (counters : Counters) : Host :=
  ⟨.initial counters, ⟨.fresh, ⟨none, none, []⟩⟩, .idle, [], [], [], []⟩

/-- What the events that leave the runtime alone see of it. -/
def Host.world (h : Host) : World :=
  ⟨h.kernel, h.store.rt.toRuntime, h.store.persisted.toRuntime, h.phase, h.inFlight, h.ingested,
    h.written, false, false⟩

def Host.follow (h : Host) (w : World) : Host :=
  { h with kernel := w.kernel, phase := w.phase, inFlight := w.inFlight, ingested := w.ingested }

/-- The events that leave the runtime alone. -/
def Event.quiet : Event → Bool
  | .collect .. | .persist | .acknowledge | .crash | .recover => false
  | .count .. | .reset _ | .delete _ | .readAcct | .post | .deliver _ | .giveUp | .ack => true

def Host.call (h : Host) (m : Mutation) (fault : Option WriteFault) : Host :=
  let store := (withRuntime m fault h.store).2
  { h with store := store, written := h.written ++ store.persisted.bufferedUsage }

/-- The process dies and starts again. -/
def StateStore.restart (s : StateStore) : StateStore :=
  let loaded := openStore s.dir
  ⟨loaded.rt, AtomicFile.run s.dir loaded.steps⟩

inductive HostEvent where
  /-- The kernel, the network, and the usage loop between its calls of `withRuntime`. -/
  | loop (e : Event)
  | collectAndBuffer (order : MapOrder Reading) (services : BitVec 16 → Option String)
      (reportId epoch windowEnd : String) (fault : Option WriteFault)
  | flushBuffer (fault : Option WriteFault)
  | applyAuthz (rev : Int) (fault : Option WriteFault)
  | markAuthzOK (now : Time) (fault : Option WriteFault)
  | crash
  /-- A crash after which the file does not parse. -/
  | recover

/-- `persistAuthzOKEvery`, a minute. -/
def persistAuthzOKEvery : Int := 60 * 1000000

/-- One event.  Whether the write succeeds or not, the usage loop goes on. -/
def hostStep (bufferCap : Nat) (h : Host) : HostEvent → Option Host
  | .loop e => if e.quiet then (step bufferCap h.world e).map h.follow else none
  | .collectAndBuffer order services reportId epoch windowEnd fault =>
      match h.phase with
      | .read cur =>
          if reportId ∈ h.given then none
          else
            let m := .collectAndBuffer bufferCap cur order services reportId epoch windowEnd
            some { h.call m fault with phase := .idle, given := reportId :: h.given }
      | _ => none
  | .flushBuffer fault =>
      match h.phase with
      | .acked r => some { h.call (.flushBuffer r.reportId) fault with phase := .idle }
      | _ => none
  | .applyAuthz rev fault => some (h.call (.applyAuthz rev) fault)
  | .markAuthzOK now fault =>
      if persistAuthzOKEvery ≤ now - h.store.rt.lastAuthzOK then
        some (h.call (.markAuthzOK now) fault)
      else some h
  | .crash => some { h with store := h.store.restart, phase := .idle }
  | .recover =>
      let corrupt : StateStore := ⟨h.store.rt, { h.store.dir with file := some .unparsable }⟩
      some { h with store := corrupt.restart, phase := .idle }

/-- **The condition**: a write that fails had nothing to write. -/
def IdleFaults (bufferCap : Nat) (h : Host) : HostEvent → Prop
  | .collectAndBuffer order services reportId epoch windowEnd (some _) =>
      ∀ cur, h.phase = .read cur →
        Mutation.Idle (.collectAndBuffer bufferCap cur order services reportId epoch windowEnd)
          h.store.rt
  | .flushBuffer (some _) =>
      ∀ r, h.phase = .acked r → Mutation.Idle (.flushBuffer r.reportId) h.store.rt
  | .applyAuthz rev (some _) => Mutation.Idle (.applyAuthz rev) h.store.rt
  | _ => True

/-! ## The simulation -/

/-- **The simulation**: the world in which writes never fail has the same kernel, loop, network
and backend, and a runtime with the same books, in memory and in the file. -/
structure Host.Follows (h : Host) (w : World) : Prop where
  kernel : w.kernel = h.kernel
  phase : w.phase = h.phase
  inFlight : w.inFlight = h.inFlight
  ingested : w.ingested = h.ingested
  mem : w.mem.Alike h.store.rt.toRuntime
  disk : w.disk = w.mem
  known : ∀ r ∈ w.created, r.reportId ∈ h.given
  synced : h.store.InSync
  kept : ∀ r ∈ h.store.persisted.bufferedUsage, r ∈ h.written
  sent : ∀ r ∈ h.inFlight, r ∈ h.written

theorem follows_initial (counters : Counters) :
    (Host.initial counters).Follows (.initial counters) where
  kernel := rfl
  phase := rfl
  inFlight := rfl
  ingested := rfl
  mem := .refl _
  disk := rfl
  known r member := absurd member (by simp [World.initial])
  synced := .refl _
  kept r member := absurd member (by
    simp [Host.initial, StateStore.persisted, load, NodeRuntime.fresh, Runtime.fresh])
  sent r member := absurd member (by simp [Host.initial])

/-- A restart begins with what was in the file, and has it in the file. -/
theorem restart_eq (s : StateStore) :
    s.restart.rt = s.persisted ∧ s.restart.persisted = s.persisted := by
  unfold StateStore.restart StateStore.persisted openStore
  cases file : s.dir.file with
  | none => simp [load, file]
  | some content =>
      cases content with
      | runtime rt => simp [load, file]
      | unparsable => simp [load, file, writeJSONAtomic, file_run_replace]

section Simulation

variable {bufferCap : Nat} {h h' : Host} {w : World}

/-- The events that leave the runtime alone are the same on both sides. -/
theorem follows_quiet (follows : h.Follows w) {e : Event} (quiet : e.quiet = true) {v : World}
    (taken : step bufferCap h.world e = some v) :
    ∃ w', step bufferCap w e = some w' ∧ (h.follow v).Follows w' := by
  obtain ⟨κ, mem, disk, phase, inFlight, ingested, created, dropped, recovered⟩ := w
  obtain ⟨rfl, rfl, rfl, rfl, alike, same, known, synced, kept, sent⟩ := follows
  have still {κ : Kernel} {phase : Phase} {ingested : List UsageReport} :
      (Host.mk κ h.store phase h.inFlight ingested h.written h.given).Follows
        ⟨κ, mem, disk, phase, h.inFlight, ingested, created, dropped, recovered⟩ :=
    ⟨rfl, rfl, rfl, rfl, alike, same, known, synced, kept, sent⟩
  cases e with
  | count k n =>
      cases taken
      exact ⟨_, rfl, still⟩
  | reset k =>
      cases taken
      exact ⟨_, rfl, still⟩
  | delete k =>
      cases taken
      exact ⟨_, rfl, still⟩
  | readAcct =>
      simp only [step, Host.world] at taken ⊢
      split at taken <;> cases taken
      exact ⟨_, rfl, still⟩
  | post =>
      simp only [step, Host.world] at taken ⊢
      split at taken <;> cases taken
      rename_i r rest isIdle queue
      rw [isIdle, alike.queue.trans queue]
      have inFile : r ∈ h.store.persisted.bufferedUsage := by
        rw [← synced.usage.queue, queue]
        exact List.mem_cons_self
      refine ⟨_, rfl, rfl, rfl, rfl, rfl, alike, same, known, synced, kept, fun r' isSent => ?_⟩
      rcases List.mem_append.mp isSent with isSent | isNew
      · exact sent r' isSent
      · exact kept r' (List.mem_singleton.mp isNew ▸ inFile)
  | deliver i =>
      simp only [step, Host.world] at taken ⊢
      split at taken <;> cases taken
      exact ⟨_, rfl, still⟩
  | giveUp =>
      simp only [step, Host.world] at taken ⊢
      split at taken <;> cases taken
      · exact ⟨_, rfl, still⟩
      · exact ⟨_, rfl, still⟩
  | ack =>
      simp only [step, Host.world] at taken ⊢
      split at taken
      · obtain ⟨answered, taken⟩ := Option.ite_none_right_eq_some.mp taken
        cases taken
        rw [if_pos answered]
        exact ⟨_, rfl, still⟩
      · cases taken
  | collect => cases quiet
  | persist => cases quiet
  | acknowledge => cases quiet
  | crash => cases quiet
  | recover => cases quiet

theorem call_rt (m : Mutation) (fault : Option WriteFault) :
    (h.call m fault).store.rt = m.apply h.store.rt := by
  cases fault <;> rfl

/-- **A call keeps memory and file together** if it does not fail, or is idle. -/
theorem inSync_call (synced : h.store.InSync) {m : Mutation} {fault : Option WriteFault}
    (idle : ∀ f ∈ fault, m.Idle h.store.rt) : (h.call m fault).store.InSync := by
  cases fault with
  | none => exact inSync_withRuntime_none m h.store
  | some f => exact (inSync_withRuntime_iff synced m f).mpr (idle f rfl)

/-- A call is followed by a world whose runtime has the new books. -/
theorem Host.Follows.call (follows : h.Follows w) {m : Mutation} {fault : Option WriteFault}
    (idle : ∀ f ∈ fault, m.Idle h.store.rt) (w' : World)
    (others : w'.kernel = w.kernel ∧ w'.inFlight = w.inFlight ∧ w'.ingested = w.ingested)
    (mem : w'.mem.Alike (m.apply h.store.rt).toRuntime) (disk : w'.disk = w'.mem)
    {phase : Phase} (isAt : w'.phase = phase) {given : List String}
    (known : ∀ r ∈ w'.created, r.reportId ∈ given) :
    Follows { h.call m fault with phase := phase, given := given } w' where
  kernel := others.1.trans follows.kernel
  phase := isAt
  inFlight := others.2.1.trans follows.inFlight
  ingested := others.2.2.trans follows.ingested
  mem := by
    rw [← call_rt m fault] at mem
    exact mem
  disk := disk
  known := known
  synced := inSync_call follows.synced idle
  kept r member := List.mem_append_right _ member
  sent r isSent := List.mem_append_left _ (follows.sent r isSent)

/-- A restart is followed by a world that starts from the same books. -/
theorem Host.Follows.restart (follows : h.Follows w) {s : StateStore} {rt : Runtime}
    (alike : rt.Alike s.persisted.toRuntime)
    (kept : ∀ r ∈ s.persisted.bufferedUsage, r ∈ h.written) {recovered : Bool} :
    Follows { h with store := s.restart, phase := .idle }
      { w with mem := rt, disk := rt, phase := .idle, recovered := recovered } := by
  obtain ⟨begins, stays⟩ := restart_eq s
  refine
    { kernel := follows.kernel
      phase := rfl
      inFlight := follows.inFlight
      ingested := follows.ingested
      mem := ?_
      disk := rfl
      known := follows.known
      synced := ?_
      kept := ?_
      sent := follows.sent }
  · rw [begins]
    exact alike
  · rw [StateStore.InSync, begins, stays]
    exact .refl _
  · rw [stays]
    exact kept

/-- A collection that is written, in the world in which writes never fail. -/
theorem run_collect_persist {cur : Counters} (reads : w.phase = .read cur)
    (order : MapOrder Reading) (services : BitVec 16 → Option String) {reportId : String}
    (fresh : ∀ r ∈ w.created, r.reportId ≠ reportId) (epoch windowEnd : String) :
    let c := collect bufferCap (order.reorder cur.entries) services reportId epoch windowEnd w.mem
    Machine.run (step bufferCap) w [.collect order services reportId epoch windowEnd, .persist] =
      some { w with
        mem := c.rt, disk := c.rt, phase := .idle, created := w.created ++ c.report.toList
        dropped := w.dropped || c.dropped } := by
  have unused : (w.created.any fun r => decide (r.reportId = reportId)) = false := by
    rw [List.any_eq_false]
    intro r member isIt
    exact fresh r member (of_decide_eq_true isIt)
  simp [Machine.run, step, reads, unused]

/-- An acknowledgment that is written. -/
theorem run_acknowledge_persist {r : UsageReport} (answered : w.phase = .acked r) :
    Machine.run (step bufferCap) w [.acknowledge, .persist] =
      some { w with
        mem := acknowledge r.reportId w.mem, disk := acknowledge r.reportId w.mem,
        phase := .idle } := by
  simp [Machine.run, step, answered]

/-- A collection is matched by one that is written, or by none. -/
theorem follows_collect (follows : h.Follows w) {cur : Counters} (isRead : h.phase = .read cur)
    (order : MapOrder Reading) (services : BitVec 16 → Option String) {reportId : String}
    (isFresh : reportId ∉ h.given) (epoch windowEnd : String) {fault : Option WriteFault}
    (idle : ∀ f ∈ fault, Mutation.Idle
      (.collectAndBuffer bufferCap cur order services reportId epoch windowEnd) h.store.rt) :
    ∃ es w', Machine.run (step bufferCap) w es = some w' ∧
      Host.Follows
        { h.call (.collectAndBuffer bufferCap cur order services reportId epoch windowEnd)
            fault with
          phase := .idle, given := reportId :: h.given } w' := by
  have reads : w.phase = .read cur := follows.phase.trans isRead
  cases fault with
  | none =>
      have fresh : ∀ r ∈ w.created, r.reportId ≠ reportId := fun r member isIt =>
        isFresh (isIt ▸ follows.known r member)
      have collects := collects_collect (nodupKeys_reorder order cur) bufferCap services
        reportId epoch windowEnd w.mem
      refine ⟨_, _, run_collect_persist reads order services fresh epoch windowEnd, ?_⟩
      apply follows.call idle
      · exact ⟨rfl, rfl, rfl⟩
      · rw [collect_congr _ _ _ _ _ follows.mem]
        exact .refl _
      · rfl
      · rfl
      · intro r member
        rcases List.mem_append.mp member with isOld | isNew
        · exact List.mem_cons_of_mem _ (follows.known r isOld)
        · rw [collects.named r (Option.mem_toList.mp isNew)]
          exact List.mem_cons_self
  | some f =>
      -- nothing was collected, so the other side may as well give up on its reading
      have gaveUp : step bufferCap w .giveUp = some { w with phase := .idle } := by
        simp [step, reads]
      have alike := ((sameBooks_apply_iff _ _).mpr (idle f rfl)).usage
      refine ⟨[.giveUp], _, run_cons_of_step gaveUp [], ?_⟩
      apply follows.call idle
      · exact ⟨rfl, rfl, rfl⟩
      · exact follows.mem.trans alike.symm
      · exact follows.disk
      · rfl
      · exact fun r member => List.mem_cons_of_mem _ (follows.known r member)

/-- **Step**: every event whose write succeeds, or has nothing to write, is matched. -/
theorem follows_step (follows : h.Follows w) {e : HostEvent} (idle : IdleFaults bufferCap h e)
    (taken : hostStep bufferCap h e = some h') :
    ∃ es w', Machine.run (step bufferCap) w es = some w' ∧ h'.Follows w' := by
  cases e with
  | loop e =>
      simp only [hostStep] at taken
      split at taken
      · rename_i quiet
        obtain ⟨v, stepped, rfl⟩ := Option.map_eq_some_iff.mp taken
        obtain ⟨w', matched, follows⟩ := follows_quiet follows quiet stepped
        exact ⟨[e], w', run_cons_of_step matched [], follows⟩
      · cases taken
  | collectAndBuffer order services reportId epoch windowEnd fault =>
      simp only [hostStep] at taken
      split at taken
      · rename_i cur isRead
        split at taken
        · cases taken
        rename_i isFresh
        cases taken
        refine follows_collect follows isRead order services isFresh epoch windowEnd ?_
        rintro f rfl
        exact idle cur isRead
      · cases taken
  | flushBuffer fault =>
      simp only [hostStep] at taken
      split at taken <;> cases taken
      rename_i r isAcked
      have idle : ∀ f ∈ fault, Mutation.Idle (.flushBuffer r.reportId) h.store.rt := by
        rintro f rfl
        exact idle r isAcked
      refine ⟨_, _, run_acknowledge_persist (follows.phase.trans isAcked), ?_⟩
      apply follows.call idle
      · exact ⟨rfl, rfl, rfl⟩
      · exact acknowledge_congr follows.mem r.reportId
      · rfl
      · rfl
      · exact follows.known
  | applyAuthz rev fault =>
      cases taken
      have idle : ∀ f ∈ fault, Mutation.Idle (.applyAuthz rev) h.store.rt := by
        rintro f rfl
        exact idle
      exact ⟨[], w, rfl, follows.call idle w ⟨rfl, rfl, rfl⟩ follows.mem follows.disk follows.phase
        follows.known⟩
  | markAuthzOK now fault =>
      simp only [hostStep] at taken
      split at taken <;> cases taken
      · have idle : ∀ f ∈ fault, Mutation.Idle (.markAuthzOK now) h.store.rt := fun _ _ => trivial
        exact ⟨[], w, rfl, follows.call idle w ⟨rfl, rfl, rfl⟩ follows.mem follows.disk
          follows.phase follows.known⟩
      · exact ⟨[], w, rfl, follows⟩
  | crash =>
      cases taken
      refine ⟨[.crash], _, run_cons_of_step rfl [], ?_⟩
      rw [follows.disk]
      exact follows.restart (follows.mem.trans follows.synced.usage) follows.kept
  | recover =>
      cases taken
      refine ⟨[.recover], _, run_cons_of_step rfl [], follows.restart (.refl _) ?_⟩
      intro r member
      cases member

end Simulation

/-- **A failed write changes nothing exactly if there was nothing to write.**  For every runtime
that agrees with the file, every change and every step at which the write may fail: the caller
gets the error, the file is as it was, and the cursor, the baselines, the flag and the queue in
memory are those of the file if and only if the change is idle.  In every run whose failed
writes are idle, memory agrees with the file, every report that was sent had been in the file,
and no byte is billed twice. -/
theorem failed_write_harmless_iff (s : StateStore) (synced : s.InSync) (m : Mutation)
    (fault : WriteFault) :
    ((withRuntime m (some fault) s).1 = .error fault ∧
        (withRuntime m (some fault) s).2.persisted = s.persisted ∧
        ((withRuntime m (some fault) s).2.InSync ↔ m.Idle s.rt)) ∧
      ∀ (bufferCap : Nat) (counters : Counters) (es : List HostEvent) (h : Host),
        Machine.run (hostStep bufferCap) (.initial counters) es = some h →
        Meets (hostStep bufferCap) (IdleFaults bufferCap) (.initial counters) es →
          h.store.InSync ∧ (∀ r ∈ h.inFlight, r ∈ h.written) ∧
            ∀ k, attributed k h.ingested ≤ h.kernel.counted k := by
  refine ⟨⟨rfl, persisted_withRuntime_some m fault s, inSync_withRuntime_iff synced m fault⟩, ?_⟩
  intro bufferCap counters es h reached idle
  obtain ⟨es', w, went, follows⟩ := idle.run_simulation
    (fun _ _ _ _ follows idle taken => follows_step follows idle taken)
    (follows_initial counters) reached
  have metered : Metered w :=
    run_invariant (metered_step bufferCap) es' (metered_initial counters) went
  refine ⟨follows.synced, follows.sent, fun k => ?_⟩
  rw [← follows.ingested, ← follows.kernel]
  exact metered.ingested_le k

/-- The disk is full. -/
def diskFull : WriteFault := ⟨.write, none⟩

/-- The disk is full while there is nothing new to write: the cursor stands where it stood, and
no traffic has come in since the last collection. -/
def idleOnFullDisk : List HostEvent :=
  [.loop (.count webTraffic 100), .loop .readAcct,
    .collectAndBuffer .id (fun _ => some "web") "report-1" "boot-1" "" none, .applyAuthz 7 none,
    .applyAuthz 7 (some diskFull), .loop .readAcct,
    .collectAndBuffer .id (fun _ => some "web") "report-2" "boot-1" "" (some diskFull),
    .loop .post, .loop (.deliver 0), .crash]

theorem failed_write_harmless_iff_idle :
    ∃ h, Machine.run (hostStep 2880) (.initial ∅) idleOnFullDisk = some h ∧ h.store.InSync ∧
      attributed webTraffic h.ingested = 100 ∧ h.kernel.counted webTraffic = 100 ∧
      (withRuntime (.applyAuthz 0) (some diskFull) ⟨.fresh, ⟨none, none, []⟩⟩).2.InSync := by
  have idle : Meets (hostStep 2880) (IdleFaults 2880) (.initial ∅) idleOnFullDisk := by
    refine meets_cons trivial fun _ taken => ?_
    cases taken
    refine meets_cons trivial fun _ taken => ?_
    cases taken
    refine meets_cons trivial fun _ taken => ?_
    cases taken
    refine meets_cons trivial fun _ taken => ?_
    cases taken
    refine meets_cons rfl fun _ taken => ?_
    cases taken
    refine meets_cons trivial fun _ taken => ?_
    cases taken
    refine meets_cons (fun cur isRead => ?_) fun _ taken => ?_
    · cases isRead
      exact ⟨rfl, fun k => rfl⟩
    refine meets_of_forall fun e member h => ?_
    simp only [List.mem_cons, List.not_mem_nil, or_false] at member
    rcases member with rfl | rfl | rfl <;> trivial
  have harmless := failed_write_harmless_iff ⟨.fresh, ⟨none, none, []⟩⟩ (.refl _) (.applyAuthz 0)
    diskFull
  refine ⟨_, rfl, (harmless.2 2880 ∅ idleOnFullDisk _ rfl idle).1, ?_, ?_, ?_⟩
  · decide +kernel
  · decide +kernel
  · exact harmless.1.2.2.mpr rfl

/-- A collection finds the disk full; its report is posted all the same, and then the agent is
restarted. -/
def collectOnFullDisk : List HostEvent :=
  [.loop (.count webTraffic 100), .loop .readAcct,
    .collectAndBuffer .id (fun _ => some "web") "report-1" "boot-1" "" (some diskFull),
    .loop .post, .loop (.deliver 0), .loop .giveUp, .crash, .loop .readAcct,
    .collectAndBuffer .id (fun _ => some "web") "report-2" "boot-1" "" none, .loop .post,
    .loop (.deliver 1)]

/-- **A failed write bills twice.**  The hundred bytes are collected, not written, delivered,
and after the restart collected and delivered again. -/
theorem failed_write_bills_twice :
    ∃ h, Machine.run (hostStep 2880) (.initial ∅) collectOnFullDisk = some h ∧
      h.kernel.counted webTraffic = 100 ∧ attributed webTraffic h.ingested = 200 ∧
      ∃ r ∈ h.ingested, r ∉ h.written := by
  exact ⟨_, rfl, by decide +kernel, by decide +kernel, by decide +kernel⟩

end FipsExitGate.Agent
