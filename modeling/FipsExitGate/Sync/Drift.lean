import FipsExitGate.Lib.Machine
import FipsExitGate.Lib.Memo
import FipsExitGate.Sync.SetHash

/-!
# Drift detection

A node reports its revision and the fingerprint of its kernel set with every heartbeat.  If the
revision is the backend's and the fingerprint is not, the set has changed behind the agent's
back, and the answer asks for a full reconcile.  The backend's side of the comparison comes from
`AuthzStatus`, which is memoized: heartbeats of many nodes run at once, with recomputes between
their steps.

`AuthzStatus` is the machine of `Lib.Memo`, at the tables and their newest revision.  Its one
condition, that the revision determines the set, holds because whatever changes `authz_current`
appends a row to the log, and a compaction spares the newest row.

## Design notes

* A recompute, a roll-back and a compaction are one commit each.  A reader's steps are those of
  the source: `CurrentRev`, the look at the memo under the lock, the snapshot, and the entry
  under the lock.  Any read may fail.
* The addresses in the tables are those of npubs (`is6_of_fromNpub`), so IPv6.

## Main results

* `Past.keys_eq`, `Past.determined` — tables with one revision have one set
* `drift_detection_exact` — every status describes the tables of its revision, and the answer to
  a heartbeat asks for a reconcile exactly on drift
-/

namespace FipsExitGate

open Authzhash Machine

namespace Drift

/-- What `AuthzStatus` reads from a snapshot: the size and the fingerprint. -/
def readStatus (order : MapOrder Addr) (t : AuthzTables) : Nat × String :=
  let addrs := order.reorder t.current.keys
  (addrs.length, fingerprint addrs)

/-- The memo is keyed by the revision, and empty if it has no hash. -/
def status : Memo.Source AuthzTables Int (Nat × String) (MapOrder Addr) where
  version := AuthzTables.maxRev
  read := readStatus
  usable value := decide (value.2 ≠ "")

/-- The backend: its tables, `statusCache`, and the calls of `AuthzStatus` under way. -/
abbrev Backend := Memo.State AuthzTables Int (Nat × String)

/-- A backend that has just started. -/
def freshBackend (t : AuthzTables) : Backend := Memo.State.initial t (0, (0, ""))

inductive BackendEvent where
  | recompute (order : MapOrder Member) (now : Time) (desired : AList fun _ : Addr => AccountId)
  /-- A recompute that is rolled back. -/
  | rollBack (n : Nat)
  | compact (cutoff : Time)
  /-- Call `i` of `AuthzStatus` reads the revision. -/
  | currentRev (i : Nat)
  | consult (i : Nat)
  | snapshot (i : Nat) (order : MapOrder Addr)
  | fill (i : Nat)
  | fail (i : Nat)

def backendStep (b : Backend) : BackendEvent → Option Backend
  | .recompute order now desired =>
      if ∀ a ∈ desired.keys, a.Is6 then
        Memo.step status b (.commit (b.store.recompute order now desired))
      else none
  | .rollBack n => Memo.step status b (.commit (b.store.burn n))
  | .compact cutoff => Memo.step status b (.commit (b.store.compact cutoff))
  | .currentRev i => Memo.step status b (.begin i)
  | .consult i => Memo.step status b (.consult i)
  | .snapshot i order => Memo.step status b (.load i order)
  | .fill i => Memo.step status b (.enter i)
  | .fail i => Memo.step status b (.fail i)

/-! ## The revision determines the set -/

/-- The tables that were committed: each is an earlier state of the log. -/
structure Past (b : Backend) : Prop where
  log : ∀ t ∈ b.commits, LogInv t
  earlier : ∀ t ∈ b.commits, AuthzTables.Extends t b.store
  are6 : ∀ t ∈ b.commits, ∀ a ∈ t.keys, a.Is6
  newest : b.store ∈ b.commits

theorem past_initial {t : AuthzTables} (log : LogInv t) (are6 : ∀ a ∈ t.keys, a.Is6) :
    Past (freshBackend t) where
  log := List.forall_mem_singleton.mpr log
  earlier := List.forall_mem_singleton.mpr (.refl t)
  are6 := List.forall_mem_singleton.mpr are6
  newest := List.mem_singleton_self t

section Past

variable {b b' : Backend}

theorem Past.commit (past : Past b) {t : AuthzTables} (log : LogInv t)
    (later : AuthzTables.Extends b.store t) (are6 : ∀ a ∈ t.keys, a.Is6)
    (taken : Memo.step status b (.commit t) = some b') : Past b' := by
  cases taken
  refine ⟨?_, ?_, ?_, List.mem_cons_self⟩
  · exact List.forall_mem_cons.mpr ⟨log, past.log⟩
  · refine List.forall_mem_cons.mpr ⟨.refl t, fun t' member => ?_⟩
    exact (past.earlier t' member).trans later
  · exact List.forall_mem_cons.mpr ⟨are6, past.are6⟩

/-- The steps of a reader commit nothing. -/
theorem Past.reader (past : Past b) {e : Memo.Event AuthzTables (MapOrder Addr)}
    (reads : ∀ t, e ≠ .commit t) (taken : Memo.step status b e = some b') : Past b' := by
  have same : b'.store = b.store ∧ b'.commits = b.commits := by
    cases e with
    | commit t => exact absurd rfl (reads t)
    | consult i =>
        simp only [Memo.step] at taken
        split at taken
        · split at taken <;> cases taken <;> exact ⟨rfl, rfl⟩
        · cases taken
    | fail i =>
        cases taken
        exact ⟨rfl, rfl⟩
    | begin | load | enter =>
        simp only [Memo.step] at taken
        split at taken <;> cases taken
        exact ⟨rfl, rfl⟩
  obtain ⟨store, commits⟩ := same
  exact ⟨commits ▸ past.log, by rw [commits, store]; exact past.earlier, commits ▸ past.are6,
    by rw [commits, store]; exact past.newest⟩

/-- Every event is a step of the memo machine, and keeps the past. -/
theorem past_step {e : BackendEvent} (past : Past b) (sound : Memo.Sound status b)
    (taken : backendStep b e = some b') : Past b' ∧ Memo.Sound status b' := by
  have log : LogInv b.store := past.log b.store past.newest
  have are6 : ∀ a ∈ b.store.keys, a.Is6 := past.are6 b.store past.newest
  cases e with
  | recompute order now desired =>
      simp only [backendStep] at taken
      split at taken
      · rename_i derived
        refine ⟨past.commit (AuthzTables.recompute_logInv log order now desired)
          (AuthzTables.recompute_appends order now desired b.store).extends ?_ taken,
          Memo.sound_step sound taken⟩
        intro a member
        rw [AuthzTables.keys_recompute, List.mem_toFinset] at member
        exact derived a member
      · cases taken
  | rollBack n =>
      simp only [backendStep] at taken
      exact ⟨past.commit (AuthzTables.burn_logInv log n) (AuthzTables.burn_extends n b.store) are6
        taken, Memo.sound_step sound taken⟩
  | compact cutoff =>
      simp only [backendStep] at taken
      exact ⟨past.commit (AuthzTables.compact_logInv log cutoff)
        (AuthzTables.compact_extends cutoff b.store) are6 taken, Memo.sound_step sound taken⟩
  | currentRev | consult | snapshot | fill | fail =>
      simp only [backendStep] at taken
      exact ⟨past.reader (fun _ => by simp) taken, Memo.sound_step sound taken⟩

/-- **Tables with one revision have one set.** -/
theorem Past.keys_eq (past : Past b) {t t' : AuthzTables} (member : t ∈ b.commits)
    (member' : t' ∈ b.commits) (same : t.maxRev = t'.maxRev) : t.keys = t'.keys := by
  have isAt : IsAt b.store t.keys t.maxRev :=
    (isAt_maxRev (past.log t member) fun _ => Iff.rfl).mono (past.earlier t member)
  have isAt' : IsAt b.store t'.keys t'.maxRev :=
    (isAt_maxRev (past.log t' member') fun _ => Iff.rfl).mono (past.earlier t' member')
  ext a
  rw [isAt.mem_iff, isAt'.mem_iff, same]

/-- A reading depends on the set alone. -/
theorem readStatus_eq (order : MapOrder Addr) (t : AuthzTables) :
    readStatus order t = (t.keys.card, fingerprint t.current.keys) := by
  have perm := order.perm t.current.keys
  have card : t.keys.card = t.current.keys.length :=
    List.toFinset_card_of_nodup t.current.keys_nodup
  rw [readStatus, card, ← perm.length_eq, fingerprint_congr fun _ => perm.mem_iff]

theorem fingerprint_of_keys {t t' : AuthzTables} (same : t.keys = t'.keys) :
    fingerprint t.current.keys = fingerprint t'.current.keys := by
  refine fingerprint_congr fun a => ?_
  rw [← List.mem_toFinset, ← List.mem_toFinset]
  exact Finset.ext_iff.mp same a

/-- **The memo's condition.** -/
theorem Past.determined (past : Past b) : Memo.Determined status b.commits := by
  intro t member t' member' same order order'
  have keys := past.keys_eq member member' same
  show readStatus order t = readStatus order' t'
  rw [readStatus_eq, readStatus_eq, keys, fingerprint_of_keys keys]

end Past

/-! ## The heartbeat -/

/-- The result of `AuthzStatus`. -/
structure AuthzStatus where
  count : Nat
  hash : String
  rev : Int

/-- An answer of the memo machine. -/
def AuthzStatus.of (entry : Int × (Nat × String)) : AuthzStatus :=
  ⟨entry.2.1, entry.2.2, entry.1⟩

/-- The status describes the tables. -/
structure AuthzStatus.Describes (s : AuthzStatus) (t : AuthzTables) : Prop where
  rev : s.rev = t.maxRev
  count : s.count = t.keys.card
  hash : s.hash = fingerprint t.current.keys

/-- The fields of a heartbeat that the comparison reads. -/
structure HeartbeatRequest where
  authzRev : Int
  setSize : Int
  setHash : String

/-- The heartbeat that `runHeartbeat` sends, with the set if it could be listed. -/
def heartbeatRequest (order : MapOrder Addr) (authzRev : Int) :
    Option Agent.AddrSet → HeartbeatRequest
  | none => ⟨authzRev, -1, ""⟩
  | some set => ⟨authzRev, set.keys.length, ofSet order set⟩

/-- The `resync` of the answer; `none` is an error of `AuthzStatus`. -/
def resync (status : Option AuthzStatus) (req : HeartbeatRequest) : Bool :=
  match status with
  | none => false
  | some s =>
      if req.authzRev = s.rev then
        if req.setHash ≠ "" then decide (req.setHash ≠ s.hash)
        else if 0 ≤ req.setSize then decide (req.setSize ≠ s.count)
        else false
      else false

/-- The two sets have the same members. -/
def SameMembers (kernel : Agent.AddrSet) (t : AuthzTables) : Prop :=
  ∀ a, a ∈ kernel ↔ a ∈ t.keys

/-- A heartbeat is asked to reconcile exactly on drift. -/
theorem resync_iff {s : AuthzStatus} {t : AuthzTables} (describes : s.Describes t)
    (are6 : ∀ a ∈ t.keys, a.Is6) (order : MapOrder Addr) (authzRev : Int) {kernel : Agent.AddrSet}
    (kernel6 : ∀ a ∈ kernel, a.Is6)
    (free : CollisionFree (message (order.reorder kernel.keys)) (message t.current.keys)) :
    resync (some s) (heartbeatRequest order authzRev (some kernel)) = true ↔
      authzRev = s.rev ∧ ¬ SameMembers kernel t := by
  have perm := order.perm kernel.keys
  have compared : ofSet order kernel = s.hash ↔ SameMembers kernel t := by
    rw [describes.hash, ofSet, fingerprint_eq_iff ?_ ?_ free]
    · refine forall_congr' fun a => ?_
      rw [perm.mem_iff, ← AList.mem_keys, AuthzTables.keys, List.mem_toFinset]
    · exact fun a member => kernel6 a (AList.mem_keys.mpr (perm.mem_iff.mp member))
    · exact fun a member => are6 a (List.mem_toFinset.mpr member)
  have sent : ofSet order kernel ≠ "" := fingerprint_ne_empty _
  by_cases atRev : authzRev = s.rev
  · simp only [resync, heartbeatRequest, atRev, if_true, true_and]
    rw [if_pos sent, decide_eq_true_iff, ne_eq, compared]
  · simp [resync, heartbeatRequest, atRev]

/-- **Drift detection is exact.**  However the calls of `AuthzStatus` and the recomputes are
interleaved, a result describes the tables of its revision, which were committed, and all
that had it.  A heartbeat that carries the hash of its kernel set is answered with a request to
reconcile exactly if it is at that revision and its set is not `authz_current`. -/
theorem drift_detection_exact {t₀ : AuthzTables} (log : LogInv t₀) (are6 : ∀ a ∈ t₀.keys, a.Is6)
    (es : List BackendEvent) {b : Backend}
    (h : Machine.run backendStep (freshBackend t₀) es = some b) {s : AuthzStatus}
    (answered : s ∈ b.answers.map AuthzStatus.of) :
    (∃ t ∈ b.commits, s.Describes t) ∧
    ∀ t ∈ b.commits, t.maxRev = s.rev → s.Describes t ∧
      ∀ (order : MapOrder Addr) (authzRev : Int) (kernel : Agent.AddrSet),
        (∀ a ∈ kernel, a.Is6) →
        CollisionFree (message (order.reorder kernel.keys)) (message t.current.keys) →
        (resync (some s) (heartbeatRequest order authzRev (some kernel)) = true ↔
          authzRev = s.rev ∧ ¬ SameMembers kernel t) := by
  have inv : Past b ∧ Memo.Sound status b := by
    let Inv (b : Backend) : Prop := Past b ∧ Memo.Sound status b
    have base : Inv (freshBackend t₀) := ⟨past_initial log are6, Memo.sound_initial t₀ rfl⟩
    exact run_invariant (fun _ _ _ inv taken => past_step inv.1 inv.2 taken) es base h
  obtain ⟨past, sound⟩ := inv
  obtain ⟨entry, member, rfl⟩ := List.mem_map.mp answered
  obtain ⟨⟨t, committed, version⟩, right⟩ := sound.answer_right past.determined member
  have describes : ∀ t ∈ b.commits, t.maxRev = entry.1 → (AuthzStatus.of entry).Describes t := by
    intro t committed version
    have reading : readStatus .id t = entry.2 := right t committed version .id
    rw [readStatus_eq] at reading
    exact ⟨version.symm, (congrArg Prod.fst reading).symm, (congrArg Prod.snd reading).symm⟩
  refine ⟨⟨t, committed, describes t committed version⟩, fun t' committed' version' => ?_⟩
  have describes' := describes t' committed' version'
  refine ⟨describes', fun order authzRev kernel kernel6 free => ?_⟩
  exact resync_iff describes' (past.are6 t' committed') order authzRev kernel6 free

/-- Two calls that overtake each other: the older reading is entered last. -/
def overtaking : List BackendEvent :=
  [.currentRev 0, .recompute .id 5 (AList.singleton firstAddr 1), .consult 0, .snapshot 0 .id,
    .recompute .id 6 ∅, .currentRev 1, .consult 1, .snapshot 1 .id, .fill 1, .fill 0]

theorem drift_detection_exact_overtaking :
    ∃ b s, Machine.run backendStep (freshBackend .empty) overtaking = some b ∧
      b.memo.1 = 1 ∧ s ∈ b.answers.map AuthzStatus.of ∧ ∃ t ∈ b.commits, s.Describes t :=
  ⟨_, _, rfl, rfl, List.mem_cons_self,
    (drift_detection_exact AuthzTables.empty_logInv (by decide) overtaking rfl
      List.mem_cons_self).1⟩

end Drift

end FipsExitGate
