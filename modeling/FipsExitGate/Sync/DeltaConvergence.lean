import FipsExitGate.Store.Deltas
import FipsExitGate.Lib.Machine

/-!
# Delta sync convergence

One agent follows the backend's authorized set: it starts from a full answer and
then applies the answers to its polls, each time storing the returned revision as
its cursor.  Meanwhile recomputes commit, transactions roll back (and lose the
numbers they drew) and the log is compacted at its old end.  An answer is read in
one snapshot but applied later, so any number of revisions may be appended in
between.

The state of the set at a past revision is not stored anywhere; what can be said
about it is what replaying the appended rows up to that revision gives
(`Authorized`).  `IsAt` says that a set is the one of a revision in this sense;
it is stable under everything the backend does later (`IsAt.mono`), which is why
the agent's set and the answer on its way to it stay right while the log grows.

## Main results

* `step_inv` — every event keeps the agent's set, and the set it will have once
  the answer in flight is applied, at the revision that goes with it.
* `delta_sync_converges` — the agent's set is `authz_current` as it was whenever
  the backend was at the agent's cursor, and a cursor below a deleted row is
  refused.
-/

namespace FipsExitGate.DeltaSync

open AuthzTables Machine

/-- What the agent keeps between two polls. -/
structure View where
  set : Finset Addr
  cursor : Int

/-- The backend's tables, the agent, and the answer on its way to the agent.
`agent` is `none` until the first full answer is applied. -/
structure World where
  tables : AuthzTables
  agent : Option View
  inflight : Option Answer

/-- A freshly migrated backend and an agent that has not synced yet. -/
def World.initial : World := ⟨AuthzTables.empty, none, none⟩

/-- What can happen, one transaction or one agent action at a time. -/
inductive Event where
  /-- A `RecomputeAuthz` that evaluated to `desired` commits. -/
  | recompute (order : MapOrder Member) (now : Time) (desired : AList fun _ : Addr => AccountId)
  /-- A transaction that drew `n` revision numbers rolls back. -/
  | rollback (n : Nat)
  /-- `CompactAuthzRevisions`, enabled when it leaves a suffix of the log. -/
  | compact (cutoff : Time)
  /-- The poll is answered by `FullSet`. -/
  | readFull (order : MapOrder Member)
  /-- The poll is answered by `DeltaSince` at the agent's cursor. -/
  | readDelta (order : MapOrder (Σ _ : Addr, Revision))
  /-- The answer is lost on its way. -/
  | lose
  /-- The agent applies the answer and stores its revision. -/
  | apply

/-- The agent after an answer: a full one replaces the set, a delta changes it. -/
def applyAnswer : Option View → Answer → Option View
  | _, .full addresses rev => some ⟨(addresses.map (·.addr)).toFinset, rev⟩
  | some view, .delta d => some ⟨applyDelta view.set d, d.rev⟩
  | none, .delta _ => none

/-- One event.  The sync loop has one request at a time, so a poll is answered
only when nothing is in flight; `ErrCompacted` leaves the poll to a `readFull`. -/
def step (w : World) : Event → Option World
  | .recompute order now desired => some { w with tables := recompute order now desired w.tables }
  | .rollback n => some { w with tables := w.tables.burn n }
  | .compact cutoff =>
      if (w.tables.compact cutoff).revisions <:+ w.tables.appended then
        some { w with tables := w.tables.compact cutoff }
      else none
  | .readFull order =>
      match w.inflight with
      | some _ => none
      | none =>
          let answer := fullSet order w.tables
          some { w with inflight := some (.full answer.1 answer.2) }
  | .readDelta order =>
      match w.agent, w.inflight with
      | some view, none =>
          match deltaSince order w.tables view.cursor with
          | .ok d => some { w with inflight := some (.delta d) }
          | .error .compacted => some w
      | _, _ => none
  | .lose => some { w with inflight := none }
  | .apply =>
      match w.inflight with
      | some answer => some { w with agent := applyAnswer w.agent answer, inflight := none }
      | none => none

/-! ## What an event can do -/

theorem cursor_applyAnswer {agent : Option View} {answer : Answer} {view : View}
    (h : applyAnswer agent answer = some view) : view.cursor = answer.rev := by
  unfold applyAnswer at h
  split at h <;> cases h <;> rfl

/-- The four ways in which an event changes the world. -/
inductive Effect (w : World) : World → Prop where
  /-- The backend moves on; the log it had stays, and stays healthy. -/
  | backend (t : AuthzTables) (grown : Extends w.tables t)
      (healthy : Healthy w.tables → Healthy t) : Effect w { w with tables := t }
  /-- The poll is answered from the present tables: an agent that is at its
  cursor will be at the newest revision. -/
  | answered (answer : Answer) (newest : answer.rev = w.tables.maxRev)
      (right : Healthy w.tables →
        (∀ view, w.agent = some view → IsAt w.tables view.set view.cursor) →
        ∀ view, applyAnswer w.agent answer = some view → IsAt w.tables view.set view.cursor) :
      Effect w { w with inflight := some answer }
  | lost : Effect w { w with inflight := none }
  | applied (answer : Answer) (flying : w.inflight = some answer) :
      Effect w { w with agent := applyAnswer w.agent answer, inflight := none }

theorem effect_fullSet (w : World) (order : MapOrder Member) :
    Effect w { w with
      inflight := some (.full (fullSet order w.tables).1 (fullSet order w.tables).2) } := by
  refine .answered _ rfl fun healthy _ view h => ?_
  obtain rfl : _ = view := Option.some.inj h
  exact isAt_fullSet healthy.log order

theorem effect_deltaSince {w : World} {view : View} (known : w.agent = some view)
    {order : MapOrder (Σ _ : Addr, Revision)} {d : Delta}
    (answered : deltaSince order w.tables view.cursor = .ok d) :
    Effect w { w with inflight := some (.delta d) } := by
  have delta := isDelta_of_deltaSince answered
  refine .answered _ delta.rev_eq fun healthy atCursor view' h => ?_
  rw [known] at h
  obtain rfl : _ = view' := Option.some.inj h
  have right := applyDelta_authorized healthy.log
    healthy.holeFree delta (atCursor view known).mem_iff
  have isAt := isAt_maxRev healthy.log right
  rwa [← delta.rev_eq] at isAt

theorem effect_of_step {w w' : World} {e : Event} (taken : step w e = some w') : Effect w w' := by
  cases e with
  | recompute order now desired =>
      cases taken
      exact .backend _ (recompute_appends order now desired w.tables).extends
        fun healthy => healthy.recompute order now desired
  | rollback n =>
      cases taken
      exact .backend _ (burn_extends n w.tables)
        fun healthy => healthy.burn n
  | compact cutoff =>
      simp only [step] at taken
      split at taken
      · rename_i suffix
        cases taken
        exact .backend _ (compact_extends cutoff w.tables)
          fun healthy => ⟨compact_logInv healthy.log cutoff, suffix⟩
      · cases taken
  | readFull order =>
      simp only [step] at taken
      split at taken
      · cases taken
      · cases taken
        exact effect_fullSet w order
  | readDelta order =>
      simp only [step] at taken
      split at taken
      · rename_i view known _
        split at taken
        · rename_i d answered
          cases taken
          exact effect_deltaSince known answered
        · cases taken
          exact .backend w.tables (Extends.refl _) fun healthy => healthy
      · cases taken
  | lose =>
      cases taken
      exact .lost
  | apply =>
      simp only [step] at taken
      split at taken
      · rename_i answer flying
        cases taken
        exact .applied answer flying
      · cases taken

/-! ## The invariant -/

/-- The agent's set is the one at its cursor, and so is the set it would have
after applying the answer in flight. -/
structure Inv (w : World) : Prop where
  healthy : Healthy w.tables
  agent : ∀ view, w.agent = some view → IsAt w.tables view.set view.cursor
  inflight : ∀ answer view, w.inflight = some answer → applyAnswer w.agent answer = some view →
    IsAt w.tables view.set view.cursor

theorem initial_inv : Inv World.initial where
  healthy := empty_healthy
  agent := by
    intro view h
    cases h
  inflight := by
    intro answer view h
    cases h

/-- **Every event keeps the agent on the timeline of the log.** -/
theorem step_inv (w : World) (e : Event) (w' : World) (inv : Inv w)
    (taken : step w e = some w') : Inv w' := by
  cases effect_of_step taken with
  | backend t grown healthy =>
      exact ⟨healthy inv.healthy, fun view h => (inv.agent view h).mono grown,
        fun answer view flying h => (inv.inflight answer view flying h).mono grown⟩
  | answered answer newest right =>
      refine ⟨inv.healthy, inv.agent, fun answer' view flying h => ?_⟩
      cases flying
      exact right inv.healthy inv.agent view h
  | lost =>
      refine ⟨inv.healthy, inv.agent, fun answer view flying h => ?_⟩
      cases flying
  | applied answer flying =>
      refine ⟨inv.healthy, fun view h => inv.inflight answer view flying h, ?_⟩
      intro answer view flying
      cases flying

theorem step_extends (w : World) (e : Event) (w' : World) (taken : step w e = some w') :
    Extends w.tables w'.tables := by
  cases effect_of_step taken with
  | backend t grown healthy => exact grown
  | answered answer newest right => exact Extends.refl _
  | lost => exact Extends.refl _
  | applied answer flying => exact Extends.refl _

/-! ## The run -/

/-- The revisions the agent and the answer in flight carry are ones the backend
was at. -/
structure Seen (es : List Event) (w : World) : Prop where
  agent : ∀ view, w.agent = some view →
    ∃ w₁, Visits step World.initial es w₁ ∧ w₁.tables.maxRev = view.cursor
  inflight : ∀ answer, w.inflight = some answer →
    ∃ w₁, Visits step World.initial es w₁ ∧ w₁.tables.maxRev = answer.rev

theorem initial_seen : Seen [] World.initial where
  agent := by
    intro view h
    cases h
  inflight := by
    intro answer h
    cases h

/-- A longer run has visited what a shorter one has. -/
theorem Seen.concat {es : List Event} {w : World} (seen : Seen es w) (e : Event) :
    Seen (es ++ [e]) w where
  agent := by
    intro view h
    obtain ⟨w₁, visited, atCursor⟩ := seen.agent view h
    exact ⟨w₁, visited.concat e, atCursor⟩
  inflight := by
    intro answer h
    obtain ⟨w₁, visited, atRev⟩ := seen.inflight answer h
    exact ⟨w₁, visited.concat e, atRev⟩

theorem step_seen (es : List Event) (w : World) (e : Event) (w' : World)
    (reached : run step World.initial es = some w) (seen : Seen es w)
    (taken : step w e = some w') : Seen (es ++ [e]) w' := by
  have before := seen.concat e
  cases effect_of_step taken with
  | backend t grown healthy => exact ⟨before.agent, before.inflight⟩
  | answered answer newest right =>
      refine ⟨before.agent, fun answer' flying => ?_⟩
      cases flying
      exact ⟨w, (visits_of_run reached).concat e, newest.symm⟩
  | lost =>
      refine ⟨before.agent, fun answer flying => ?_⟩
      cases flying
  | applied answer flying =>
      refine ⟨fun view h => ?_, fun answer flying => ?_⟩
      · rw [cursor_applyAnswer h]
        exact before.inflight answer flying
      · cases flying

/-- **Delta sync converges.**  After any run, the revision the agent holds is one
the backend was at, the agent's set is `authz_current` as it stood whenever the
backend was at that revision, and `DeltaSince` refuses every cursor below a
deleted row. -/
theorem delta_sync_converges (es : List Event) (w : World)
    (reached : run step World.initial es = some w) :
    (∀ view, w.agent = some view →
      (∃ w₁, Visits step World.initial es w₁ ∧ w₁.tables.maxRev = view.cursor) ∧
      ∀ w₁, Visits step World.initial es w₁ → w₁.tables.maxRev = view.cursor →
        view.set = w₁.tables.keys) ∧
    ∀ (clientRev : Int) (r : Revision) (order : MapOrder (Σ _ : Addr, Revision)),
      r ∈ w.tables.appended → clientRev < r.rev → r ∉ w.tables.revisions →
        deltaSince order w.tables clientRev = .error .compacted := by
  have inv : Inv w := run_invariant step_inv es initial_inv reached
  refine ⟨fun view known => ⟨?_, ?_⟩, ?_⟩
  · exact (run_history initial_seen step_seen es reached).agent view known
  · intro w₁ visited newest
    have inv₁ : Inv w₁ := visits_invariant step_inv initial_inv visited
    -- the log of `w` continues the one of `w₁`, and so agrees with it up to the cursor
    have grown : Extends w₁.tables w.tables :=
      visits_related (R := fun w₁ w₂ => Extends w₁.tables w₂.tables) (fun w => Extends.refl w.tables)
        (fun _ _ _ => Extends.trans) step_extends visited reached
    have old : view.cursor ≤ w₁.tables.revSeq := newest ▸ maxRev_le_revSeq inv₁.healthy.log
    have isAt : IsAt w₁.tables view.set view.cursor :=
      ⟨old, fun a => ((inv.agent view known).mem_iff a).trans (authorized_of_extends grown old a)⟩
    exact isAt.eq_keys inv₁.healthy.log newest
  · intro clientRev r order appended isAbove deleted
    exact deltaSince_compacted inv.healthy.log
      inv.healthy.holeFree appended isAbove deleted order

/-- An address comes and goes, a transaction rolls back and the log is truncated
while the agent follows. -/
def churn : List Event :=
  [.recompute .id 10 (AList.singleton firstAddr 7), .readFull .id, .apply, .rollback 3,
    .recompute .id 20 (AList.singleton secondAddr 8), .readDelta .id, .compact 15,
    .recompute .id 30 (AList.singleton firstAddr 8), .apply]

theorem delta_sync_converges_churn :
    ∃ w view, run step World.initial churn = some w ∧ w.agent = some view ∧
      view.set = {secondAddr} ∧ view.cursor = 6 ∧
      (∃ w₁, Visits step World.initial churn w₁ ∧ w₁.tables.maxRev = 6) ∧
      deltaSince .id w.tables 0 = .error .compacted := by
  refine ⟨_, _, rfl, rfl, by decide, rfl, ?_, ?_⟩
  · exact ((delta_sync_converges churn _ rfl).1 _ rfl).1
  · exact (delta_sync_converges churn _ rfl).2 0 ⟨1, .add, firstAddr, 7, 10⟩ .id
      (by decide) (by decide) (by decide)

end FipsExitGate.DeltaSync
