import FipsExitGate.Store.Deltas
import FipsExitGate.Lib.Machine
import Mathlib.Data.Finset.Card

/-!
# Inline revocations and delta sync

Two goroutines of the agent change the kernel's authorized set.  The sync loop
applies the answers to its polls (`applyAuthz`) and stores their revision as its
cursor; the usage loop applies the revoke list that comes back with a usage
report (`applyRevocations`).  Both first list the kernel set, so as not to name an
absent member in the deletions, and then send one batch, which nft applies as a
whole or not at all.  Nothing orders the two loops, and a revoke list carries no
revision.

The sync loop alone keeps the kernel set on the timeline of the revision log.
`Tracks` is the form of that which survives the usage loop: at the agent's
revision every address is either as the log says or has a later row, so that a
later answer will set it right.

A revoke list breaks this when it is overtaken: the address was re-added, the
agent has taken the re-add, and the delayed revoke removes it.  `NotOvertaken`
excludes exactly that.

## Main results

* `step_inv` — every event keeps `Inv`, provided the revocations are not overtaken.
* `inline_revocations_agree` — then an agent at rest at the backend's revision has
  the backend's set in its kernel.
* `overtaken_revoke_diverges` — a top-up between a revocation and its delivery
  leaves a paying address out of the kernel set.
-/

namespace FipsExitGate.InlineRevoke

open AuthzTables Machine LastWriter

/-! ## The two loops -/

/-- The mass-revoke guard's settings. -/
structure Config where
  massRevokeMin : Nat
  allowMassRevoke : Bool

/-- `isMassRevoke`. -/
def Config.isMassRevoke (cfg : Config) (del current : Nat) : Bool :=
  cfg.massRevokeMin < del && current < del * 2

/-- Where the sync loop is between two polls. -/
inductive SyncPhase where
  | idle
  /-- `getAuthz` has returned; `force` is the response's flag. -/
  | answered (answer : Answer) (force : Bool)
  /-- The kernel set has been listed and the batch is ready. -/
  | prepared (add del : Finset Addr) (rev : Int)
  /-- The batch is in the kernel and the cursor is about to be stored. -/
  | storing (rev : Int)

/-- Where the usage loop is between two reports. -/
inductive UsagePhase where
  | idle
  /-- `postUsage` has returned a revoke list. -/
  | acked (revoke : List Addr)
  /-- The kernel set has been listed and the deletions are ready. -/
  | prepared (del : Finset Addr)

/-- The backend's tables, the node's kernel set, and the agent. -/
structure World where
  tables : AuthzTables
  kernel : Finset Addr
  cursor : Int
  sync : SyncPhase
  usage : UsagePhase

inductive Event where
  /-- A recompute of the backend's own: a purchase, a sweep, another node's report. -/
  | recompute (order : MapOrder Member) (now : Time) (desired : AList fun _ : Addr => AccountId)
  /-- A report of this node is ingested; the ack returns what the recompute removed. -/
  | ingest (order : MapOrder Member) (now : Time) (desired : AList fun _ : Addr => AccountId)
  /-- The sync loop's poll is answered. -/
  | answer (full force : Bool) (order : MapOrder Member)
      (deltaOrder : MapOrder (Σ _ : Addr, Revision))
  /-- `applyAuthz` up to the batch. -/
  | prepare
  /-- `applyAuthz` sends the batch. -/
  | apply
  /-- `applyAuthz` stores the cursor. -/
  | store
  /-- `applyRevocations` up to the batch. -/
  | prepareRevoke
  /-- `applyRevocations` sends the batch. -/
  | applyRevoke

/-- `ApplyAuthorized`: all or nothing, and nothing if a deleted member is absent. -/
def applyAuthorized (kernel add del : Finset Addr) : Option (Finset Addr) :=
  if del ⊆ kernel then some ((kernel ∪ add) \ del) else none

/-- `presentOnly`. -/
def presentOnly (kernel : Finset Addr) (del : List Addr) : Finset Addr :=
  del.toFinset ∩ kernel

/-- `applyAuthz` up to its call of `ApplyAuthorized`: the batch, or `none` when the
mass-revoke guard or the revision check refuses the answer. -/
def prepareAuthz (cfg : Config) (kernel : Finset Addr) (cursor : Int) (force : Bool) :
    Answer → Option (Finset Addr × Finset Addr × Int)
  | .full addresses rev =>
      let desired := (addresses.map (·.addr)).toFinset
      let del := kernel \ desired
      if !force && !cfg.allowMassRevoke && cfg.isMassRevoke del.card kernel.card then none
      else some (desired \ kernel, del, rev)
  | .delta d =>
      -- a revision below the cursor: the backend was reset
      if d.rev < cursor then none
      else some ((d.add.map (·.addr)).toFinset, presentOnly kernel d.del, d.rev)

/-- One event.  A refused answer and a failed batch leave the sync loop to poll
again with its old cursor. -/
def step (cfg : Config) (w : World) : Event → Option World
  | .recompute order now desired => some { w with tables := recompute order now desired w.tables }
  | .ingest order now desired =>
      match w.usage with
      | .idle =>
          some { w with
            tables := recompute order now desired w.tables
            usage := .acked (removedBy order desired w.tables) }
      | _ => none
  | .answer full force order deltaOrder =>
      match w.sync with
      | .idle =>
          some { w with
            sync := .answered (writeAuthz order deltaOrder w.tables w.cursor full) force }
      | _ => none
  | .prepare =>
      match w.sync with
      | .answered answer force =>
          match prepareAuthz cfg w.kernel w.cursor force answer with
          | some (add, del, rev) => some { w with sync := .prepared add del rev }
          | none => some { w with sync := .idle }
      | _ => none
  | .apply =>
      match w.sync with
      | .prepared add del rev =>
          match applyAuthorized w.kernel add del with
          | some kernel => some { w with kernel, sync := .storing rev }
          | none => some { w with sync := .idle }
      | _ => none
  | .store =>
      match w.sync with
      | .storing rev => some { w with cursor := rev, sync := .idle }
      | _ => none
  | .prepareRevoke =>
      match w.usage with
      | .acked revoke =>
          if revoke = [] then some { w with usage := .idle }
          else some { w with usage := .prepared (presentOnly w.kernel revoke) }
      | _ => none
  | .applyRevoke =>
      match w.usage with
      | .prepared del =>
          match applyAuthorized w.kernel ∅ del with
          | some kernel => some { w with kernel, usage := .idle }
          | none => some { w with usage := .idle }
      | _ => none

/-! ## Sets that follow the log -/

/-- The log has a row of the address above the revision. -/
def RowAbove (t : AuthzTables) (rev : Int) (a : Addr) : Prop :=
  ∃ r ∈ t.appended, r.fipsAddr = a ∧ rev < r.rev

/-- Every address is as the log says at the revision, or has a later row. -/
structure Tracks (t : AuthzTables) (K : Finset Addr) (rev : Int) : Prop where
  handed_out : rev ≤ t.revSeq
  mem_iff : ∀ a, RowAbove t rev a ∨ (a ∈ K ↔ Authorized t rev a)

theorem RowAbove.mono {t t' : AuthzTables} (grown : Extends t t') {rev : Int} {a : Addr}
    (h : RowAbove t rev a) : RowAbove t' rev a := by
  obtain ⟨new, eq, -⟩ := grown.grows
  obtain ⟨r, member, rest⟩ := h
  exact ⟨r, by rw [eq]; exact List.mem_append_left _ member, rest⟩

theorem RowAbove.lower {t : AuthzTables} {rev rev' : Int} {a : Addr} (h : RowAbove t rev a)
    (le : rev' ≤ rev) : RowAbove t rev' a := by
  obtain ⟨r, member, same, isAbove⟩ := h
  exact ⟨r, member, same, lt_of_le_of_lt le isAbove⟩

theorem Tracks.mono {t t' : AuthzTables} (grown : Extends t t') {K : Finset Addr} {rev : Int}
    (h : Tracks t K rev) : Tracks t' K rev where
  handed_out := h.handed_out.trans grown.seq_le
  mem_iff := fun a => (h.mem_iff a).imp (RowAbove.mono grown)
    fun same => same.trans (authorized_of_extends grown h.handed_out a).symm

theorem tracks_of_isAt {t : AuthzTables} {K : Finset Addr} {rev : Int} (h : IsAt t K rev) :
    Tracks t K rev :=
  ⟨h.handed_out, fun a => .inr (h.mem_iff a)⟩

/-- Nothing is above the newest revision, so a set that tracks it is the set. -/
theorem Tracks.eq_keys {t : AuthzTables} (inv : LogInv t) {K : Finset Addr}
    (h : Tracks t K t.maxRev) : K = t.keys := by
  ext a
  rcases h.mem_iff a with ⟨r, member, -, isAbove⟩ | same
  · exact absurd (rev_le_maxRev inv member) (not_le.mpr isAbove)
  · rw [same, authorized_maxRev inv]

/-- Taking away addresses that are not authorized, or have a later row, leaves a
set that tracks the log. -/
theorem Tracks.sdiff {t : AuthzTables} {K del : Finset Addr} {rev : Int} (h : Tracks t K rev)
    (gone : ∀ a ∈ del, a ∈ K → Authorized t rev a → RowAbove t rev a) :
    Tracks t (K \ del) rev where
  handed_out := h.handed_out
  mem_iff := by
    intro a
    rcases h.mem_iff a with later | same
    · exact .inl later
    · by_cases removed : a ∈ del ∧ Authorized t rev a
      · exact .inl (gone a removed.1 (same.mpr removed.2) removed.2)
      · refine .inr ?_
        rw [Finset.mem_sdiff, same]
        tauto

/-! ## An address without rows in between -/

/-- An address whose rows above `rev` are all above `rev'` is the same at both. -/
theorem authorized_congr {t : AuthzTables} {rev rev' : Int} (le : rev ≤ rev') {a : Addr}
    (quiet : ∀ r ∈ t.appended, r.fipsAddr = a → rev < r.rev → rev' < r.rev) :
    Authorized t rev a ↔ Authorized t rev' a := by
  have same : lastWrite (·.fipsAddr) (upTo t.appended rev) a =
      lastWrite (·.fipsAddr) (upTo t.appended rev') a := by
    simp only [lastWrite, upTo, List.filter_filter]
    congr 1
    refine List.filter_congr fun r member => ?_
    by_cases isRow : r.fipsAddr = a
    · have := quiet r member isRow
      have iff : r.rev ≤ rev ↔ r.rev ≤ rev' := by omega
      simp [isRow, iff]
    · simp [isRow]
  simp only [Authorized, holder, same]

/-- An address that is authorized at one revision only has a row after the
smaller one. -/
theorem rowAbove_of_ne {t : AuthzTables} {rev rev' : Int} (le : rev ≤ rev') {a : Addr}
    (different : ¬ (Authorized t rev a ↔ Authorized t rev' a)) : RowAbove t rev a := by
  by_contra none
  refine different (authorized_congr le fun r member same isAbove => ?_)
  exact absurd ⟨r, member, same, isAbove⟩ none

/-- What a delta says about each address, between the cursor it was asked for and
its own revision: nothing, because there is no row, or what the last row says. -/
structure Leads (t : AuthzTables) (cursor : Int) (d : Delta) : Prop where
  cursor_le : cursor ≤ d.rev
  newest : d.rev ≤ t.maxRev
  verdict : ∀ a,
    (a ∉ d.add.map (·.addr) ∧ a ∉ d.del ∧
      ∀ r ∈ t.appended, r.fipsAddr = a → cursor < r.rev → d.rev < r.rev) ∨
    (a ∈ d.add.map (·.addr) ∧ a ∉ d.del ∧ Authorized t d.rev a ∧ RowAbove t cursor a) ∨
    (a ∉ d.add.map (·.addr) ∧ a ∈ d.del ∧ ¬ Authorized t d.rev a ∧ RowAbove t cursor a)

/-- A delta read now, on a healthy log. -/
theorem leads_of_isDelta {t : AuthzTables} (healthy : Healthy t) {cursor : Int} {d : Delta}
    (delta : IsDelta t cursor d) (le : cursor ≤ t.maxRev) : Leads t cursor d where
  cursor_le := delta.rev_eq ▸ le
  newest := delta.rev_eq.le
  verdict := by
    intro a
    have rows : rowsAbove t cursor = above t.appended cursor := by
      rw [rowsAbove_eq_above healthy.log,
        above_revisions healthy.log healthy.holeFree delta.reaches]
    have now := (authorized_maxRev healthy.log a).trans
      (authorized_iff_lastWrite healthy.log cursor a)
    rw [← delta.rev_eq] at now
    have inAdd := mem_add_iff delta a
    have inDel := delta.mem_del a
    rw [rows] at inAdd inDel
    cases last : lastWrite (·.fipsAddr) (above t.appended cursor) a with
    | none =>
        refine .inl ⟨by simp [inAdd, last], by simp [inDel, last], ?_⟩
        intro r member same isAbove
        refine absurd same ((lastWrite_eq_none _).mp last r ?_)
        exact List.mem_filter.mpr ⟨member, by simpa using isAbove⟩
    | some r =>
        obtain ⟨inLog, same⟩ := mem_of_lastWrite _ last
        obtain ⟨member, isAbove⟩ := List.mem_filter.mp inLog
        have row : RowAbove t cursor a := ⟨r, member, same, by simpa using isAbove⟩
        simp only [last] at now
        by_cases isAdd : r.op = .add
        · exact .inr (.inl ⟨by simp [inAdd, last, isAdd], by simp [inDel, last, isAdd],
            now.mpr isAdd, row⟩)
        · exact .inr (.inr ⟨by simp [inAdd, last, isAdd], by simp [inDel, last, isAdd],
            fun authorized => isAdd (now.mp authorized), row⟩)

theorem Leads.mono {t t' : AuthzTables} (log : LogInv t) (log' : LogInv t') (grown : Extends t t')
    {cursor : Int} {d : Delta} (h : Leads t cursor d) : Leads t' cursor d where
  cursor_le := h.cursor_le
  newest := h.newest.trans (maxRev_mono log log' grown)
  verdict := by
    have old : d.rev ≤ t.revSeq := h.newest.trans (maxRev_le_revSeq log)
    intro a
    rw [authorized_of_extends grown old]
    rcases h.verdict a with ⟨notAdd, notDel, quiet⟩ | ⟨add, notDel, auth, row⟩ |
      ⟨notAdd, del, auth, row⟩
    · refine .inl ⟨notAdd, notDel, fun r member same isAbove => ?_⟩
      obtain ⟨new, eq, fresh⟩ := grown.grows
      rw [eq] at member
      rcases List.mem_append.mp member with before | after
      · exact quiet r before same isAbove
      · exact lt_of_le_of_lt old (fresh r after)
    · exact .inr (.inl ⟨add, notDel, auth, row.mono grown⟩)
    · exact .inr (.inr ⟨notAdd, del, auth, row.mono grown⟩)

/-! ## The invariant -/

/-- A batch that is ready: applied to the kernel set it leads to the answer's
revision, and it adds nothing that is already there without reason. -/
structure Ready (t : AuthzTables) (kernel : Finset Addr) (cursor : Int) (add del : Finset Addr)
    (rev : Int) : Prop where
  cursor_le : cursor ≤ rev
  newest : rev ≤ t.maxRev
  target : Tracks t ((kernel ∪ add) \ del) rev
  readd : ∀ a ∈ add, a ∈ kernel → RowAbove t cursor a

/-- What is known about the answer the sync loop is working on. -/
def PhaseInv (t : AuthzTables) (kernel : Finset Addr) (cursor : Int) : SyncPhase → Prop
  | .idle => True
  | .answered (.full addresses rev) _ =>
      cursor ≤ rev ∧ rev ≤ t.maxRev ∧ IsAt t (addresses.map (·.addr)).toFinset rev
  | .answered (.delta d) _ => Leads t cursor d
  | .prepared add del rev => Ready t kernel cursor add del rev
  | .storing rev => rev ≤ t.maxRev

/-- The revision the kernel set is at: the cursor, unless the batch of a newer
answer is in already. -/
def World.position (w : World) : Int :=
  match w.sync with
  | .storing rev => rev
  | _ => w.cursor

structure Inv (w : World) : Prop where
  healthy : Healthy w.tables
  cursor_le : w.cursor ≤ w.tables.maxRev
  kernel : Tracks w.tables w.kernel w.position
  phase : PhaseInv w.tables w.kernel w.cursor w.sync

theorem phaseInv_extends {t t' : AuthzTables} (log : LogInv t) (log' : LogInv t')
    (grown : Extends t t') {kernel : Finset Addr} {cursor : Int} {phase : SyncPhase}
    (h : PhaseInv t kernel cursor phase) : PhaseInv t' kernel cursor phase := by
  have grows := maxRev_mono log log' grown
  match phase, h with
  | .idle, _ => trivial
  | .answered (.full _ _) _, ⟨le, newest, isAt⟩ => exact ⟨le, newest.trans grows, isAt.mono grown⟩
  | .answered (.delta _) _, leads => exact Leads.mono log log' grown leads
  | .prepared _ _ _, ready =>
      exact ⟨ready.cursor_le, ready.newest.trans grows, ready.target.mono grown,
        fun a isAdd present => (ready.readd a isAdd present).mono grown⟩
  | .storing _, newest => exact le_trans newest grows

/-- The backend may recompute at any moment. -/
theorem Inv.recompute {w : World} (inv : Inv w) (order : MapOrder Member) (now : Time)
    (desired : AList fun _ : Addr => AccountId) :
    Inv { w with tables := AuthzTables.recompute order now desired w.tables } := by
  have grown := (recompute_appends order now desired w.tables).extends
  have healthy := inv.healthy.recompute order now desired
  exact ⟨healthy, inv.cursor_le.trans (maxRev_mono inv.healthy.log healthy.log grown),
    inv.kernel.mono grown, phaseInv_extends inv.healthy.log healthy.log grown inv.phase⟩

theorem Inv.setUsage {w : World} (inv : Inv w) (usage : UsagePhase) : Inv { w with usage } :=
  ⟨inv.healthy, inv.cursor_le, inv.kernel, inv.phase⟩

theorem phaseInv_writeAuthz {t : AuthzTables} (healthy : Healthy t) {cursor : Int}
    (le : cursor ≤ t.maxRev) (kernel : Finset Addr) (order : MapOrder Member)
    (deltaOrder : MapOrder (Σ _ : Addr, Revision)) (full force : Bool) :
    PhaseInv t kernel cursor (.answered (writeAuthz order deltaOrder t cursor full) force) := by
  have fullAnswer : PhaseInv t kernel cursor
      (.answered (.full (fullSet order t).1 (fullSet order t).2) force) :=
    ⟨le, le_rfl, isAt_fullSet healthy.log order⟩
  unfold writeAuthz
  split
  · exact fullAnswer
  · split
    · rename_i d answered
      exact leads_of_isDelta healthy (isDelta_of_deltaSince answered) le
    · exact fullAnswer

theorem ready_of_isAt {t : AuthzTables} {kernel desired : Finset Addr} {cursor rev : Int}
    (le : cursor ≤ rev) (newest : rev ≤ t.maxRev) (isAt : IsAt t desired rev) :
    Ready t kernel cursor (desired \ kernel) (kernel \ desired) rev where
  cursor_le := le
  newest := newest
  target := by
    have whole : (kernel ∪ desired \ kernel) \ (kernel \ desired) = desired := by
      ext a
      simp only [Finset.mem_sdiff, Finset.mem_union]
      tauto
    rw [whole]
    exact tracks_of_isAt isAt
  readd := fun a isAdd present => absurd present (Finset.mem_sdiff.mp isAdd).2

theorem ready_of_leads {t : AuthzTables} (log : LogInv t) {kernel : Finset Addr} {cursor : Int}
    {d : Delta} (leads : Leads t cursor d) (tracks : Tracks t kernel cursor) :
    Ready t kernel cursor (d.add.map (·.addr)).toFinset (presentOnly kernel d.del) d.rev where
  cursor_le := leads.cursor_le
  newest := leads.newest
  target := by
    refine ⟨leads.newest.trans (maxRev_le_revSeq log), fun a => ?_⟩
    simp only [presentOnly, Finset.mem_sdiff, Finset.mem_union, Finset.mem_inter,
      List.mem_toFinset]
    rcases leads.verdict a with ⟨notAdd, notDel, quiet⟩ | ⟨add, notDel, auth, -⟩ |
      ⟨notAdd, del, auth, -⟩
    · -- no row up to the answer's revision: as the kernel set was at the cursor
      rcases tracks.mem_iff a with ⟨r, member, same, isAbove⟩ | same
      · exact .inl ⟨r, member, same, quiet r member same isAbove⟩
      · refine .inr ?_
        rw [← authorized_congr leads.cursor_le quiet, ← same]
        tauto
    · exact .inr (by tauto)
    · exact .inr (by tauto)
  readd := by
    intro a isAdd _
    rcases leads.verdict a with ⟨notAdd, -, -⟩ | ⟨-, -, -, row⟩ | ⟨notAdd, -, -, -⟩
    · exact absurd (List.mem_toFinset.mp isAdd) notAdd
    · exact row
    · exact absurd (List.mem_toFinset.mp isAdd) notAdd

theorem ready_prepareAuthz {t : AuthzTables} (log : LogInv t) {cfg : Config}
    {kernel add del : Finset Addr} {cursor rev : Int} {answer : Answer} {force : Bool}
    (phase : PhaseInv t kernel cursor (.answered answer force)) (tracks : Tracks t kernel cursor)
    (batch : prepareAuthz cfg kernel cursor force answer = some (add, del, rev)) :
    Ready t kernel cursor add del rev := by
  cases answer with
  | full addresses rev =>
      obtain ⟨le, newest, isAt⟩ := phase
      simp only [prepareAuthz] at batch
      split at batch <;> cases batch
      exact ready_of_isAt le newest isAt
  | delta d =>
      simp only [prepareAuthz] at batch
      split at batch <;> cases batch
      exact ready_of_leads log phase tracks

/-! ## Revocations that are not overtaken -/

/-- The revision the kernel set is being brought to. -/
def World.target (w : World) : Int :=
  match w.sync with
  | .prepared _ _ rev => rev
  | .storing rev => rev
  | _ => w.cursor

/-- The additions the sync loop has ready. -/
def World.pendingAdd (w : World) : Finset Addr :=
  match w.sync with
  | .prepared add _ _ => add
  | _ => ∅

/-- The condition on a step: when a revocation is applied, every address on it
that is authorized at the revision the agent is at, or about to be at, has a
later row in the log (or is about to be added again). -/
def NotOvertaken (w : World) : Event → Prop
  | .applyRevoke => ∀ del, w.usage = .prepared del → ∀ a ∈ del, a ∉ w.pendingAdd →
      Authorized w.tables w.target a → RowAbove w.tables w.target a
  | _ => True

/-- A revocation that is not overtaken spoils neither the kernel set nor the batch
the sync loop has ready. -/
theorem Inv.revoke {w : World} (inv : Inv w) {del : Finset Addr}
    (notOvertaken : ∀ a ∈ del, a ∉ w.pendingAdd →
      Authorized w.tables w.target a → RowAbove w.tables w.target a) :
    Inv { w with kernel := w.kernel \ del } := by
  obtain ⟨t, kernel, cursor, sync, usage⟩ := w
  obtain ⟨healthy, cursor_le, tracks, phase⟩ := inv
  cases sync with
  | idle =>
      exact ⟨healthy, cursor_le,
        tracks.sdiff fun a gone _ => notOvertaken a gone (by simp [World.pendingAdd]), phase⟩
  | answered answer force =>
      refine ⟨healthy, cursor_le,
        tracks.sdiff fun a gone _ => notOvertaken a gone (by simp [World.pendingAdd]), ?_⟩
      cases answer <;> exact phase
  | storing rev =>
      exact ⟨healthy, cursor_le,
        tracks.sdiff fun a gone _ => notOvertaken a gone (by simp [World.pendingAdd]), phase⟩
  | prepared add batchDel rev =>
      obtain ⟨le, newest, target, readd⟩ := phase
      -- the batch may still fail, so both the cursor and the answer's revision are at stake
      have atCursor : Tracks t (kernel \ del) cursor := by
        refine tracks.sdiff fun a gone present authorized => ?_
        by_cases isAdd : a ∈ add
        · exact readd a isAdd present
        · by_cases still : Authorized t rev a
          · exact (notOvertaken a gone isAdd still).lower le
          · exact rowAbove_of_ne le fun same => still (same.mp authorized)
      have atTarget : Tracks t ((kernel \ del ∪ add) \ batchDel) rev := by
        have split : (kernel \ del ∪ add) \ batchDel =
            ((kernel ∪ add) \ batchDel) \ (del \ add) := by
          ext a
          simp only [Finset.mem_sdiff, Finset.mem_union]
          tauto
        rw [split]
        refine target.sdiff fun a gone _ => ?_
        exact notOvertaken a (Finset.mem_sdiff.mp gone).1 (Finset.mem_sdiff.mp gone).2
      exact ⟨healthy, cursor_le, atCursor, le, newest, atTarget,
        fun a isAdd present => readd a isAdd (Finset.mem_sdiff.mp present).1⟩

/-- Dropping an answer leaves the agent where its cursor says it is. -/
theorem Inv.setIdle {w : World} (inv : Inv w) (here : w.position = w.cursor) :
    Inv { w with sync := .idle } :=
  ⟨inv.healthy, inv.cursor_le, here ▸ inv.kernel, trivial⟩

/-- **Every event keeps the kernel set on the timeline of the log**, provided the
revocations are not overtaken. -/
theorem step_inv (cfg : Config) (w : World) (e : Event) (w' : World) (inv : Inv w)
    (notOvertaken : NotOvertaken w e) (taken : step cfg w e = some w') : Inv w' := by
  cases e with
  | recompute order now desired =>
      cases taken
      exact inv.recompute order now desired
  | ingest order now desired =>
      simp only [step] at taken
      split at taken <;> cases taken
      exact (inv.recompute order now desired).setUsage _
  | answer full force order deltaOrder =>
      simp only [step] at taken
      split at taken <;> cases taken
      rename_i idle
      have tracks := inv.kernel
      simp only [World.position, idle] at tracks
      exact ⟨inv.healthy, inv.cursor_le, tracks,
        phaseInv_writeAuthz inv.healthy inv.cursor_le w.kernel order deltaOrder full force⟩
  | prepare =>
      simp only [step] at taken
      split at taken
      · rename_i answer force answered
        have here : w.position = w.cursor := by simp [World.position, answered]
        split at taken
        · rename_i add del rev batch
          cases taken
          have phase := inv.phase
          rw [answered] at phase
          exact ⟨inv.healthy, inv.cursor_le, here ▸ inv.kernel,
            ready_prepareAuthz inv.healthy.log phase (here ▸ inv.kernel) batch⟩
        · cases taken
          exact inv.setIdle here
      · cases taken
  | apply =>
      simp only [step] at taken
      split at taken
      · rename_i add del rev prepared
        have ready := inv.phase
        rw [prepared] at ready
        split at taken
        · rename_i kernel applied
          cases taken
          simp only [applyAuthorized] at applied
          split at applied <;> cases applied
          exact ⟨inv.healthy, inv.cursor_le, ready.target, ready.newest⟩
        · cases taken
          exact inv.setIdle (by simp [World.position, prepared])
      · cases taken
  | store =>
      simp only [step] at taken
      split at taken <;> cases taken
      rename_i rev storing
      have tracks := inv.kernel
      have newest := inv.phase
      simp only [World.position, storing] at tracks
      rw [storing] at newest
      exact ⟨inv.healthy, newest, tracks, trivial⟩
  | prepareRevoke =>
      simp only [step] at taken
      split at taken
      · split at taken <;> cases taken <;> exact inv.setUsage _
      · cases taken
  | applyRevoke =>
      simp only [step] at taken
      split at taken
      · rename_i del prepared
        split at taken
        · rename_i kernel applied
          cases taken
          simp only [applyAuthorized, Finset.union_empty] at applied
          split at applied <;> cases applied
          exact (inv.revoke (notOvertaken del prepared)).setUsage _
        · cases taken
          exact inv.setUsage _
      · cases taken

/-! ## Agreement -/

/-- The agent is at rest and its kernel set is `authz_current` at its cursor. -/
structure Synced (w : World) : Prop where
  healthy : Healthy w.tables
  cursor_le : w.cursor ≤ w.tables.maxRev
  isAt : IsAt w.tables w.kernel w.cursor
  sync : w.sync = .idle
  usage : w.usage = .idle

theorem Synced.inv {w : World} (synced : Synced w) : Inv w := by
  have here : w.position = w.cursor := by simp [World.position, synced.sync]
  exact ⟨synced.healthy, synced.cursor_le, here ▸ tracks_of_isAt synced.isAt,
    by rw [synced.sync]; trivial⟩

/-- **Inline revocations and delta sync agree**, along every run in which no
revocation is applied after it has been overtaken: whenever nothing is in flight
or unapplied and the cursor is the backend's revision, the kernel set is
`authz_current`. -/
theorem inline_revocations_agree (cfg : Config) (w₀ : World) (synced : Synced w₀)
    (es : List Event) (w : World) (reached : run (step cfg) w₀ es = some w)
    (notOvertaken : Meets (step cfg) NotOvertaken w₀ es)
    (atRest : w.sync = .idle ∧ w.usage = .idle) (current : w.cursor = w.tables.maxRev) :
    w.kernel = w.tables.keys := by
  have inv : Inv w := notOvertaken.run_invariant (step_inv cfg) synced.inv reached
  have tracks := inv.kernel
  simp only [World.position, atRest.1, current] at tracks
  exact tracks.eq_keys inv.healthy.log

/-- A customer's address, and a node that has it at revision 1. -/
def customer : Addr := firstAddr

def node : World where
  tables := AuthzTables.recompute .id 1 (AList.singleton customer 7) AuthzTables.empty
  kernel := {customer}
  cursor := 1
  sync := .idle
  usage := .idle

theorem node_synced : Synced node where
  healthy := empty_healthy.recompute _ _ _
  cursor_le := by decide
  isAt := by
    refine isAt_maxRev (recompute_logInv empty_logInv _ _ _) fun a => ?_
    rw [keys_recompute]
    rfl
  sync := rfl
  usage := rfl

/-- The quota runs out, the revocation is applied at once, the customer tops up
and the next delta brings the address back. -/
def revokedInTime : List Event :=
  [.ingest .id 2 ∅, .prepareRevoke, .applyRevoke, .recompute .id 3 (AList.singleton customer 7),
    .answer false false .id .id, .prepare, .apply, .store]

theorem inline_revocations_agree_revokedInTime :
    ∃ w, run (step ⟨50, false⟩) node revokedInTime = some w ∧ customer ∈ w.kernel ∧
      w.kernel = w.tables.keys := by
  refine ⟨_, rfl, by decide,
    inline_revocations_agree ⟨50, false⟩ node node_synced revokedInTime _ rfl ?_ ⟨rfl, rfl⟩ rfl⟩
  refine meets_cons trivial fun w₁ h₁ => ?_
  cases h₁
  refine meets_cons trivial fun w₂ h₂ => ?_
  cases h₂
  refine meets_cons ?_ fun w₃ h₃ => ?_
  · intro del listed a gone _ _
    cases listed
    have same : a = customer := by simpa [presentOnly, node] using (Finset.mem_inter.mp gone).2
    exact ⟨⟨2, .del, customer, 7, 2⟩, by decide, same.symm, by decide⟩
  · cases h₃
    -- no further revocation is applied
    refine meets_of_forall fun e member w => ?_
    cases e with
    | applyRevoke => simp at member
    | _ => trivial

/-- As before, but the revocation is delivered late. -/
def overtaken : List Event :=
  [.ingest .id 2 ∅, .recompute .id 3 (AList.singleton customer 7),
    .answer false false .id .id, .prepare, .apply, .store, .prepareRevoke, .applyRevoke]

/-- **A revocation overtaken by a top-up locks a paying customer out**: everything
is applied, the cursor is the backend's revision, and the kernel set is not
`authz_current`. -/
theorem overtaken_revoke_diverges :
    Synced node ∧ ∃ w, run (step ⟨50, false⟩) node overtaken = some w ∧
      w.sync = .idle ∧ w.usage = .idle ∧ w.cursor = w.tables.maxRev ∧
      customer ∈ w.tables.keys ∧ customer ∉ w.kernel :=
  ⟨node_synced, _, rfl, rfl, rfl, by decide, by decide, by decide⟩

end FipsExitGate.InlineRevoke
