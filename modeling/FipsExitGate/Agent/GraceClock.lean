import FipsExitGate.Agent.SyncLoop

/-!
# The grace clock across restarts

The agent fails closed when the backend has been silent for longer than the grace window.  The
clock for that is in memory, set by every good round, and in the state file, where `markAuthzOK`
writes it at most once a minute.  A process starts with the clock of the file, or with its own
start if there is none.  So the clock may be behind the last good round when a process begins,
but not by more than a minute, and `graceCheck` waits for `startupGrace` before it acts on it.

## The argument

Two facts are kept by every step.  The file is less than a minute behind every good round
(`ClockInv.past`): a round that does not write finds a file that is younger.  The clock in
memory is not behind a good round of its own process, and less than a minute behind those of
earlier processes (`Sitting`): a start takes over the first fact, and from then on the clock
only moves to a reading that is not before any round.

## Main results

* `clockInv_step` — the two facts, and that every flush so far was due
* `no_premature_flush` — a flush at time `t` comes from a process that has been up for
  `startupGrace`, with no good round since `t - grace`, nor one of an earlier process since a
  minute later
-/

namespace FipsExitGate.Agent

open Machine Program

/-- The times of the good rounds in a journal. -/
def goodTimes (journal : List Entry) : List Time :=
  journal.filterMap Entry.good

/-- **A flush at time `t` was due**, with the journal before it cut at the last start. -/
def Mature (grace t : Time) (past : List Entry) : Prop :=
  ∃ mine start earlier, past = mine ++ .started start :: earlier ∧
    (∀ s, .started s ∉ mine) ∧
    startupGrace grace ≤ t - start ∧
    (∀ g ∈ goodTimes mine, g < max start (t - grace)) ∧
    (∀ g ∈ goodTimes earlier, g ≤ t - grace + persistAuthzOKEvery)

/-- What a process knows: all of its own rounds, and those of earlier ones but for a minute. -/
def Sitting (p : SyncProcess) (journal : List Entry) : Prop :=
  ∃ mine earlier, journal = mine ++ .started p.startedAt :: earlier ∧
    (∀ s, .started s ∉ mine) ∧
    (∀ g ∈ goodTimes mine, g ≤ p.lastAuthzOK) ∧
    (∀ g ∈ goodTimes earlier, g < p.lastAuthzOK + persistAuthzOKEvery)

/-- The runtime in memory and the one in the file agree about the clock. -/
def StateStore.ClockInSync (s : StateStore) : Prop :=
  s.persisted.lastAuthzOK = s.rt.lastAuthzOK

structure ClockInv (grace : Time) (n : SyncNode) : Prop where
  clock : zeroTime < n.clock
  past : ∀ g ∈ goodTimes n.journal,
    g ≤ n.clock ∧ g < n.store.persisted.lastAuthzOK + persistAuthzOKEvery
  inSync : ∀ p ∈ n.process, n.store.ClockInSync
  started : ∀ p ∈ n.process, zeroTime < p.startedAt
  sitting : ∀ p ∈ n.process, Sitting p n.journal
  due : ∀ t past, .flushed t :: past <:+ n.journal → Mature grace t past

theorem SyncNode.Initial.clockInv {n : SyncNode} (h : n.Initial) (grace : Time) :
    ClockInv grace n where
  clock := h.clock
  past g member := absurd member (by simp [h.nothing, goodTimes])
  inSync p up := absurd up (by simp [h.down])
  started p up := absurd up (by simp [h.down])
  sitting p up := absurd up (by simp [h.down])
  due t past before := absurd before (by simp [h.nothing])

/-! ## The store -/

/-- The writes other than that of the clock leave it alone. -/
def Mutation.keepsClock : Mutation → Prop
  | .markAuthzOK _ => False
  | _ => True

theorem Mutation.keepsClock.lastAuthzOK_apply {m : Mutation} (keeps : m.keepsClock)
    (rt : NodeRuntime) : (m.apply rt).lastAuthzOK = rt.lastAuthzOK := by
  cases m with
  | markAuthzOK now => exact keeps.elim
  | applyAuthz | collectAndBuffer | flushBuffer => rfl

theorem clockInSync_withRuntime (m : Mutation) (s : StateStore) :
    (withRuntime m none s).2.ClockInSync := by
  unfold StateStore.ClockInSync
  rw [persisted_withRuntime_none]
  rfl

section Steps

variable {grace : Time} {n : SyncNode} {p : SyncProcess}

/-- A write of another part of the runtime. -/
theorem ClockInv.write (inv : ClockInv grace n) (up : n.process = some p) {m : Mutation}
    (keeps : m.keepsClock) (kernel : AddrSet) :
    ClockInv grace { n with kernel := kernel, store := (withRuntime m none n.store).2 } := by
  have same : (withRuntime m none n.store).2.persisted.lastAuthzOK =
      n.store.persisted.lastAuthzOK := by
    rw [persisted_withRuntime_none, keeps.lastAuthzOK_apply]
    exact (inv.inSync p up).symm
  refine ⟨inv.clock, ?_, fun _ _ => clockInSync_withRuntime m n.store, inv.started, inv.sitting,
    inv.due⟩
  show ∀ g ∈ goodTimes n.journal, g ≤ n.clock ∧
    g < (withRuntime m none n.store).2.persisted.lastAuthzOK + persistAuthzOKEvery
  rw [same]
  exact inv.past

/-- A process that goes on with the same clock, and logs nothing. -/
theorem ClockInv.goOn (inv : ClockInv grace n) (up : n.process = some p) {later : Time}
    (forward : n.clock ≤ later) (kernel : AddrSet) {p' : SyncProcess}
    (sameStart : p'.startedAt = p.startedAt) (sameClock : p'.lastAuthzOK = p.lastAuthzOK) :
    ClockInv grace { n with clock := later, kernel := kernel, process := some p' } where
  clock := lt_of_lt_of_le inv.clock forward
  past g member := ⟨(inv.past g member).1.trans forward, (inv.past g member).2⟩
  inSync _ _ := inv.inSync p up
  started := by
    rintro _ ⟨⟩
    rw [sameStart]
    exact inv.started p up
  sitting := by
    rintro _ ⟨⟩
    unfold Sitting
    rw [sameStart, sameClock]
    exact inv.sitting p up
  due := inv.due

/-- A new entry that is not a flush leaves the old flushes. -/
theorem due_cons (due : ∀ t past, .flushed t :: past <:+ n.journal → Mature grace t past)
    {entry : Entry} (other : ∀ t, entry ≠ .flushed t) :
    ∀ t past, .flushed t :: past <:+ entry :: n.journal → Mature grace t past := by
  intro t past suffix
  rcases List.suffix_cons_iff.mp suffix with whole | older
  · exact absurd (List.cons.inj whole).1.symm (other t)
  · exact due t past older

/-- **A good round**: the clock moves to its time, and the file is at most a minute behind. -/
theorem ClockInv.markAuthzOK (inv : ClockInv grace n) (up : n.process = some p)
    {now later : Time} (forward : n.clock ≤ now) (after : now ≤ later) {p' : SyncProcess}
    (sameStart : p'.startedAt = p.startedAt) {entry : Entry} (good : entry.good = some now) :
    ClockInv grace (n.markAuthzOK now later p' entry) := by
  have notFlush : ∀ t, entry ≠ .flushed t := by
    rintro t rfl
    cases good
  have notStart : ∀ t, .started t ≠ entry := by
    rintro t rfl
    cases good
  have times : goodTimes (entry :: n.journal) = now :: goodTimes n.journal := by
    simp [goodTimes, good]
  have before : ∀ g ∈ goodTimes n.journal, g ≤ now := fun g member =>
    (inv.past g member).1.trans forward
  have minutePos : 0 < persistAuthzOKEvery := by decide
  have young : now < (n.markAuthzOK now later p' entry).store.persisted.lastAuthzOK +
        persistAuthzOKEvery ∧
      (n.markAuthzOK now later p' entry).store.ClockInSync := by
    unfold SyncNode.markAuthzOK
    split
    next stale =>
      refine ⟨?_, clockInSync_withRuntime _ _⟩
      show now < (withRuntime (.markAuthzOK now) none n.store).2.persisted.lastAuthzOK + _
      rw [persisted_withRuntime_none]
      exact Int.lt_add_of_pos_right now minutePos
    next fresh =>
      have same : n.store.persisted.lastAuthzOK = n.store.rt.lastAuthzOK := inv.inSync p up
      refine ⟨?_, same⟩
      show now < n.store.persisted.lastAuthzOK + _
      rw [same]
      exact lt_add_of_sub_left_lt (not_le.mp fresh)
  refine ⟨lt_of_lt_of_le inv.clock (forward.trans after), ?_, fun _ _ => young.2, ?_, ?_,
    due_cons inv.due notFlush⟩
  · show ∀ g ∈ goodTimes (entry :: n.journal), g ≤ later ∧ _
    rw [times]
    have all : ∀ g ∈ now :: goodTimes n.journal, g ≤ now := by
      simpa using before
    exact fun g member =>
      ⟨(all g member).trans after, lt_of_le_of_lt (all g member) young.1⟩
  · rintro _ ⟨⟩
    show zeroTime < p'.startedAt
    rw [sameStart]
    exact inv.started p up
  · rintro _ ⟨⟩
    obtain ⟨mine, earlier, split, noStart, -, -⟩ := inv.sitting p up
    have parts : goodTimes n.journal = goodTimes mine ++ goodTimes earlier := by
      rw [split, goodTimes, List.filterMap_append, List.filterMap_cons_none rfl]
      rfl
    rw [parts] at before
    refine ⟨entry :: mine, earlier, ?_, ?_, ?_, ?_⟩
    · show entry :: n.journal = entry :: mine ++ .started p'.startedAt :: earlier
      rw [split, sameStart, List.cons_append]
    · intro s member
      rcases List.mem_cons.mp member with here | there
      · exact notStart s here
      · exact noStart s there
    · intro g member
      rw [goodTimes, List.filterMap_cons_some good, List.mem_cons] at member
      rcases member with rfl | member
      · exact le_rfl
      · exact before g (List.mem_append_left _ member)
    · intro g member
      have notLater : g ≤ now := before g (List.mem_append_right _ member)
      exact lt_of_le_of_lt notLater (Int.lt_add_of_pos_right now minutePos)

/-- **A flush is due**: the clock in memory is behind by more than the window, and so is every
round it stands for. -/
theorem Sitting.mature (sits : Sitting p n.journal) (started : zeroTime < p.startedAt)
    {now : Time} (silent : grace < now - p.lastAuthzOK)
    (settled : p.startedAt = zeroTime ∨ startupGrace grace ≤ now - p.startedAt) :
    Mature grace now n.journal := by
  obtain ⟨mine, earlier, split, noStart, own, others⟩ := sits
  refine ⟨mine, p.startedAt, earlier, split, noStart, ?_, ?_, ?_⟩
  · exact settled.resolve_left started.ne'
  · intro g member
    have known : g ≤ p.lastAuthzOK := own g member
    exact lt_max_of_lt_right (lt_of_le_of_lt known (lt_sub_comm.mp silent))
  · intro g member
    have known : g < p.lastAuthzOK + persistAuthzOKEvery := others g member
    have behind : p.lastAuthzOK < now - grace := lt_sub_comm.mp silent
    exact (known.trans (Int.add_lt_add_right behind _)).le

theorem ClockInv.flush (inv : ClockInv grace n) {now : Time} (mature : Mature grace now n.journal) :
    ClockInv grace { n with journal := .flushed now :: n.journal } := by
  refine ⟨inv.clock, inv.past, inv.inSync, inv.started, ?_, ?_⟩
  · intro p up
    obtain ⟨mine, earlier, split, noStart, own, others⟩ := inv.sitting p up
    refine ⟨.flushed now :: mine, earlier, by simp [split], ?_, own, others⟩
    intro s member
    rcases List.mem_cons.mp member with here | there
    · cases here
    · exact noStart s there
  · intro t past suffix
    rcases List.suffix_cons_iff.mp suffix with whole | older
    · obtain ⟨⟨⟩, rfl⟩ := List.cons.inj whole
      exact mature
    · exact inv.due t past older

/-- **A start** takes over the file's clock, or begins one if there is none. -/
theorem ClockInv.start (inv : ClockInv grace n) {now : Time} (forward : n.clock ≤ now) :
    ClockInv grace
      { n with
        clock := now
        store := n.store.restart
        process := some (.init n.store.restart.rt now)
        journal := .started now :: n.journal } := by
  obtain ⟨loaded, file⟩ := restart_eq n.store
  have minutePos : 0 < persistAuthzOKEvery := by decide
  refine ⟨lt_of_lt_of_le inv.clock forward, ?_, ?_, ?_, ?_, due_cons inv.due nofun⟩
  · intro g member
    obtain ⟨notLater, behind⟩ := inv.past g member
    exact ⟨notLater.trans forward, by rw [file]; exact behind⟩
  · intro _ _
    show n.store.restart.persisted.lastAuthzOK = n.store.restart.rt.lastAuthzOK
    rw [file, loaded]
  · rintro _ ⟨⟩
    exact lt_of_lt_of_le inv.clock forward
  · rintro _ ⟨⟩
    refine ⟨[], n.journal, rfl, by simp, by simp [goodTimes], ?_⟩
    intro g member
    obtain ⟨notLater, behind⟩ := inv.past g member
    simp only [SyncProcess.init, loaded]
    split
    · exact lt_of_le_of_lt (notLater.trans forward) (Int.lt_add_of_pos_right now minutePos)
    · exact behind

theorem startedAt_pulled (now : Time) (p : SyncProcess) :
    (p.pulled now).startedAt = p.startedAt := by
  unfold SyncProcess.pulled
  split <;> rfl

/-- The rest of a round. -/
theorem ClockInv.answer (inv : ClockInv grace n) (up : n.process = some p) {cfg : SyncConfig}
    {req : AuthzRequest} {now later : Time} (forward : n.clock ≤ now) (after : now ≤ later)
    (nft : Nft) (reply : Reply) :
    ClockInv grace (n.answer cfg p req now later grace nft reply) := by
  have forward' : n.clock ≤ later := forward.trans after
  cases reply with
  | unchanged => exact inv.markAuthzOK up forward' le_rfl (startedAt_pulled now p) rfl
  | failed =>
      simp only [SyncNode.answer]
      have quiet (kernel : AddrSet) : ClockInv grace
          { n with clock := later, kernel := kernel, process := some { p with request := none } } :=
        inv.goOn up forward' kernel rfl rfl
      split
      next flushed =>
        obtain ⟨silent, -, settled⟩ := graceCheck_flushed flushed
        exact (quiet _).flush ((inv.sitting p up).mature (inv.started p up) silent settled)
      next => exact quiet _
  | response resp =>
      simp only [SyncNode.answer]
      split
      next st _ =>
        have written := inv.write up (m := .applyAuthz st.authzRev) trivial st.kernel
        exact written.markAuthzOK up forward' le_rfl (startedAt_pulled now p) rfl
      next =>
        refine inv.markAuthzOK up forward after ?_ rfl
        split <;> rfl
      next => exact inv.markAuthzOK up forward after (by rfl) (by rfl)
      next => exact inv.goOn up forward' n.kernel rfl rfl

end Steps

/-- The grace window is the same in all events. -/
def SyncEvent.hasGrace (grace : Time) : SyncEvent → Prop
  | .answer _ _ g _ _ => g = grace
  | _ => True

theorem clockInv_step {cfg : SyncConfig} {grace : Time} {n n' : SyncNode} {e : SyncEvent}
    (inv : ClockInv grace n) (constant : e.hasGrace grace) (last : syncStep cfg n e = some n') :
    ClockInv grace n' := by
  cases e with
  | start now =>
      obtain ⟨forward, rfl⟩ := of_syncStep_start last
      exact inv.start forward
  | stop =>
      obtain ⟨p, up, rfl⟩ := Option.map_eq_some_iff.mp last
      exact ⟨inv.clock, inv.past, nofun, nofun, nofun, inv.due⟩
  | requestResync =>
      obtain ⟨p, up, rfl⟩ := Option.map_eq_some_iff.mp last
      exact inv.goOn up le_rfl n.kernel rfl rfl
  | collectAndBuffer | flushBuffer =>
      obtain ⟨p, up, rfl⟩ := Option.map_eq_some_iff.mp last
      refine inv.write up ?_ n.kernel
      trivial
  | revoke addrs =>
      obtain ⟨p, up, rfl⟩ := Option.map_eq_some_iff.mp last
      exact ⟨inv.clock, inv.past, inv.inSync, inv.started, inv.sitting, inv.due⟩
  | poll now =>
      obtain ⟨p, up, forward, rfl⟩ := of_syncStep_poll last
      exact inv.goOn up forward n.kernel rfl rfl
  | answer now later g nft reply =>
      obtain rfl : g = grace := constant
      obtain ⟨p, req, up, -, forward, after, rfl⟩ := of_syncStep_answer last
      exact inv.answer up forward after nft reply

/-- **No premature flush.**  In every run, through any number of starts and stops, a flush at
time `t` comes from a process that has been up for `startupGrace` and has had no good round since
`t - grace`; no earlier process had one after `t - grace` and a minute. -/
theorem no_premature_flush (cfg : SyncConfig) (grace : Time) {n₀ : SyncNode}
    (initial : n₀.Initial) (es : List SyncEvent) (constant : ∀ e ∈ es, e.hasGrace grace)
    {n : SyncNode} (h : Machine.run (syncStep cfg) n₀ es = some n) {t : Time} {past : List Entry}
    (flushed : .flushed t :: past <:+ n.journal) : Mature grace t past := by
  have meets : Meets (syncStep cfg) (fun _ e => e.hasGrace grace) n₀ es :=
    meets_of_forall fun e member _ => constant e member
  have inv : ClockInv grace n :=
    meets.run_invariant (fun _ _ _ inv constant last => clockInv_step inv constant last)
      (initial.clockInv grace) h
  exact inv.due t past flushed

/-- A restart in the middle of an outage does not start the window anew. -/
def restartedOutage : List SyncEvent :=
  [.start 0, .poll 0, answerAfter 0 oneCustomer, .stop, .start (235 * minute),
    .poll (235 * minute), answerAfter 241 .failed, .poll (241 * minute), answerAfter 246 .failed]

/-- The first failure after the restart is past the window, but the process is too young. -/
theorem no_premature_flush_restarted :
    ∃ n, Machine.run (syncStep (failClosedConfig 300)) bareNode restartedOutage = some n ∧
      n.journal = [.flushed (246 * minute), .started (235 * minute), .applied 0 true, .started 0] ∧
      Mature (240 * minute) (246 * minute)
        [.started (235 * minute), .applied 0 true, .started 0] :=
  ⟨_, rfl, rfl, no_premature_flush (failClosedConfig 300) (240 * minute) bareNode_initial
    restartedOutage (by simp [restartedOutage, answerAfter, SyncEvent.hasGrace]) rfl
    (List.suffix_refl _)⟩

end FipsExitGate.Agent
