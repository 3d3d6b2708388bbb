import FipsExitGate.Agent.Authz
import FipsExitGate.Agent.Durability

/-!
# The sync loop

`runSync` of `agent.go` over whole lives of the agent: processes start, poll, take answers and
stop, in any order, and the state file, the kernel's set and the clock outlive them.  With
`initLastAuthzOK`, `startupGrace`, `markAuthzOK`, `graceCheck` and `takeResync`, and the
backend's handler of the poll.

When the backend has been silent for longer than the grace window, `graceCheck` may fail
closed: it empties the set.  The loop then goes on as before.  If no full pull is due it asks
for what has changed since its cursor, the backend answers that nothing has, and the loop marks
the round as a success with an empty set in the kernel.

## Design notes

* `clock` is the last reading of `a.now()`; a later reading is not before it.  Between the
  answer and the end of the round the code reads the clock twice, `now` and `later`.
* The grace window is part of the event: the heartbeat loop may have changed it.  It is the
  `time.Duration`, whatever `GraceMinutes` has come to.
* The state file is written as in `Agent.Durability`, without faults.  Each call of the loop
  (`applyAuthz`, `graceCheck`, `markAuthzOK`) is one step; the heartbeat loop and the usage loop
  run between them.
* `journal` is a ghost: what the rounds have come to, the newest first.  Metrics, the backoff and
  the log are left out.

## Main results

* `served_authz` — the handler never answers a full pull with "unchanged" or a delta
* `flush_repaired` — if a full pull is due at the first poll after a flush, the next success is
  an applied full set
* `flush_left_empty` — it is not due if the periodic pull is switched off
-/

namespace FipsExitGate.Agent

open Machine Program

/-! ## The poll and its handler -/

/-- The parameters of `getAuthz`, and the cursor at the time. -/
structure AuthzRequest where
  rev : Int
  full : Bool
  persisted : Int
  deriving DecidableEq

/-- What `getAuthz` returns: `errUnchanged`, another error, or a response. -/
inductive Reply where
  | unchanged
  | failed
  | response (resp : AuthzResponse)

/-- The body that `writeAuthz` writes; `force` is the backend's `allowMassRevoke`. -/
def responseOf (force : Bool) : Answer → AuthzResponse
  | .full addresses rev => ⟨rev, true, addresses, [], [], force⟩
  | .delta d => ⟨d.rev, false, [], d.add, d.del, false⟩

/-- One pass of the handler's loop: what `CurrentRev` returns, and the tables that `writeAuthz`
would read; `none` is an error of the database. -/
structure Look where
  cur : Option Int
  tables : Option AuthzTables

section Handler

variable (force : Bool) (order : MapOrder Member) (deltaOrder : MapOrder (Σ _ : Addr, Revision))

/-- `handlers.authz`, with the passes it makes before the deadline. -/
def authz (clientRev : Int) (full : Bool) : List Look → Reply
  | [] => .unchanged
  | look :: looks =>
      match look.cur with
      | none => .failed
      | some cur =>
          if full || clientRev ≠ cur then
            match look.tables with
            | none => .failed
            | some t => .response (responseOf force (writeAuthz order deltaOrder t clientRev full))
          else authz clientRev full looks

/-- The replies that a request can get: a full pull is not answered with "unchanged" or a
delta.  Any request can fail. -/
def Served (req : AuthzRequest) : Reply → Prop
  | .unchanged => req.full = false
  | .failed => True
  | .response resp => req.full = true → resp.full = true

/-- **A full pull gets the full set or an error.**  The handler makes at least one pass. -/
theorem served_authz (req : AuthzRequest) (look : Look) (looks : List Look) :
    Served req (authz force order deltaOrder req.rev req.full (look :: looks)) := by
  cases full : req.full with
  | true =>
      unfold authz
      cases look.cur with
      | none => trivial
      | some cur =>
          simp only [Bool.true_or, if_true]
          cases look.tables with
          | none => trivial
          | some t =>
              intro _
              simp [writeAuthz, responseOf]
  | false =>
      generalize authz force order deltaOrder req.rev false (look :: looks) = reply
      cases reply with
      | unchanged => exact full
      | failed => trivial
      | response resp => exact fun asked => absurd (full.symm.trans asked) nofun

end Handler

/-! ## The process -/

/-- The settings of the sync loop. -/
structure SyncConfig where
  fullSyncEvery : Time
  failClosedAfterGrace : Bool
  guard : GuardConfig

/-- What a process keeps in memory: the agent's clock, and the variables of `runSync`. -/
structure SyncProcess where
  lastAuthzOK : Time
  startedAt : Time
  forceResync : Bool
  forceFull : Bool
  lastFull : Time
  /-- The poll that is under way. -/
  request : Option AuthzRequest
  deriving DecidableEq

/-- `initLastAuthzOK`, and the variables that `runSync` begins with. -/
def SyncProcess.init (rt : NodeRuntime) (now : Time) : SyncProcess where
  lastAuthzOK := if rt.lastAuthzOK = zeroTime then now else rt.lastAuthzOK
  startedAt := now
  forceResync := false
  forceFull := true
  lastFull := zeroTime
  request := none

/-- One minute. -/
def minute : Time := 60 * 1000000

/-- `startupGrace`: ten minutes, or half the grace window if that is shorter. -/
def startupGrace (grace : Time) : Time :=
  let half := grace.tdiv 2
  if 0 < half ∧ half < 10 * minute then half else 10 * minute

/-- A full pull is due: one is open, one is requested, or the last one is `fullSyncEvery` ago. -/
def SyncProcess.fullDue (cfg : SyncConfig) (now : Time) (p : SyncProcess) : Bool :=
  (p.forceFull || p.forceResync) ||
    (decide (0 < cfg.fullSyncEvery) && decide (cfg.fullSyncEvery ≤ now - p.lastFull))

/-- The head of the loop, up to the call of `getAuthz`. -/
def SyncProcess.poll (cfg : SyncConfig) (now : Time) (persisted : Int) (p : SyncProcess) :
    SyncProcess :=
  let forceFull := p.fullDue cfg now
  { p with
    forceResync := false
    forceFull := forceFull
    request := some ⟨if forceFull then 0 else persisted, forceFull, persisted⟩ }

/-- A full pull that has ended well. -/
def SyncProcess.pulled (now : Time) (p : SyncProcess) : SyncProcess :=
  if p.forceFull then { p with forceFull := false, lastFull := now } else p

/-- The backend has been silent for longer than the grace window. -/
def SyncProcess.over (grace now : Time) (p : SyncProcess) : Bool :=
  decide (grace < now - p.lastAuthzOK)

/-- This process has itself seen the backend fail for `startupGrace`. -/
def SyncProcess.settled (grace now : Time) (p : SyncProcess) : Bool :=
  decide (p.startedAt = zeroTime) || decide (startupGrace grace ≤ now - p.startedAt)

/-- `graceCheck`: whether it has failed closed, and what it leaves. -/
def graceCheck (cfg : SyncConfig) (grace now : Time) (nft : Nft) (p : SyncProcess)
    (st : AuthzState) : Bool × AuthzState :=
  if !p.over grace now || !cfg.failClosedAfterGrace || !p.settled grace now then (false, st)
  else
    match exec (listAuthorized nft) st with
    | (.error _, st) => (false, st)
    | (.ok current, st) =>
        if current.keys = [] then (false, st)
        else
          match exec (applyAuthorized nft [] (nft.currentOrder.reorder current.keys)) st with
          | (.error _, st) => (false, st)
          | (.ok _, st) => (true, st)

/-! ## The node -/

/-- What a round has come to, and when. -/
inductive Entry where
  | started (time : Time)
  /-- `errUnchanged`. -/
  | unchanged (time : Time)
  | applied (time : Time) (full : Bool)
  /-- A refused mass revoke or a regression: a deliberate hold. -/
  | held (time : Time)
  /-- `graceCheck` has failed closed. -/
  | flushed (time : Time)
  deriving DecidableEq

/-- An answer that the loop has taken as a success. -/
def Entry.accepted : Entry → Bool
  | .unchanged _ | .applied _ _ => true
  | _ => false

/-- The time of a round after which the loop has marked the backend as present. -/
def Entry.good : Entry → Option Time
  | .unchanged time | .applied time _ | .held time => some time
  | .started _ | .flushed _ => none

/-- A flush after which no answer was taken as a success. -/
def flushPending : List Entry → Bool
  | [] => false
  | .flushed _ :: _ => true
  | entry :: journal => !entry.accepted && flushPending journal

structure SyncNode where
  clock : Time
  store : StateStore
  kernel : AddrSet
  process : Option SyncProcess
  /-- Ghost: what the rounds have come to, the newest first. -/
  journal : List Entry

/-- Before the first start.  The directory and the set are as they may be; the clock has passed
the zero time, as the clock of a running system has. -/
structure SyncNode.Initial (n : SyncNode) : Prop where
  down : n.process = none
  nothing : n.journal = []
  clock : zeroTime < n.clock

/-- `markAuthzOK` at the end of a round, with what `runSync` leaves in its variables. -/
def SyncNode.markAuthzOK (n : SyncNode) (now later : Time) (p : SyncProcess) (entry : Entry) :
    SyncNode :=
  { n with
    clock := later
    store :=
      if persistAuthzOKEvery ≤ now - n.store.rt.lastAuthzOK then
        (withRuntime (.markAuthzOK now) none n.store).2
      else n.store
    process := some { p with lastAuthzOK := now, request := none }
    journal := entry :: n.journal }

/-- The rest of a round, once `getAuthz` has returned. -/
def SyncNode.answer (cfg : SyncConfig) (n : SyncNode) (p : SyncProcess) (req : AuthzRequest)
    (now later grace : Time) (nft : Nft) : Reply → SyncNode
  | .unchanged => n.markAuthzOK later later (p.pulled now) (.unchanged later)
  | .failed =>
      let (flushed, st) := graceCheck cfg grace now nft p ⟨n.kernel, n.store.rt.authzRev⟩
      { n with
        clock := later
        kernel := st.kernel
        process := some { p with request := none }
        journal := if flushed then .flushed now :: n.journal else n.journal }
  | .response resp =>
      match exec (applyAuthz cfg.guard nft resp) ⟨n.kernel, n.store.rt.authzRev⟩ with
      | (.ok _, st) =>
          { n with
            kernel := st.kernel
            store := (withRuntime (.applyAuthz st.authzRev) none n.store).2 }.markAuthzOK
              later later (p.pulled now) (.applied later resp.full)
      | (.error (.massRevoke _ _), _) =>
          -- with a cursor the delta log drives the set until the next periodic pull
          let p := if p.forceFull && decide (0 < req.persisted) then
            { p with forceFull := false, lastFull := later } else p
          n.markAuthzOK now later p (.held now)
      | (.error (.revRegression _ _), _) =>
          n.markAuthzOK now later { p with forceFull := true } (.held now)
      | (.error _, _) => { n with clock := later, process := some { p with request := none } }

inductive SyncEvent where
  | start (now : Time)
  | stop
  /-- `requestResync`, of the heartbeat loop. -/
  | requestResync
  /-- The usage loop writes its part of the runtime. -/
  | collectAndBuffer (bufferCap : Nat) (cur : Counters) (order : MapOrder Reading)
      (services : BitVec 16 → Option String) (reportId epoch windowEnd : String)
  | flushBuffer (reportId : String)
  /-- `applyRevocations`, of the usage loop. -/
  | revoke (addrs : List Addr)
  | poll (now : Time)
  | answer (now later grace : Time) (nft : Nft) (reply : Reply)

/-- One event; none of a process that is not there, and none before the last reading of the
clock. -/
def syncStep (cfg : SyncConfig) (n : SyncNode) : SyncEvent → Option SyncNode
  | .start now =>
      match n.process with
      | some _ => none
      | none =>
          if n.clock ≤ now then
            let store := n.store.restart
            some { n with
              clock := now
              store := store
              process := some (.init store.rt now)
              journal := .started now :: n.journal }
          else none
  | .stop => n.process.map fun _ => { n with process := none }
  | .requestResync =>
      n.process.map fun p => { n with process := some { p with forceResync := true } }
  | .collectAndBuffer bufferCap cur order services reportId epoch windowEnd =>
      let m := .collectAndBuffer bufferCap cur order services reportId epoch windowEnd
      n.process.map fun _ => { n with store := (withRuntime m none n.store).2 }
  | .flushBuffer reportId =>
      n.process.map fun _ =>
        { n with store := (withRuntime (.flushBuffer reportId) none n.store).2 }
  | .revoke addrs => n.process.map fun _ => { n with kernel := batch n.kernel [] addrs }
  | .poll now =>
      match n.process with
      | none => none
      | some p =>
          if n.clock ≤ now ∧ p.request = none then
            some { n with clock := now, process := some (p.poll cfg now n.store.rt.authzRev) }
          else none
  | .answer now later grace nft reply =>
      match n.process with
      | none => none
      | some p =>
          match p.request with
          | none => none
          | some req =>
              if n.clock ≤ now ∧ now ≤ later then
                some (n.answer cfg p req now later grace nft reply)
              else none

/-! ## What a step can do -/

section Inversion

variable {cfg : SyncConfig} {n n' : SyncNode}

theorem of_syncStep_start {now : Time} (last : syncStep cfg n (.start now) = some n') :
    n.clock ≤ now ∧
      n' = { n with
        clock := now
        store := n.store.restart
        process := some (.init n.store.restart.rt now)
        journal := .started now :: n.journal } := by
  simp only [syncStep] at last
  split at last
  · cases last
  · rw [Option.ite_none_right_eq_some] at last
    exact ⟨last.1, (Option.some.inj last.2).symm⟩

theorem of_syncStep_poll {now : Time} (last : syncStep cfg n (.poll now) = some n') :
    ∃ p, n.process = some p ∧ n.clock ≤ now ∧
      n' = { n with clock := now, process := some (p.poll cfg now n.store.rt.authzRev) } := by
  simp only [syncStep] at last
  split at last
  · cases last
  next p up =>
    rw [Option.ite_none_right_eq_some] at last
    exact ⟨p, up, last.1.1, (Option.some.inj last.2).symm⟩

theorem of_syncStep_answer {now later grace : Time} {nft : Nft} {reply : Reply}
    (last : syncStep cfg n (.answer now later grace nft reply) = some n') :
    ∃ p req, n.process = some p ∧ p.request = some req ∧ n.clock ≤ now ∧ now ≤ later ∧
      n' = n.answer cfg p req now later grace nft reply := by
  simp only [syncStep] at last
  split at last
  · cases last
  next p up =>
    split at last
    · cases last
    next req asked =>
      rw [Option.ite_none_right_eq_some] at last
      exact ⟨p, req, up, asked, last.1.1, last.1.2, (Option.some.inj last.2).symm⟩

end Inversion

/-! ## What an answer can come to -/

section Answers

variable {cfg : SyncConfig} {n : SyncNode} {p : SyncProcess} {req : AuthzRequest}
  {now later grace : Time} {nft : Nft}

/-- **A flush has its reasons**: the window is over, the policy is on, and the process has been
up long enough. -/
theorem graceCheck_flushed {st : AuthzState} (flushed : (graceCheck cfg grace now nft p st).1) :
    grace < now - p.lastAuthzOK ∧ cfg.failClosedAfterGrace = true ∧
      (p.startedAt = zeroTime ∨ startupGrace grace ≤ now - p.startedAt) := by
  unfold graceCheck at flushed
  split at flushed
  · cases flushed
  next passed =>
    simp only [Bool.or_eq_true, Bool.not_eq_true', not_or, Bool.not_eq_false,
      SyncProcess.over, SyncProcess.settled, decide_eq_true_eq] at passed
    exact ⟨passed.1.1, passed.1.2, passed.2⟩

/-- The round is over, whatever it has come to. -/
theorem request_answer (reply : Reply) :
    ∃ p', (n.answer cfg p req now later grace nft reply).process = some p' ∧
      p'.request = none := by
  cases reply with
  | unchanged => exact ⟨_, rfl, rfl⟩
  | failed => exact ⟨_, rfl, rfl⟩
  | response resp =>
      simp only [SyncNode.answer]
      split <;> exact ⟨_, rfl, rfl⟩

/-- **The answers that count as a success**: "unchanged", and a response that was applied. -/
theorem accepted_answer {reply : Reply} {entry : Entry} (accepted : entry.accepted = true)
    (logged : (n.answer cfg p req now later grace nft reply).journal = entry :: n.journal) :
    reply = .unchanged ∨
      ∃ resp, reply = .response resp ∧
        (resp.full = true → ∀ a, a ∈ (n.answer cfg p req now later grace nft reply).kernel ↔
          a ∈ resp.addresses.map (·.addr)) := by
  cases reply with
  | unchanged => exact .inl rfl
  | failed =>
      exfalso
      simp only [SyncNode.answer] at logged
      split at logged
      · obtain ⟨rfl, -⟩ := List.cons.inj logged
        cases accepted
      · exact List.cons_ne_self _ _ logged.symm
  | response resp =>
      refine .inr ⟨resp, rfl, ?_⟩
      have whole := applyAuthz_exact cfg.guard nft resp ⟨n.kernel, n.store.rt.authzRev⟩
      simp only [SyncNode.answer] at logged ⊢
      split at logged
      next run =>
        rw [run] at whole
        exact (whole.2.1 rfl).2.1
      next run =>
        obtain ⟨rfl, -⟩ := List.cons.inj logged
        cases accepted
      next run =>
        obtain ⟨rfl, -⟩ := List.cons.inj logged
        cases accepted
      next => exact absurd logged.symm (List.cons_ne_self _ _)

end Answers

/-! ## The first success after a flush -/

/-- The backend's side: an answer is one that the handler may give. -/
def SyncNode.ServedAt (n : SyncNode) : SyncEvent → Prop
  | .answer _ _ _ _ reply => ∀ p ∈ n.process, ∀ req ∈ p.request, Served req reply
  | _ => True

/-- **The condition**: at a poll after a flush a full pull is due. -/
def SyncNode.DueAt (cfg : SyncConfig) (n : SyncNode) : SyncEvent → Prop
  | .poll now => flushPending n.journal = true → ∀ p ∈ n.process, p.fullDue cfg now = true
  | _ => True

/-- After a flush only full pulls are under way. -/
def SyncNode.Repairing (n : SyncNode) : Prop :=
  flushPending n.journal = true → ∀ p ∈ n.process, ∀ req ∈ p.request, req.full = true

theorem SyncNode.Initial.repairing {n : SyncNode} (h : n.Initial) : n.Repairing := by
  intro _ p up
  rw [h.down] at up
  cases up

/-- Nothing is under way, so nothing has to be shown. -/
theorem repairing_of_idle {n : SyncNode} {p : SyncProcess} (up : n.process = some p)
    (idle : p.request = none) : n.Repairing := by
  rintro - p' up' req asked
  rw [up] at up'
  cases up'
  rw [idle] at asked
  cases asked

theorem repairing_step (cfg : SyncConfig) (n : SyncNode) (e : SyncEvent) (n' : SyncNode)
    (inv : n.Repairing) (due : n.DueAt cfg e) (last : syncStep cfg n e = some n') :
    n'.Repairing := by
  cases e with
  | start now =>
      obtain ⟨-, rfl⟩ := of_syncStep_start last
      exact repairing_of_idle rfl rfl
  | stop =>
      obtain ⟨p, up, rfl⟩ := Option.map_eq_some_iff.mp last
      intro _ p' up'
      cases up'
  | requestResync =>
      obtain ⟨p, up, rfl⟩ := Option.map_eq_some_iff.mp last
      rintro pending p' ⟨⟩
      exact inv pending p up
  | collectAndBuffer | flushBuffer | revoke =>
      obtain ⟨p, up, rfl⟩ := Option.map_eq_some_iff.mp last
      exact inv
  | poll now =>
      obtain ⟨p, up, -, rfl⟩ := of_syncStep_poll last
      rintro pending p' ⟨⟩ req ⟨⟩
      exact due pending p up
  | answer now later grace nft reply =>
      obtain ⟨p, req, -, -, -, -, rfl⟩ := of_syncStep_answer last
      obtain ⟨p', up', idle⟩ : ∃ p',
          (n.answer cfg p req now later grace nft reply).process = some p' ∧
            p'.request = none := request_answer reply
      exact repairing_of_idle up' idle

/-- **The first success after a flush is an applied full set**, in every run in which a full pull
is due at the polls after a flush: then the set is exactly the response's. -/
theorem flush_repaired (cfg : SyncConfig) {n₀ : SyncNode} (initial : n₀.Initial)
    (es : List SyncEvent) (e : SyncEvent) {n n' : SyncNode}
    (meets : Meets (syncStep cfg) (fun n e => n.ServedAt e ∧ n.DueAt cfg e) n₀ (es ++ [e]))
    (reached : Machine.run (syncStep cfg) n₀ es = some n) (last : syncStep cfg n e = some n')
    (pending : flushPending n.journal = true) {entry : Entry} (accepted : entry.accepted = true)
    (logged : n'.journal = entry :: n.journal) :
    ∃ now later grace nft resp, e = .answer now later grace nft (.response resp) ∧
      resp.full = true ∧ ∀ a, a ∈ n'.kernel ↔ a ∈ resp.addresses.map (·.addr) := by
  have inv : n.Repairing := by
    refine meets.of_append.run_invariant ?_ initial.repairing reached
    exact fun s e s' inv both => repairing_step cfg s e s' inv both.2
  have served : n.ServedAt e := (meets es e [] n rfl reached).1
  cases e with
  | answer now later grace nft reply =>
      obtain ⟨p, req, up, asked, -, -, rfl⟩ := of_syncStep_answer last
      have full : req.full = true := inv pending p up req asked
      have fits : Served req reply := served p up req asked
      rcases accepted_answer accepted logged with rfl | ⟨resp, rfl, applied⟩
      · exact absurd (full.symm.trans fits) nofun
      · exact ⟨now, later, grace, nft, resp, rfl, fits full, applied (fits full)⟩
  | start now =>
      exfalso
      obtain ⟨-, rfl⟩ := of_syncStep_start last
      obtain ⟨rfl, -⟩ := List.cons.inj logged
      cases accepted
  | poll now =>
      exfalso
      obtain ⟨p, -, -, rfl⟩ := of_syncStep_poll last
      exact List.cons_ne_self _ _ logged.symm
  | stop | requestResync | collectAndBuffer | flushBuffer | revoke =>
      obtain ⟨p, up, rfl⟩ := Option.map_eq_some_iff.mp last
      exact absurd logged.symm (List.cons_ne_self _ _)

/-! ## An outage -/

instance (req : AuthzRequest) : (reply : Reply) → Decidable (Served req reply)
  | .unchanged => inferInstanceAs (Decidable (req.full = false))
  | .failed => inferInstanceAs (Decidable True)
  | .response resp => inferInstanceAs (Decidable (req.full = true → resp.full = true))

instance (n : SyncNode) : (e : SyncEvent) → Decidable (n.ServedAt e)
  | .answer _ _ _ _ reply =>
      inferInstanceAs (Decidable (∀ p ∈ n.process, ∀ req ∈ p.request, Served req reply))
  | .start _ | .stop | .requestResync | .collectAndBuffer .. | .flushBuffer _ | .revoke _
  | .poll _ => inferInstanceAs (Decidable True)

instance (cfg : SyncConfig) (n : SyncNode) : (e : SyncEvent) → Decidable (n.DueAt cfg e)
  | .poll now => inferInstanceAs (Decidable
      (flushPending n.journal = true → ∀ p ∈ n.process, p.fullDue cfg now = true))
  | .start _ | .stop | .requestResync | .collectAndBuffer .. | .flushBuffer _ | .revoke _
  | .answer .. => inferInstanceAs (Decidable True)

/-- A node on which the agent has never run. -/
def bareNode : SyncNode := ⟨0, ⟨.fresh, ⟨none, none, []⟩⟩, ∅, none, []⟩

theorem bareNode_initial : bareNode.Initial := ⟨rfl, rfl, by decide⟩

/-- `FIPS_AGENT_FAIL_CLOSED_AFTER_GRACE=1`, with the given `FIPS_AGENT_FULL_SYNC_S`. -/
def failClosedConfig (seconds : Int) : SyncConfig := ⟨seconds * 1000000, true, ⟨50, false⟩⟩

/-- The backend's set, with one customer. -/
def oneCustomer : Reply := .response ⟨7, true, [⟨firstAddr, 1⟩], [], [], false⟩

/-- The `nft` binary works. -/
def goodNft : Nft := ⟨false, false, .id, .id⟩

/-- One answer, after `minutes` and with a window of four hours. -/
def answerAfter (minutes : Int) (reply : Reply) : SyncEvent :=
  .answer (minutes * minute) (minutes * minute) (240 * minute) goodNft reply

/-- A first pull, and then nothing for 241 minutes: the node fails closed, and polls again. -/
def outage : List SyncEvent :=
  [.start 0, .poll 0, answerAfter 0 oneCustomer, .poll 0, answerAfter 241 .failed,
    .poll (241 * minute)]

/-- With the default interval the first answer after the outage is the full set. -/
theorem flush_repaired_by_default :
    ∃ n n' entry, Machine.run (syncStep (failClosedConfig 300)) bareNode outage = some n ∧
      syncStep (failClosedConfig 300) n (answerAfter 242 oneCustomer) = some n' ∧
      n'.journal = entry :: n.journal ∧
      ∃ now later grace nft resp,
        answerAfter 242 oneCustomer = .answer now later grace nft (.response resp) ∧
        resp.full = true ∧ ∀ a, a ∈ n'.kernel ↔ a ∈ resp.addresses.map (·.addr) :=
  ⟨_, _, _, rfl, rfl, rfl, flush_repaired (failClosedConfig 300) bareNode_initial outage _
    (meets_of_checks (by decide)) rfl rfl rfl rfl rfl⟩

/-- **Without a periodic pull the set stays empty.**  The node fails closed after 241 minutes.
Its next poll asks for changes since revision 7; there are none, and the loop marks the round as
a success, at revision 7 and with no member in the set. -/
theorem flush_left_empty :
    ∃ n n', bareNode.Initial ∧
      Meets (syncStep (failClosedConfig 0)) (fun n e => n.ServedAt e) bareNode
        (outage ++ [answerAfter 242 .unchanged]) ∧
      Machine.run (syncStep (failClosedConfig 0)) bareNode outage = some n ∧
      syncStep (failClosedConfig 0) n (answerAfter 242 .unchanged) = some n' ∧
      flushPending n.journal = true ∧
      n'.journal = .unchanged (242 * minute) :: n.journal ∧
      n'.store.rt.authzRev = 7 ∧ n'.kernel.keys = [] :=
  ⟨_, _, bareNode_initial, meets_of_checks (by decide), rfl, rfl, rfl, rfl, rfl, rfl⟩

end FipsExitGate.Agent
