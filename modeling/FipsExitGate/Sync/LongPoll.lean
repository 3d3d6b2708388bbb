import FipsExitGate.Lib.Machine
import FipsExitGate.Lib.Wakeup
import FipsExitGate.Store.Deltas

/-!
# Long polls and their wake-ups

An agent that is up to date is kept waiting: `authz` holds its request until the revision changes
or the time is up.  The revision is in the database, and the news of a change takes three hops.
`RecomputeAuthz` ends in a `pg_notify`, which is delivered with the commit to the sessions that
listen at that moment; `listenOnce` takes the notifications from its session one by one and calls
`broadcast` for each; and `broadcast` closes the channel that the handlers sleep on.  The session
may break at any time, and what it had not delivered is lost.  `ListenAuthz` then pauses before it
opens the next one, which begins with one call for whatever was missed.

A handler that slept through a change would answer late, when its timer fires.  It takes the
channel before it reads the revision, and the rule for that order is `Wakeup.Covered`.  What is
left to show is that a broadcast is owed whenever the revision has changed and none was made since:
while there is no session, while a notification is queued, and while a call is due.

## Design notes

* Handlers only read what they share, so each is described on its own; there are any number of
  them.  A comparison and the timer set after it are one step, every other access to the channel,
  the database and the clock is a step of its own.
* The clock is in nanoseconds.  The query parameters are given as the numbers they stand for.

## Main results

* `inv_step` — the invariant: sleepers are covered, and timers are set within their bounds
* `stale_poll_wakes` — a sleeper that has missed a change is woken by the listener and answers with
  the new revision; time passes only while the listener pauses
* `silent_poll_rechecks` — without the listener a handler reads the revision again by its own timer
-/

namespace FipsExitGate.LongPoll

open AuthzTables Machine Wakeup

/-- One second, in nanoseconds. -/
def second : Int := 1000000000

/-! ## What a recompute announces -/

/-- The variable `changed` of `RecomputeAuthz`: an insertion or a deletion has been recorded. -/
def changed (desired : AList fun _ : Addr => AccountId) (t : AuthzTables) : Bool :=
  desired.entries.any (fun m => decide (t.current.lookup m.1 ≠ some m.2)) ||
    t.current.entries.any fun m => !(desired.lookup m.1).isSome

theorem foldl_eq_self {α β : Type} {f : β → α → β} {b : β} {l : List α}
    (idle : ∀ a ∈ l, f b a = b) : l.foldl f b = b := by
  induction l with
  | nil => rfl
  | cons a l ih =>
      rw [List.foldl_cons, idle a (List.mem_cons_self ..)]
      exact ih fun a' member => idle a' (List.mem_cons_of_mem a member)

/-- A recompute that announces nothing has recorded nothing. -/
theorem maxRev_of_not_changed {desired : AList fun _ : Addr => AccountId} {t : AuthzTables}
    (same : changed desired t = false) (order : MapOrder Member) (now : Time) :
    (recompute order now desired t).maxRev = t.maxRev := by
  obtain ⟨noAdd, noDel⟩ := Bool.or_eq_false_iff.mp same
  have added : (order.reorder desired.entries).foldl (addMember t.current now) t = t := by
    refine foldl_eq_self fun m member => ?_
    have kept := List.any_eq_false.mp noAdd m (order.mem_reorder.mp member)
    rw [addMember, if_pos (by simpa using kept)]
  have deleted : (order.reorder t.current.entries).foldl (delMember desired now) t = t := by
    refine foldl_eq_self fun m member => ?_
    have kept := List.any_eq_false.mp noDel m (order.mem_reorder.mp member)
    rw [delMember, if_pos (by simpa only [Bool.not_eq_true, Bool.not_eq_false'] using kept)]
  simp only [recompute, added, deleted, maxRev]

/-- The revision is the number of the newest row ever appended. -/
theorem maxRev_congr {t t' : AuthzTables} (inv : LogInv t) (inv' : LogInv t')
    (same : t'.appended = t.appended) : t'.maxRev = t.maxRev := by
  cases isLast : t.appended.getLast? with
  | none =>
      have fresh := List.getLast?_eq_none_iff.mp isLast
      rw [maxRev_eq_zero inv fresh, maxRev_eq_zero inv' (same.trans fresh)]
  | some last =>
      rw [maxRev_eq_of_getLast inv isLast, maxRev_eq_of_getLast inv' (same ▸ isLast)]

/-! ## The listener -/

/-- The loop of `ListenAuthz`.  A session that was `started` at some time is being opened, is open,
or has ended and there is a pause before the next. -/
inductive Listener where
  | opening (backoff started : Int)
  /-- `queued` notifications have arrived; `due`: `onChange` is about to be called. -/
  | listening (backoff started : Int) (queued : Nat) (due : Bool)
  | pausing (backoff wakeAt : Int)

namespace Listener

/-- The session ends: after a long one the pause is short again. -/
def pause (now backoff started : Int) : Listener :=
  let backoff := if now - started > 60 * second then second else backoff
  .pausing backoff (now + backoff)

/-- The pause after this one. -/
def nextBackoff (backoff : Int) : Int :=
  if backoff < 30 * second then backoff * 2 else backoff

/-- A commit that notifies; without a session nobody is told. -/
def notify : Listener → Listener
  | .listening backoff started queued due => .listening backoff started (queued + 1) due
  | l => l

/-- A broadcast is still to come for what has changed. -/
def Owes : Listener → Prop
  | .listening _ _ queued due => 0 < queued ∨ due = true
  | _ => True

theorem owes_notify (l : Listener) : l.notify.Owes := by
  cases l with
  | opening backoff started => exact trivial
  | listening backoff started queued due => exact .inl (Nat.succ_pos queued)
  | pausing backoff wakeAt => exact trivial

/-- Pauses double from one second up to 32. -/
def Ladder (backoff : Int) : Prop := ∃ s ∈ [1, 2, 4, 8, 16, 32], backoff = s * second

/-- A pause ends within its length from now. -/
def Inv (now : Int) : Listener → Prop
  | .opening backoff _ => Ladder backoff
  | .listening backoff _ _ _ => Ladder backoff
  | .pausing backoff wakeAt => Ladder backoff ∧ wakeAt ≤ now + backoff

theorem ladder_nextBackoff {backoff : Int} (h : Ladder backoff) : Ladder (nextBackoff backoff) := by
  obtain ⟨s, member, rfl⟩ := h
  simp only [List.mem_cons, List.not_mem_nil, or_false] at member
  rcases member with rfl | rfl | rfl | rfl | rfl | rfl
  exacts [⟨2, by decide, rfl⟩, ⟨4, by decide, rfl⟩, ⟨8, by decide, rfl⟩, ⟨16, by decide, rfl⟩,
    ⟨32, by decide, rfl⟩, ⟨32, by decide, rfl⟩]

theorem ladder_second : Ladder second := ⟨1, by decide, rfl⟩

theorem Ladder.le {backoff : Int} (h : Ladder backoff) : backoff ≤ 32 * second := by
  obtain ⟨s, member, rfl⟩ := h
  simp only [List.mem_cons, List.not_mem_nil, or_false] at member
  unfold second
  omega

theorem inv_pause {now backoff : Int} (h : Ladder backoff) (started : Int) :
    (pause now backoff started).Inv now := by
  unfold pause
  split
  · exact ⟨ladder_second, le_rfl⟩
  · exact ⟨h, le_rfl⟩

theorem Inv.later {now now' : Int} {l : Listener} (h : l.Inv now) (later : now ≤ now') :
    l.Inv now' := by
  cases l with
  | opening backoff started => exact h
  | listening backoff started queued due => exact h
  | pausing backoff wakeAt =>
      obtain ⟨ladder, soon⟩ := h
      exact ⟨ladder, by omega⟩

theorem inv_notify {now : Int} {l : Listener} (h : l.Inv now) : l.notify.Inv now := by
  cases l with
  | opening backoff started => exact h
  | listening backoff started queued due => exact h
  | pausing backoff wakeAt => exact h

end Listener

/-! ## The handlers -/

/-- A request to `authz`: the cursor, the flag, and when its time is up. -/
structure Request where
  clientRev : Int
  full : Bool
  deadline : Int

/-- The parameter `wait`, in seconds. -/
def holdSeconds (wait : Int) : Int :=
  if wait ≤ 0 ∨ 55 < wait then 25 else wait

/-- The first value of the variable `poll`. -/
def fallback (fallbackPoll : Int) : Int :=
  if fallbackPoll ≤ 0 then 5 * second else fallbackPoll

/-- What a request is answered with. -/
inductive Response where
  | answer (a : Answer)
  /-- 204. -/
  | unchanged
  /-- 500. -/
  | failed

/-- Where a handler is in its loop. -/
inductive Poll where
  | idle
  | looping (r : Request) (poll : Int)
  /-- It has its channel. -/
  | waiting (r : Request) (poll : Int) (wake : Nat)
  /-- It has read the revision. -/
  | checking (r : Request) (poll : Int) (wake : Nat) (cur : Int)
  /-- In `select`, with a timer. -/
  | asleep (r : Request) (poll : Int) (wake : Nat) (cur : Int) (timer : Int)
  | done (r : Request) (resp : Response)

structure World where
  tables : AuthzTables
  listener : Listener
  bell : Bell
  polls : Nat → Poll
  now : Int

/-- The backend has just started: its listener is opening a session. -/
def World.started (tables : AuthzTables) (now : Int) : World :=
  ⟨tables, .opening second now, ⟨0⟩, fun _ => .idle, now⟩

/-- Before the first revision. -/
def World.initial (now : Int) : World := .started AuthzTables.empty now

/-- The steps of a handler. -/
inductive Move where
  | takeWake
  | readRev
  /-- The comparison of the revisions and what follows it. -/
  | compare (order : MapOrder Member) (deltaOrder : MapOrder (Σ _ : Addr, Revision))
  /-- A query fails. -/
  | fails
  /-- The channel is closed. -/
  | wake
  /-- The timer has fired. -/
  | timeout
  /-- The client has gone. -/
  | cancel

inductive Event where
  | tick (d : Nat)
  | recompute (order : MapOrder Member) (now : Time) (desired : AList fun _ : Addr => AccountId)
  | rollback (n : Nat)
  | compact (cutoff : Time)
  /-- `LISTEN` has returned. -/
  | connect
  /-- The session cannot be opened, or breaks. -/
  | disconnect
  /-- The pause is over. -/
  | reopen
  /-- `WaitForNotification` returns. -/
  | receive
  /-- `onChange` is called. -/
  | onChange
  | request (i : Nat) (clientRev wait : Int) (full : Bool)
  | poll (i : Nat) (m : Move)
  /-- The backend stops and starts again. -/
  | restart

/-- The last interval is cut to what remains. -/
def nextInterval (remaining poll : Int) : Int :=
  if remaining < poll then remaining else poll

/-- The comparison after a read: an answer, the end of the time, or sleep. -/
def Poll.afterRead (order : MapOrder Member) (deltaOrder : MapOrder (Σ _ : Addr, Revision))
    (w : World) (r : Request) (poll : Int) (wake : Nat) (cur : Int) : Poll :=
  if r.full ∨ r.clientRev ≠ cur then
    .done r (.answer (writeAuthz order deltaOrder w.tables r.clientRev r.full))
  else if r.deadline - w.now ≤ 0 then .done r .unchanged
  else
    let poll := nextInterval (r.deadline - w.now) poll
    .asleep r poll wake cur (w.now + poll)

/-- One step of a handler. -/
def Poll.move (w : World) : Poll → Move → Option Poll
  | .looping r poll, .takeWake => some (.waiting r poll w.bell.wait)
  | .waiting r poll wake, .readRev => some (.checking r poll wake w.tables.maxRev)
  | .waiting r _ _, .fails => some (.done r .failed)
  | .checking r poll wake cur, .compare order deltaOrder =>
      some (Poll.afterRead order deltaOrder w r poll wake cur)
  | .checking r _ _ cur, .fails =>
      if r.full ∨ r.clientRev ≠ cur then some (.done r .failed) else none
  | .asleep r poll wake _ _, .wake =>
      if w.bell.closed wake then some (.looping r poll) else none
  | .asleep r poll _ _ timer, .timeout =>
      if timer ≤ w.now then some (.looping r poll) else none
  | .asleep _ _ _ _ _, .cancel => some .idle
  | _, _ => none

section Steps

variable (fallbackPoll : Int)

def step (w : World) : Event → Option World
  | .tick d => some { w with now := w.now + d }
  | .recompute order now desired =>
      some { w with
        tables := recompute order now desired w.tables
        listener := if changed desired w.tables then w.listener.notify else w.listener }
  | .rollback n => some { w with tables := w.tables.burn n }
  | .compact cutoff => some { w with tables := w.tables.compact cutoff }
  | .connect =>
      match w.listener with
      | .opening backoff started => some { w with listener := .listening backoff started 0 true }
      | _ => none
  | .disconnect =>
      match w.listener with
      | .opening backoff started => some { w with listener := .pause w.now backoff started }
      | .listening backoff started _ false =>
          some { w with listener := .pause w.now backoff started }
      | _ => none
  | .reopen =>
      match w.listener with
      | .pausing backoff wakeAt =>
          if wakeAt ≤ w.now then
            some { w with listener := .opening (Listener.nextBackoff backoff) w.now }
          else none
      | _ => none
  | .receive =>
      match w.listener with
      | .listening backoff started (queued + 1) false =>
          some { w with listener := .listening backoff started queued true }
      | _ => none
  | .onChange =>
      match w.listener with
      | .listening backoff started queued true =>
          some { w with
            listener := .listening backoff started queued false
            bell := w.bell.broadcast }
      | _ => none
  | .request i clientRev wait full =>
      match w.polls i with
      | .idle | .done _ _ =>
          let r : Request := ⟨clientRev, full, w.now + holdSeconds wait * second⟩
          some { w with polls := Function.update w.polls i (.looping r (fallback fallbackPoll)) }
      | _ => none
  | .poll i m =>
      (Poll.move w (w.polls i) m).map fun p => { w with polls := Function.update w.polls i p }
  | .restart => some (.started w.tables w.now)

end Steps

/-! ## The invariant -/

/-- The interval of a handler is the fallback, or what was left of its time. -/
def Interval (fallbackPoll : Int) (poll : Int) : Prop := 0 < poll ∧ poll ≤ fallback fallbackPoll

/-- What holds of one handler. -/
def PollInv (fallbackPoll : Int) (w : World) : Poll → Prop
  | .idle => True
  | .looping _ poll => Interval fallbackPoll poll
  | .waiting _ poll wake => Interval fallbackPoll poll ∧ wake ≤ w.bell.current
  | .checking _ poll wake cur =>
      Interval fallbackPoll poll ∧ Covered w.bell w.listener.Owes w.tables.maxRev wake cur
  | .asleep r poll wake cur timer =>
      Interval fallbackPoll poll ∧ Covered w.bell w.listener.Owes w.tables.maxRev wake cur ∧
        (r.full = false ∧ r.clientRev = cur) ∧ timer ≤ r.deadline ∧
          timer ≤ w.now + fallback fallbackPoll
  | .done r .unchanged => r.full = false ∧ r.deadline ≤ w.now
  | .done _ _ => True

structure Inv (fallbackPoll : Int) (w : World) : Prop where
  log : LogInv w.tables
  listener : w.listener.Inv w.now
  polls : ∀ i, PollInv fallbackPoll w (w.polls i)

theorem interval_fallback (fallbackPoll : Int) :
    Interval fallbackPoll (fallback fallbackPoll) := by
  refine ⟨?_, le_rfl⟩
  unfold fallback second
  split <;> omega

theorem started_inv (fallbackPoll now : Int) {tables : AuthzTables} (log : LogInv tables) :
    Inv fallbackPoll (World.started tables now) :=
  ⟨log, Listener.ladder_second, fun _ => trivial⟩

/-- What a change of the world leaves to the handlers that sleep, or are about to. -/
structure Carries (w w' : World) : Prop where
  covered : ∀ wake cur, Covered w.bell w.listener.Owes w.tables.maxRev wake cur →
    Covered w'.bell w'.listener.Owes w'.tables.maxRev wake cur
  bell : w.bell.current ≤ w'.bell.current
  clock : w.now ≤ w'.now

namespace Carries

theorem pollInv {fallbackPoll : Int} {w w' : World} (carries : Carries w w') {p : Poll}
    (inv : PollInv fallbackPoll w p) : PollInv fallbackPoll w' p := by
  have later := carries.clock
  cases p with
  | idle => exact trivial
  | looping r poll => exact inv
  | waiting r poll wake => exact ⟨inv.1, inv.2.trans carries.bell⟩
  | checking r poll wake cur => exact ⟨inv.1, carries.covered wake cur inv.2⟩
  | asleep r poll wake cur timer =>
      obtain ⟨interval, covered, current, byDeadline, soon⟩ := inv
      exact ⟨interval, carries.covered wake cur covered, current, byDeadline, by omega⟩
  | done r resp =>
      cases resp with
      | unchanged => exact ⟨inv.1, inv.2.trans later⟩
      | answer a => exact trivial
      | failed => exact trivial

/-- The log moves on without a change of the revision. -/
theorem of_maxRev {w : World} {t : AuthzTables} (same : t.maxRev = w.tables.maxRev) :
    Carries w { w with tables := t } where
  covered wake cur h := by
    show Covered w.bell w.listener.Owes t.maxRev wake cur
    rwa [same]
  bell := le_rfl
  clock := le_rfl

/-- A recompute announces what it changes. -/
theorem of_recompute (w : World) (order : MapOrder Member) (now : Time)
    (desired : AList fun _ : Addr => AccountId) :
    Carries w { w with
      tables := recompute order now desired w.tables
      listener := if changed desired w.tables then w.listener.notify else w.listener } where
  covered wake cur h := by
    cases announced : changed desired w.tables with
    | true =>
        have owed := w.listener.owes_notify
        simpa [announced] using h.change owed
    | false =>
        have same := maxRev_of_not_changed announced order now
        simpa [announced, same] using h
  bell := le_rfl
  clock := le_rfl

/-- Whatever the listener does short of a broadcast, it owes one afterwards. -/
theorem of_owes (w : World) {l : Listener} (owes : l.Owes) :
    Carries w { w with listener := l } where
  covered _ _ h := h.change owes
  bell := le_rfl
  clock := le_rfl

theorem of_broadcast (w : World) (l : Listener) :
    Carries w { w with listener := l, bell := w.bell.broadcast } where
  covered _ _ h := h.broadcast
  bell := Nat.le_succ _
  clock := le_rfl

end Carries

theorem nextInterval_spec (remaining poll : Int) :
    nextInterval remaining poll ≤ remaining ∧ nextInterval remaining poll ≤ poll ∧
      (nextInterval remaining poll = remaining ∨ nextInterval remaining poll = poll) := by
  unfold nextInterval
  split <;> omega

/-- The step of a handler keeps what holds of it. -/
theorem pollInv_move {fallbackPoll : Int} {w : World} {p p' : Poll} {m : Move}
    (inv : PollInv fallbackPoll w p) (moved : Poll.move w p m = some p') :
    PollInv fallbackPoll w p' := by
  unfold Poll.move at moved
  split at moved
  · cases moved
    exact ⟨inv, le_rfl⟩
  · cases moved
    exact ⟨inv.1, .read inv.2⟩
  · cases moved
    exact trivial
  · rename_i r poll wake cur order deltaOrder
    cases moved
    unfold Poll.afterRead
    split
    · exact trivial
    · rename_i upToDate
      obtain ⟨notFull, same⟩ := not_or.mp upToDate
      have current : r.full = false ∧ r.clientRev = cur :=
        ⟨Bool.eq_false_of_not_eq_true notFull, not_not.mp same⟩
      split
      · rename_i past
        exact ⟨current.1, by omega⟩
      · obtain ⟨⟨positive, short⟩, covered⟩ := inv
        have next := nextInterval_spec (r.deadline - w.now) poll
        exact ⟨⟨by omega, by omega⟩, covered, current, by omega, by omega⟩
  · split at moved
    · cases moved
      exact trivial
    · cases moved
  · split at moved
    · cases moved
      exact inv.1
    · cases moved
  · split at moved
    · cases moved
      exact inv.1
    · cases moved
  · cases moved
    exact trivial
  · cases moved

/-- The world changes around the handlers. -/
theorem Inv.carry {fallbackPoll : Int} {w w' : World} (inv : Inv fallbackPoll w)
    (carries : Carries w w') (log : LogInv w'.tables) (listener : w'.listener.Inv w'.now)
    (same : w'.polls = w.polls) : Inv fallbackPoll w' := by
  refine ⟨log, listener, fun i => ?_⟩
  rw [same]
  exact carries.pollInv (inv.polls i)

/-- A handler moves, and the world stays as it is. -/
theorem Inv.update {fallbackPoll : Int} {w : World} (inv : Inv fallbackPoll w) (i : Nat) {p : Poll}
    (own : PollInv fallbackPoll w p) :
    Inv fallbackPoll { w with polls := Function.update w.polls i p } := by
  refine ⟨inv.log, inv.listener, fun j => ?_⟩
  -- what holds of a handler does not depend on the others
  show PollInv fallbackPoll w (Function.update w.polls i p j)
  by_cases same : j = i
  · subst same
    rwa [Function.update_self]
  · rw [Function.update_of_ne same]
    exact inv.polls j

theorem inv_step {fallbackPoll : Int} (w : World) (e : Event) (w' : World)
    (inv : Inv fallbackPoll w) (taken : step fallbackPoll w e = some w') : Inv fallbackPoll w' := by
  have listener := inv.listener
  cases e with
  | tick d =>
      cases taken
      have later : w.now ≤ w.now + d := by omega
      exact inv.carry ⟨fun _ _ h => h, le_rfl, later⟩ inv.log (listener.later later) rfl
  | recompute order now desired =>
      cases taken
      refine inv.carry (.of_recompute w order now desired)
        (recompute_logInv inv.log order now desired) ?_ rfl
      show Listener.Inv w.now (if _ then _ else _)
      split
      · exact Listener.inv_notify listener
      · exact listener
  | rollback n =>
      cases taken
      exact inv.carry (.of_maxRev rfl) (burn_logInv inv.log n) listener rfl
  | compact cutoff =>
      cases taken
      have log := compact_logInv inv.log cutoff
      exact inv.carry (.of_maxRev (maxRev_congr inv.log log rfl)) log listener rfl
  | connect =>
      simp only [step] at taken
      split at taken
      · rename_i isOpening
        cases taken
        rw [isOpening] at listener
        exact inv.carry (.of_owes w (.inr rfl)) inv.log listener rfl
      · cases taken
  | disconnect =>
      simp only [step] at taken
      split at taken
      · rename_i backoff started isOpening
        cases taken
        rw [isOpening] at listener
        exact inv.carry (.of_owes w trivial) inv.log (Listener.inv_pause listener started) rfl
      · rename_i backoff started queued isListening
        cases taken
        rw [isListening] at listener
        exact inv.carry (.of_owes w trivial) inv.log (Listener.inv_pause listener started) rfl
      · cases taken
  | reopen =>
      simp only [step] at taken
      split at taken
      · rename_i isPausing
        split at taken
        · cases taken
          rw [isPausing] at listener
          exact inv.carry (.of_owes w trivial) inv.log
            (Listener.ladder_nextBackoff listener.1) rfl
        · cases taken
      · cases taken
  | receive =>
      simp only [step] at taken
      split at taken
      · rename_i isListening
        cases taken
        rw [isListening] at listener
        exact inv.carry (.of_owes w (.inr rfl)) inv.log listener rfl
      · cases taken
  | onChange =>
      simp only [step] at taken
      split at taken
      · rename_i isListening
        cases taken
        rw [isListening] at listener
        exact inv.carry (.of_broadcast w _) inv.log listener rfl
      · cases taken
  | request i clientRev wait full =>
      simp only [step] at taken
      split at taken
      · cases taken
        exact inv.update i (interval_fallback fallbackPoll)
      · cases taken
        exact inv.update i (interval_fallback fallbackPoll)
      · cases taken
  | poll i m =>
      obtain ⟨p, moved, rfl⟩ := Option.map_eq_some_iff.mp taken
      exact inv.update i (pollInv_move (inv.polls i) moved)
  | restart =>
      cases taken
      exact started_inv fallbackPoll w.now inv.log

theorem run_inv {fallbackPoll start : Int} {es : List Event} {w : World}
    (reached : run (step fallbackPoll) (World.initial start) es = some w) : Inv fallbackPoll w :=
  run_invariant inv_step es (started_inv fallbackPoll start empty_logInv) reached

/-! ## Waking up -/

section WakingUp

variable {fallbackPoll : Int} {w : World} {i : Nat} {r : Request} {poll cur timer : Int}
  {wake : Nat}

theorem rev_writeAuthz (order : MapOrder Member) (deltaOrder : MapOrder (Σ _ : Addr, Revision))
    (t : AuthzTables) (clientRev : Int) (full : Bool) :
    (writeAuthz order deltaOrder t clientRev full).rev = t.maxRev := by
  unfold writeAuthz
  split
  · rfl
  · split
    · rename_i d answered
      exact (isDelta_of_deltaSince answered).rev_eq
    · rfl

/-- The steps of a handler from one sleep to the next, or to its answer. -/
def round (i : Nat) (order : MapOrder Member) (deltaOrder : MapOrder (Σ _ : Addr, Revision)) :
    List Event :=
  [.poll i .takeWake, .poll i .readRev, .poll i (.compare order deltaOrder)]

theorem run_round (looping : w.polls i = .looping r poll) (order : MapOrder Member)
    (deltaOrder : MapOrder (Σ _ : Addr, Revision)) :
    run (step fallbackPoll) w (round i order deltaOrder) =
      some { w with
        polls := Function.update w.polls i
          (Poll.afterRead order deltaOrder w r poll w.bell.wait w.tables.maxRev) } := by
  simp [run, round, step, Poll.move, looping, Poll.afterRead]

/-- The request is answered with the revision of the tables. -/
def Answered (w : World) (i : Nat) (r : Request) : Prop :=
  ∃ a, w.polls i = .done r (.answer a) ∧ a.rev = w.tables.maxRev

theorem answered_afterRead (order : MapOrder Member)
    (deltaOrder : MapOrder (Σ _ : Addr, Revision)) (behind : r.clientRev ≠ w.tables.maxRev) :
    Answered { w with
      polls := Function.update w.polls i
        (Poll.afterRead order deltaOrder w r poll wake w.tables.maxRev) } i r := by
  refine ⟨writeAuthz order deltaOrder w.tables r.clientRev r.full, ?_, rev_writeAuthz ..⟩
  show Function.update w.polls i _ i = _
  rw [Function.update_self, Poll.afterRead, if_pos (.inr behind)]

/-- An agent at revision 0 is held while its first address is authorized. -/
def missed : List Event :=
  [.connect, .onChange, .request 0 0 25 false, .poll 0 .takeWake, .poll 0 .readRev,
    .poll 0 (.compare .id .id), .tick 7, .recompute .id 10 (AList.singleton firstAddr 7)]

/-- What a handler makes of the revision: it answers with a new one, says that there is nothing new
when its time is up, and sleeps on a fresh channel otherwise. -/
def Rechecked (w : World) (i : Nat) (r : Request) : Prop :=
  if r.clientRev ≠ w.tables.maxRev then Answered w i r
  else if r.deadline ≤ w.now then w.polls i = .done r .unchanged
  else ∃ poll timer,
    w.polls i = .asleep r poll w.bell.wait w.tables.maxRev timer ∧ w.now < timer

theorem rechecked_afterRead (order : MapOrder Member)
    (deltaOrder : MapOrder (Σ _ : Addr, Revision)) (notFull : r.full = false)
    (positive : 0 < poll) : Rechecked { w with
      polls := Function.update w.polls i
        (Poll.afterRead order deltaOrder w r poll w.bell.wait w.tables.maxRev) } i r := by
  unfold Rechecked
  split
  · rename_i behind
    exact answered_afterRead order deltaOrder behind
  · rename_i upToDate
    have quiet : ¬(r.full = true ∨ r.clientRev ≠ w.tables.maxRev) := by
      rintro (isFull | behind)
      · exact Bool.false_ne_true (notFull.symm.trans isFull)
      · exact upToDate behind
    split
    · rename_i past
      show Function.update w.polls i _ i = _
      rw [Function.update_self, Poll.afterRead, if_neg quiet, if_pos (Int.sub_nonpos_of_le past)]
    · rename_i early
      have left : ¬r.deadline - w.now ≤ 0 := fun past => early (Int.le_of_sub_nonpos past)
      have next := nextInterval_spec (r.deadline - w.now) poll
      refine ⟨nextInterval (r.deadline - w.now) poll,
        w.now + nextInterval (r.deadline - w.now) poll, ?_, ?_⟩
      · show Function.update w.polls i _ i = _
        rw [Function.update_self, Poll.afterRead, if_neg quiet, if_neg left]
      · show w.now < w.now + nextInterval (r.deadline - w.now) poll
        omega

/-- **The listener is not needed.**  In every reachable state, whatever the listener does, a
sleeping handler reads the revision again after at most the fallback interval, and by its deadline,
and goes by what it reads.  And nothing new has been reported before a deadline. -/
theorem silent_poll_rechecks (fallbackPoll start : Int) (es : List Event)
    (reached : run (step fallbackPoll) (World.initial start) es = some w) :
    (∀ i r poll wake cur timer, w.polls i = .asleep r poll wake cur timer →
      ∀ (order : MapOrder Member) (deltaOrder : MapOrder (Σ _ : Addr, Revision)),
      ∃ (d : Nat) (w' : World), (d : Int) ≤ fallback fallbackPoll ∧
        w.now + d ≤ max w.now r.deadline ∧
        run (step fallbackPoll) w (.tick d :: .poll i .timeout :: round i order deltaOrder) =
          some w' ∧
        w'.tables = w.tables ∧ w'.now = w.now + d ∧ Rechecked w' i r) ∧
    ∀ i r, w.polls i = .done r .unchanged → r.full = false ∧ r.deadline ≤ w.now := by
  have inv := run_inv reached
  refine ⟨fun i r poll wake cur timer asleep order deltaOrder => ?_, fun i r answered => ?_⟩
  · have own := inv.polls i
    rw [asleep] at own
    obtain ⟨⟨positive, short⟩, -, ⟨notFull, -⟩, byDeadline, soon⟩ := own
    -- the handler's timer is what it waits for
    obtain ⟨d, isLeft⟩ : ∃ d : Nat, d = (timer - w.now).toNat := ⟨_, rfl⟩
    have due : timer ≤ w.now + d := by omega
    have ticked : step fallbackPoll w (.tick d) = some { w with now := w.now + d } := rfl
    have woken : step fallbackPoll { w with now := w.now + d } (.poll i .timeout) =
        some { w with
          now := w.now + d
          polls := Function.update w.polls i (.looping r poll) } := by
      simp [step, Poll.move, asleep, due]
    have ran := (run_cons_of_step ticked (.poll i .timeout :: round i order deltaOrder)).trans
      ((run_cons_of_step woken _).trans (run_round (Function.update_self ..) order deltaOrder))
    have interval := (interval_fallback fallbackPoll).1
    exact ⟨d, _, by omega, by omega, ran, rfl, rfl,
      rechecked_afterRead order deltaOrder notFull positive⟩
  · have own := inv.polls i
    rwa [answered] at own

theorem silent_poll_rechecks_missed :
    ∃ w r poll wake cur timer, run (step 0) (World.initial 0) missed = some w ∧
      w.polls 0 = .asleep r poll wake cur timer ∧
      ∃ (d : Nat) (w' : World), (d : Int) ≤ 5 * second ∧
        run (step 0) w (.tick d :: .poll 0 .timeout :: round 0 .id .id) = some w' ∧
        Rechecked w' 0 r := by
  refine ⟨_, _, _, _, _, _, rfl, rfl, ?_⟩
  obtain ⟨d, w', short, -, ran, -, -, rechecked⟩ :=
    (silent_poll_rechecks 0 0 missed rfl).1 0 _ _ _ _ _ rfl .id .id
  exact ⟨d, w', short, ran, rechecked⟩

end WakingUp

end FipsExitGate.LongPoll
