import FipsExitGate.Fipsaddr.Strings
import FipsExitGate.Lib.TokenBucket
import Mathlib.Algebra.Order.Ring.Rat
import Mathlib.Data.List.AList
import Mathlib.Tactic.Ring

/-!
# The rate limiter

`ratelimit.go`: a token bucket for each key, made when the key is first seen, and dropped by a
prune once it has refilled.  A prune runs when a new key is seen while there are many
buckets, and no more than once a minute, so when it runs depends on all the keys.

## The argument

What the answers depend on is an ideal limiter, which keeps a bucket of `Lib.TokenBucket` for every
key that was ever seen and prunes nothing.  The limiter stands for the ideal one (`Stands`): each
bucket is the ideal one, and where a bucket is missing, the ideal one is missing or full.  A key
without a bucket gets a full one, so the two give the same answer.  In the ideal limiter a
call touches its own key only, which leaves the bound to one bucket.

## Design notes

* The arithmetic is exact.  Times are nanoseconds, and `Sub` saturates as a `Duration` does.
* Besides the prunes of `allow` there are prunes at any moments, as events of their own.

## Main results

* `answers_eq_ideal` — the limiter answers as the ideal one, whenever it prunes
* `rate_limiter_exact` — the bound for every window, the range of the tokens, the independence
  of the keys and of the prunes
-/

namespace FipsExitGate.RateLimit

open TokenBucket

/-! ## The code -/

/-- `time.Minute`, in nanoseconds. -/
def minute : Int := 60 * 10 ^ 9

/-- The zero `time.Time`. -/
def zeroInstant : Int := -62135596800 * 10 ^ 9

/-- `Time.Sub`: a `Duration` is an `int64`, and the difference saturates. -/
def sub (t u : Int) : Int := max (-2 ^ 63) (min (t - u) (2 ^ 63 - 1))

/-- `Duration.Seconds`. -/
def seconds (d : Int) : ℚ := d / 10 ^ 9

/-- `rateLimiter`, without the mutex and the clock. -/
structure RateLimiter where
  buckets : AList fun _ : Bytes => Bucket Int ℚ
  burst : ℚ
  perSec : ℚ
  pruned : Int

/-- `newRateLimiter`. -/
def newRateLimiter (burst per : Int) : RateLimiter :=
  ⟨∅, burst, burst / seconds per, zeroInstant⟩

namespace RateLimiter

/-- `prune`. -/
def prune (l : RateLimiter) (now : Int) : RateLimiter :=
  { l with
    buckets := l.buckets.entries.foldl (fun m e =>
      if l.burst ≤ e.2.tokens + seconds (sub now e.2.last) * l.perSec then m.erase e.1 else m)
      l.buckets }

/-- The second half of `allow`, with the bucket of the key. -/
def consume (l : RateLimiter) (key : Bytes) (b : Bucket Int ℚ) (now : Int) : Bool × RateLimiter :=
  let tokens := b.tokens + seconds (sub now b.last) * l.perSec
  let tokens := if l.burst < tokens then l.burst else tokens
  if tokens < 1 then (false, { l with buckets := l.buckets.insert key ⟨tokens, now⟩ })
  else (true, { l with buckets := l.buckets.insert key ⟨tokens - 1, now⟩ })

/-- `allow`, where `due` says whether a new key prunes. -/
def allowWhen (due : Bool) (l : RateLimiter) (key : Bytes) (now : Int) : Bool × RateLimiter :=
  match l.buckets.lookup key with
  | some b => l.consume key b now
  | none =>
      let l := if due then { l.prune now with pruned := now } else l
      l.consume key ⟨l.burst, now⟩ now

/-- The condition for a prune: many buckets, and none within the last minute. -/
def pruneDue (l : RateLimiter) (now : Int) : Bool :=
  decide (10000 < l.buckets.entries.length) && decide (minute < sub now l.pruned)

/-- `allow`. -/
def allow (l : RateLimiter) (key : Bytes) (now : Int) : Bool × RateLimiter :=
  l.allowWhen (l.pruneDue now) key now

end RateLimiter

/-- `allow` of a limiter that may be nil, which allows everything. -/
def allowOrNil (l : Option RateLimiter) (key : Bytes) (now : Int) : Bool × Option RateLimiter :=
  match l with
  | none => (true, none)
  | some l => ((l.allow key now).1, some (l.allow key now).2)

/-! ## Runs -/

inductive LimiterEvent where
  | allow (key : Bytes) (now : Int)
  /-- A prune besides those of `allow`. -/
  | prune (now : Int)
  deriving DecidableEq, Repr

def LimiterEvent.time : LimiterEvent → Int
  | .allow _ now => now
  | .prune now => now

def LimiterEvent.isCall : LimiterEvent → Bool
  | .allow _ _ => true
  | .prune _ => false

/-- A call of `key`. -/
def LimiterEvent.isCallOf (key : Bytes) : LimiterEvent → Bool
  | .allow k _ => decide (k = key)
  | .prune _ => false

/-- A call and its answer. -/
structure Answer where
  key : Bytes
  now : Int
  ok : Bool
  deriving DecidableEq, Repr

/-- A run of a limiter that prunes when `due` says so: the answers, and the limiter after it. -/
def run (due : RateLimiter → Int → Bool) : RateLimiter → List LimiterEvent →
    List Answer × RateLimiter
  | l, [] => ([], l)
  | l, .allow key now :: es =>
      let called := l.allowWhen (due l now) key now
      let rest := run due called.2 es
      (⟨key, now, called.1⟩ :: rest.1, rest.2)
  | l, .prune now :: es => run due (l.prune now) es

/-- A limiter that never prunes. -/
def never : RateLimiter → Int → Bool := fun _ _ => false

/-- The answers to one key. -/
def answersOf (key : Bytes) (answers : List Answer) : List (Int × Bool) :=
  (answers.filter fun a => decide (a.key = key)).map fun a => (a.now, a.ok)

/-- The times of the calls of one key. -/
def timesOf (key : Bytes) (es : List LimiterEvent) : List Int :=
  (es.filter (LimiterEvent.isCallOf key)).map LimiterEvent.time

/-! ## Time -/

theorem seconds_le {d d' : Int} (h : d ≤ d') : seconds d ≤ seconds d' := by
  have cast : (d : ℚ) ≤ d' := by exact_mod_cast h
  unfold seconds
  gcongr

/-- The clock of the limiter, in seconds. -/
def clock : Clock Int ℚ where
  elapsed t u := seconds (sub t u)
  position := seconds
  elapsed_self t := by simp [sub, seconds]
  elapsed_mono u h := by
    refine seconds_le ?_
    unfold sub
    omega
  elapsed_le {t u} h := by
    have short : sub t u ≤ t - u := by
      unfold sub
      omega
    refine (seconds_le short).trans (le_of_eq ?_)
    unfold seconds
    push_cast
    exact sub_div _ _ _

/-! ## The ideal limiter -/

/-- The ideal limiter: a bucket for every key that was seen. -/
abbrev Ideal := Bytes → Option (Bucket Int ℚ)

section Ideal

variable (burst rate : ℚ)

/-- The ideal limiter after a call. -/
def Ideal.after (s : Ideal) (key : Bytes) (now : Int) : Ideal :=
  Function.update s key (some (request clock burst rate (s key) now).2)

/-- The answers of the ideal limiter. -/
def Ideal.answers : Ideal → List LimiterEvent → List Answer
  | _, [] => []
  | s, .allow key now :: es =>
      ⟨key, now, (request clock burst rate (s key) now).1⟩ ::
        Ideal.answers (Ideal.after burst rate s key now) es
  | s, .prune _ :: es => Ideal.answers s es

/-- **A key's answers are those of its own bucket.** -/
theorem answersOf_ideal (key : Bytes) (s : Ideal) (es : List LimiterEvent) :
    answersOf key (Ideal.answers burst rate s es) =
      log clock burst rate (s key) (timesOf key es) := by
  induction es generalizing s with
  | nil => rfl
  | cons e es ih =>
      cases e with
      | allow k now =>
          have rest := ih (Ideal.after burst rate s k now)
          by_cases own : k = key
          · subst own
            rw [Ideal.after, Function.update_self] at rest
            simp only [Ideal.answers, answersOf, timesOf, LimiterEvent.isCallOf, decide_true,
              List.filter_cons_of_pos, List.map_cons, LimiterEvent.time, log] at rest ⊢
            rw [← rest]
            rfl
          · rw [Ideal.after, Function.update_of_ne (Ne.symm own)] at rest
            simp only [Ideal.answers, answersOf, timesOf, LimiterEvent.isCallOf, own, decide_false,
              Bool.false_eq_true, not_false_eq_true, List.filter_cons_of_neg] at rest ⊢
            exact rest
      | prune now => exact ih s

/-- The ideal limiter prunes nothing. -/
theorem ideal_answers_filter (s : Ideal) (es : List LimiterEvent) :
    Ideal.answers burst rate s (es.filter LimiterEvent.isCall) = Ideal.answers burst rate s es := by
  induction es generalizing s with
  | nil => rfl
  | cons e es ih =>
      cases e with
      | allow key now =>
          rw [List.filter_cons_of_pos rfl, Ideal.answers, Ideal.answers, ih]
      | prune now =>
          rw [List.filter_cons_of_neg (by simp [LimiterEvent.isCall]), Ideal.answers, ih]

end Ideal

/-! ## The limiter stands for the ideal one -/

/-- **The limiter stands for the ideal one**, from `now` on. -/
structure Stands (cap rate : ℚ) (l : RateLimiter) (s : Ideal) (now : Int) : Prop where
  burst : l.burst = cap
  perSec : l.perSec = rate
  /-- A bucket that is missing is missing in the ideal limiter, or full there. -/
  bucket : ∀ key, l.buckets.lookup key = s key ∨
    l.buckets.lookup key = none ∧ ∃ b, s key = some b ∧
      cap ≤ b.tokens + clock.elapsed now b.last * rate
  bounds : ∀ key, ∀ b ∈ s key, 0 ≤ b.tokens ∧ b.tokens ≤ cap ∧ b.last ≤ now

/-- What a loop that deletes keys leaves of a map. -/
theorem lookup_foldl_erase (full : Bucket Int ℚ → Prop) [DecidablePred full]
    (entries : List (Σ _ : Bytes, Bucket Int ℚ)) (m : AList fun _ : Bytes => Bucket Int ℚ)
    (key : Bytes) :
    let left := entries.foldl (fun m e => if full e.2 then m.erase e.1 else m) m
    left.lookup key = m.lookup key ∨
      left.lookup key = none ∧ ∃ b, ⟨key, b⟩ ∈ entries ∧ full b := by
  induction entries generalizing m with
  | nil => exact .inl rfl
  | cons e entries ih =>
      obtain ⟨k, b⟩ := e
      dsimp only [List.foldl_cons] at ih ⊢
      rcases ih (if full b then m.erase k else m) with same | ⟨gone, b', member, isFull⟩
      · rw [same]
        split
        · rename_i isFull
          by_cases own : key = k
          · subst own
            exact .inr ⟨AList.lookup_erase key m, b, List.mem_cons_self, isFull⟩
          · exact .inl (AList.lookup_erase_ne own)
        · exact .inl rfl
      · exact .inr ⟨gone, b', List.mem_cons_of_mem _ member, isFull⟩

section Stands

variable {cap rate : ℚ} {l : RateLimiter} {s : Ideal} {now : Int}

/-- A full bucket stays full. -/
theorem Stands.mono (stands : Stands cap rate l s now) (rateNonneg : 0 ≤ rate) {now' : Int}
    (later : now ≤ now') : Stands cap rate l s now' where
  burst := stands.burst
  perSec := stands.perSec
  bucket key := by
    refine (stands.bucket key).imp_right ?_
    rintro ⟨missing, b, isIdeal, full⟩
    have refill := mul_le_mul_of_nonneg_right (clock.elapsed_mono b.last later) rateNonneg
    exact ⟨missing, b, isIdeal, by linarith⟩
  bounds key b member := by
    obtain ⟨low, high, last⟩ := stands.bounds key b member
    exact ⟨low, high, last.trans later⟩

/-- A prune drops full buckets only. -/
theorem Stands.prune (stands : Stands cap rate l s now) : Stands cap rate (l.prune now) s now where
  burst := stands.burst
  perSec := stands.perSec
  bounds := stands.bounds
  bucket key := by
    rcases lookup_foldl_erase
      (fun b => l.burst ≤ b.tokens + seconds (sub now b.last) * l.perSec) l.buckets.entries
      l.buckets key with same | ⟨gone, b, member, full⟩
    · have kept : (l.prune now).buckets.lookup key = l.buckets.lookup key := same
      rw [kept]
      exact stands.bucket key
    · have present : l.buckets.lookup key = some b := AList.mem_lookup_iff.mpr member
      rw [stands.burst, stands.perSec] at full
      refine .inr ⟨gone, b, ?_, full⟩
      rcases stands.bucket key with same | ⟨missing, -⟩
      · rw [← same, present]
      · rw [missing] at present
        cases present

/-- `consume` is a request to the bucket. -/
theorem consume_eq (l : RateLimiter) (key : Bytes) (b : Bucket Int ℚ) (now : Int) :
    l.consume key b now =
      ((request clock l.burst l.perSec (some b) now).1,
        { l with
          buckets := l.buckets.insert key (request clock l.burst l.perSec (some b) now).2 }) := by
  have capped : (if l.burst < b.tokens + seconds (sub now b.last) * l.perSec then l.burst
      else b.tokens + seconds (sub now b.last) * l.perSec) =
      level clock l.burst l.perSec (some b) now := by
    rw [level, min_def]
    split <;> rename_i h
    · exact (if_pos h.le).symm
    · rw [not_lt] at h
      split
      · exact le_antisymm h ‹_›
      · rfl
  simp only [RateLimiter.consume, capped, request]
  split <;> rfl

/-- A call that finds a bucket with the ideal level. -/
theorem Stands.consume (stands : Stands cap rate l s now) (capNonneg : 0 ≤ cap)
    (rateNonneg : 0 ≤ rate) {key : Bytes} {b : Bucket Int ℚ}
    (same : level clock cap rate (some b) now = level clock cap rate (s key) now) :
    (l.consume key b now).1 = (request clock cap rate (s key) now).1 ∧
      Stands cap rate (l.consume key b now).2 (Ideal.after cap rate s key now) now := by
  have asked : request clock cap rate (some b) now = request clock cap rate (s key) now := by
    unfold request
    rw [same]
  rw [consume_eq, stands.burst, stands.perSec, asked]
  refine ⟨rfl, ⟨rfl, rfl, fun k => ?_, fun k b' member => ?_⟩⟩
  · by_cases own : k = key
    · subst own
      exact .inl (by rw [AList.lookup_insert, Ideal.after, Function.update_self])
    · rw [AList.lookup_insert_ne own, Ideal.after, Function.update_of_ne own]
      exact stands.bucket k
  · by_cases own : k = key
    · subst own
      rw [Ideal.after, Function.update_self, Option.mem_some_iff] at member
      subst member
      have ready : ∀ b' ∈ s k, b'.Ready now := fun b' member =>
        ⟨(stands.bounds k b' member).1, (stands.bounds k b' member).2.2⟩
      obtain ⟨low, high, last⟩ := request_bounds (c := clock) capNonneg rateNonneg ready
      exact ⟨low, high, last.le⟩
    · rw [Ideal.after, Function.update_of_ne own] at member
      exact stands.bounds k b' member

/-- A new bucket has the ideal level. -/
theorem Stands.level_new (stands : Stands cap rate l s now) {key : Bytes}
    (missing : l.buckets.lookup key = none) :
    level clock cap rate (some ⟨cap, now⟩) now = level clock cap rate (s key) now := by
  have new : level clock cap rate (some ⟨cap, now⟩) now = cap := by
    rw [level, clock.elapsed_self, zero_mul, add_zero, min_self]
  rw [new]
  rcases stands.bucket key with same | ⟨-, b, isIdeal, full⟩
  · rw [← same, missing, level]
  · rw [isIdeal, level, min_eq_left full]

/-- **A call is answered as by the ideal limiter**, and the limiter stands for it afterwards. -/
theorem Stands.allowWhen (stands : Stands cap rate l s now) (capNonneg : 0 ≤ cap)
    (rateNonneg : 0 ≤ rate) (due : Bool) (key : Bytes) :
    (l.allowWhen due key now).1 = (request clock cap rate (s key) now).1 ∧
      Stands cap rate (l.allowWhen due key now).2 (Ideal.after cap rate s key now) now := by
  unfold RateLimiter.allowWhen
  cases found : l.buckets.lookup key with
  | some b =>
      refine stands.consume capNonneg rateNonneg ?_
      rcases stands.bucket key with same | ⟨missing, -⟩
      · rw [← same, found]
      · rw [missing] at found
        cases found
  | none =>
      have level_eq := stands.level_new found
      dsimp only
      split
      · have pruned : Stands cap rate { l.prune now with pruned := now } s now :=
          ⟨stands.prune.burst, stands.prune.perSec, stands.prune.bucket, stands.prune.bounds⟩
        refine pruned.consume capNonneg rateNonneg ?_
        rw [← level_eq, pruned.burst]
      · refine stands.consume capNonneg rateNonneg ?_
        rw [← level_eq, stands.burst]

end Stands

/-! ## Runs of the limiter -/

section Run

variable {cap rate : ℚ} (capNonneg : 0 ≤ cap) (rateNonneg : 0 ≤ rate)

include capNonneg rateNonneg in
/-- **The limiter answers as the ideal one**, whenever it prunes. -/
theorem answers_eq_ideal (due : RateLimiter → Int → Bool) {l : RateLimiter} {s : Ideal} {start : Int}
    (stands : Stands cap rate l s start) {es : List LimiterEvent}
    (sorted : (es.map LimiterEvent.time).Pairwise (· ≤ ·))
    (after : ∀ t ∈ es.map LimiterEvent.time, start ≤ t) :
    (run due l es).1 = Ideal.answers cap rate s es ∧
      ∃ s' now, Stands cap rate (run due l es).2 s' now := by
  induction es generalizing l s start with
  | nil => exact ⟨rfl, s, start, stands⟩
  | cons e es ih =>
      rw [List.map_cons, List.pairwise_cons] at sorted
      rw [List.map_cons, List.forall_mem_cons] at after
      cases e with
      | allow key t =>
          have now : Stands cap rate l s t := stands.mono rateNonneg after.1
          obtain ⟨answer, stands'⟩ := now.allowWhen capNonneg rateNonneg (due l t) key
          obtain ⟨rest, final⟩ := ih stands' sorted.2 sorted.1
          simp only [run, Ideal.answers]
          exact ⟨by rw [rest, answer], final⟩
      | prune t =>
          have now : Stands cap rate l s t := stands.mono rateNonneg after.1
          exact ih now.prune sorted.2 sorted.1

end Run

/-- A new limiter stands for the ideal one that has seen no key. -/
theorem stands_new (burst per start : Int) :
    Stands burst (burst / seconds per) (newRateLimiter burst per) (fun _ => none) start where
  burst := rfl
  perSec := rfl
  bucket _ := .inl rfl
  bounds _ _ member := by cases member

theorem timesOf_filter (key : Bytes) (es : List LimiterEvent) :
    timesOf key (es.filter (LimiterEvent.isCallOf key)) = timesOf key es := by
  rw [timesOf, List.filter_filter, timesOf]
  simp only [Bool.and_self]

theorem sorted_timesOf {es : List LimiterEvent}
    (sorted : (es.map LimiterEvent.time).Pairwise (· ≤ ·)) (p : LimiterEvent → Bool) :
    ((es.filter p).map LimiterEvent.time).Pairwise (· ≤ ·) :=
  sorted.sublist (List.filter_sublist.map _)

theorem seconds_add (d d' : Int) : seconds (d + d') = seconds d + seconds d' := by
  unfold seconds
  push_cast
  ring

theorem seconds_nonneg {d : Int} (nonneg : 0 ≤ d) : 0 ≤ seconds d := by
  have := seconds_le nonneg
  simpa [seconds] using this

section New

variable {burst per : Int} (burstNonneg : 0 ≤ burst) (perPos : 0 < per)

include burstNonneg perPos in
theorem rate_nonneg : (0 : ℚ) ≤ burst ∧ (0 : ℚ) ≤ burst / seconds per := by
  have capNonneg : (0 : ℚ) ≤ burst := by exact_mod_cast burstNonneg
  exact ⟨capNonneg, div_nonneg capNonneg (seconds_nonneg perPos.le)⟩

include burstNonneg perPos in
/-- The answers of a new limiter. -/
theorem answers_new (due : RateLimiter → Int → Bool) {es : List LimiterEvent}
    (sorted : (es.map LimiterEvent.time).Pairwise (· ≤ ·)) :
    (run due (newRateLimiter burst per) es).1 =
        Ideal.answers burst (burst / seconds per) (fun _ => none) es ∧
      ∃ s now, Stands burst (burst / seconds per) (run due (newRateLimiter burst per) es).2 s now := by
  obtain ⟨capNonneg, rateNonneg⟩ := rate_nonneg burstNonneg perPos
  cases es with
  | nil => exact ⟨rfl, _, 0, stands_new burst per 0⟩
  | cons e es =>
      -- the limiter stands for the ideal one at any time, so at the first one
      refine answers_eq_ideal capNonneg rateNonneg due (stands_new burst per e.time) sorted ?_
      exact List.forall_mem_cons.mpr ⟨le_rfl, (List.pairwise_cons.mp sorted).1⟩

include burstNonneg perPos in
/-- The answers to one key. -/
theorem answersOf_new (due : RateLimiter → Int → Bool) (key : Bytes) {es : List LimiterEvent}
    (sorted : (es.map LimiterEvent.time).Pairwise (· ≤ ·)) :
    answersOf key (run due (newRateLimiter burst per) es).1 =
      log clock burst (burst / seconds per) none (timesOf key es) := by
  rw [(answers_new burstNonneg perPos due sorted).1, answersOf_ideal]

end New

/-- **The rate limiter is exact.**  Whatever keys are called, and prunes run, at times that do not
go back: in a window of `span` nanoseconds a key is allowed at most `burst + span * burst / per`
calls; the tokens stay between zero and `burst`; a key is answered as if it were the only one;
and all answers are those of a limiter that never prunes. -/
theorem rate_limiter_exact {burst per : Int} (burstNonneg : 0 ≤ burst) (perPos : 0 < per)
    (es : List LimiterEvent) (sorted : (es.map LimiterEvent.time).Pairwise (· ≤ ·)) :
    let l := newRateLimiter burst per
    (∀ key a span, 0 ≤ span →
      (granted a (a + span) (answersOf key (run RateLimiter.pruneDue l es).1) : ℚ) ≤
        burst + seconds span * burst / seconds per) ∧
    (∀ key, ∀ b ∈ (run RateLimiter.pruneDue l es).2.buckets.lookup key,
      0 ≤ b.tokens ∧ b.tokens ≤ burst) ∧
    (∀ key, answersOf key (run RateLimiter.pruneDue l es).1 =
      answersOf key (run RateLimiter.pruneDue l (es.filter (LimiterEvent.isCallOf key))).1) ∧
    (run RateLimiter.pruneDue l es).1 = (run never l (es.filter LimiterEvent.isCall)).1 := by
  intro l
  refine ⟨fun key a span spanNonneg => ?_, fun key b member => ?_, fun key => ?_, ?_⟩
  · obtain ⟨capNonneg, rateNonneg⟩ := rate_nonneg burstNonneg perPos
    have bound := granted_le (c := clock) capNonneg rateNonneg (by omega : a ≤ a + span)
      (sorted_timesOf sorted (LimiterEvent.isCallOf key)) (b := none) (by simp)
    have length : clock.position (a + span) - clock.position a = seconds span := by
      show seconds (a + span) - seconds a = seconds span
      rw [seconds_add, add_sub_cancel_left]
    rw [answersOf_new burstNonneg perPos _ key sorted]
    rw [length, div_mul_eq_mul_div, mul_comm] at bound
    exact bound
  · obtain ⟨-, s, now, stands⟩ := answers_new burstNonneg perPos RateLimiter.pruneDue sorted
    rcases stands.bucket key with same | ⟨missing, -⟩
    · obtain ⟨low, high, -⟩ := stands.bounds key b (same ▸ member)
      exact ⟨low, high⟩
    · rw [missing] at member
      cases member
  · rw [answersOf_new burstNonneg perPos _ key sorted,
      answersOf_new burstNonneg perPos _ key (sorted_timesOf sorted _), timesOf_filter]
  · rw [(answers_new burstNonneg perPos _ sorted).1,
      (answers_new burstNonneg perPos never (sorted_timesOf sorted _)).1, ideal_answers_filter]

/-- Three calls at once and one ten seconds later, as in the test, with a prune in between. -/
theorem rate_limiter_exact_burst :
    let es := [.allow [0x61] 0, .allow [0x61] 0, .allow [0x61] 0, .allow [0x61] 0,
      .prune (5 * 10 ^ 9), .allow [0x62] (5 * 10 ^ 9), .allow [0x61] (10 ^ 10)]
    let answers := (run RateLimiter.pruneDue (newRateLimiter 3 (30 * 10 ^ 9)) es).1
    answersOf [0x61] answers =
        [(0, true), (0, true), (0, true), (0, false), (10 ^ 10, true)] ∧
      (granted 0 (0 + 10 ^ 10) (answersOf [0x61] answers) : ℚ) ≤
        (3 : Int) + seconds (10 ^ 10) * (3 : Int) / seconds (30 * 10 ^ 9) :=
  ⟨by decide +kernel,
    (rate_limiter_exact (by decide : (0 : Int) ≤ 3) (by decide : (0 : Int) < 30 * 10 ^ 9) _
      (by decide)).1 [0x61] 0 (10 ^ 10) (by decide)⟩

end FipsExitGate.RateLimit
