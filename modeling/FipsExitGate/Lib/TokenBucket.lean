import Mathlib.Algebra.Order.Field.Basic
import Mathlib.Data.List.Basic
import Mathlib.Tactic.Linarith

/-!
# Token buckets

A bucket holds up to `cap` tokens and refills at a constant rate.  A request takes a token, and is
refused if there is less than one.  The bucket is brought up to date at requests only: it
remembers its level and the time it had it.

Time is any order on which a program measures what has elapsed, and the measure may fall short of
the distance between two times, as one that saturates does.  A key without a bucket has a full
one.

The bound on the requests granted in a window (`granted_le`) is a potential argument: from the
first request in the window on, the requests granted and the level left are at most the level
then and what was refilled since.
-/

namespace TokenBucket

/-- How a program measures time. -/
structure Clock (T K : Type*) [LinearOrder T] [Field K] [LinearOrder K] where
  /-- The measured time from the second argument to the first. -/
  elapsed : T → T → K
  position : T → K
  elapsed_self : ∀ t, elapsed t t = 0
  elapsed_mono : ∀ {t t'} (u : T), t ≤ t' → elapsed t u ≤ elapsed t' u
  elapsed_le : ∀ {t u}, u ≤ t → elapsed t u ≤ position t - position u

/-- A bucket: its level, and when it had it. -/
structure Bucket (T K : Type*) where
  tokens : K
  last : T
  deriving DecidableEq, Repr

section Bucket

variable {T K : Type*} [LinearOrder T] [Field K] [LinearOrder K]
variable (c : Clock T K) (cap rate : K)

/-- The level at a time. -/
def level (b : Option (Bucket T K)) (now : T) : K :=
  match b with
  | none => cap
  | some b => min cap (b.tokens + c.elapsed now b.last * rate)

/-- A request: whether it is granted, and the bucket after it. -/
def request (b : Option (Bucket T K)) (now : T) : Bool × Bucket T K :=
  if level c cap rate b now < 1 then (false, ⟨level c cap rate b now, now⟩)
  else (true, ⟨level c cap rate b now - 1, now⟩)

/-- The requests at some times, with their answers. -/
def log : Option (Bucket T K) → List T → List (T × Bool)
  | _, [] => []
  | b, now :: times =>
      (now, (request c cap rate b now).1) :: log (request c cap rate b now).2 times

/-- The requests granted in a window. -/
def granted (a e : T) (entries : List (T × Bool)) : Nat :=
  entries.countP fun entry => entry.2 && decide (a ≤ entry.1) && decide (entry.1 ≤ e)

theorem level_le (b : Option (Bucket T K)) (now : T) : level c cap rate b now ≤ cap := by
  cases b with
  | none => exact le_rfl
  | some b => exact min_le_left _ _

/-- The charge of a request, and what it leaves. -/
theorem request_charge (b : Option (Bucket T K)) (now : T) :
    (if (request c cap rate b now).1 then 1 else 0) + (request c cap rate b now).2.tokens =
      level c cap rate b now := by
  unfold request
  split <;> simp

variable {c cap rate}

theorem Clock.elapsed_nonneg (c : Clock T K) {t u : T} (later : u ≤ t) : 0 ≤ c.elapsed t u := by
  rw [← c.elapsed_self u]
  exact c.elapsed_mono u later

/-- Nothing after the window counts. -/
theorem granted_log_of_lt {a e : T} {b : Option (Bucket T K)} {times : List T}
    (after : ∀ t ∈ times, e < t) : granted a e (log c cap rate b times) = 0 := by
  induction times generalizing b with
  | nil => rfl
  | cons now times ih =>
      obtain ⟨first, rest⟩ := List.forall_mem_cons.mp after
      rw [log, granted, List.countP_cons_of_neg, ← granted, ih rest]
      simp [not_le.mpr first]

omit [LinearOrder K] in
theorem granted_cons (a e now : T) (ok : Bool) (entries : List (T × Bool)) (inside : a ≤ now)
    (notAfter : now ≤ e) :
    (granted a e ((now, ok) :: entries) : K) = (if ok then 1 else 0) + granted a e entries := by
  cases ok <;> simp [granted, inside, notAfter, add_comm]

/-! ## Bounds -/

/-- What a bucket needs to have no less than nothing. -/
structure Bucket.Ready (b : Bucket T K) (now : T) : Prop where
  tokens : 0 ≤ b.tokens
  last : b.last ≤ now

variable [IsStrictOrderedRing K] (capNonneg : 0 ≤ cap) (rateNonneg : 0 ≤ rate)

include capNonneg rateNonneg in
theorem level_nonneg {b : Option (Bucket T K)} {now : T} (ready : ∀ b' ∈ b, b'.Ready now) :
    0 ≤ level c cap rate b now := by
  cases b with
  | none => exact capNonneg
  | some b =>
      obtain ⟨tokens, last⟩ := ready b rfl
      have refill := mul_nonneg (c.elapsed_nonneg last) rateNonneg
      exact le_min capNonneg (by linarith)

include capNonneg rateNonneg in
/-- **The tokens stay within bounds.** -/
theorem request_bounds {b : Option (Bucket T K)} {now : T} (ready : ∀ b' ∈ b, b'.Ready now) :
    0 ≤ (request c cap rate b now).2.tokens ∧ (request c cap rate b now).2.tokens ≤ cap ∧
      (request c cap rate b now).2.last = now := by
  have nonneg := level_nonneg (c := c) capNonneg rateNonneg ready
  have atMost := level_le c cap rate b now
  unfold request
  split
  · exact ⟨nonneg, atMost, rfl⟩
  · rename_i enough
    rw [not_lt] at enough
    exact ⟨by simpa using enough, by dsimp only; linarith, rfl⟩

include capNonneg rateNonneg in
theorem request_ready {b : Option (Bucket T K)} {now later : T}
    (ready : ∀ b' ∈ b, b'.Ready now) (order : now ≤ later) :
    ∀ b' ∈ some (request c cap rate b now).2, b'.Ready later := by
  rintro _ ⟨⟩
  obtain ⟨nonneg, -, last⟩ := request_bounds (c := c) capNonneg rateNonneg ready
  exact ⟨nonneg, last.le.trans order⟩

/-! ## Windows -/

include rateNonneg in
theorem level_some_le {b : Bucket T K} {now : T} (order : b.last ≤ now) :
    level c cap rate (some b) now ≤ b.tokens + rate * (c.position now - c.position b.last) := by
  have refill : c.elapsed now b.last * rate ≤ rate * (c.position now - c.position b.last) := by
    rw [mul_comm]
    exact mul_le_mul_of_nonneg_left (c.elapsed_le order) rateNonneg
  exact (min_le_right _ _).trans (by linarith)

include capNonneg rateNonneg in
/-- **Inside the window** the requests granted are paid from the level at the last request and
from what is refilled. -/
theorem granted_log_le {a e : T} {b : Bucket T K} {times : List T} (inside : a ≤ b.last)
    (sorted : times.Pairwise (· ≤ ·)) (ready : ∀ t ∈ times, b.Ready t) (tokens : 0 ≤ b.tokens)
    (notAfter : b.last ≤ e) :
    (granted a e (log c cap rate (some b) times) : K) ≤
      b.tokens + rate * (c.position e - c.position b.last) := by
  induction times generalizing b with
  | nil =>
      have span := (c.elapsed_nonneg notAfter).trans (c.elapsed_le notAfter)
      simpa [log, granted] using add_nonneg tokens (mul_nonneg rateNonneg span)
  | cons now times ih =>
      obtain ⟨least, sorted⟩ := List.pairwise_cons.mp sorted
      obtain ⟨first, -⟩ := List.forall_mem_cons.mp ready
      by_cases ended : e < now
      · have none : granted a e (log c cap rate (some b) (now :: times)) = 0 :=
          granted_log_of_lt (List.forall_mem_cons.mpr
            ⟨ended, fun t member => ended.trans_le (least t member)⟩)
        have span := (c.elapsed_nonneg notAfter).trans (c.elapsed_le notAfter)
        rw [none, Nat.cast_zero]
        exact add_nonneg tokens (mul_nonneg rateNonneg span)
      · rw [not_lt] at ended
        have readyNow : ∀ b' ∈ some b, b'.Ready now := by
          rintro _ ⟨⟩
          exact first
        obtain ⟨nonneg, -, last⟩ := request_bounds (c := c) capNonneg rateNonneg readyNow
        have later := ih (b := (request c cap rate (some b) now).2)
          (by rw [last]; exact inside.trans first.last) sorted
          (fun t member => ⟨nonneg, by rw [last]; exact least t member⟩) nonneg
          (by rw [last]; exact ended)
        rw [last] at later
        have charge := request_charge c cap rate (some b) now
        have refill : level c cap rate (some b) now ≤ _ := level_some_le rateNonneg first.last
        rw [log, granted_cons a e now _ _ (inside.trans first.last) ended]
        linarith

include capNonneg rateNonneg in
/-- **The requests granted in a window** are at most a full bucket and what the window refills. -/
theorem granted_le {a e : T} (window : a ≤ e) {b : Option (Bucket T K)} {times : List T}
    (sorted : times.Pairwise (· ≤ ·)) (ready : ∀ t ∈ times, ∀ b' ∈ b, b'.Ready t) :
    (granted a e (log c cap rate b times) : K) ≤
      cap + rate * (c.position e - c.position a) := by
  have span : 0 ≤ rate * (c.position e - c.position a) :=
    mul_nonneg rateNonneg ((c.elapsed_nonneg window).trans (c.elapsed_le window))
  induction times generalizing b with
  | nil => simpa [log, granted] using add_nonneg capNonneg span
  | cons now times ih =>
      obtain ⟨least, sorted⟩ := List.pairwise_cons.mp sorted
      obtain ⟨first, -⟩ := List.forall_mem_cons.mp ready
      by_cases before : now < a
      · have uncounted : granted a e (log c cap rate b (now :: times)) =
            granted a e (log c cap rate (some (request c cap rate b now).2) times) := by
          rw [log, granted, List.countP_cons_of_neg (by simp [not_le.mpr before]), granted]
        rw [uncounted]
        exact ih sorted fun t member =>
          request_ready capNonneg rateNonneg first (least t member)
      · rw [not_lt] at before
        by_cases ended : e < now
        · rw [granted_log_of_lt (List.forall_mem_cons.mpr
            ⟨ended, fun t member => ended.trans_le (least t member)⟩), Nat.cast_zero]
          exact add_nonneg capNonneg span
        · rw [not_lt] at ended
          -- the first request in the window, which finds a full bucket at most
          obtain ⟨nonneg, -, last⟩ := request_bounds (c := c) capNonneg rateNonneg first
          have later := granted_log_le (c := c) (a := a) (e := e) capNonneg rateNonneg
            (by rw [last]; exact before) sorted
            (fun t member => ⟨nonneg, by rw [last]; exact least t member⟩) nonneg
            (by rw [last]; exact ended)
          rw [last] at later
          have charge := request_charge c cap rate b now
          have full := level_le c cap rate b now
          have shorter : rate * (c.position e - c.position now) ≤
              rate * (c.position e - c.position a) := by
            have earlier := (c.elapsed_nonneg before).trans (c.elapsed_le before)
            exact mul_le_mul_of_nonneg_left (by linarith) rateNonneg
          rw [log, granted_cons a e now _ _ before ended]
          linarith

end Bucket

end TokenBucket
