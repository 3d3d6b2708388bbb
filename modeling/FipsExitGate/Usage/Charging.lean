import FipsExitGate.Lib.Allocation
import FipsExitGate.Store.Ops
import Mathlib.Tactic.Ring

/-!
# What traffic costs

`IngestUsage` turns the bytes of a sample into an amount, with `int64` arithmetic, and
`consumeVolume` draws the amount from the volume entitlements of the account, those that
expire first before the others.

## The argument

The amount is computed as quotient times rate plus remainder times rate, so that the large
product is divided first.  What is left may still be too large: the rates that a service may
have are bounded by nothing, and a wrapped product is negative or small (`weightedBytes_iff`).

`consumeVolume` is a loop around a query, and the query leaves open which of two entitlements
with the same expiry it returns.  `Consumes` is the loop with all the choices the query has;
the function of the model is one of its runs, with enough rounds to reach the end
(`exec_consumeVolume`).  Every run draws a greedy allocation (`Consumes.allocates`), and what
is true of those is true of the loop: they use up the amount or the volume, can be drawn in
parts, and are determined if the expiries differ.

## Main results

* `weighted_exact_iff` — for which rates and byte counts the amount is exact
* `overflowing_rate_is_free` — a service whose traffic costs nothing
* `consumption_exact` — what `consumeVolume` draws, for every amount and every split of it
-/

namespace FipsExitGate

open Program Table Allocation

/-! ## Amounts -/

/-- The range of `int64`. -/
def IsInt64 (x : Int) : Prop := -2 ^ 63 ≤ x ∧ x < 2 ^ 63

theorem wrap64_eq {x : Int} (h : IsInt64 x) : wrap64 x = x :=
  wrap64_of_mem h.1 h.2

theorem isInt64_wrap64 (x : Int) : IsInt64 (wrap64 x) := by
  unfold wrap64 IsInt64
  have lower := Int.le_bmod (x := x) (m := 2 ^ 64) (by decide)
  have upper := Int.bmod_lt (x := x) (m := 2 ^ 64) (by decide)
  omega

/-- The division by parts, without wrap-around. -/
theorem div_by_parts (b rate : Int) :
    b / 1000000 * rate + b % 1000000 * rate / 1000000 = b * rate / 1000000 := by
  have split : b * rate = b % 1000000 * rate + b / 1000000 * rate * 1000000 := by
    have parts := Int.emod_add_mul_ediv b 1000000
    calc b * rate = (b % 1000000 + 1000000 * (b / 1000000)) * rate := by rw [parts]
      _ = b % 1000000 * rate + b / 1000000 * rate * 1000000 := by ring
  rw [split, Int.add_mul_ediv_right _ _ (by decide), add_comm]

/-- The amount is right and nothing on the way to it wraps around. -/
structure WeightedExact (b rate : Int) : Prop where
  eq_floor : weightedBytes b rate = b * rate / 1000000
  nonneg : 0 ≤ weightedBytes b rate
  quotient_fits : IsInt64 (b / 1000000 * rate)
  remainder_fits : IsInt64 (b % 1000000 * rate)

/-- **When an amount is exact.** -/
theorem weightedBytes_iff {b rate : Int} (nonneg : 0 ≤ b) (positive : 0 < rate) :
    WeightedExact b rate ↔
      b * rate < 2 ^ 63 * 1000000 ∧ b % 1000000 * rate < 2 ^ 63 := by
  have parts := div_by_parts b rate
  have quotient : 0 ≤ b / 1000000 * rate :=
    Int.mul_nonneg (Int.ediv_nonneg nonneg (by decide)) positive.le
  have remainder : 0 ≤ b % 1000000 * rate :=
    Int.mul_nonneg (Int.emod_nonneg b (by decide)) positive.le
  constructor
  · intro exact
    have range := isInt64_wrap64 (wrap64 (b.tdiv 1000000 * rate) +
      (wrap64 (b.tmod 1000000 * rate)).tdiv 1000000)
    have isFloor := exact.eq_floor
    unfold weightedBytes at isFloor
    rw [isFloor] at range
    have fits := exact.remainder_fits
    unfold IsInt64 at range fits
    exact ⟨by omega, fits.2⟩
  · rintro ⟨small, smallRemainder⟩
    have fitsQuotient : IsInt64 (b / 1000000 * rate) := by
      unfold IsInt64
      omega
    have fitsRemainder : IsInt64 (b % 1000000 * rate) := by
      unfold IsInt64
      omega
    have fits : IsInt64 (b * rate / 1000000) := by
      unfold IsInt64
      omega
    have computed : weightedBytes b rate = b * rate / 1000000 := by
      unfold weightedBytes
      rw [Int.tdiv_eq_ediv_of_nonneg nonneg, Int.tmod_eq_emod_of_nonneg nonneg,
        wrap64_eq fitsQuotient, wrap64_eq fitsRemainder, Int.tdiv_eq_ediv_of_nonneg remainder,
        parts, wrap64_eq fits]
    exact ⟨computed, by omega, fitsQuotient, fitsRemainder⟩

theorem SampleInput.clamped_nonneg (smp : SampleInput) : 0 ≤ smp.clamped := by
  unfold SampleInput.clamped
  omega

theorem SampleInput.clamped_le (smp : SampleInput) : smp.clamped ≤ 2 ^ 40 := by
  unfold SampleInput.clamped maxSampleBytes
  omega

/-- **The rates for which amounts are exact.**  For a sample and a rate this is a matter of
two products; for a rate and all samples it holds exactly up to a rate of `2 ^ 23`, that is
`8388608 · 10 ^ 6` parts per million. -/
theorem weighted_exact_iff (rate : Int) (positive : 0 < rate) :
    (∀ smp : SampleInput, WeightedExact smp.clamped rate ↔
      smp.clamped * rate < 2 ^ 63 * 1000000 ∧ smp.clamped % 1000000 * rate < 2 ^ 63) ∧
    ((∀ smp : SampleInput, WeightedExact smp.clamped rate) ↔ rate < 8388608 * 1000000) := by
  have pointwise : ∀ smp : SampleInput, _ :=
    fun smp => weightedBytes_iff smp.clamped_nonneg positive
  refine ⟨pointwise, ?_, ?_⟩
  · intro exact
    have top := (pointwise ⟨"", none, 2 ^ 40⟩).mp (exact ⟨"", none, 2 ^ 40⟩)
    have clamp : (⟨"", none, 2 ^ 40⟩ : SampleInput).clamped = 2 ^ 40 := by decide
    rw [clamp] at top
    omega
  · intro small smp
    rw [pointwise]
    constructor
    · have le : smp.clamped * rate ≤ 2 ^ 40 * rate :=
        Int.mul_le_mul_of_nonneg_right smp.clamped_le positive.le
      omega
    · have le : smp.clamped % 1000000 * rate ≤ 999999 * rate :=
        Int.mul_le_mul_of_nonneg_right (by omega) positive.le
      omega

/-- At the usual rate of one every amount is exact. -/
theorem weighted_exact_iff_one :
    (0 : Int) < 1000000 ∧
      (∀ smp : SampleInput, WeightedExact smp.clamped 1000000 ↔
        smp.clamped * 1000000 < 2 ^ 63 * 1000000 ∧ smp.clamped % 1000000 * 1000000 < 2 ^ 63) ∧
      ∀ smp : SampleInput, WeightedExact smp.clamped 1000000 := by
  obtain ⟨pointwise, uniform⟩ := weighted_exact_iff 1000000 (by decide)
  exact ⟨by decide, pointwise, uniform.mpr (by decide)⟩

/-- A service is registered with the largest rate there is, an account buys a gigabyte, and a
node reports two megabytes of its traffic. -/
def overflowingRate : List Call :=
  [⟨calm 0, .createService "clearnet" "Connectivity" 1080 (2 ^ 63 - 1) true⟩,
    ⟨calm 0, .creditVolume firstNpub 1000000000 30⟩,
    ⟨calm 1, .ingestUsage "node" ⟨"report", "epoch", 1, [⟨"clearnet", some firstAddr, 2000000⟩]⟩⟩]

/-- **A rate that makes traffic free.**  Two million bytes at this rate are far more than the
account has, but the product wraps around to a negative amount, and nothing is drawn. -/
theorem overflowing_rate_is_free :
    weightedBytes 2000000 (2 ^ 63 - 1) = -2 ∧
      ((plainStore.after overflowingRate).samples.map fun smp => (smp.accountId, smp.bytes)) =
        [(some 2, 2000000)] ∧
      ((plainStore.after overflowingRate).entitlements.map fun e => (e.accountId, e.volumeUsed)) =
        [(2, 0)] := by
  decide +kernel

/-! ## The loop of `consumeVolume` -/

/-- The rows that the query of `consumeVolume` selects from. -/
def Entitlement.drawable (now : Time) (acct : AccountId) (e : Entitlement) : Bool :=
  decide (e.accountId = acct) && decide (e.kind = .volume) && e.activeAt now

/-- `total - used`. -/
def Entitlement.remaining (e : Entitlement) : Int :=
  e.volumeBytes.getD 0 - e.volumeUsed

/-- A row the query may return: one of those that expire first. -/
structure IsNext (now : Time) (acct : AccountId) (rows : List Entitlement) (e : Entitlement) :
    Prop where
  member : e ∈ rows
  drawable : e.drawable now acct = true
  earliest : ∀ e' ∈ rows, e'.drawable now acct = true → e.expiresAt ≤ e'.expiresAt

/-- `UPDATE entitlements SET volume_used = volume_used + $2 WHERE id = $1`. -/
def drawFrom (id : Nat) (amount : Int) (rows : List Entitlement) : List Entitlement :=
  updateWhere (fun e => decide (e.id = id)) (Entitlement.draw amount) rows

/-- **The loop**, from the amount and the table it starts with to the table it leaves. -/
inductive Consumes (now : Time) (acct : AccountId) :
    Int → List Entitlement → List Entitlement → Prop where
  /-- `weighted > 0` fails. -/
  | done {weighted : Int} {rows : List Entitlement} (spent : weighted ≤ 0) :
      Consumes now acct weighted rows rows
  /-- `pgx.ErrNoRows`. -/
  | dry {weighted : Int} {rows : List Entitlement} (unspent : 0 < weighted)
      (none : ∀ e ∈ rows, e.drawable now acct = false) : Consumes now acct weighted rows rows
  | draw {weighted : Int} {rows rows' : List Entitlement} {e : Entitlement}
      (unspent : 0 < weighted) (next : IsNext now acct rows e)
      (rest : Consumes now acct (weighted - min weighted e.remaining)
        (drawFrom e.id (min weighted e.remaining) rows) rows') :
      Consumes now acct weighted rows rows'

section Loop

variable {now : Time} {acct : AccountId} {weighted : Int} {rows rows' : List Entitlement}
  {e : Entitlement}

theorem Entitlement.drawable_iff :
    e.drawable now acct = true ↔
      e.accountId = acct ∧ e.kind = .volume ∧ e.startsAt ≤ now ∧ now ≤ e.expiresAt ∧
        ∃ total, e.volumeBytes = some total ∧ e.volumeUsed < total := by
  unfold drawable activeAt
  cases e.volumeBytes with
  | none =>
      simp only [Bool.and_eq_true, decide_eq_true_eq, Bool.or_false, reduceCtorEq, false_and,
        exists_false, and_false, iff_false]
      rintro ⟨⟨-, isVolume⟩, -, isTime⟩
      exact absurd (isVolume.symm.trans isTime) nofun
  | some total =>
      simp only [Bool.and_eq_true, Bool.or_eq_true, decide_eq_true_eq, Option.some.injEq,
        exists_eq_left']
      constructor
      · rintro ⟨⟨isIts, isVolume⟩, ⟨starts, expires⟩, isTime | left⟩
        · exact absurd (isVolume.symm.trans isTime) nofun
        · exact ⟨isIts, isVolume, starts, expires, left⟩
      · rintro ⟨isIts, isVolume, starts, expires, left⟩
        exact ⟨⟨isIts, isVolume⟩, ⟨starts, expires⟩, .inr left⟩

theorem Entitlement.remaining_pos (h : e.drawable now acct = true) : 0 < e.remaining := by
  obtain ⟨-, -, -, -, total, isTotal, left⟩ := drawable_iff.mp h
  rw [remaining, isTotal, Option.getD_some]
  omega

theorem nextVolume_eq (db : Db) :
    db.nextVolume now acct =
      (db.entitlements.filter (Entitlement.drawable now acct)).minOn? (·.expiresAt) :=
  rfl

theorem isNext_of_nextVolume {db : Db} (found : db.nextVolume now acct = some e) :
    IsNext now acct db.entitlements e := by
  rw [nextVolume_eq] at found
  have row := List.mem_filter.mp (List.minOn?_mem found)
  refine ⟨row.1, row.2, fun e' isRow drawable => ?_⟩
  exact le_of_minOn? found e' (List.mem_filter.mpr ⟨isRow, drawable⟩)

theorem none_of_nextVolume {db : Db} (found : db.nextVolume now acct = none) :
    ∀ e ∈ db.entitlements, e.drawable now acct = false := by
  intro e isRow
  by_contra drawable
  have isIn := List.mem_filter.mpr ⟨isRow, Bool.of_not_eq_false drawable⟩
  have isSome := List.isSome_minOn?_of_mem (f := (·.expiresAt)) isIn
  rw [← nextVolume_eq, found] at isSome
  cases isSome

/-- A draw that exhausts the row leaves one row less to draw from. -/
theorem countP_drawFrom_lt (isRow : e ∈ rows) (drawable : e.drawable now acct = true)
    (keys : (rows.map (·.id)).Nodup) :
    (drawFrom e.id e.remaining rows).countP (Entitlement.drawable now acct) <
      rows.countP (Entitlement.drawable now acct) := by
  refine countP_updateWhere_lt (fun r member hit => ?_) isRow (decide_eq_true rfl) drawable
  obtain rfl := eq_of_key_eq keys member isRow (of_decide_eq_true hit)
  obtain ⟨-, -, -, -, total, isTotal, -⟩ := Entitlement.drawable_iff.mp drawable
  rw [← Bool.not_eq_true, Entitlement.drawable_iff]
  rintro ⟨-, -, -, -, total', isTotal', left⟩
  simp only [Entitlement.draw, Entitlement.remaining, isTotal, Option.getD_some,
    Option.some.injEq] at isTotal' left
  omega

theorem map_id_drawFrom (id : Nat) (amount : Int) (rows : List Entitlement) :
    (drawFrom id amount rows).map (·.id) = rows.map (·.id) := by
  refine map_updateWhere (f := Entitlement.draw amount) ?_ rows
  exact fun _ => rfl

/-- The rounds of the model are enough to finish the loop. -/
theorem exec_consumeVolumeLoop {fuel : Nat} {db : Db}
    (enough : weighted ≤ 0 ∨ db.entitlements.countP (Entitlement.drawable now acct) < fuel)
    (keys : (db.entitlements.map (·.id)).Nodup) :
    ∃ rows', exec (consumeVolumeLoop now acct fuel weighted) db =
        (.ok (), { db with entitlements := rows' }) ∧
      Consumes now acct weighted db.entitlements rows' := by
  induction fuel generalizing weighted db with
  | zero => exact ⟨db.entitlements, rfl, .done (by omega)⟩
  | succ fuel ih =>
      unfold consumeVolumeLoop
      split
      next spent => exact ⟨db.entitlements, rfl, .done spent⟩
      next unspent =>
        rw [exec_get_bind]
        cases found : db.nextVolume now acct with
        | none =>
            exact ⟨db.entitlements, rfl, .dry (Int.not_le.mp unspent) (none_of_nextVolume found)⟩
        | some e =>
            have next := isNext_of_nextVolume found
            have left : weighted - min weighted e.remaining ≤ 0 ∨
                (drawFrom e.id (min weighted e.remaining) db.entitlements).countP
                  (Entitlement.drawable now acct) < fuel := by
              rcases le_or_gt weighted e.remaining with covers | exhausts
              · exact .inl (by omega)
              · right
                rw [min_eq_right exhausts.le]
                have fewer := countP_drawFrom_lt next.member next.drawable keys
                omega
            let drawn : Db :=
              { db with entitlements := drawFrom e.id (min weighted e.remaining) db.entitlements }
            have keys' : (drawn.entitlements.map (·.id)).Nodup := by
              rwa [map_id_drawFrom]
            obtain ⟨rows', run, rest⟩ := ih left keys'
            exact ⟨rows', run, .draw (Int.not_le.mp unspent) next rest⟩

/-- **The function of the model is a run of the loop**, and touches nothing else. -/
theorem exec_consumeVolume (now : Time) (acct : AccountId) (weighted : Int) (db : Db)
    (keys : (db.entitlements.map (·.id)).Nodup) :
    ∃ rows', exec (consumeVolume now acct weighted) db =
        (.ok (), { db with entitlements := rows' }) ∧
      Consumes now acct weighted db.entitlements rows' := by
  unfold consumeVolume
  rw [exec_get_bind]
  exact exec_consumeVolumeLoop (.inr (Nat.lt_succ_of_le List.countP_le_length)) keys

end Loop

/-! ## What the loop draws -/

/-- The volume entitlements of the account whose period it is, exhausted ones included. -/
def Entitlement.inPeriod (now : Time) (acct : AccountId) (e : Entitlement) : Bool :=
  decide (e.accountId = acct) && decide (e.kind = .volume) && decide (e.startsAt ≤ now) &&
    decide (now ≤ e.expiresAt) && e.volumeBytes.isSome

/-- What can be drawn from an entitlement in its period. -/
def Entitlement.capacity (e : Entitlement) : Int := max 0 e.remaining

/-- The table after drawing an amount from each row. -/
def drawn (amount : Nat → Int) (rows : List Entitlement) : List Entitlement :=
  rows.map fun e => e.draw (amount e.id)

/-- The amounts are a greedy allocation, by expiry, to the entitlements in their period. -/
structure Allocates (now : Time) (acct : AccountId) (weighted : Int) (rows : List Entitlement)
    (amount : Nat → Int) : Prop where
  greedy : Greedy (rows.filter (Entitlement.inPeriod now acct)) (·.expiresAt)
    Entitlement.capacity weighted fun e => amount e.id
  elsewhere : ∀ e ∈ rows, e.inPeriod now acct = false → amount e.id = 0

section Allocations

variable {now : Time} {acct : AccountId} {weighted weighted' : Int}
  {rows rows' : List Entitlement} {e : Entitlement} {amount amount' : Nat → Int}

theorem Entitlement.draw_zero (e : Entitlement) : e.draw 0 = e := by
  simp [draw]

theorem drawn_drawn (amount amount' : Nat → Int) (rows : List Entitlement) :
    drawn amount' (drawn amount rows) = drawn (fun id => amount id + amount' id) rows := by
  simp only [drawn, List.map_map]
  refine List.map_congr_left fun e _ => ?_
  simp [Entitlement.draw, add_assoc]

theorem drawFrom_eq_drawn (id : Nat) (x : Int) (rows : List Entitlement) :
    drawFrom id x rows = drawn (fun i => if i = id then x else 0) rows := by
  refine List.map_congr_left fun e _ => ?_
  by_cases isIt : e.id = id
  · simp [isIt]
  · simp [isIt, Entitlement.draw_zero]

theorem Entitlement.drawable_iff_inPeriod :
    e.drawable now acct = true ↔ e.inPeriod now acct = true ∧ 0 < e.capacity := by
  rw [drawable_iff]
  simp only [inPeriod, capacity, remaining, Bool.and_eq_true, decide_eq_true_eq,
    Option.isSome_iff_exists]
  constructor
  · rintro ⟨isIts, isVolume, starts, expires, total, isTotal, left⟩
    refine ⟨⟨⟨⟨⟨isIts, isVolume⟩, starts⟩, expires⟩, total, isTotal⟩, ?_⟩
    rw [isTotal, Option.getD_some]
    omega
  · rintro ⟨⟨⟨⟨⟨isIts, isVolume⟩, starts⟩, expires⟩, total, isTotal⟩, left⟩
    rw [isTotal, Option.getD_some] at left
    exact ⟨isIts, isVolume, starts, expires, total, isTotal, by omega⟩

theorem Entitlement.capacity_nonneg (e : Entitlement) : 0 ≤ e.capacity :=
  le_max_left 0 _

theorem Entitlement.capacity_draw {x : Int} (nonneg : 0 ≤ x) (le : x ≤ e.capacity) :
    (e.draw x).capacity = e.capacity - x := by
  simp only [capacity, remaining, draw] at le ⊢
  omega

theorem filter_inPeriod_drawn (amount : Nat → Int) (rows : List Entitlement) :
    (drawn amount rows).filter (Entitlement.inPeriod now acct) =
      (rows.filter (Entitlement.inPeriod now acct)).map fun e => e.draw (amount e.id) := by
  rw [drawn, List.filter_map]
  rfl

/-- Two allocations, one after the other, are one. -/
theorem Allocates.add (nonneg : 0 ≤ weighted') (first : Allocates now acct weighted rows amount)
    (second : Allocates now acct weighted' (drawn amount rows) amount') :
    Allocates now acct (weighted + weighted') rows fun id => amount id + amount' id where
  greedy := by
    have rest := second.greedy
    rw [filter_inPeriod_drawn, greedy_map] at rest
    refine first.greedy.add nonneg (rest.congr (fun _ _ => rfl) (fun e member => ?_)
      fun _ _ => rfl)
    exact Entitlement.capacity_draw (first.greedy.nonneg e member)
      (first.greedy.le_capacity e member)
  elsewhere e member outside := by
    have none := second.elsewhere (e.draw (amount e.id)) (List.mem_map_of_mem member) outside
    rw [first.elsewhere e member outside, zero_add]
    exact none

/-- Drawing from the next row is an allocation. -/
theorem IsNext.allocates (next : IsNext now acct rows e) (keys : (rows.map (·.id)).Nodup) {x : Int}
    (nonneg : 0 ≤ x) (le : x ≤ e.remaining) :
    Allocates now acct x rows fun id => if id = e.id then x else 0 := by
  obtain ⟨inPeriod, -⟩ := Entitlement.drawable_iff_inPeriod.mp next.drawable
  have isSlot := List.mem_filter.mpr ⟨next.member, inPeriod⟩
  have same : ∀ e' ∈ rows, e'.id = e.id → e' = e :=
    fun e' isRow => eq_of_key_eq keys isRow next.member
  have le_capacity : x ≤ e.capacity := le.trans (le_max_right 0 _)
  constructor
  · constructor
    · intro e' _
      split
      · exact nonneg
      · exact le_rfl
    · intro e' isIn
      split
      next isIt => rwa [same e' (List.mem_filter.mp isIn).1 isIt]
      next => exact e'.capacity_nonneg
    · have keys' := keys.sublist ((List.filter_sublist (p := Entitlement.inPeriod now acct)).map
        (·.id))
      rw [sum_map_ite_key keys' isSlot fun _ => x, min_eq_left]
      refine le_capacity.trans (List.single_le_sum ?_ _ (List.mem_map_of_mem isSlot))
      exact List.forall_mem_map.mpr fun e' _ => e'.capacity_nonneg
    · intro e₁ isIn e₂ isIn' before touched
      split at touched
      next isIt =>
        -- nothing is left in a row that expires before the next one
        obtain rfl := same e₂ (List.mem_filter.mp isIn').1 isIt
        have differs : e₁.id ≠ e₂.id := by
          intro equal
          rw [same e₁ (List.mem_filter.mp isIn).1 equal] at before
          exact lt_irrefl _ before
        rw [if_neg differs]
        refine le_antisymm e₁.capacity_nonneg (not_lt.mp fun left => ?_)
        obtain ⟨isRow, inPeriod⟩ := List.mem_filter.mp isIn
        exact absurd (next.earliest e₁ isRow (Entitlement.drawable_iff_inPeriod.mpr ⟨inPeriod, left⟩))
          (not_le.mpr before)
      next => exact absurd touched (lt_irrefl 0)
  · intro e' isRow outside
    refine if_neg fun isIt => ?_
    rw [same e' isRow isIt, inPeriod] at outside
    cases outside

/-- **Every run of the loop draws a greedy allocation.** -/
theorem Consumes.allocates (run : Consumes now acct weighted rows rows') (nonneg : 0 ≤ weighted)
    (keys : (rows.map (·.id)).Nodup) :
    ∃ amount, rows' = drawn amount rows ∧ Allocates now acct weighted rows amount := by
  have untouched (rows : List Entitlement) : rows = drawn (fun _ => 0) rows := by
    simp [drawn, Entitlement.draw_zero]
  induction run with
  | @done weighted rows spent =>
      refine ⟨fun _ => 0, untouched rows, ?_, fun _ _ _ => rfl⟩
      exact greedy_zero (fun e _ => e.capacity_nonneg) (.inl (by omega))
  | @dry weighted rows unspent none =>
      refine ⟨fun _ => 0, untouched rows, ?_, fun _ _ _ => rfl⟩
      refine greedy_zero (fun e _ => e.capacity_nonneg) (.inr ⟨nonneg, fun e isIn => ?_⟩)
      obtain ⟨isRow, inPeriod⟩ := List.mem_filter.mp isIn
      refine le_antisymm (not_lt.mp fun left => ?_) e.capacity_nonneg
      have drawable := Entitlement.drawable_iff_inPeriod.mpr ⟨inPeriod, left⟩
      rw [none e isRow] at drawable
      cases drawable
  | @draw weighted rows rows' e unspent next rest ih =>
      have positive := Entitlement.remaining_pos next.drawable
      obtain ⟨amount, rfl, second⟩ := ih (by omega) ((map_id_drawFrom _ _ _).symm ▸ keys)
      have first := next.allocates keys (x := min weighted e.remaining) (by omega)
        (min_le_right _ _)
      rw [drawFrom_eq_drawn] at second ⊢
      refine ⟨_, drawn_drawn _ _ _, ?_⟩
      have both := first.add (by omega) second
      rwa [add_sub_cancel] at both

theorem sum_volumeUsed_drawn (amount : Nat → Int) (rows : List Entitlement) :
    ((drawn amount rows).map (·.volumeUsed)).sum =
      (rows.map (·.volumeUsed)).sum + (rows.map fun e => amount e.id).sum := by
  rw [drawn, List.map_map, ← List.sum_map_add]
  rfl

/-- The capacity of the slots is the volume that is left in active entitlements. -/
theorem sum_capacity (rows : List Entitlement) :
    ((rows.filter (Entitlement.inPeriod now acct)).map Entitlement.capacity).sum =
      ((rows.filter (Entitlement.drawable now acct)).map Entitlement.remaining).sum := by
  have selected : (rows.filter (Entitlement.inPeriod now acct)).filter
      (Entitlement.drawable now acct) = rows.filter (Entitlement.drawable now acct) := by
    rw [List.filter_filter]
    refine List.filter_congr fun e _ => ?_
    cases drawable : e.drawable now acct with
    | true => rw [Bool.true_and, (Entitlement.drawable_iff_inPeriod.mp drawable).1]
    | false => rw [Bool.false_and]
  have capacities : ((rows.filter (Entitlement.drawable now acct)).map Entitlement.remaining) =
      (rows.filter (Entitlement.drawable now acct)).map Entitlement.capacity := by
    refine List.map_congr_left fun e isIn => ?_
    have positive := Entitlement.remaining_pos (List.mem_filter.mp isIn).2
    exact (max_eq_right positive.le).symm
  rw [capacities, ← selected]
  refine (sum_map_filter fun e isIn exhausted => ?_).symm
  refine le_antisymm (not_lt.mp fun left => ?_) e.capacity_nonneg
  have drawable := Entitlement.drawable_iff_inPeriod.mpr ⟨(List.mem_filter.mp isIn).2, left⟩
  rw [exhausted] at drawable
  cases drawable

theorem Allocates.sum_eq (h : Allocates now acct weighted rows amount) :
    (rows.map fun e => amount e.id).sum =
      min weighted ((rows.filter (Entitlement.drawable now acct)).map Entitlement.remaining).sum := by
  rw [← sum_capacity, ← h.greedy.sum_eq, sum_map_filter h.elsewhere]

theorem Allocates.nonneg (h : Allocates now acct weighted rows amount) (isRow : e ∈ rows) :
    0 ≤ amount e.id := by
  cases inPeriod : e.inPeriod now acct with
  | true => exact h.greedy.nonneg e (List.mem_filter.mpr ⟨isRow, inPeriod⟩)
  | false => exact (h.elsewhere e isRow inPeriod).ge

/-- Only active volume is drawn, and no more than there is. -/
theorem Allocates.le_remaining (h : Allocates now acct weighted rows amount) (isRow : e ∈ rows)
    (touched : amount e.id ≠ 0) :
    e.drawable now acct = true ∧ amount e.id ≤ e.remaining := by
  have inPeriod : e.inPeriod now acct = true := by
    by_contra outside
    exact touched (h.elsewhere e isRow (Bool.not_eq_true _ ▸ outside))
  have nonneg := h.nonneg isRow
  have le := h.greedy.le_capacity e (List.mem_filter.mpr ⟨isRow, inPeriod⟩)
  have positive : 0 < e.capacity := by omega
  refine ⟨Entitlement.drawable_iff_inPeriod.mpr ⟨inPeriod, positive⟩, ?_⟩
  unfold Entitlement.capacity at le positive
  omega

/-- Two entitlements in their period do not expire at the same time. -/
def DistinctExpiries (now : Time) (acct : AccountId) (rows : List Entitlement) : Prop :=
  ∀ e₁ ∈ rows, ∀ e₂ ∈ rows, e₁.inPeriod now acct = true → e₂.inPeriod now acct = true →
    e₁.expiresAt = e₂.expiresAt → e₁ = e₂

/-- Where the expiries differ, the table that is left is determined. -/
theorem Allocates.drawn_eq (distinct : DistinctExpiries now acct rows)
    (h : Allocates now acct weighted rows amount) (h' : Allocates now acct weighted rows amount') :
    drawn amount rows = drawn amount' rows := by
  have same := h.greedy.unique (fun e₁ isIn e₂ isIn' => distinct e₁ (List.mem_filter.mp isIn).1 e₂
    (List.mem_filter.mp isIn').1 (List.mem_filter.mp isIn).2 (List.mem_filter.mp isIn').2) h'.greedy
  refine List.map_congr_left fun e isRow => ?_
  cases inPeriod : e.inPeriod now acct with
  | true => rw [same e (List.mem_filter.mpr ⟨isRow, inPeriod⟩)]
  | false => rw [h.elsewhere e isRow inPeriod, h'.elsewhere e isRow inPeriod]

theorem map_id_drawn (amount : Nat → Int) (rows : List Entitlement) :
    (drawn amount rows).map (·.id) = rows.map (·.id) := by
  rw [drawn, List.map_map]
  rfl

/-- Amounts drawn one after the other are an allocation of their sum. -/
theorem exec_forM_consumeVolume (now : Time) (acct : AccountId) {amounts : List Int}
    (nonneg : ∀ w ∈ amounts, 0 ≤ w) {db : Db} (keys : (db.entitlements.map (·.id)).Nodup) :
    ∃ amount, exec (amounts.forM (consumeVolume now acct)) db =
        (.ok (), { db with entitlements := drawn amount db.entitlements }) ∧
      Allocates now acct amounts.sum db.entitlements amount := by
  induction amounts generalizing db with
  | nil =>
      obtain ⟨amount, same, allocates⟩ :=
        (Consumes.done (le_refl 0) : Consumes now acct 0 db.entitlements _).allocates le_rfl keys
      exact ⟨amount, by rw [← same]; rfl, allocates⟩
  | cons w amounts ih =>
      obtain ⟨rows', run, consumes⟩ := exec_consumeVolume now acct w db keys
      obtain ⟨amount, rfl, first⟩ := consumes.allocates (nonneg w (by simp)) keys
      let after : Db := { db with entitlements := drawn amount db.entitlements }
      have keys' : (after.entitlements.map (·.id)).Nodup := by
        rwa [map_id_drawn]
      have nonneg' : ∀ w ∈ amounts, 0 ≤ w := fun w isIn => nonneg w (by simp [isIn])
      obtain ⟨amount', run', second⟩ := ih nonneg' keys'
      refine ⟨fun id => amount id + amount' id, ?_, ?_⟩
      · rw [← drawn_drawn]
        exact (exec_bind_ok run).trans run'
      · rw [List.sum_cons]
        exact first.add (List.sum_nonneg nonneg') second

end Allocations

/-- **Consumption is exact, bounded and additive.**  `consumeVolume` returns, having run the
loop on the entitlements and touched nothing else.  Whatever the query returns among
entitlements with one expiry, a run draws an amount from every row such that only active
volume of the account is drawn; nobody's use exceeds their volume; the sum of the amounts is
what was asked for, or all that was left; and a row that expires before a drawn one is
exhausted.  If the expiries differ, the table that is left depends on the sum only of the
amounts that are consumed one after the other. -/
theorem consumption_exact (now : Time) (acct : AccountId) (weighted : Int)
    (nonneg : 0 ≤ weighted) (db : Db) (keys : (db.entitlements.map (·.id)).Nodup)
    (bounded : ∀ e ∈ db.entitlements, e.accountId = acct → ∀ total, e.volumeBytes = some total →
      0 ≤ e.volumeUsed ∧ e.volumeUsed ≤ total) :
    (∃ rows', exec (consumeVolume now acct weighted) db =
        (.ok (), { db with entitlements := rows' }) ∧
      Consumes now acct weighted db.entitlements rows') ∧
    (∀ rows', Consumes now acct weighted db.entitlements rows' →
      ∃ amount : Nat → Int,
        rows' = db.entitlements.map (fun e => e.draw (amount e.id)) ∧
        (∀ e ∈ db.entitlements, amount e.id ≠ 0 → 0 < amount e.id ∧
          e.accountId = acct ∧ e.kind = .volume ∧ e.activeAt now = true) ∧
        (∀ e ∈ rows', e.accountId = acct → ∀ total, e.volumeBytes = some total →
          0 ≤ e.volumeUsed ∧ e.volumeUsed ≤ total) ∧
        (rows'.map (·.volumeUsed)).sum = (db.entitlements.map (·.volumeUsed)).sum +
          min weighted ((db.entitlements.filter (Entitlement.drawable now acct)).map
            Entitlement.remaining).sum ∧
        (∀ e₁ ∈ db.entitlements, ∀ e₂ ∈ db.entitlements, e₁.drawable now acct = true →
          e₁.expiresAt < e₂.expiresAt → amount e₂.id ≠ 0 → amount e₁.id = e₁.remaining)) ∧
    (DistinctExpiries now acct db.entitlements →
      (∀ rows₁ rows₂, Consumes now acct weighted db.entitlements rows₁ →
        Consumes now acct weighted db.entitlements rows₂ → rows₁ = rows₂) ∧
      ∀ amounts : List Int, (∀ w ∈ amounts, 0 ≤ w) → amounts.sum = weighted →
        exec (amounts.forM (consumeVolume now acct)) db =
          exec (consumeVolume now acct weighted) db) := by
  refine ⟨exec_consumeVolume now acct weighted db keys, ?_, ?_⟩
  · intro rows' run
    obtain ⟨amount, rfl, allocates⟩ := run.allocates nonneg keys
    refine ⟨amount, rfl, ?_, ?_, ?_, ?_⟩
    · intro e isRow touched
      have drawable := (allocates.le_remaining isRow touched).1
      unfold Entitlement.drawable at drawable
      simp only [Bool.and_eq_true, decide_eq_true_eq] at drawable
      have le := allocates.nonneg isRow
      exact ⟨by omega, drawable.1.1, drawable.1.2, drawable.2⟩
    · refine List.forall_mem_map.mpr fun e isRow isIts total isTotal => ?_
      have before := bounded e isRow isIts total isTotal
      have le := allocates.nonneg isRow
      have isTotal : e.volumeBytes = some total := isTotal
      simp only [Entitlement.draw]
      by_cases touched : amount e.id = 0
      · omega
      · have left := (allocates.le_remaining isRow touched).2
        rw [Entitlement.remaining, isTotal, Option.getD_some] at left
        omega
    · rw [sum_volumeUsed_drawn, allocates.sum_eq]
    · intro e₁ isRow e₂ isRow' drawable before touched
      obtain ⟨inPeriod, left⟩ := Entitlement.drawable_iff_inPeriod.mp drawable
      have inPeriod' := Entitlement.drawable_iff_inPeriod.mp (allocates.le_remaining isRow' touched).1
      have positive := lt_of_le_of_ne (allocates.nonneg isRow') (Ne.symm touched)
      rw [allocates.greedy.exhausted e₁ (List.mem_filter.mpr ⟨isRow, inPeriod⟩) e₂
        (List.mem_filter.mpr ⟨isRow', inPeriod'.1⟩) before positive]
      exact max_eq_right (Entitlement.remaining_pos drawable).le
  · intro distinct
    constructor
    · intro rows₁ rows₂ run₁ run₂
      obtain ⟨amount₁, rfl, first⟩ := run₁.allocates nonneg keys
      obtain ⟨amount₂, rfl, second⟩ := run₂.allocates nonneg keys
      exact first.drawn_eq distinct second
    · rintro amounts nonnegs rfl
      obtain ⟨amount, run, parts⟩ := exec_forM_consumeVolume now acct nonnegs keys
      obtain ⟨rows', run', consumes⟩ := exec_consumeVolume now acct amounts.sum db keys
      obtain ⟨amount', rfl, whole⟩ := consumes.allocates nonneg keys
      rw [run, run', parts.drawn_eq distinct whole]

/-- An account with two volume entitlements, the second of which expires first. -/
def twoVolumes : Db :=
  { Db.empty with
    entitlements := [⟨1, 7, none, .volume, some 100, 30, 0, 2000⟩,
      ⟨2, 7, none, .volume, some 50, 0, 0, 1000⟩] }

/-- Sixty bytes in three samples: fifty from the second entitlement, ten from the first. -/
theorem consumption_exact_twoVolumes :
    exec ([20, 30, 10].forM (consumeVolume 500 7)) twoVolumes =
        exec (consumeVolume 500 7 60) twoVolumes ∧
      ((exec (consumeVolume 500 7 60) twoVolumes).2.entitlements.map (·.volumeUsed)) = [40, 50] := by
  have additive := (consumption_exact 500 7 60 (by decide) twoVolumes (by decide)
    (by decide +kernel)).2.2
  refine ⟨(additive ?_).2 [20, 30, 10] (by decide) (by decide), by decide +kernel⟩
  unfold DistinctExpiries
  decide +kernel

end FipsExitGate
