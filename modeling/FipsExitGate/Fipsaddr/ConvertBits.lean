import FipsExitGate.Lib.Digits
import Mathlib.Data.List.Basic
import Mathlib.Data.Nat.Bitwise

/-!
# Regrouping bits

`convertBits` of `npub.go` reads groups of `fromBits` bits and writes groups of `toBits`
bits.  Between two groups it holds the bits not written yet in an accumulator of 32 bits,
from which what was written is never cleared.

## The argument

Read as digits in base `2 ^ toBits` with the held bits behind them, what is written is the
same number as what was read (`Regroups`).  The accumulator counts modulo the bits held
only, so that neither the stale bits nor the overflow of the shift matter.  At the end
the held bits are written with zeros behind them, or have to be zeros; either way the two
groupings stand for one number up to a power of two, and they determine each other.

## Main results

* `convertBits_padded` — what a padded conversion gives
* `convertBits_strict_iff` — when a strict conversion accepts, and what it gives
-/

namespace FipsExitGate.Fipsaddr

open Digits

/-- The errors of `convertBits`. -/
inductive ConvertErr where
  | value (v : UInt8) (fromBits : Nat)
  | padding
  deriving DecidableEq, Repr

def ConvertErr.text : ConvertErr → String
  | .value v fromBits => s!"invalid data value {v.toNat} for {fromBits}-bit group"
  | .padding => "invalid bech32 padding"

/-- The groups that the inner loop of `convertBits` writes from an accumulator with
`bits` bits; there are at most `bits` turns. -/
def drain (toBits acc : Nat) : Nat → Nat → List UInt8 → Nat × List UInt8
  | 0, bits, out => (bits, out)
  | turns + 1, bits, out =>
      if toBits ≤ bits then
        drain toBits acc turns (bits - toBits)
          (out ++ [UInt8.ofNat ((acc >>> (bits - toBits)) &&& (1 <<< toBits - 1))])
      else (bits, out)

/-- The loop of `convertBits`, with `acc`, `bits` and `out` so far. -/
def convertLoop (fromBits toBits : Nat) :
    List UInt8 → Nat → Nat → List UInt8 → Except ConvertErr (Nat × Nat × List UInt8)
  | [], acc, bits, out => .ok (acc, bits, out)
  | v :: data, acc, bits, out =>
      if v.toNat >>> fromBits ≠ 0 then .error (.value v fromBits)
      else
        let acc := (acc <<< fromBits ||| v.toNat) % 2 ^ 32
        let drained := drain toBits acc (bits + fromBits) (bits + fromBits) out
        convertLoop fromBits toBits data acc drained.1 drained.2

/-- The group in which `convertBits` writes the last bits, with zeros behind them. -/
def lastGroup (toBits acc bits : Nat) : Nat :=
  (acc <<< (toBits - bits)) % 2 ^ 32 &&& (1 <<< toBits - 1)

/-- `convertBits`. -/
def convertBits (data : List UInt8) (fromBits toBits : Nat) (pad : Bool) :
    Except ConvertErr (List UInt8) :=
  match convertLoop fromBits toBits data 0 0 [] with
  | .error e => .error e
  | .ok (acc, bits, out) =>
      if pad then
        if 0 < bits then .ok (out ++ [UInt8.ofNat (lastGroup toBits acc bits)]) else .ok out
      else if fromBits ≤ bits ∨ lastGroup toBits acc bits ≠ 0 then .error .padding
      else .ok out

/-! ## What the loop keeps -/

/-- The bytes as digits. -/
def values (bs : List UInt8) : List Nat := bs.map UInt8.toNat

@[simp] theorem values_nil : values [] = [] := rfl

@[simp] theorem length_values (bs : List UInt8) : (values bs).length = bs.length := by
  simp [values]

theorem values_concat (bs : List UInt8) (b : UInt8) : values (bs ++ [b]) = values bs ++ [b.toNat] := by
  simp [values]

theorem values_injective {bs cs : List UInt8} (same : values bs = values cs) : bs = cs :=
  List.map_injective_iff.mpr (fun _ _ => UInt8.toNat_inj.mp) same

/-- **One number in two groupings**: the groups `out` with the lowest `bits` bits of `acc`
behind them stand for the number that the groups `data` stand for. -/
structure Regroups (fromBits toBits : Nat) (data : List UInt8) (acc bits : Nat)
    (out : List UInt8) : Prop where
  small : ∀ d ∈ values out, d < 2 ^ toBits
  count : out.length * toBits + bits = data.length * fromBits
  number : value (2 ^ toBits) (values out) * 2 ^ bits + acc % 2 ^ bits =
    value (2 ^ fromBits) (values data)

section Loop

variable {fromBits toBits : Nat} {data out : List UInt8} {acc bits : Nat}

/-- One turn of the inner loop. -/
theorem Regroups.write (regroups : Regroups fromBits toBits data acc bits out)
    (width : toBits ≤ 8) (enough : toBits ≤ bits) :
    Regroups fromBits toBits data acc (bits - toBits)
      (out ++ [UInt8.ofNat ((acc >>> (bits - toBits)) &&& (1 <<< toBits - 1))]) := by
  obtain ⟨rest, rfl⟩ := Nat.exists_eq_add_of_le' enough
  rw [Nat.add_sub_cancel, Nat.one_shiftLeft, Nat.and_two_pow_sub_one_eq_mod,
    Nat.shiftRight_eq_div_pow]
  have isSmall : acc / 2 ^ rest % 2 ^ toBits < 2 ^ toBits := Nat.mod_lt _ (by positivity)
  have isByte : 2 ^ toBits ≤ 2 ^ 8 := Nat.pow_le_pow_right (by omega) width
  have group : (UInt8.ofNat (acc / 2 ^ rest % 2 ^ toBits)).toNat = acc / 2 ^ rest % 2 ^ toBits := by
    rw [UInt8.toNat_ofNat']
    exact Nat.mod_eq_of_lt (by omega)
  refine ⟨?_, ?_, ?_⟩
  · intro d member
    rw [values_concat, List.mem_append, List.mem_singleton] at member
    rcases member with member | rfl
    · exact regroups.small d member
    · rw [group]
      exact isSmall
  · rw [← regroups.count, List.length_append, List.length_singleton]
    ring
  · -- the bits held are the group that is written and the bits still held
    have held : acc % 2 ^ (rest + toBits) = acc / 2 ^ rest % 2 ^ toBits * 2 ^ rest + acc % 2 ^ rest := by
      rw [pow_add, Nat.mod_mul]
      ring
    rw [← regroups.number, held, values_concat, value_concat, group, pow_add]
    ring

theorem Regroups.drain (width : toBits ≤ 8) (positive : 0 < toBits) :
    ∀ (turns : Nat) {bits : Nat} {out : List UInt8},
      Regroups fromBits toBits data acc bits out → bits ≤ turns →
        Regroups fromBits toBits data acc (Fipsaddr.drain toBits acc turns bits out).1
            (Fipsaddr.drain toBits acc turns bits out).2 ∧
          (Fipsaddr.drain toBits acc turns bits out).1 < toBits := by
  intro turns
  induction turns with
  | zero =>
      intro bits out regroups enough
      exact ⟨regroups, by simp only [Fipsaddr.drain]; omega⟩
  | succ turns ih =>
      intro bits out regroups enough
      rw [Fipsaddr.drain]
      split
      · rename_i isGroup
        exact ih (regroups.write width isGroup) (by omega)
      · rename_i isShort
        exact ⟨regroups, by simpa using isShort⟩

/-- Reading a group. -/
theorem Regroups.read {v : UInt8} (regroups : Regroups fromBits toBits data acc bits out)
    (isGroup : v.toNat < 2 ^ fromBits) (fits : bits + fromBits ≤ 32) :
    Regroups fromBits toBits (data ++ [v]) ((acc <<< fromBits ||| v.toNat) % 2 ^ 32)
      (bits + fromBits) out := by
  refine ⟨regroups.small, ?_, ?_⟩
  · rw [List.length_append, List.length_singleton, add_mul, ← regroups.count]
    ring
  · -- the overflow of the shift lies above the bits held
    have pushed : (acc <<< fromBits ||| v.toNat) % 2 ^ 32 % 2 ^ (bits + fromBits) =
        acc % 2 ^ bits * 2 ^ fromBits + v.toNat := by
      rw [Nat.mod_mod_of_dvd _ (Nat.pow_dvd_pow 2 fits), ← Nat.shiftLeft_add_eq_or_of_lt isGroup,
        Nat.shiftLeft_eq, add_comm bits, pow_add, Nat.mod_mul, mul_comm acc,
        Nat.mul_add_mod, Nat.mod_eq_of_lt isGroup, Nat.mul_add_div (by positivity),
        Nat.div_eq_of_lt isGroup, Nat.add_zero, Nat.add_comm, Nat.mul_comm]
    rw [pushed, values_concat, value_concat, ← regroups.number, pow_add]
    ring

/-- What the loop leaves when it ends. -/
theorem Regroups.loop (width : toBits ≤ 8) (positive : 0 < toBits) (fits : toBits + fromBits ≤ 32) :
    ∀ (rest : List UInt8) {data out : List UInt8} {acc bits : Nat},
      Regroups fromBits toBits data acc bits out → bits < toBits →
      (∀ d ∈ values rest, d < 2 ^ fromBits) →
        ∃ acc' bits' out',
          convertLoop fromBits toBits rest acc bits out = .ok (acc', bits', out') ∧
            Regroups fromBits toBits (data ++ rest) acc' bits' out' ∧ bits' < toBits := by
  intro rest
  induction rest with
  | nil =>
      intro data out acc bits regroups short _
      exact ⟨acc, bits, out, rfl, by simpa using regroups, short⟩
  | cons v rest ih =>
      intro data out acc bits regroups short groups
      have isGroup : v.toNat < 2 ^ fromBits := groups _ (by simp [values])
      have drained := (regroups.read isGroup (by omega)).drain width positive _ (Nat.le_refl _)
      obtain ⟨acc', bits', out', done, regroups', short'⟩ :=
        ih drained.1 drained.2 fun d member => groups d (List.mem_cons_of_mem _ member)
      refine ⟨acc', bits', out', ?_, by simpa using regroups', short'⟩
      have admitted : v.toNat >>> fromBits = 0 := by
        rw [Nat.shiftRight_eq_div_pow, Nat.div_eq_of_lt isGroup]
      rw [convertLoop, if_neg (by simpa using admitted)]
      exact done

/-- A group that is too wide is refused. -/
theorem groups_of_convertLoop : ∀ {data out : List UInt8} {acc bits : Nat}
    {result : Nat × Nat × List UInt8}, convertLoop fromBits toBits data acc bits out = .ok result →
      ∀ d ∈ values data, d < 2 ^ fromBits := by
  intro data
  induction data with
  | nil => simp
  | cons v data ih =>
      intro out acc bits result done d member
      rw [convertLoop] at done
      split at done
      · cases done
      · rename_i admitted
        rcases List.mem_cons.mp member with rfl | member
        · rw [ne_eq, not_not, Nat.shiftRight_eq_div_pow] at admitted
          exact (Nat.div_eq_zero_iff_lt (by positivity)).mp admitted
        · exact ih done d member

/-- The last group is the bits held, moved to its front. -/
theorem lastGroup_eq (width : toBits ≤ 32) (short : bits ≤ toBits) :
    lastGroup toBits acc bits = acc % 2 ^ bits * 2 ^ (toBits - bits) := by
  obtain ⟨free, rfl⟩ := Nat.exists_eq_add_of_le short
  rw [lastGroup, Nat.one_shiftLeft, Nat.and_two_pow_sub_one_eq_mod,
    Nat.mod_mod_of_dvd _ (Nat.pow_dvd_pow 2 width), Nat.shiftLeft_eq, Nat.add_sub_cancel_left,
    pow_add, Nat.mul_mod_mul_right]

end Loop

/-! ## What a conversion gives -/

section Conversion

variable {fromBits toBits : Nat} {data out : List UInt8}

theorem regroups_nil (fromBits toBits : Nat) : Regroups fromBits toBits [] 0 0 [] :=
  ⟨by simp, by simp, by simp⟩

/-- **A padded conversion** gives the same number with up to `toBits - 1` zeros behind it. -/
theorem convertBits_padded (width : toBits ≤ 8) (positive : 0 < toBits)
    (fits : toBits + fromBits ≤ 32) (groups : ∀ d ∈ values data, d < 2 ^ fromBits) :
    ∃ out free, convertBits data fromBits toBits true = .ok out ∧ free < toBits ∧
      (∀ d ∈ values out, d < 2 ^ toBits) ∧ out.length * toBits = data.length * fromBits + free ∧
      value (2 ^ toBits) (values out) = value (2 ^ fromBits) (values data) * 2 ^ free := by
  obtain ⟨acc, bits, out, done, regroups, short⟩ :=
    (regroups_nil fromBits toBits).loop width positive fits data positive groups
  rw [List.nil_append] at regroups
  simp only [convertBits, done, if_true]
  have number := regroups.number
  have count := regroups.count
  split
  · rename_i held
    have isSmall : acc % 2 ^ bits * 2 ^ (toBits - bits) < 2 ^ toBits := by
      calc acc % 2 ^ bits * 2 ^ (toBits - bits) < 2 ^ bits * 2 ^ (toBits - bits) :=
            Nat.mul_lt_mul_of_pos_right (Nat.mod_lt _ (by positivity)) (by positivity)
        _ = 2 ^ toBits := by rw [← pow_add, Nat.add_sub_cancel' short.le]
    have isByte : 2 ^ toBits ≤ 2 ^ 8 := Nat.pow_le_pow_right (by omega) width
    have group : (UInt8.ofNat (lastGroup toBits acc bits)).toNat =
        acc % 2 ^ bits * 2 ^ (toBits - bits) := by
      rw [UInt8.toNat_ofNat', lastGroup_eq (by omega) short.le]
      exact Nat.mod_eq_of_lt (by omega)
    refine ⟨_, toBits - bits, rfl, by omega, ?_, ?_, ?_⟩
    · intro d member
      rw [values_concat, List.mem_append, List.mem_singleton] at member
      rcases member with member | rfl
      · exact regroups.small d member
      · rw [group]
        exact isSmall
    · rw [List.length_append, List.length_singleton, add_mul, one_mul]
      omega
    · rw [values_concat, value_concat, group, ← number, add_mul, mul_assoc, ← pow_add,
        Nat.add_sub_cancel' short.le]
  · rename_i none
    obtain rfl : bits = 0 := by omega
    exact ⟨out, 0, rfl, positive, regroups.small, by omega, by simpa [Nat.mod_one] using number⟩

/-- **A strict conversion** accepts groups that stand for a number of whole target groups
with fewer than `fromBits` zeros behind it, and gives that number. -/
theorem convertBits_strict_iff (width : toBits ≤ 8) (positive : 0 < toBits)
    (fits : toBits + fromBits ≤ 32) :
    convertBits data fromBits toBits false = .ok out ↔
      (∀ d ∈ values data, d < 2 ^ fromBits) ∧ (∀ d ∈ values out, d < 2 ^ toBits) ∧
        ∃ free, free < fromBits ∧ free < toBits ∧
          out.length * toBits + free = data.length * fromBits ∧
          value (2 ^ fromBits) (values data) = value (2 ^ toBits) (values out) * 2 ^ free := by
  constructor
  · intro converted
    cases looped : convertLoop fromBits toBits data 0 0 [] with
    | error e => simp [convertBits, looped] at converted
    | ok result =>
        have groups := groups_of_convertLoop looped
        obtain ⟨acc, bits, out', done, regroups, short⟩ :=
          (regroups_nil fromBits toBits).loop width positive fits data positive groups
        rw [List.nil_append] at regroups
        simp only [convertBits, done, Bool.false_eq_true, if_false, ite_eq_iff,
          reduceCtorEq, and_false, false_or, not_or, not_le, not_not, Except.ok.injEq] at converted
        obtain ⟨⟨few, zero⟩, rfl⟩ := converted
        rw [lastGroup_eq (by omega) short.le] at zero
        have held : acc % 2 ^ bits = 0 := by
          rcases Nat.mul_eq_zero.mp zero with zero | zero
          · exact zero
          · exact absurd zero (by positivity)
        refine ⟨groups, regroups.small, bits, few, short, regroups.count, ?_⟩
        rw [← regroups.number, held, Nat.add_zero]
  · rintro ⟨groups, small, free, few, less, count, number⟩
    obtain ⟨acc, bits, out', done, regroups, short⟩ :=
      (regroups_nil fromBits toBits).loop width positive fits data positive groups
    rw [List.nil_append] at regroups
    -- the loop writes as many groups and holds as many bits
    obtain ⟨sameLength, rfl⟩ : out'.length = out.length ∧ bits = free :=
      eq_of_mul_add_eq short less (regroups.count.trans count.symm)
    obtain ⟨sameValue, held⟩ :=
      eq_of_mul_add_eq (Nat.mod_lt acc (by positivity)) (Nat.two_pow_pos bits)
        (regroups.number.trans (number.trans (Nat.add_zero _).symm))
    have isOut : out' = out := by
      refine values_injective (eq_of_value_eq ?_ ?_ regroups.small small sameValue)
      · exact Nat.one_lt_two_pow positive.ne'
      · simpa using sameLength
    have last : lastGroup toBits acc bits = 0 := by
      rw [lastGroup_eq (by omega) short.le, held, Nat.zero_mul]
    simp [convertBits, done, last, few, isOut]

end Conversion

end FipsExitGate.Fipsaddr
