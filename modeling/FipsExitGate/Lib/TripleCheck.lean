import FipsExitGate.Lib.Gf32
import FipsExitGate.Lib.LinearCode
import Mathlib.Data.List.Triplewise

/-!
# Evaluating independence over the field with 32 elements

An element is the number its five bits are, a vector a number whose digits in base 32 they are.
On these numbers the sum is an exclusive or, and the product is looked up in a table, whose entries
are digits in base 32 too.

`triplesOk` tells whether any three vectors of a list are independent: it eliminates a symbol of the
first of the three from the vectors behind it, and compares the directions that are left.  They
are compared by their residues, which a number keeps as the set of its bits.

What is evaluated is written with the functions of `Nat` rather than their notation: the kernel
has these built in.
-/

namespace Gf32

open LinearCode

/-! ## Elements as numbers -/

/-- The element of a number, by its lowest five bits. -/
def ofCode (n : Nat) : Gf32 := ⟨BitVec.ofNat 5 n⟩

/-- The digit at position `j` in base 32. -/
def digit (n j : Nat) : Nat := Nat.land (Nat.shiftRight n (Nat.mul 5 j)) 31

/-- The number with the elements `f 0, …, f 31` as digits. -/
def tabulate (f : Nat → Gf32) : Nat :=
  (List.range 32).foldr (fun b rest => rest <<< 5 ||| (f b).bits.toNat) 0

/-- The products of all elements, 32 digits for each. -/
def products : Nat :=
  (List.range 32).foldr (fun a rest => rest <<< 160 ||| tabulate (ofCode a * ofCode ·)) 0

/-- The products with an element, and more behind them. -/
def productsOf (a : Nat) : Nat := Nat.shiftRight products (Nat.mul 160 a)

def inverses : Nat := tabulate fun a => (ofCode a)⁻¹

def mulCode (a b : Nat) : Nat := digit (productsOf a) b

def invCode (a : Nat) : Nat := digit inverses a

theorem beq_eq_decide (a b : Nat) : Nat.beq a b = decide (a = b) := by
  rw [Bool.eq_iff_iff, Nat.beq_eq, decide_eq_true_eq]

theorem and_31 (n : Nat) : n &&& 31 = n % 32 := Nat.and_two_pow_sub_one_eq_mod n 5

theorem ofCode_eq_iff {a b : Nat} : ofCode a = ofCode b ↔ a % 32 = b % 32 := by
  rw [ofCode, ofCode, Gf32.mk.injEq, ← BitVec.toNat_inj, BitVec.toNat_ofNat, BitVec.toNat_ofNat]

theorem ofCode_and_31 (n : Nat) : ofCode (n &&& 31) = ofCode n := by
  rw [ofCode_eq_iff, and_31, Nat.mod_mod]

theorem ofCode_zero : ofCode 0 = 0 := rfl

theorem ofCode_eq_zero_iff {a : Nat} : ofCode a = 0 ↔ a &&& 31 = 0 := by
  rw [← ofCode_zero, ofCode_eq_iff, and_31]

theorem ofCode_xor (a b : Nat) : ofCode (a ^^^ b) = ofCode a + ofCode b :=
  Gf32.ext (BitVec.ofNat_xor)

theorem digit_eq (n j : Nat) : digit n j = n >>> (5 * j) &&& 31 := rfl

theorem digit_lt (n j : Nat) : digit n j < 32 := by
  rw [digit_eq, and_31]
  exact Nat.mod_lt _ (by decide)

theorem ofCode_mulCode {a b : Nat} (a_lt : a < 32) (b_lt : b < 32) :
    ofCode (mulCode a b) = ofCode a * ofCode b := by
  have all : ∀ a < 32, ∀ b < 32, ofCode (mulCode a b) = ofCode a * ofCode b := by
    decide +kernel
  exact all a a_lt b b_lt

theorem ofCode_invCode {a : Nat} (a_lt : a < 32) : ofCode (invCode a) = (ofCode a)⁻¹ := by
  have all : ∀ a < 32, ofCode (invCode a) = (ofCode a)⁻¹ := by decide +kernel
  exact all a a_lt

/-! ## Vectors as numbers -/

/-- The vector of the lowest `m` digits in base 32. -/
def digits (m n : Nat) (j : Fin m) : Gf32 := ofCode (n >>> (5 * j.val))

/-- The vector whose digits are looked up in `row`. -/
def lookup (row : Nat) : Nat → Nat → Nat
  | 0, _ => 0
  | m + 1, n =>
      Nat.add (digit row (Nat.land n 31)) (Nat.mul 32 (lookup row m (Nat.shiftRight n 5)))

/-- The product with an element. -/
def scale (s m n : Nat) : Nat := lookup (productsOf s) m n

/-- The first digit other than zero. -/
def leadCode : Nat → Nat → Nat
  | 0, _ => 0
  | m + 1, n =>
      bif Nat.beq (Nat.land n 31) 0 then leadCode m (Nat.shiftRight n 5) else Nat.land n 31

def eliminateCode (m i x y : Nat) : Nat :=
  Nat.xor (scale (digit x i) m y) (scale (digit y i) m x)

def directionCode (m n : Nat) : Nat := scale (invCode (leadCode m n)) m n

theorem scale_succ (s m n : Nat) :
    scale s (m + 1) n = mulCode s (n &&& 31) + 32 * scale s m (n >>> 5) := rfl

theorem leadCode_succ (m n : Nat) :
    leadCode (m + 1) n = if n &&& 31 = 0 then leadCode m (n >>> 5) else n &&& 31 := by
  show (bif Nat.beq (n &&& 31) 0 then leadCode m (n >>> 5) else n &&& 31) = _
  rw [beq_eq_decide, Bool.cond_decide]

theorem digits_xor (m a b : Nat) : digits m (a ^^^ b) = digits m a + digits m b := by
  funext j
  show ofCode ((a ^^^ b) >>> (5 * j.val)) = ofCode (a >>> (5 * j.val)) + ofCode (b >>> (5 * j.val))
  rw [Nat.shiftRight_xor_distrib, ofCode_xor]

theorem digits_succ (m n : Nat) (j : Fin m) : digits (m + 1) n j.succ = digits m (n >>> 5) j := by
  show ofCode (n >>> (5 * (j.val + 1))) = ofCode ((n >>> 5) >>> (5 * j.val))
  rw [← Nat.shiftRight_add, Nat.add_comm 5]
  rfl

theorem digits_tail (m n : Nat) : Fin.tail (digits (m + 1) n) = digits m (n >>> 5) :=
  funext (digits_succ m n)

theorem ofCode_digit (m n : Nat) (j : Fin m) : ofCode (digit n j) = digits m n j :=
  ofCode_and_31 _

theorem shiftRight_scale (s m n : Nat) : scale s (m + 1) n >>> 5 = scale s m (n >>> 5) := by
  have low : mulCode s (n &&& 31) < 32 := digit_lt _ _
  rw [scale_succ, Nat.shiftRight_eq_div_pow]
  omega

theorem digits_scale {s : Nat} (s_lt : s < 32) (m n : Nat) :
    digits m (scale s m n) = ofCode s • digits m n := by
  induction m generalizing n with
  | zero => exact Subsingleton.elim _ _
  | succ m ih =>
      funext j
      refine Fin.cases ?_ (fun j => ?_) j
      · have low : ofCode (scale s (m + 1) n) = ofCode (mulCode s (n &&& 31)) := by
          rw [ofCode_eq_iff, scale_succ, Nat.add_mul_mod_self_left]
        show ofCode (scale s (m + 1) n) = ofCode s * ofCode n
        rw [low, ofCode_mulCode s_lt (by rw [and_31]; omega), ofCode_and_31]
      · rw [digits_succ, shiftRight_scale, ih, Pi.smul_apply, Pi.smul_apply, digits_succ]

theorem scale_lt (s m n : Nat) : scale s m n < 32 ^ m := by
  induction m generalizing n with
  | zero => exact Nat.one_pos
  | succ m ih =>
      have low : mulCode s (n &&& 31) < 32 := digit_lt _ _
      have high := ih (n >>> 5)
      rw [scale_succ, pow_succ]
      omega

/-- A number is determined by its digits. -/
theorem eq_of_digits {m a b : Nat} (a_lt : a < 32 ^ m) (b_lt : b < 32 ^ m)
    (same : digits m a = digits m b) : a = b := by
  induction m generalizing a b with
  | zero => omega
  | succ m ih =>
      have high : a >>> 5 = b >>> 5 := by
        rw [pow_succ] at a_lt b_lt
        refine ih ?_ ?_ ?_
        · rw [Nat.shiftRight_eq_div_pow]
          omega
        · rw [Nat.shiftRight_eq_div_pow]
          omega
        · rw [← digits_tail, ← digits_tail, same]
      have low : a % 32 = b % 32 := ofCode_eq_iff.mp (congrFun same 0)
      rw [Nat.shiftRight_eq_div_pow, Nat.shiftRight_eq_div_pow] at high
      omega

theorem leadCode_lt (m n : Nat) : leadCode m n < 32 := by
  induction m generalizing n with
  | zero => exact Nat.zero_lt_succ 31
  | succ m ih =>
      rw [leadCode_succ]
      split
      · exact ih _
      · rw [and_31]
        exact Nat.mod_lt _ (by decide)

theorem ofCode_leadCode (m n : Nat) : ofCode (leadCode m n) = lead (digits m n) := by
  induction m generalizing n with
  | zero => rfl
  | succ m ih =>
      have first : digits (m + 1) n 0 = ofCode n := rfl
      rw [leadCode_succ, lead, first, digits_tail]
      by_cases zero : n &&& 31 = 0
      · rw [if_pos zero, if_pos (ofCode_eq_zero_iff.mpr zero), ih]
      · rw [if_neg zero, if_neg (mt ofCode_eq_zero_iff.mp zero), ofCode_and_31]

theorem digits_directionCode (m n : Nat) :
    digits m (directionCode m n) = direction (digits m n) := by
  have inv_lt : invCode (leadCode m n) < 32 := digit_lt _ _
  rw [directionCode, digits_scale inv_lt, ofCode_invCode (leadCode_lt m n),
    ofCode_leadCode, direction]

theorem digits_eliminateCode (m : Nat) (i : Fin m) (x y : Nat) :
    digits m (eliminateCode m i x y) = eliminate i (digits m x) (digits m y) := by
  show digits m (scale (digit x i) m y ^^^ scale (digit y i) m x) = _
  rw [digits_xor, digits_scale (digit_lt _ _), digits_scale (digit_lt _ _),
    ofCode_digit, ofCode_digit]
  funext j
  rw [Pi.add_apply, Pi.smul_apply, Pi.smul_apply, eliminate, sub_eq_add_neg]
  rfl

/-! ## The check -/

/-- The residues modulo `p` are different from each other and from those in `seen`. -/
def distinct (p : Nat) : Nat → List Nat → Bool
  | _, [] => true
  | seen, x :: rest =>
      Nat.beq (Nat.land 1 (Nat.shiftRight seen (Nat.mod x p))) 0 &&
        distinct p (Nat.lor seen (Nat.shiftLeft 1 (Nat.mod x p))) rest

/-- Some symbol of `x` can be eliminated, and leaves vectors that are independent in pairs.  The
bit 0 stands for the zero vector. -/
def rowOk (p m x : Nat) (rest : List Nat) : Bool :=
  (List.finRange m).any fun i =>
    !(digit x i).beq 0 &&
      distinct p 1 (rest.map fun y => directionCode m (eliminateCode m i x y))

/-- Any three of the vectors are independent. -/
def triplesOk (p m : Nat) : List Nat → Bool
  | [] => true
  | x :: rest => rowOk p m x rest && triplesOk p m rest

/-- The three vectors are independent. -/
def Independent (m x y z : Nat) : Prop :=
  ∀ r s t : Gf32, (∀ j, r * digits m x j + s * digits m y j + t * digits m z j = 0) →
    r = 0 ∧ s = 0 ∧ t = 0

theorem distinct_cons {p seen x : Nat} {rest : List Nat}
    (ok : distinct p seen (x :: rest) = true) :
    seen.testBit (x % p) = false ∧ distinct p (seen ||| 1 <<< (x % p)) rest = true := by
  obtain ⟨free, ok⟩ := Bool.and_eq_true_iff.mp ok
  have free : 1 &&& seen >>> (x % p) = 0 := Nat.beq_eq.mp free
  exact ⟨by rw [Nat.testBit, free]; rfl, ok⟩

theorem nodup_of_distinct {p seen : Nat} {l : List Nat} (ok : distinct p seen l = true) :
    l.Nodup ∧ ∀ x ∈ l, seen.testBit (x % p) = false := by
  induction l generalizing seen with
  | nil => exact ⟨List.nodup_nil, by simp⟩
  | cons x rest ih =>
      obtain ⟨free, ok⟩ := distinct_cons ok
      obtain ⟨nodup, others⟩ := ih ok
      have apart : ∀ y ∈ rest, seen.testBit (y % p) = false ∧ x % p ≠ y % p := by
        intro y y_mem
        have unseen := others y y_mem
        rw [Nat.testBit_or, Nat.one_shiftLeft, Nat.testBit_two_pow, Bool.or_eq_false_iff] at unseen
        exact ⟨unseen.1, of_decide_eq_false unseen.2⟩
      refine ⟨List.nodup_cons.mpr ⟨fun x_mem => (apart x x_mem).2 rfl, nodup⟩, ?_⟩
      rintro y (_ | ⟨_, y_mem⟩)
      · exact free
      · exact (apart y y_mem).1

/-- Two directions that differ from each other and from zero. -/
theorem pair_of_directions {m y z : Nat} (y_ne : 0 ≠ directionCode m y)
    (z_ne : 0 ≠ directionCode m z) (different : directionCode m y ≠ directionCode m z) {s t : Gf32}
    (zero : ∀ j, s * digits m y j + t * digits m z j = 0) : s = 0 ∧ t = 0 := by
  have code_lt (n : Nat) : directionCode m n < 32 ^ m := scale_lt _ m n
  have none : digits m 0 = 0 := by
    funext j
    show ofCode (0 >>> (5 * j.val)) = 0
    rw [Nat.zero_shiftRight, ofCode_zero]
  have nonzero (n : Nat) (n_ne : 0 ≠ directionCode m n) : digits m n ≠ 0 := by
    intro n_eq
    refine n_ne (eq_of_digits (Nat.pow_pos (by decide)) (code_lt n) ?_)
    rw [digits_directionCode, n_eq, direction, smul_zero, none]
  refine pair_independent (nonzero y y_ne) (nonzero z z_ne) (fun same => different ?_) zero
  refine eq_of_digits (code_lt y) (code_lt z) ?_
  rw [digits_directionCode, digits_directionCode, same]

theorem pairwise_of_rowOk {p m x : Nat} {rest : List Nat} (ok : rowOk p m x rest = true) :
    rest.Pairwise (Independent m x) := by
  obtain ⟨i, -, ok⟩ := List.any_eq_true.mp ok
  rw [Bool.and_eq_true] at ok
  have pivot : digits m x i ≠ 0 := by
    rw [← ofCode_digit, ne_eq, ofCode_eq_zero_iff, and_31, Nat.mod_eq_of_lt (digit_lt x i)]
    intro zero
    have nonzero := ok.1
    rw [zero] at nonzero
    cases nonzero
  obtain ⟨nodup, others⟩ := nodup_of_distinct ok.2
  refine (List.pairwise_map.mp nodup).imp_of_mem fun {y z} y_mem z_mem different => ?_
  have nonzero (y : Nat) (y_mem : y ∈ rest) :
      0 ≠ directionCode m (eliminateCode m i x y) := by
    intro zero
    have unseen := others _ (List.mem_map_of_mem y_mem)
    rw [← zero, Nat.zero_mod] at unseen
    cases unseen
  intro r s t zero
  refine triple_independent pivot (fun s t zero => ?_) zero
  refine pair_of_directions (nonzero y y_mem) (nonzero z z_mem) different fun j => ?_
  rw [digits_eliminateCode, digits_eliminateCode]
  exact zero j

/-- **The check is right.** -/
theorem triplewise_of_triplesOk {p m : Nat} {vectors : List Nat}
    (ok : triplesOk p m vectors = true) : vectors.Triplewise (Independent m) := by
  induction vectors with
  | nil => exact .nil
  | cons x rest ih =>
      rw [triplesOk, Bool.and_eq_true] at ok
      exact .cons (pairwise_of_rowOk ok.1) (ih ok.2)

end Gf32
