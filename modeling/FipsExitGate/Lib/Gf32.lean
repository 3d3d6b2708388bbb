import Mathlib.Algebra.Field.Basic
import Mathlib.Data.BitVec

/-!
# The field with 32 elements

Polynomials over the field with two elements, modulo `X ^ 5 + X ^ 3 + 1`: five bits, added by
exclusive or.  `double` multiplies by `X`, and a product is the sum of the `X ^ i`-fold of one factor
over the bits `i` of the other.

The product is additive in both factors by its form, and commutes with `double` in the first.
That it is commutative and that there are inverses is checked on all elements; associativity
follows.
-/

/-- An element: the coefficients as bits. -/
@[ext] structure Gf32 where
  bits : BitVec 5
  deriving DecidableEq, Repr

namespace Gf32

/-- The product with `X`, where `X ^ 5` is `X ^ 3 + 1`. -/
def double (a : BitVec 5) : BitVec 5 := a <<< 1 ^^^ if a.msb then 9#5 else 0#5

/-- The `X ^ i`-fold of `a`, if `b` has the bit `i`. -/
def term (a b : BitVec 5) (i : Nat) : BitVec 5 := if b.getLsbD i then double^[i] a else 0#5

/-- The product. -/
def product (a b : BitVec 5) : BitVec 5 :=
  term a b 0 ^^^ term a b 1 ^^^ term a b 2 ^^^ term a b 3 ^^^ term a b 4

/-- The inverse, which is the 30th power. -/
def inverse (a : BitVec 5) : BitVec 5 :=
  let a2 := product a a
  let a4 := product a2 a2
  let a8 := product a4 a4
  let a16 := product a8 a8
  product a2 (product a4 (product a8 a16))

/-! ## Additivity -/

theorem double_xor (a b : BitVec 5) : double (a ^^^ b) = double a ^^^ double b := by
  revert a b
  decide +kernel

theorem double_iterate_xor (i : Nat) (a b : BitVec 5) :
    double^[i] (a ^^^ b) = double^[i] a ^^^ double^[i] b := by
  induction i generalizing a b with
  | zero => rfl
  | succ i ih => rw [Function.iterate_succ_apply, double_xor, ih]; rfl

theorem term_xor_right (a b c : BitVec 5) (i : Nat) :
    term a (b ^^^ c) i = term a b i ^^^ term a c i := by
  simp only [term, BitVec.getLsbD_xor]
  cases b.getLsbD i <;> cases c.getLsbD i <;> simp

theorem term_xor_left (a b c : BitVec 5) (i : Nat) :
    term (a ^^^ b) c i = term a c i ^^^ term b c i := by
  simp only [term, double_iterate_xor]
  cases c.getLsbD i <;> simp

theorem term_double (a b : BitVec 5) (i : Nat) : term (double a) b i = double (term a b i) := by
  simp only [term]
  split
  · rw [← Function.iterate_succ_apply, Function.iterate_succ_apply']
  · rfl

theorem product_xor_right (a b c : BitVec 5) :
    product a (b ^^^ c) = product a b ^^^ product a c := by
  simp only [product, term_xor_right]
  ac_rfl

theorem product_xor_left (a b c : BitVec 5) :
    product (a ^^^ b) c = product a c ^^^ product b c := by
  simp only [product, term_xor_left]
  ac_rfl

theorem product_double (a b : BitVec 5) : product (double a) b = double (product a b) := by
  simp only [product, term_double, double_xor]

theorem product_comm (a b : BitVec 5) : product a b = product b a := by
  revert a b
  decide +kernel

/-! ## Associativity -/

theorem product_iterate (a b : BitVec 5) (i : Nat) :
    product a (double^[i] b) = double^[i] (product a b) := by
  induction i generalizing b with
  | zero => rfl
  | succ i ih =>
      rw [Function.iterate_succ_apply, ih, product_comm, product_double, product_comm]
      rfl

theorem product_term (a b c : BitVec 5) (i : Nat) :
    product a (term b c i) = term (product a b) c i := by
  simp only [term]
  split
  · exact product_iterate a b i
  · simp [product, term]

theorem product_assoc (a b c : BitVec 5) : product (product a b) c = product a (product b c) := by
  rw [product, product.eq_def b c]
  simp only [product_xor_right, product_term]

/-! ## The field -/

theorem product_zero (a : BitVec 5) : product a 0#5 = 0#5 := by simp [product, term]

theorem product_one (a : BitVec 5) : product a 1#5 = a := by simp [product, term]

instance : Zero Gf32 := ⟨⟨0#5⟩⟩
instance : One Gf32 := ⟨⟨1#5⟩⟩
instance : Add Gf32 := ⟨fun a b => ⟨a.bits ^^^ b.bits⟩⟩
instance : Neg Gf32 := ⟨fun a => a⟩
instance : Mul Gf32 := ⟨fun a b => ⟨product a.bits b.bits⟩⟩
instance : Inv Gf32 := ⟨fun a => ⟨inverse a.bits⟩⟩

theorem inverse_spec : ∀ a : BitVec 5, a ≠ 0#5 → product a (inverse a) = 1#5 := by
  decide +kernel

instance : Field Gf32 where
  add_assoc a b c := Gf32.ext (BitVec.xor_assoc a.bits b.bits c.bits)
  zero_add a := Gf32.ext BitVec.zero_xor
  add_zero a := Gf32.ext BitVec.xor_zero
  add_comm a b := Gf32.ext (BitVec.xor_comm a.bits b.bits)
  neg_add_cancel a := Gf32.ext BitVec.xor_self
  nsmul := nsmulRec
  zsmul := zsmulRec
  mul_assoc a b c := Gf32.ext (product_assoc a.bits b.bits c.bits)
  one_mul a := Gf32.ext ((product_comm _ _).trans (product_one a.bits))
  mul_one a := Gf32.ext (product_one a.bits)
  left_distrib a b c := Gf32.ext (product_xor_right a.bits b.bits c.bits)
  right_distrib a b c := Gf32.ext (product_xor_left a.bits b.bits c.bits)
  zero_mul a := Gf32.ext ((product_comm _ _).trans (product_zero a.bits))
  mul_zero a := Gf32.ext (product_zero a.bits)
  mul_comm a b := Gf32.ext (product_comm a.bits b.bits)
  exists_pair_ne := ⟨0, 1, by decide⟩
  mul_inv_cancel a nonzero := Gf32.ext (inverse_spec a.bits fun zero => nonzero (Gf32.ext zero))
  inv_zero := by decide
  nnqsmul := _
  nnqsmul_def := fun _ _ => rfl
  qsmul := _
  qsmul_def := fun _ _ => rfl

end Gf32
