import FipsExitGate.Fipsaddr.Npub
import FipsExitGate.Lib.PrimeField
import Mathlib.Tactic.NormNum.Prime

/-!
# Points of the curve

`validXOnly` of `npub.go` is to tell whether a key is the x-coordinate of a point of secp256k1,
that is, whether it is below `secpP` and `x ^ 3 + 7` is a square modulo `secpP`.  It raises the
number to the power `(secpP + 1) / 4` and squares it again, which gives the number back exactly if
it is a square: `secpP` is a prime, and three modulo four.

The primality is proved from certificates.  The largest factor of `secpP - 1` has 237 bits and
takes a certificate of its own, and so do the two large factors of its predecessor, down to
numbers that `norm_num` knows.

## Main results

* `prime_secpP` — the constant is prime
* `validXOnly_iff` — the test accepts the x-coordinates of points, and nothing else
-/

namespace FipsExitGate.Fipsaddr

open PrimeField

/-! ## The constant is prime -/

/-- `exp` for exponents of up to 256 bits. -/
def power (m x y : Nat) : Nat := exp m 256 x y

theorem prime_of_check {c : Certificate} (fits : c.number ≤ 2 ^ 256)
    (primes : ∀ f ∈ c.factors, f.1.Prime) (checks : c.check power = true) : c.number.Prime :=
  c.prime (fun x _ below => exp_eq_pow_mod c.number (below.trans_le fits) x) primes checks

def certificate57 : Certificate :=
  ⟨173378833005251801, 6, [(2, 3), (5, 2), (2621, 1), (24809, 1), (13331831, 1)]⟩

def certificate75 : Certificate :=
  ⟨22149492674086928081353, 5, [(2, 3), (3, 1), (5323, 1), (certificate57.number, 1)]⟩

def certificate77 : Certificate :=
  ⟨132896956044521568488119, 6, [(2, 1), (3, 1), (certificate75.number, 1)]⟩

def certificate128 : Certificate :=
  ⟨255515944373312847190720520512484175977, 3,
    [(2, 3), (7, 2), (11, 1), (1627, 1), (2657, 1), (4423, 1), (41201, 1), (96557, 1), (7240687, 1),
      (107590001, 1)]⟩

/-- The largest factor of `secpP - 1`. -/
def certificate237 : Certificate :=
  ⟨205115282021455665897114700593932402728804164701536103180137503955397371, 10,
    [(2, 1), (3, 1), (5, 1), (29, 2), (31, 1), (7723, 1), (certificate77.number, 1),
      (certificate128.number, 1)]⟩

def certificateSecpP : Certificate :=
  ⟨secpP, 3, [(2, 1), (3, 1), (7, 1), (13441, 1), (certificate237.number, 1)]⟩

theorem prime_certificate57 : certificate57.number.Prime := by
  refine prime_of_check (by decide) ?_ (by decide +kernel)
  simp only [certificate57, List.forall_mem_cons]
  norm_num

theorem prime_certificate75 : certificate75.number.Prime := by
  refine prime_of_check (by decide) ?_ (by decide +kernel)
  simp only [certificate75, List.forall_mem_cons, prime_certificate57]
  norm_num

theorem prime_certificate77 : certificate77.number.Prime := by
  refine prime_of_check (by decide) ?_ (by decide +kernel)
  simp only [certificate77, List.forall_mem_cons, prime_certificate75]
  norm_num

theorem prime_certificate128 : certificate128.number.Prime := by
  refine prime_of_check (by decide) ?_ (by decide +kernel)
  simp only [certificate128, List.forall_mem_cons]
  norm_num

theorem prime_certificate237 : certificate237.number.Prime := by
  refine prime_of_check (by decide) ?_ (by decide +kernel)
  simp only [certificate237, List.forall_mem_cons, prime_certificate77, prime_certificate128]
  norm_num

/-- **The field of the curve is one.** -/
theorem prime_secpP : secpP.Prime := by
  refine prime_of_check (c := certificateSecpP) (by decide) ?_ (by decide +kernel)
  simp only [certificateSecpP, List.forall_mem_cons, prime_certificate237]
  norm_num

/-! ## The test -/

/-- **The curve membership test is exact**: a key is accepted if and only if it is below the
prime and the x-coordinate of a point. -/
theorem validXOnly_iff (pubkey : Pubkey) :
    validXOnly pubkey = true ↔
      setBytes pubkey.toList < secpP ∧
        ∃ y : Nat, y ^ 2 ≡ setBytes pubkey.toList ^ 3 + 7 [MOD secpP] := by
  generalize isX : setBytes pubkey.toList = x
  have cube : exp secpP 2 x 3 = x ^ 3 % secpP := exp_eq_pow_mod secpP (by decide) x
  have exponent : secpPExp = (secpP + 1) / 4 := by decide
  have root (a : Nat) : exp secpP 256 a secpPExp = a ^ ((secpP + 1) / 4) % secpP := by
    rw [← exponent]
    exact exp_eq_pow_mod secpP (by decide) a
  by_cases below : x < secpP
  · have residue : (x ^ 3 % secpP + 7) % secpP = (x ^ 3 + 7) % secpP := Nat.mod_add_mod _ _ _
    simp only [validXOnly, isX, if_neg (Nat.not_le.mpr below), beq_iff_eq, cube, root, residue,
      below, true_and]
    rw [isSquare_iff_quarter prime_secpP (by decide), Nat.ModEq, ← Nat.pow_mod, ← Nat.mul_mod,
      ← pow_two]
  · simp only [validXOnly, isX, if_pos (Nat.not_lt.mp below), below, false_and, Bool.false_eq_true]

end FipsExitGate.Fipsaddr
