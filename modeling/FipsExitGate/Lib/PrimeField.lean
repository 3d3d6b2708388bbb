import Mathlib.Data.List.Prime
import Mathlib.FieldTheory.Finite.Basic
import Mathlib.NumberTheory.LucasPrimality

/-!
# Prime fields

Two facts about integers modulo a prime that programs rely on without saying so: that a written
constant is prime, and that raising to a fixed power takes square roots.

A number is prime if some base has the order `n - 1` modulo `n`; a certificate is such a base
with the factors of `n - 1`, which are primes certified before (`Certificate.prime`).  The
powers are computed by whatever modular exponentiation the program has.

If `n` is three modulo four, the `(n + 1) / 4`-th power of a square is one of its roots
(`sq_pow_quarter`), so squaring the power again tells squares from the rest.
-/

namespace PrimeField

/-! ## Certificates -/

/-- A base of order `number - 1`, and the primes that divide `number - 1` with their exponents. -/
structure Certificate where
  number : ℕ
  base : ℕ
  factors : List (ℕ × ℕ)

/-- The test of a certificate, where `power m x y` is meant to be `x ^ y % m`. -/
def Certificate.check (power : ℕ → ℕ → ℕ → ℕ) (c : Certificate) : Bool :=
  decide (1 < c.number) && (c.factors.map fun f => f.1 ^ f.2).prod == c.number - 1 &&
    power c.number c.base (c.number - 1) == 1 &&
    c.factors.all fun f => power c.number c.base ((c.number - 1) / f.1) != 1

theorem natCast_pow_eq_one_iff {n : ℕ} (large : 1 < n) (x y : ℕ) :
    (x : ZMod n) ^ y = 1 ↔ x ^ y % n = 1 := by
  rw [← Nat.cast_pow, ← Nat.cast_one, ZMod.natCast_eq_natCast_iff', Nat.mod_eq_of_lt large]

/-- A prime that divides a product of powers of primes is one of them. -/
theorem exists_factor {factors : List (ℕ × ℕ)} (primes : ∀ f ∈ factors, f.1.Prime) {q : ℕ}
    (prime : q.Prime) (divides : q ∣ (factors.map fun f => f.1 ^ f.2).prod) :
    ∃ f ∈ factors, q = f.1 := by
  obtain ⟨power, member, divides⟩ := (Prime.dvd_prod_iff prime.prime).mp divides
  obtain ⟨f, isFactor, rfl⟩ := List.mem_map.mp member
  refine ⟨f, isFactor, ?_⟩
  exact (Nat.prime_dvd_prime_iff_eq prime (primes f isFactor)).mp (prime.dvd_of_dvd_pow divides)

/-- **A certified number is prime**, by Lucas's test. -/
theorem Certificate.prime {power : ℕ → ℕ → ℕ → ℕ} {c : Certificate}
    (computes : ∀ x, ∀ y < c.number, power c.number x y = x ^ y % c.number)
    (primes : ∀ f ∈ c.factors, f.1.Prime) (checks : c.check power = true) : c.number.Prime := by
  simp only [Certificate.check, Bool.and_eq_true, decide_eq_true_eq, beq_iff_eq, List.all_eq_true,
    bne_iff_ne, ne_eq] at checks
  obtain ⟨⟨⟨large, product⟩, full⟩, parts⟩ := checks
  have below : c.number - 1 < c.number := by omega
  refine lucas_primality c.number c.base ?_ ?_
  · rw [natCast_pow_eq_one_iff large, ← computes _ _ below]
    exact full
  · intro q prime divides
    rw [← product] at divides
    obtain ⟨f, isFactor, rfl⟩ := exists_factor primes prime divides
    rw [ne_eq, natCast_pow_eq_one_iff large,
      ← computes _ _ ((Nat.div_le_self _ _).trans_lt below)]
    exact parts f isFactor

/-! ## Square roots -/

/-- **The power of a square is a root of it.** -/
theorem sq_pow_quarter {p : ℕ} [Fact p.Prime] (quarter : p % 4 = 3) (y : ZMod p) :
    ((y ^ 2) ^ ((p + 1) / 4)) ^ 2 = y ^ 2 := by
  have exponent : 2 * ((p + 1) / 4 * 2) = p + 1 := by omega
  calc ((y ^ 2) ^ ((p + 1) / 4)) ^ 2 = y ^ (p + 1) := by rw [← pow_mul, ← pow_mul, exponent]
    _ = y ^ 2 := by rw [pow_succ, ZMod.pow_card, pow_two]

/-- **Which residues are squares**: those that the power's square gives back. -/
theorem isSquare_iff_quarter {p : ℕ} (prime : p.Prime) (quarter : p % 4 = 3) {a : ℕ} :
    (∃ y : ℕ, y ^ 2 ≡ a [MOD p]) ↔ (a ^ ((p + 1) / 4)) ^ 2 ≡ a [MOD p] := by
  have : Fact p.Prime := ⟨prime⟩
  constructor
  · rintro ⟨y, root⟩
    rw [← ZMod.natCast_eq_natCast_iff] at root ⊢
    push_cast at root ⊢
    rw [← root]
    exact sq_pow_quarter quarter y
  · exact fun root => ⟨_, root⟩

end PrimeField
