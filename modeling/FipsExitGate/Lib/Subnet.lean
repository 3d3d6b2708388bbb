import Mathlib.Data.Nat.ModEq
import Mathlib.Tactic.Ring

/-!
# Addresses in a prefix

An address is a bit vector of width `w`; a prefix fixes its first `bits` bits.  The addresses of
a prefix are its network address with a host number added, and as long as the number fits into
the bits that the prefix leaves free the addition does not wrap: it is an addition of natural
numbers, it stays in the prefix, and different numbers give different addresses.

## Main results

* `toNat_network_add` — the addition does not wrap
* `contains_network_add` — and does not carry into the prefix
* `splice_low_eq_add` — nor, in a wide prefix, out of the last word
-/

namespace Subnet

variable {w : Nat}

/-- The network address of a prefix: the bits that the prefix does not fix are zero. -/
def network (addr : BitVec w) (bits : Nat) : BitVec w :=
  (addr >>> (w - bits)) <<< (w - bits)

/-- The last address of a prefix: the broadcast address of IPv4. -/
def last (addr : BitVec w) (bits : Nat) : BitVec w :=
  network addr bits + BitVec.ofNat w (2 ^ (w - bits) - 1)

/-- The prefix contains an address: they agree on the bits it fixes. -/
def Contains (addr : BitVec w) (bits : Nat) (x : BitVec w) : Prop :=
  x >>> (w - bits) = addr >>> (w - bits)

instance (addr : BitVec w) (bits : Nat) (x : BitVec w) : Decidable (Contains addr bits x) :=
  inferInstanceAs (Decidable (_ = _))

theorem toNat_network (addr : BitVec w) (bits : Nat) :
    (network addr bits).toNat = addr.toNat / 2 ^ (w - bits) * 2 ^ (w - bits) := by
  have small : addr.toNat / 2 ^ (w - bits) * 2 ^ (w - bits) < 2 ^ w :=
    (Nat.div_mul_le_self _ _).trans_lt addr.isLt
  rw [network, BitVec.toNat_shiftLeft, BitVec.toNat_ushiftRight, Nat.shiftLeft_eq,
    Nat.shiftRight_eq_div_pow, Nat.mod_eq_of_lt small]

/-- **Room for the hosts**: after the network address there are as many addresses as host
numbers. -/
theorem toNat_network_add_lt (addr : BitVec w) {bits n : Nat} (fits : n < 2 ^ (w - bits)) :
    (network addr bits).toNat + n < 2 ^ w := by
  have blocks : 2 ^ (w - (w - bits)) * 2 ^ (w - bits) = 2 ^ w := by
    rw [← pow_add, Nat.sub_add_cancel (Nat.sub_le _ _)]
  have below : addr.toNat / 2 ^ (w - bits) < 2 ^ (w - (w - bits)) := by
    rw [Nat.div_lt_iff_lt_mul (Nat.two_pow_pos _), blocks]
    exact addr.isLt
  calc (network addr bits).toNat + n
      < addr.toNat / 2 ^ (w - bits) * 2 ^ (w - bits) + 2 ^ (w - bits) := by
        rw [toNat_network]
        exact Nat.add_lt_add_left fits _
    _ = (addr.toNat / 2 ^ (w - bits) + 1) * 2 ^ (w - bits) := by ring
    _ ≤ 2 ^ (w - (w - bits)) * 2 ^ (w - bits) := Nat.mul_le_mul_right _ below
    _ = 2 ^ w := blocks

/-- **The addition does not wrap.** -/
theorem toNat_network_add (addr : BitVec w) {bits n : Nat} (fits : n < 2 ^ (w - bits)) :
    (network addr bits + BitVec.ofNat w n).toNat = (network addr bits).toNat + n := by
  have room := toNat_network_add_lt addr fits
  rw [BitVec.toNat_add, BitVec.toNat_ofNat, Nat.mod_eq_of_lt (by omega : n < 2 ^ w),
    Nat.mod_eq_of_lt room]

/-- **The addition does not carry into the prefix.** -/
theorem contains_network_add (addr : BitVec w) {bits n : Nat} (fits : n < 2 ^ (w - bits)) :
    Contains addr bits (network addr bits + BitVec.ofNat w n) := by
  apply BitVec.eq_of_toNat_eq
  rw [BitVec.toNat_ushiftRight, BitVec.toNat_ushiftRight, Nat.shiftRight_eq_div_pow,
    Nat.shiftRight_eq_div_pow, toNat_network_add addr fits, toNat_network, Nat.add_comm,
    Nat.add_mul_div_right _ _ (Nat.two_pow_pos _), Nat.div_eq_of_lt fits, Nat.zero_add]

/-- Different host numbers, different addresses. -/
theorem network_add_inj (addr : BitVec w) {bits m n : Nat} (fitsM : m < 2 ^ (w - bits))
    (fitsN : n < 2 ^ (w - bits))
    (same : network addr bits + BitVec.ofNat w m = network addr bits + BitVec.ofNat w n) :
    m = n := by
  have values := congrArg BitVec.toNat same
  rw [toNat_network_add addr fitsM, toNat_network_add addr fitsN] at values
  exact Nat.add_left_cancel values

/-- A host that is numbered from 2 on is neither the network address nor the first host. -/
theorem network_add_ne {addr : BitVec w} {bits n : Nat} (host : 2 ≤ n)
    (fits : n < 2 ^ (w - bits)) :
    network addr bits + BitVec.ofNat w n ≠ network addr bits ∧
      network addr bits + BitVec.ofNat w n ≠ network addr bits + BitVec.ofNat w 1 := by
  refine ⟨fun same => ?_, fun same => ?_⟩
  · have zero := network_add_inj addr (n := 0) fits (by omega) (by rw [same, BitVec.add_zero])
    omega
  · have one := network_add_inj addr fits (by omega) same
    omega

theorem network_add_ne_last {addr : BitVec w} {bits n : Nat} (fits : n + 1 < 2 ^ (w - bits)) :
    network addr bits + BitVec.ofNat w n ≠ last addr bits := by
  intro same
  have top := network_add_inj addr (by omega) (by omega) same
  omega

/-! ## Adding into the last word -/

/-- The value of two words joined. -/
theorem toNat_append_eq {m n : Nat} (hi : BitVec m) (lo : BitVec n) :
    (hi ++ lo).toNat = hi.toNat * 2 ^ n + lo.toNat := by
  rw [BitVec.toNat_append, ← Nat.shiftLeft_add_eq_or_of_lt lo.isLt, Nat.shiftLeft_eq]

/-- **An addition into the last `n` bits** is an addition to the whole, if it does not wrap
there. -/
theorem splice_low_eq_add {m n k : Nat} (x : BitVec (m + n))
    (room : (x.extractLsb' 0 n).toNat + k < 2 ^ n) :
    x.extractLsb' n m ++ (x.extractLsb' 0 n + BitVec.ofNat n k) = x + BitVec.ofNat (m + n) k := by
  have low : (x.extractLsb' 0 n).toNat = x.toNat % 2 ^ n := by
    rw [BitVec.extractLsb'_toNat, Nat.shiftRight_zero]
  have below : x.toNat / 2 ^ n < 2 ^ m := by
    rw [Nat.div_lt_iff_lt_mul (Nat.two_pow_pos _), ← pow_add]
    exact x.isLt
  have high : (x.extractLsb' n m).toNat = x.toNat / 2 ^ n := by
    rw [BitVec.extractLsb'_toNat, Nat.shiftRight_eq_div_pow, Nat.mod_eq_of_lt below]
  have small : k < 2 ^ n := (Nat.le_add_left _ _).trans_lt room
  have whole : x.toNat / 2 ^ n * 2 ^ n + (x.toNat % 2 ^ n + k) = x.toNat + k := by
    rw [← Nat.add_assoc, Nat.div_add_mod']
  have bound : x.toNat + k < 2 ^ (m + n) := by
    rw [low] at room
    calc x.toNat + k = x.toNat / 2 ^ n * 2 ^ n + (x.toNat % 2 ^ n + k) := whole.symm
      _ < x.toNat / 2 ^ n * 2 ^ n + 2 ^ n := Nat.add_lt_add_left room _
      _ = (x.toNat / 2 ^ n + 1) * 2 ^ n := by ring
      _ ≤ 2 ^ m * 2 ^ n := Nat.mul_le_mul_right _ below
      _ = 2 ^ (m + n) := (pow_add 2 m n).symm
  have narrow : 2 ^ n ≤ 2 ^ (m + n) := Nat.pow_le_pow_right (by decide) (Nat.le_add_left _ _)
  apply BitVec.eq_of_toNat_eq
  rw [toNat_append_eq, high, BitVec.toNat_add, BitVec.toNat_ofNat, Nat.mod_eq_of_lt small,
    Nat.mod_eq_of_lt room, low, whole, BitVec.toNat_add, BitVec.toNat_ofNat,
    Nat.mod_eq_of_lt (small.trans_le narrow), Nat.mod_eq_of_lt bound]

/-- The last `n` bits of a network address are zero where the prefix leaves them free. -/
theorem extractLsb'_network (addr : BitVec w) {bits n : Nat} (free : n ≤ w - bits) :
    (network addr bits).extractLsb' 0 n = 0#n := by
  apply BitVec.eq_of_toNat_eq
  rw [BitVec.extractLsb'_toNat, Nat.shiftRight_zero, toNat_network, BitVec.toNat_zero]
  exact Nat.mod_eq_zero_of_dvd ((pow_dvd_pow 2 free).mul_left _)

end Subnet
