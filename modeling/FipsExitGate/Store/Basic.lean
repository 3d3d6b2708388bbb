import Mathlib.Algebra.Group.Nat.Defs
import Mathlib.Algebra.Ring.Int.Defs
import Mathlib.Data.List.AList

/-!
# The vocabulary of the store

The types every table of the backend's database is written in, and the two
things a store call takes from outside the database: the derivation of a mesh
address from an identity, and the environment of one call (its clock readings,
the order in which Go enumerates a map, the transactions it loses).

## Design notes

* `Addr` is Postgres' `inet` restricted to hosts: an IPv4 or an IPv6 address.
* Row ids (`gen_random_uuid()`) are natural numbers handed out in increasing
  order: all the code uses of them is that a new one differs from every old one.
* Timestamps are integers, in microseconds, so the zero `time.Time` that the
  usage handler substitutes for an unparsable window end is an ordinary
  (negative) value.
* A Go map is an `AList`; ranging over it visits the entries in an order the
  program cannot know, which is a `MapOrder`.
-/

namespace FipsExitGate

/-- A timestamp: `timestamptz`, in microseconds since the Unix epoch. -/
abbrev Time := Int

/-- One day, the unit of package validity and of the usage roll-up. -/
def day : Time := 86400 * 1000000

/-- The time.Time zero value, 0001-01-01T00:00:00Z. -/
def zeroTime : Time := -62135596800 * 1000000

/-- A host address as `inet` stores it. -/
inductive Addr where
  | v4 (bits : BitVec 32)
  | v6 (bits : BitVec 128)
  deriving DecidableEq, Repr

/-- An account's primary key. -/
abbrev AccountId := Nat

/-- The derivation of mesh addresses from nostr identities, as far as the store
depends on it: `normNpub` is the canonical spelling of an npub and `fromNpub`
the address `fipsaddr.FromNpub` derives from a spelling it accepts. -/
structure Identity where
  /-- `normNpub`: the spelling npubs are stored and compared in. -/
  normNpub : String → String
  /-- `fipsaddr.FromNpub`; `none` is its error. -/
  fromNpub : String → Option Addr
  /-- A canonical spelling is its own canonical spelling. -/
  norm_idem : ∀ s, normNpub (normNpub s) = normNpub s

/-- The npub of the first test vector of `fipsaddr`. -/
def firstNpub : String := "npub180cvv07tjdrrgpa0j7j7tmnyl2yr6yr7l8j4s3evf6u64th6gkwsyjh6w6"

/-- The npub of the second test vector. -/
def secondNpub : String := "npub1l2vyh47mk2p0qlsku7hg0vn29faehy9hy34ygaclpn66ukqp3afqutajft"

/-- The npub of the third test vector. -/
def thirdNpub : String := "npub1zutzeysacnf9rru6zqwmxd54mud0k44tst6l70ja5mhv8jjumytsd2x7nu"

/-- The address derived from `firstNpub`. -/
def firstAddr : Addr := .v6 0xfd1093b285866046e42dc0893228ccff#128

/-- The address derived from `secondNpub`. -/
def secondAddr : Addr := .v6 0xfd54dc855ad5c438acd60aa8849513dd#128

/-- The address derived from `thirdNpub`. -/
def thirdAddr : Addr := .v6 0xfde4f76c66657548be8645ec3f9bfbb5#128

/-- The order in which one `range` over a map visits its entries. -/
structure MapOrder (α : Type) where
  reorder : List α → List α
  perm : ∀ l, (reorder l).Perm l

namespace MapOrder

variable {α : Type}

/-- The order of the underlying list. -/
def id : MapOrder α := ⟨fun l => l, fun l => List.Perm.refl l⟩

@[simp] theorem mem_reorder (order : MapOrder α) {l : List α} {x : α} :
    x ∈ order.reorder l ↔ x ∈ l :=
  (order.perm l).mem_iff

end MapOrder

/-- A member of the authorized set: an address and the account it belongs to. -/
abbrev Member := Σ _ : Addr, AccountId

/-- What the outside supplies to one call of a store method. -/
structure Env where
  /-- `now()` of the call's `k`-th transaction, fixed when it begins. -/
  now : Nat → Time
  /-- `time.Now()` in the calling process, in nanoseconds. -/
  wall : Int
  /-- Whether the call's `k`-th transaction is lost for a reason outside the model
  (a connection, a value Postgres cannot represent): it rolls back and the call
  returns the error. -/
  fails : Nat → Bool
  /-- The order of the loops over the authorized set. -/
  order : MapOrder Member

/-- Every transaction of the call goes through. -/
def Env.Completes (env : Env) : Prop :=
  ∀ k, env.fails k = false

/-- Signed 64-bit wrap-around, the result of an `int64` operation. -/
def wrap64 (x : Int) : Int := Int.bmod x (2 ^ 64)

theorem wrap64_of_mem {n : Int} (low : -2 ^ 63 ≤ n) (high : n < 2 ^ 63) : wrap64 n = n := by
  unfold wrap64
  rw [Int.bmod_eq_of_le] <;> omega

end FipsExitGate
