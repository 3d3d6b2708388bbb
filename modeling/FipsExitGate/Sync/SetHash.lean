import FipsExitGate.Fipsaddr.Address
import FipsExitGate.Agent.Authz

/-!
# The fingerprint of a set of addresses

The package `authzhash`.  The agent hashes the set in the kernel, the backend hashes
`authz_current`, and equal hashes are to mean equal sets.  The hash is that of the distinct
addresses in order, sixteen bytes each, so it does not depend on the order they are given in,
and the hashed bytes are those of one set only.

That two different messages never have the same 128 bits of SHA-256 cannot be proved, and is not
true.  `CollisionFree` says it of two messages.

## Main results

* `fingerprint_congr` — the fingerprint is that of the set
* `fingerprint_eq_iff` — without a collision, equal fingerprints are equal sets
-/

namespace FipsExitGate

/-- `netip.Addr.As16`, as a number; `bytes.Compare` is the order of the numbers. -/
def Addr.as16 : Addr → Nat
  | .v4 bits => 0xffff * 2 ^ 32 + bits.toNat
  | .v6 bits => bits.toNat

/-- The addresses of the mesh: what `fromPubkey` returns, and what an `ipv6_addr` set holds. -/
def Addr.Is6 : Addr → Prop
  | .v4 _ => False
  | .v6 _ => True

instance : (a : Addr) → Decidable a.Is6
  | .v4 _ => inferInstanceAs (Decidable False)
  | .v6 _ => inferInstanceAs (Decidable True)

theorem is6_of_fromNpub {unicode : CaseTables} {npub : String} {addr : Addr}
    (derived : fromNpub unicode npub = some addr) : addr.Is6 := by
  unfold fromNpub at derived
  split at derived <;> cases derived
  trivial

namespace Authzhash

open Sha256

/-- The sixteen bytes of a key. -/
def keyBytes (key : Nat) : Bytes := beBytes 16 key

/-- The loop over the sorted keys: a key that equals the one before is skipped. -/
def distinct : Option Nat → List Nat → List Nat
  | _, [] => []
  | prev, key :: keys =>
      if prev = some key then distinct prev keys else key :: distinct (some key) keys

/-- What is hashed. -/
def message (addrs : List Addr) : Bytes :=
  (distinct none ((addrs.map Addr.as16).insertionSort (· ≤ ·))).flatMap keyBytes

/-- `hex.EncodeToString`. -/
def encodeToString (bytes : Bytes) : String :=
  String.ofList (bytes.flatMap fun b =>
    [Nat.digitChar (b.toNat / 16), Nat.digitChar (b.toNat % 16)])

/-- The first sixteen bytes of the digest. -/
def digest (msg : Bytes) : Bytes := (sum256 msg).take 16

/-- `Of`. -/
def fingerprint (addrs : List Addr) : String :=
  encodeToString (digest (message addrs))

/-- `OfSet`, with the order in which the loop visits the keys. -/
def ofSet (order : MapOrder Addr) (set : Agent.AddrSet) : String :=
  fingerprint (order.reorder set.keys)

/-- The two messages do not collide. -/
def CollisionFree (msg msg' : Bytes) : Prop :=
  digest msg = digest msg' → msg = msg'

/-! ## The message is that of the set -/

theorem mem_distinct {prev : Option Nat} {keys : List Nat} {key : Nat}
    (other : prev ≠ some key) : key ∈ distinct prev keys ↔ key ∈ keys := by
  induction keys generalizing prev with
  | nil => simp [distinct]
  | cons k keys ih =>
      by_cases skipped : prev = some k
      · have ne : key ≠ k := by
          rintro rfl
          exact other skipped
        simp only [distinct, if_pos skipped, List.mem_cons, ih other, ne, false_or]
      · simp only [distinct, if_neg skipped, List.mem_cons]
        by_cases same : key = k
        · simp [same]
        · have fresh : some k ≠ some key := fun h => same (Option.some.inj h).symm
          rw [ih fresh]

/-- The keys of a sorted list that are kept are strictly increasing, from above the one before. -/
theorem pairwise_distinct {prev : Option Nat} {keys : List Nat}
    (sorted : keys.Pairwise (· ≤ ·)) (above : ∀ k ∈ prev, ∀ key ∈ keys, k ≤ key) :
    (distinct prev keys).Pairwise (· < ·) ∧ ∀ k ∈ prev, ∀ key ∈ distinct prev keys, k < key := by
  induction keys generalizing prev with
  | nil => simp [distinct]
  | cons first keys ih =>
      obtain ⟨least, sorted⟩ := List.pairwise_cons.mp sorted
      by_cases skipped : prev = some first
      · rw [distinct, if_pos skipped]
        refine ih sorted fun k isPrev key member => ?_
        exact above k isPrev key (List.mem_cons_of_mem _ member)
      · rw [distinct, if_neg skipped]
        have aboveFirst : ∀ k ∈ some first, ∀ key ∈ keys, k ≤ key := by
          rintro _ ⟨⟩
          exact least
        have rest := ih sorted aboveFirst
        refine ⟨List.pairwise_cons.mpr ⟨rest.2 first rfl, rest.1⟩, ?_⟩
        intro k isPrev key member
        have lt : k < first := by
          refine lt_of_le_of_ne (above k isPrev first List.mem_cons_self) ?_
          rintro rfl
          exact skipped isPrev
        rcases List.mem_cons.mp member with rfl | later
        · exact lt
        · exact lt.trans (rest.2 first rfl key later)

/-- The keys that are hashed, in order. -/
def keysOf (addrs : List Addr) : List Nat :=
  distinct none ((addrs.map Addr.as16).insertionSort (· ≤ ·))

theorem mem_keysOf {addrs : List Addr} {key : Nat} :
    key ∈ keysOf addrs ↔ key ∈ addrs.map Addr.as16 := by
  rw [keysOf, mem_distinct (Option.some_ne_none key).symm, List.mem_insertionSort]

theorem pairwise_keysOf (addrs : List Addr) : (keysOf addrs).Pairwise (· < ·) :=
  (pairwise_distinct (List.pairwise_insertionSort _ _) (by simp)).1

theorem message_eq (addrs : List Addr) : message addrs = (keysOf addrs).flatMap keyBytes := rfl

/-- **The fingerprint is that of the set**: neither the order nor duplicates matter. -/
theorem fingerprint_congr {addrs addrs' : List Addr} (same : ∀ a, a ∈ addrs ↔ a ∈ addrs') :
    fingerprint addrs = fingerprint addrs' := by
  have keys : keysOf addrs = keysOf addrs' := by
    refine (pairwise_keysOf addrs).eq_of_mem_iff (pairwise_keysOf addrs') fun key => ?_
    simp only [mem_keysOf, List.mem_map, same]
  rw [fingerprint, fingerprint, message_eq, message_eq, keys]

/-! ## The set is that of the message -/

theorem length_keyBytes (key : Nat) : (keyBytes key).length = 16 := by
  simp [keyBytes, beBytes]

theorem beBytes_succ (n v : Nat) : beBytes (n + 1) v = beBytes n (v / 256) ++ [UInt8.ofNat v] := by
  rw [beBytes, beBytes, List.range_succ, List.map_append]
  congr 1
  · refine List.map_congr_left fun i member => ?_
    have below : i < n := List.mem_range.mp member
    have power : n + 1 - 1 - i = n - 1 - i + 1 := by omega
    rw [power, pow_succ', Nat.div_div_eq_div_mul]
  · simp

/-- The bytes of a number below `256 ^ n` are those of no other. -/
theorem beBytes_inj {n v v' : Nat} (small : v < 256 ^ n) (small' : v' < 256 ^ n)
    (h : beBytes n v = beBytes n v') : v = v' := by
  induction n generalizing v v' with
  | zero => omega
  | succ n ih =>
      rw [beBytes_succ, beBytes_succ] at h
      obtain ⟨high, low⟩ := List.append_inj' h rfl
      have lows : v % 256 = v' % 256 := by
        have bytes := congrArg UInt8.toNat (List.singleton_inj.mp low)
        simpa using bytes
      have highs : v / 256 = v' / 256 := by
        rw [pow_succ] at small small'
        exact ih (Nat.div_lt_of_lt_mul (by omega)) (Nat.div_lt_of_lt_mul (by omega)) high
      omega

/-- **The keys are those of the message.** -/
theorem flatMap_keyBytes_inj {keys keys' : List Nat} (small : ∀ k ∈ keys, k < 256 ^ 16)
    (small' : ∀ k ∈ keys', k < 256 ^ 16) (h : keys.flatMap keyBytes = keys'.flatMap keyBytes) :
    keys = keys' := by
  induction keys generalizing keys' with
  | nil =>
      cases keys' with
      | nil => rfl
      | cons k' keys' =>
          have lengths := congrArg List.length h
          simp [length_keyBytes] at lengths
          omega
  | cons k keys ih =>
      cases keys' with
      | nil =>
          have lengths := congrArg List.length h
          simp [length_keyBytes] at lengths
      | cons k' keys' =>
          rw [List.flatMap_cons, List.flatMap_cons] at h
          obtain ⟨first, rest⟩ := List.append_inj h (by rw [length_keyBytes, length_keyBytes])
          rw [List.forall_mem_cons] at small small'
          rw [beBytes_inj small.1 small'.1 first, ih small.2 small'.2 rest]

theorem as16_lt (a : Addr) : a.as16 < 256 ^ 16 := by
  cases a with
  | v4 bits =>
      have := bits.isLt
      simp only [Addr.as16]
      omega
  | v6 bits => exact bits.isLt

theorem as16_inj {a b : Addr} (isA : a.Is6) (isB : b.Is6) (h : a.as16 = b.as16) : a = b := by
  cases a with
  | v4 => exact isA.elim
  | v6 bits =>
      cases b with
      | v4 => exact isB.elim
      | v6 bits' => rw [BitVec.eq_of_toNat_eq h]

theorem length_sum256 (msg : Bytes) : (sum256 msg).length = 32 := by
  simp [sum256, beBytes]

theorem length_digest (msg : Bytes) : (digest msg).length = 16 := by
  rw [digest, List.length_take, length_sum256]
  rfl

theorem digitChar_inj : ∀ m < 16, ∀ n < 16, Nat.digitChar m = Nat.digitChar n → m = n := by
  decide

theorem encodeToString_inj {bytes bytes' : Bytes}
    (h : encodeToString bytes = encodeToString bytes') : bytes = bytes' := by
  have chars := String.ofList_injective h
  induction bytes generalizing bytes' with
  | nil =>
      cases bytes' with
      | nil => rfl
      | cons => cases chars
  | cons b bytes ih =>
      cases bytes' with
      | nil => cases chars
      | cons b' bytes' =>
          simp only [List.flatMap_cons, List.cons_append, List.nil_append, List.cons.injEq] at chars
          obtain ⟨high, low, rest⟩ := chars
          have bound := b.toNat_lt
          have bound' := b'.toNat_lt
          have highs := digitChar_inj _ (by omega) _ (by omega) high
          have lows := digitChar_inj _ (Nat.mod_lt _ (by decide)) _ (Nat.mod_lt _ (by decide)) low
          have same : b = b' := UInt8.toNat_inj.mp (by omega)
          rw [same, ih (congrArg String.ofList rest) rest]

/-- A fingerprint is not the empty text, which stands for none. -/
theorem fingerprint_ne_empty (addrs : List Addr) : fingerprint addrs ≠ "" := by
  intro empty
  have none : digest (message addrs) = [] := encodeToString_inj empty
  have length := length_digest (message addrs)
  rw [none] at length
  cases length

/-- **Equal fingerprints are equal sets**, of IPv6 addresses and without a collision. -/
theorem fingerprint_eq_iff {addrs addrs' : List Addr} (are6 : ∀ a ∈ addrs, a.Is6)
    (are6' : ∀ a ∈ addrs', a.Is6) (free : CollisionFree (message addrs) (message addrs')) :
    fingerprint addrs = fingerprint addrs' ↔ ∀ a, a ∈ addrs ↔ a ∈ addrs' := by
  refine ⟨fun h => ?_, fingerprint_congr⟩
  have messages : message addrs = message addrs' := free (encodeToString_inj h)
  rw [message_eq, message_eq] at messages
  have small (l : List Addr) : ∀ k ∈ keysOf l, k < 256 ^ 16 := by
    intro k member
    obtain ⟨a, -, rfl⟩ := List.mem_map.mp (mem_keysOf.mp member)
    exact as16_lt a
  have keys : keysOf addrs = keysOf addrs' :=
    flatMap_keyBytes_inj (small addrs) (small addrs') messages
  -- one direction, for any two lists with the same keys
  have within : ∀ l l' : List Addr, (∀ a ∈ l, a.Is6) → (∀ a ∈ l', a.Is6) → keysOf l = keysOf l' →
      ∀ a ∈ l, a ∈ l' := by
    intro l l' is6 is6' same a member
    have key : a.as16 ∈ keysOf l := mem_keysOf.mpr (List.mem_map_of_mem member)
    rw [same, mem_keysOf] at key
    obtain ⟨b, member', equal⟩ := List.mem_map.mp key
    rw [← as16_inj (is6' b member') (is6 a member) equal]
    exact member'
  exact fun a => ⟨within addrs addrs' are6 are6' keys a, within addrs' addrs are6' are6 keys.symm a⟩

end Authzhash

end FipsExitGate
