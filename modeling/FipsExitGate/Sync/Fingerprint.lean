import FipsExitGate.Sync.SetHash

/-!
# The package `authzhash`, on all addresses

`SetHash` reads `Of` on the addresses of the mesh, with a key as a number.  Here it is read on every
`netip.Addr`, as the code computes it: keys are arrays of sixteen bytes, `bytes.Compare` orders
them, and the loop over the sorted keys skips a key that equals `prev`, except at index 0, where
`prev` is still the zero array.

The order of the bytes is that of the numbers they stand for, so the bytes that are hashed are the
distinct keys in order (`hashed_eq`).  Two addresses with the same sixteen bytes, such as an
IPv4 address and its IPv4-mapped form or the zones of one address, are one key.

## Main results

* `fingerprint_eq_of` — `SetHash` reads the same function
* `authzhash_of_iff` — without a collision, equal fingerprints are equal sets of keys, and `OfSet`
  is `Of` of any enumeration
-/

namespace FipsExitGate.Authzhash

open Sha256

/-- `netip.Addr`: the zero value, an IPv4 address, or an IPv6 address with its zone. -/
inductive NetipAddr where
  | zero
  | v4 (bits : BitVec 32)
  | v6 (bits : BitVec 128) (zone : Bytes)
  deriving DecidableEq, Repr

/-- The number that the sixteen bytes of an address stand for. -/
def NetipAddr.key : NetipAddr → Nat
  | .zero => 0
  | .v4 bits => 0xffff * 2 ^ 32 + bits.toNat
  | .v6 bits _ => bits.toNat

/-- `netip.Addr.As16`. -/
def NetipAddr.as16 (a : NetipAddr) : Bytes := keyBytes a.key

/-- The zero value of `[16]byte`. -/
def zeroKey : Bytes := List.replicate 16 0

/-- The loop over the sorted keys, at index `i`: what is written to the hash. -/
def written : Nat → Bytes → List Bytes → Bytes
  | _, _, [] => []
  | i, prev, k :: keys =>
      if 0 < i ∧ k = prev then written (i + 1) prev keys
      else k ++ written (i + 1) k keys

/-- What `Of` writes to the hash. -/
def hashed (addrs : List NetipAddr) : Bytes :=
  written 0 zeroKey ((addrs.map NetipAddr.as16).insertionSort (· ≤ ·))

/-- `Of`. -/
def of (addrs : List NetipAddr) : String := encodeToString ((sum256 (hashed addrs)).take 16)

/-- `OfSet`, with the order in which the loop visits the keys of the map. -/
def ofNetipSet (order : MapOrder NetipAddr) (set : AList fun _ : NetipAddr => Unit) : String :=
  of (order.reorder set.keys)

/-! ## Bytes and numbers -/

/-- In lists of one length the last elements decide if the others are equal. -/
theorem concat_lt_concat_iff {xs ys : Bytes} (length : xs.length = ys.length) (x y : UInt8) :
    xs ++ [x] < ys ++ [y] ↔ xs < ys ∨ xs = ys ∧ x < y := by
  induction xs generalizing ys with
  | nil =>
      obtain rfl := List.length_eq_zero_iff.mp length.symm
      simp [List.cons_lt_cons_iff]
  | cons a xs ih =>
      cases ys with
      | nil => cases length
      | cons b ys =>
          simp only [List.cons_append, List.cons_lt_cons_iff, ih (Nat.succ.inj length),
            List.cons.injEq]
          tauto

/-- **The order of the bytes is that of the numbers.** -/
theorem beBytes_lt_iff {n v v' : Nat} (small : v < 256 ^ n) (small' : v' < 256 ^ n) :
    beBytes n v < beBytes n v' ↔ v < v' := by
  induction n generalizing v v' with
  | zero =>
      have : ¬ v < v' := by omega
      simp [beBytes, this]
  | succ n ih =>
      rw [pow_succ] at small small'
      have high : v / 256 < 256 ^ n := Nat.div_lt_of_lt_mul (by omega)
      have high' : v' / 256 < 256 ^ n := Nat.div_lt_of_lt_mul (by omega)
      have highs : beBytes n (v / 256) = beBytes n (v' / 256) ↔ v / 256 = v' / 256 :=
        ⟨beBytes_inj high high', congrArg (beBytes n)⟩
      have lows : UInt8.ofNat v < UInt8.ofNat v' ↔ v % 256 < v' % 256 := by
        simp [UInt8.lt_iff_toNat_lt]
      rw [beBytes_succ, beBytes_succ, concat_lt_concat_iff (by simp [beBytes]), ih high high', highs,
        lows]
      omega

theorem key_lt (a : NetipAddr) : a.key < 256 ^ 16 := by
  cases a with
  | zero => decide
  | v4 bits =>
      have := bits.isLt
      simp only [NetipAddr.key]
      omega
  | v6 bits => exact bits.isLt

theorem keyBytes_le_iff {k k' : Nat} (small : k < 256 ^ 16) (small' : k' < 256 ^ 16) :
    k ≤ k' ↔ keyBytes k ≤ keyBytes k' := by
  rw [← List.not_lt, keyBytes, keyBytes, beBytes_lt_iff small' small, Nat.not_lt]

/-! ## What is hashed -/

/-- Past index 0 the loop leaves out what equals the key before. -/
theorem written_eq {prev : Nat} (smallPrev : prev < 256 ^ 16) {keys : List Nat}
    (small : ∀ k ∈ keys, k < 256 ^ 16) (i : Nat) :
    written (i + 1) (keyBytes prev) (keys.map keyBytes) =
      (distinct (some prev) keys).flatMap keyBytes := by
  induction keys generalizing prev i with
  | nil => rfl
  | cons k keys ih =>
      obtain ⟨smallK, small⟩ := List.forall_mem_cons.mp small
      have same : keyBytes k = keyBytes prev ↔ some prev = some k := by
        rw [Option.some.injEq]
        exact ⟨fun h => (beBytes_inj smallK smallPrev h).symm, fun h => by rw [h]⟩
      simp only [List.map_cons, written, distinct, Nat.succ_pos, true_and, same]
      split
      · exact ih smallPrev small (i + 1)
      · rw [List.flatMap_cons, ih smallK small (i + 1)]

/-- **The distinct keys in order are what is hashed.** -/
theorem hashed_eq (addrs : List NetipAddr) :
    hashed addrs =
      (distinct none ((addrs.map NetipAddr.key).insertionSort (· ≤ ·))).flatMap keyBytes := by
  have small : ∀ k ∈ (addrs.map NetipAddr.key).insertionSort (· ≤ ·), k < 256 ^ 16 := by
    intro k member
    obtain ⟨a, -, rfl⟩ := List.mem_map.mp ((List.mem_insertionSort _).mp member)
    exact key_lt a
  have sorted : (addrs.map NetipAddr.as16).insertionSort (· ≤ ·) =
      ((addrs.map NetipAddr.key).insertionSort (· ≤ ·)).map keyBytes := by
    rw [List.map_insertionSort (· ≤ ·) (· ≤ ·) keyBytes, List.map_map]
    · rfl
    · intro k member k' member'
      obtain ⟨a, -, rfl⟩ := List.mem_map.mp member
      obtain ⟨a', -, rfl⟩ := List.mem_map.mp member'
      exact keyBytes_le_iff (key_lt a) (key_lt a')
  rw [hashed, sorted]
  -- the first key is written whatever it is, also if it is the zero array
  cases keys : (addrs.map NetipAddr.key).insertionSort (· ≤ ·) with
  | nil => rfl
  | cons k rest =>
      rw [keys, List.forall_mem_cons] at small
      simp only [List.map_cons, written, distinct, Nat.lt_irrefl, false_and, if_false,
        reduceCtorEq, List.flatMap_cons]
      rw [written_eq small.1 small.2 0]

theorem mem_hashedKeys {addrs : List NetipAddr} {k : Nat} :
    k ∈ distinct none ((addrs.map NetipAddr.key).insertionSort (· ≤ ·)) ↔
      k ∈ addrs.map NetipAddr.key := by
  rw [mem_distinct (Option.some_ne_none k).symm, List.mem_insertionSort]

/-- The keys that are hashed are those of the set, and tell it. -/
theorem hashed_eq_iff (addrs addrs' : List NetipAddr) :
    hashed addrs = hashed addrs' ↔
      ∀ k, k ∈ addrs.map NetipAddr.key ↔ k ∈ addrs'.map NetipAddr.key := by
  have small (addrs : List NetipAddr) :
      ∀ k ∈ distinct none ((addrs.map NetipAddr.key).insertionSort (· ≤ ·)), k < 256 ^ 16 := by
    intro k member
    obtain ⟨a, -, rfl⟩ := List.mem_map.mp (mem_hashedKeys.mp member)
    exact key_lt a
  have increasing (addrs : List NetipAddr) :
      (distinct none ((addrs.map NetipAddr.key).insertionSort (· ≤ ·))).Pairwise (· < ·) :=
    (pairwise_distinct (List.pairwise_insertionSort _ _) (by simp)).1
  rw [hashed_eq, hashed_eq]
  constructor
  · intro same k
    rw [← mem_hashedKeys, ← mem_hashedKeys,
      flatMap_keyBytes_inj (small addrs) (small addrs') same]
  · intro same
    congr 1
    refine (increasing addrs).eq_of_mem_iff (increasing addrs') fun k => ?_
    rw [mem_hashedKeys, mem_hashedKeys, same]

theorem mem_as16_iff {addrs addrs' : List NetipAddr} :
    (∀ k, k ∈ addrs.map NetipAddr.as16 ↔ k ∈ addrs'.map NetipAddr.as16) ↔
      ∀ k, k ∈ addrs.map NetipAddr.key ↔ k ∈ addrs'.map NetipAddr.key := by
  -- an address has the bytes of a key if it has the key
  have bytes (addrs : List NetipAddr) {k : Nat} (small : k < 256 ^ 16) :
      keyBytes k ∈ addrs.map NetipAddr.as16 ↔ k ∈ addrs.map NetipAddr.key := by
    simp only [List.mem_map]
    refine exists_congr fun a => and_congr_right fun _ => ⟨fun h => ?_, fun h => by rw [← h]; rfl⟩
    exact beBytes_inj (key_lt a) small h
  constructor
  · intro same k
    by_cases small : k < 256 ^ 16
    · rw [← bytes addrs small, ← bytes addrs' small, same]
    · have none (addrs : List NetipAddr) : k ∉ addrs.map NetipAddr.key := by
        intro member
        obtain ⟨a, -, rfl⟩ := List.mem_map.mp member
        exact small (key_lt a)
      simp only [none addrs, none addrs']
  · intro same k
    have there (addrs addrs' : List NetipAddr)
        (same : ∀ k, k ∈ addrs.map NetipAddr.key → k ∈ addrs'.map NetipAddr.key)
        (member : k ∈ addrs.map NetipAddr.as16) : k ∈ addrs'.map NetipAddr.as16 := by
      obtain ⟨a, isIn, rfl⟩ := List.mem_map.mp member
      exact (bytes addrs' (key_lt a)).mpr (same _ (List.mem_map_of_mem isIn))
    exact ⟨there addrs addrs' fun k => (same k).mp, there addrs' addrs fun k => (same k).mpr⟩

/-- An address of the store as a `netip.Addr`. -/
def netip : Addr → NetipAddr
  | .v4 bits => .v4 bits
  | .v6 bits => .v6 bits []

/-- **`SetHash` reads the same function.** -/
theorem fingerprint_eq_of (addrs : List Addr) : fingerprint addrs = of (addrs.map netip) := by
  have keys : (addrs.map netip).map NetipAddr.key = addrs.map Addr.as16 := by
    rw [List.map_map]
    exact List.map_congr_left fun a _ => by cases a <;> rfl
  rw [fingerprint, of, hashed_eq, keys]
  rfl

/-- **The fingerprint is that of the set.**  Of two lists without a collision, it is the same
exactly if they have the same sixteen-byte addresses in them, in whatever order and however
often; and `OfSet` of a set is `Of` of any list of its members. -/
theorem authzhash_of_iff (addrs addrs' : List NetipAddr)
    (free : CollisionFree (hashed addrs) (hashed addrs')) :
    (of addrs = of addrs' ↔
      ∀ k, k ∈ addrs.map NetipAddr.as16 ↔ k ∈ addrs'.map NetipAddr.as16) ∧
    ∀ (order : MapOrder NetipAddr) (set : AList fun _ : NetipAddr => Unit),
      (∀ a, a ∈ addrs ↔ a ∈ set) → ofNetipSet order set = of addrs := by
  refine ⟨?_, fun order set enumerates => ?_⟩
  · rw [mem_as16_iff, ← hashed_eq_iff]
    constructor
    · exact fun same => free (encodeToString_inj same)
    · exact fun same => by rw [of, of, same]
  · have keys : hashed (order.reorder set.keys) = hashed addrs := by
      rw [hashed_eq_iff]
      intro k
      simp only [List.mem_map, MapOrder.mem_reorder, AList.mem_keys, enumerates]
    rw [ofNetipSet, of, of, keys]

/-- The zero address, twice and once, and the empty list. -/
theorem authzhash_of_iff_zero :
    of [.v6 0 [], .zero] = of [.zero] ∧ of [.zero] ≠ of [] := by
  have free : CollisionFree (hashed [.zero]) (hashed []) := by
    have differ : digest (hashed [.zero]) ≠ digest (hashed []) := by decide +kernel
    exact fun same => absurd same differ
  refine ⟨(authzhash_of_iff [.v6 0 [], .zero] [.zero] (fun _ => by decide +kernel)).1.mpr ?_, ?_⟩
  · intro k
    simp [NetipAddr.as16, NetipAddr.key]
  · intro same
    have keys := ((authzhash_of_iff [.zero] [] free).1.mp same) (keyBytes 0)
    simp [NetipAddr.as16, NetipAddr.key] at keys

end FipsExitGate.Authzhash
