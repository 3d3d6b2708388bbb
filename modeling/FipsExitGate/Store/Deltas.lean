import FipsExitGate.Store.Revisions
import Mathlib.Data.List.Sort

/-!
# Reading the authorized set for an agent

`FullSet` answers with the whole of `authz_current`, `DeltaSince` with the net
change since the revision the agent holds, read off the revision log.  The set
a delta is relative to is the one that replaying the log up to the agent's
cursor gives, `Authorized`.

A delta is right when no row above the cursor is missing.  `DeltaSince` can only
compare the cursor with `min(rev)`, so this rests on `HoleFree`: the surviving
rows are the appended ones from `min(rev)` on.

## Main results

* `mem_applyDelta_iff` — the collapsed delta acts on a set as the row-by-row
  replay of the rows above the cursor does.
* `applyDelta_authorized` — on a log without holes a delta leads from the set at
  the cursor to `authz_current`.
* `deltaSince_compacted` — on a log without holes a cursor below a deleted row is
  refused.

## Design notes

* `clientRev + 1` is computed in unbounded integers.  In `int64` it differs for
  the largest cursor only, above which no `bigserial` has a row.
-/

namespace FipsExitGate

open LastWriter

/-! ## The readers -/

/-- An authorized member as the agent API sends it. -/
structure AuthzMember where
  addr : Addr
  account : AccountId
  deriving DecidableEq, Repr

/-- A delta answer: the net additions and removals, and the revision they lead to. -/
structure Delta where
  add : List AuthzMember
  del : List Addr
  rev : Int

/-- `ErrCompacted`. -/
inductive DeltaErr where
  | compacted
  deriving DecidableEq, Repr

/-- `FullSet`: the set and its revision, read in one snapshot. -/
def fullSet (order : MapOrder Member) (t : AuthzTables) : List AuthzMember × Int :=
  ((order.reorder t.current.entries).map fun m => ⟨m.1, m.2⟩, t.maxRev)

/-- The rows `DeltaSince` replays: `WHERE rev > $1 ORDER BY rev`. -/
def rowsAbove (t : AuthzTables) (clientRev : Int) : List Revision :=
  (t.revisions.filter fun r => clientRev < r.rev).insertionSort fun r₁ r₂ => r₁.rev ≤ r₂.rev

/-- `DeltaSince`: refuse a cursor the log no longer reaches back to, otherwise
collapse the rows above it, the last row of an address deciding. -/
def deltaSince (order : MapOrder (Σ _ : Addr, Revision)) (t : AuthzTables)
    (clientRev : Int) : Except DeltaErr Delta :=
  if 0 < t.minRev ∧ clientRev + 1 < t.minRev then .error .compacted
  else
    let final := order.reorder (collapse (·.fipsAddr) (rowsAbove t clientRev)).entries
    .ok
      { add := (final.filter fun e => e.2.op = .add).map fun e => ⟨e.1, e.2.accountId⟩
        del := (final.filter fun e => e.2.op ≠ .add).map (·.1)
        rev := t.maxRev }

/-- An answer to a poll: `full: true` with the addresses, or a delta. -/
inductive Answer where
  | full (addresses : List AuthzMember) (rev : Int)
  | delta (d : Delta)

/-- The revision that goes with an answer. -/
def Answer.rev : Answer → Int
  | .full _ rev => rev
  | .delta d => d.rev

/-- `writeAuthz`: the answer to a poll that does not wait.  A client without a
cursor, one that asks for it, and one the log no longer reaches back to get the
full set. -/
def writeAuthz (order : MapOrder Member) (deltaOrder : MapOrder (Σ _ : Addr, Revision))
    (t : AuthzTables) (clientRev : Int) (full : Bool) : Answer :=
  if full || clientRev = 0 then .full (fullSet order t).1 (fullSet order t).2
  else
    match deltaSince deltaOrder t clientRev with
    | .ok d => .delta d
    | .error .compacted => .full (fullSet order t).1 (fullSet order t).2

/-! ## The set at a revision -/

/-- The rows of a log up to a revision. -/
def upTo (log : List Revision) (rev : Int) : List Revision :=
  log.filter fun r => r.rev ≤ rev

/-- The rows of a log above a revision. -/
def above (log : List Revision) (rev : Int) : List Revision :=
  log.filter fun r => rev < r.rev

/-- A log in order is its part up to a revision followed by the part above it. -/
theorem upTo_append_above {log : List Revision} (rev : Int)
    (sorted : log.Pairwise fun r₁ r₂ => r₁.rev < r₂.rev) :
    upTo log rev ++ above log rev = log := by
  induction log with
  | nil => rfl
  | cons r log ih =>
      obtain ⟨below, sorted⟩ := List.pairwise_cons.mp sorted
      by_cases low : r.rev ≤ rev
      · have notAbove : ¬ rev < r.rev := not_lt.mpr low
        simpa [upTo, above, low, notAbove] using ih sorted
      · have high : rev < r.rev := not_le.mp low
        have empty : upTo log rev = [] := by
          refine List.filter_eq_nil_iff.mpr fun r' member => ?_
          have := below r' member
          simp only [decide_eq_true_eq]
          omega
        have all : above log rev = log := by
          refine List.filter_eq_self.mpr fun r' member => ?_
          have := below r' member
          simp only [decide_eq_true_eq]
          omega
        simp only [upTo, above] at empty all ⊢
        simp [low, high, empty, all]

theorem upTo_of_extends {t t' : AuthzTables} (grown : AuthzTables.Extends t t') {rev : Int}
    (old : rev ≤ t.revSeq) : upTo t'.appended rev = upTo t.appended rev := by
  obtain ⟨new, eq, fresh⟩ := grown.grows
  rw [eq, upTo, List.filter_append]
  have none : new.filter (fun r => r.rev ≤ rev) = [] := by
    refine List.filter_eq_nil_iff.mpr fun r member => ?_
    have := fresh r member
    simp only [decide_eq_true_eq]
    omega
  rw [none, List.append_nil]
  rfl

theorem upTo_maxRev {t : AuthzTables} (inv : LogInv t) :
    upTo t.appended t.maxRev = t.appended := by
  refine List.filter_eq_self.mpr fun r member => ?_
  simpa using AuthzTables.rev_le_maxRev inv member

/-- The addresses authorized at a revision, replayed from the rows up to it. -/
def Authorized (t : AuthzTables) (rev : Int) (a : Addr) : Prop :=
  (holder (upTo t.appended rev) a).isSome

/-- At the newest revision the replayed set is `authz_current`. -/
theorem authorized_maxRev {t : AuthzTables} (inv : LogInv t) (a : Addr) :
    Authorized t t.maxRev a ↔ a ∈ t.keys := by
  rw [Authorized, upTo_maxRev inv, AuthzTables.mem_keys, inv.coupled a]

theorem authorized_of_extends {t t' : AuthzTables} (grown : AuthzTables.Extends t t') {rev : Int}
    (old : rev ≤ t.revSeq) (a : Addr) : Authorized t' rev a ↔ Authorized t rev a := by
  rw [Authorized, Authorized, upTo_of_extends grown old]

/-- Going from one revision to a later one, an address without a row in between
keeps its membership, and one with a row takes that of the last. -/
theorem authorized_iff_lastWrite {t : AuthzTables} (inv : LogInv t) (rev : Int) (a : Addr) :
    a ∈ t.keys ↔
      match lastWrite (·.fipsAddr) (above t.appended rev) a with
      | some r => r.op = .add
      | none => Authorized t rev a := by
  rw [AuthzTables.mem_keys, inv.coupled a, ← upTo_append_above rev inv.sorted, Authorized]
  simp only [holder, lastWrite_append]
  have split := upTo_append_above rev inv.sorted
  rw [split]
  cases lastWrite (·.fipsAddr) (above t.appended rev) a with
  | none => rfl
  | some r => by_cases isAdd : r.op = .add <;> simp [isAdd]

/-- `K` is the authorized set at revision `rev`. -/
structure IsAt (t : AuthzTables) (K : Finset Addr) (rev : Int) : Prop where
  handed_out : rev ≤ t.revSeq
  mem_iff : ∀ a, a ∈ K ↔ Authorized t rev a

/-- What is appended later does not change the set at an old revision. -/
theorem IsAt.mono {t t' : AuthzTables} {K : Finset Addr} {rev : Int} (h : IsAt t K rev)
    (grown : AuthzTables.Extends t t') : IsAt t' K rev where
  handed_out := h.handed_out.trans grown.seq_le
  mem_iff := fun a => (h.mem_iff a).trans (authorized_of_extends grown h.handed_out a).symm

/-- A set with the members of `authz_current` is at the newest revision. -/
theorem isAt_maxRev {t : AuthzTables} (inv : LogInv t) {K : Finset Addr}
    (same : ∀ a, a ∈ K ↔ a ∈ t.keys) : IsAt t K t.maxRev where
  handed_out := AuthzTables.maxRev_le_revSeq inv
  mem_iff := fun a => (same a).trans (authorized_maxRev inv a).symm

/-- A set at the newest revision is `authz_current`. -/
theorem IsAt.eq_keys {t : AuthzTables} (inv : LogInv t) {K : Finset Addr} {rev : Int}
    (h : IsAt t K rev) (newest : t.maxRev = rev) : K = t.keys := by
  ext a
  rw [h.mem_iff, ← newest, authorized_maxRev inv]

theorem isAt_fullSet {t : AuthzTables} (inv : LogInv t) (order : MapOrder Member) :
    IsAt t ((fullSet order t).1.map (·.addr)).toFinset (fullSet order t).2 := by
  refine isAt_maxRev inv fun a => ?_
  rw [AuthzTables.mem_keys, AList.lookup_isSome, List.mem_toFinset, List.mem_map]
  simp only [fullSet, List.mem_map, MapOrder.mem_reorder]
  constructor
  · rintro ⟨-, ⟨m, member, rfl⟩, rfl⟩
    exact AList.mem_keys.mpr (List.mem_map_of_mem (f := Sigma.fst) member)
  · intro present
    obtain ⟨m, member, rfl⟩ := List.mem_map.mp (AList.mem_keys.mp present)
    exact ⟨⟨m.1, m.2⟩, ⟨m, member, rfl⟩, rfl⟩

/-! ## The delta as a set operation -/

/-- What a successful `DeltaSince` returns: the cursor reached back far enough,
the revision is the newest one, and each list has the addresses whose last row
above the cursor says so. -/
structure IsDelta (t : AuthzTables) (clientRev : Int) (d : Delta) : Prop where
  reaches : ¬ (0 < t.minRev ∧ clientRev + 1 < t.minRev)
  rev_eq : d.rev = t.maxRev
  mem_add : ∀ m, m ∈ d.add ↔ ∃ r, lastWrite (·.fipsAddr) (rowsAbove t clientRev) m.addr = some r ∧
    r.op = .add ∧ r.accountId = m.account
  mem_del : ∀ a, a ∈ d.del ↔ ∃ r, lastWrite (·.fipsAddr) (rowsAbove t clientRev) a = some r ∧
    r.op ≠ .add

theorem isDelta_of_deltaSince {order : MapOrder (Σ _ : Addr, Revision)} {t : AuthzTables}
    {clientRev : Int} {d : Delta} (ok : deltaSince order t clientRev = .ok d) :
    IsDelta t clientRev d := by
  unfold deltaSince at ok
  split at ok
  · cases ok
  · rename_i reaches
    cases ok
    refine ⟨reaches, rfl, fun m => ?_, fun a => ?_⟩
    · simp only [List.mem_map, List.mem_filter, MapOrder.mem_reorder, decide_eq_true_eq]
      constructor
      · rintro ⟨⟨addr, r⟩, ⟨member, isAdd⟩, rfl⟩
        exact ⟨r, (mem_entries_collapse _).mp member, isAdd, rfl⟩
      · rintro ⟨r, last, isAdd, account⟩
        refine ⟨⟨m.addr, r⟩, ⟨(mem_entries_collapse _).mpr last, isAdd⟩, ?_⟩
        rw [account]
    · simp only [List.mem_map, List.mem_filter, MapOrder.mem_reorder, decide_eq_true_eq]
      constructor
      · rintro ⟨⟨addr, r⟩, ⟨member, isDel⟩, rfl⟩
        exact ⟨r, (mem_entries_collapse _).mp member, isDel⟩
      · rintro ⟨r, last, isDel⟩
        exact ⟨⟨a, r⟩, ⟨(mem_entries_collapse _).mpr last, isDel⟩, rfl⟩

/-- The addresses a delta adds. -/
theorem mem_add_iff {t : AuthzTables} {clientRev : Int} {d : Delta}
    (delta : IsDelta t clientRev d) (a : Addr) :
    a ∈ d.add.map (·.addr) ↔
      ∃ r, lastWrite (·.fipsAddr) (rowsAbove t clientRev) a = some r ∧ r.op = .add := by
  rw [List.mem_map]
  constructor
  · rintro ⟨m, member, rfl⟩
    obtain ⟨r, last, isAdd, -⟩ := (delta.mem_add m).mp member
    exact ⟨r, last, isAdd⟩
  · rintro ⟨r, last, isAdd⟩
    exact ⟨⟨a, r.accountId⟩, (delta.mem_add _).mpr ⟨r, last, isAdd, rfl⟩, rfl⟩

/-- What the agent does with a delta: `(K ∪ add) \ del`. -/
def applyDelta (K : Finset Addr) (d : Delta) : Finset Addr :=
  (K ∪ (d.add.map (·.addr)).toFinset) \ d.del.toFinset

/-- **The collapsed delta is the row-by-row replay**: the last row above the
cursor decides an address, and an address without such a row is left alone. -/
theorem mem_applyDelta_iff {t : AuthzTables} {clientRev : Int} {d : Delta}
    (delta : IsDelta t clientRev d) (K : Finset Addr) (a : Addr) :
    a ∈ applyDelta K d ↔
      match lastWrite (·.fipsAddr) (rowsAbove t clientRev) a with
      | some r => r.op = .add
      | none => a ∈ K := by
  simp only [applyDelta, Finset.mem_sdiff, Finset.mem_union, List.mem_toFinset,
    mem_add_iff delta, delta.mem_del a]
  cases last : lastWrite (·.fipsAddr) (rowsAbove t clientRev) a with
  | none => simp
  | some r => by_cases isAdd : r.op = .add <;> simp [isAdd]

/-! ## Logs without holes -/

/-- The surviving rows are exactly the appended ones from `min(rev)` on. -/
def HoleFree (t : AuthzTables) : Prop :=
  ∀ r, r ∈ t.revisions ↔ r ∈ t.appended ∧ t.minRev ≤ r.rev

/-- The tables hold a log that was only ever cut at its old end. -/
structure Healthy (t : AuthzTables) : Prop where
  log : LogInv t
  suffix : t.revisions <:+ t.appended

/-- As long as anything was ever appended, the newest row is there. -/
theorem revisions_ne_nil {t : AuthzTables} (inv : LogInv t) {r : Revision}
    (member : r ∈ t.appended) : t.revisions ≠ [] := by
  intro none
  have newest := inv.newest
  rw [none, List.getLast?_nil, eq_comm, List.getLast?_eq_none_iff] at newest
  rw [newest] at member
  cases member

theorem minRev_le {t : AuthzTables} {r : Revision} (present : r ∈ t.revisions) :
    t.minRev ≤ r.rev :=
  (AuthzTables.minRev_spec (List.ne_nil_of_mem present)).2 r present

theorem Healthy.holeFree {t : AuthzTables} (healthy : Healthy t) : HoleFree t := by
  obtain ⟨inv, deleted, split⟩ := healthy
  intro r
  constructor
  · intro present
    exact ⟨AuthzTables.revisions_subset inv present, minRev_le present⟩
  · rintro ⟨member, isLate⟩
    by_contra absent
    -- a deleted row is numbered below every survivor
    have old : r ∈ deleted := by
      rw [← split] at member
      exact (List.mem_append.mp member).resolve_right absent
    obtain ⟨⟨least, present, isLeast⟩, -⟩ :=
      AuthzTables.minRev_spec (revisions_ne_nil inv member)
    have sorted := inv.sorted
    rw [← split] at sorted
    have := (List.pairwise_append.mp sorted).2.2 r old least present
    omega

/-- The rows `DeltaSince` sees are in the order of the log already. -/
theorem rowsAbove_eq_above {t : AuthzTables} (inv : LogInv t) (clientRev : Int) :
    rowsAbove t clientRev = above t.revisions clientRev := by
  refine List.Pairwise.insertionSort_eq ?_
  exact ((inv.sorted.sublist inv.sublist).imp fun h => le_of_lt h).filter _

/-- On a log without holes an accepted cursor misses no row. -/
theorem above_revisions {t : AuthzTables} (inv : LogInv t) (holeFree : HoleFree t)
    {clientRev : Int} (reaches : ¬ (0 < t.minRev ∧ clientRev + 1 < t.minRev)) :
    above t.revisions clientRev = above t.appended clientRev := by
  have sub : (above t.revisions clientRev).Sublist (above t.appended clientRev) :=
    inv.sublist.filter _
  -- a sublist that has every member of a list without duplicates is the list
  refine sub.eq_of_length_le ?_
  refine ((List.subperm_of_subset ?_ ?_).length_le)
  · exact ((inv.sorted.imp fun h eq => by simp [eq] at h).filter _ : (above t.appended _).Nodup)
  · intro r member
    obtain ⟨appended, isAbove⟩ := List.mem_filter.mp member
    refine List.mem_filter.mpr ⟨(holeFree r).mpr ⟨appended, ?_⟩, isAbove⟩
    have positive := (inv.bounded r appended).1
    simp only [decide_eq_true_eq] at isAbove
    omega

/-- A log without holes is a suffix of all that was appended. -/
theorem healthy_of_holeFree {t : AuthzTables} (inv : LogInv t) (holeFree : HoleFree t) :
    Healthy t := by
  have all : above t.revisions (t.minRev - 1) = t.revisions := by
    refine List.filter_eq_self.mpr fun r present => ?_
    have := minRev_le present
    simp only [decide_eq_true_eq]
    omega
  have same : above t.revisions (t.minRev - 1) = above t.appended (t.minRev - 1) :=
    above_revisions inv holeFree (by omega)
  refine ⟨inv, upTo t.appended (t.minRev - 1), ?_⟩
  rw [← all, same, upTo_append_above _ inv.sorted]

theorem empty_healthy : Healthy AuthzTables.empty :=
  ⟨AuthzTables.empty_logInv, List.suffix_refl _⟩

/-- New rows at the end open no hole. -/
theorem Healthy.recompute {t : AuthzTables} (healthy : Healthy t) (order : MapOrder Member)
    (now : Time) (desired : AList fun _ : Addr => AccountId) :
    Healthy (AuthzTables.recompute order now desired t) := by
  obtain ⟨new, revs, app, -⟩ := (AuthzTables.recompute_appends order now desired t).grows
  obtain ⟨deleted, split⟩ := healthy.suffix
  exact ⟨AuthzTables.recompute_logInv healthy.log order now desired,
    deleted, by rw [revs, app, ← split, List.append_assoc]⟩

theorem Healthy.burn {t : AuthzTables} (healthy : Healthy t) (n : Nat) : Healthy (t.burn n) :=
  ⟨AuthzTables.burn_logInv healthy.log n, healthy.suffix⟩

/-- **On a log without holes a delta leads from the set at the cursor to
`authz_current`.** -/
theorem applyDelta_authorized {t : AuthzTables} (inv : LogInv t) (holeFree : HoleFree t)
    {clientRev : Int} {d : Delta} (delta : IsDelta t clientRev d) {K : Finset Addr}
    (atCursor : ∀ a, a ∈ K ↔ Authorized t clientRev a) (a : Addr) :
    a ∈ applyDelta K d ↔ a ∈ t.keys := by
  rw [mem_applyDelta_iff delta, authorized_iff_lastWrite inv clientRev,
    rowsAbove_eq_above inv, above_revisions inv holeFree delta.reaches]
  simp only [atCursor]

/-- **On a log without holes a cursor below a deleted row is refused.** -/
theorem deltaSince_compacted {t : AuthzTables} (inv : LogInv t) (holeFree : HoleFree t)
    {clientRev : Int} {r : Revision} (appended : r ∈ t.appended) (isAbove : clientRev < r.rev)
    (deleted : r ∉ t.revisions) (order : MapOrder (Σ _ : Addr, Revision)) :
    deltaSince order t clientRev = .error .compacted := by
  have positive := (inv.bounded r appended).1
  have below : r.rev < t.minRev := by
    by_contra notBelow
    exact deleted ((holeFree r).mpr ⟨appended, not_lt.mp notBelow⟩)
  unfold deltaSince
  rw [if_pos ⟨by omega, by omega⟩]

end FipsExitGate
