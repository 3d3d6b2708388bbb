import FipsExitGate.Store.Basic
import FipsExitGate.Lib.LastWriter
import Mathlib.Data.Finset.Basic

/-!
# The authorized set and its revision log

The global authorized set is the table `authz_current`; every change of it is
appended to `authz_revisions`, and the largest `rev` of that log is the revision
agents poll.  This module has the code that writes the two tables
(`recompute`, the body of `RecomputeAuthz`) and the one that truncates the log
(`compactAuthzRevisions`).

Two ghost columns are carried along, which no function of the source reads:
`appended`, every row the log ever received, and `evaluatedAt`, the `now()` of
the last recompute.

## Main results

* `LogInv` — the coupling of the log with the table it describes, kept by every
  writer (`recompute_logInv`, `compact_logInv`, `burn_logInv`).
* `lookup_recompute` — a recompute leaves exactly the desired set.
* `recompute_appends` — a recompute appends rows with fresh numbers and its own
  `now()`.
* `Extends` — every writer leaves the log it found and adds to it, if anything,
  rows numbered above all that the sequence had handed out.
-/

namespace FipsExitGate

open LastWriter

/-- `authz_revisions.op`. -/
inductive RevOp where
  | add
  | del
  deriving DecidableEq, Repr

/-- A row of `authz_revisions`. -/
structure Revision where
  rev : Int
  op : RevOp
  fipsAddr : Addr
  accountId : AccountId
  createdAt : Time
  deriving DecidableEq, Repr

/-- `authz_current`, `authz_revisions` and the sequence behind its `rev`. -/
structure AuthzTables where
  current : AList fun _ : Addr => AccountId
  revisions : List Revision
  /-- The last number the `bigserial` handed out; rollbacks do not return it. -/
  revSeq : Int
  /-- Ghost: every row ever appended, compacted or not. -/
  appended : List Revision
  /-- Ghost: the clock value the last committed recompute evaluated at. -/
  evaluatedAt : Time

/-- A freshly migrated database. -/
def AuthzTables.empty : AuthzTables where
  current := ∅
  revisions := []
  revSeq := 0
  appended := []
  evaluatedAt := 0

namespace AuthzTables

/-- `COALESCE(max(rev), 0)`: the global revision. -/
def maxRev (t : AuthzTables) : Int :=
  (t.revisions.map (·.rev)).max?.getD 0

/-- `COALESCE(min(rev), 0)`. -/
def minRev (t : AuthzTables) : Int :=
  (t.revisions.map (·.rev)).min?.getD 0

/-- The addresses of `authz_current`. -/
def keys (t : AuthzTables) : Finset Addr :=
  t.current.keys.toFinset

theorem mem_keys {t : AuthzTables} {a : Addr} :
    a ∈ t.keys ↔ (t.current.lookup a).isSome := by
  rw [keys, List.mem_toFinset, AList.lookup_isSome, AList.mem_keys]

/-! ## Writers -/

/-- `INSERT INTO authz_revisions(op, fips_addr, account_id)`: the row takes the
next number of the sequence and the transaction's `now()`. -/
def insertRevision (now : Time) (op : RevOp) (addr : Addr) (acct : AccountId)
    (t : AuthzTables) : AuthzTables :=
  let row : Revision := ⟨t.revSeq + 1, op, addr, acct, now⟩
  { t with
    revisions := t.revisions ++ [row]
    revSeq := t.revSeq + 1
    appended := t.appended ++ [row] }

/-- The body of the loop over `desired`: skip a member whose attribution is
unchanged, otherwise upsert it and record the addition (or the move). -/
def addMember (current : AList fun _ : Addr => AccountId) (now : Time)
    (t : AuthzTables) (m : Member) : AuthzTables :=
  if current.lookup m.1 = some m.2 then t
  else insertRevision now .add m.1 m.2 { t with current := t.current.insert m.1 m.2 }

/-- The body of the loop over `current`: a member that is no longer desired is
deleted and its removal recorded. -/
def delMember (desired : AList fun _ : Addr => AccountId) (now : Time)
    (t : AuthzTables) (m : Member) : AuthzTables :=
  if (desired.lookup m.1).isSome then t
  else insertRevision now .del m.1 m.2 { t with current := t.current.erase m.1 }

/-- The body of `RecomputeAuthz`, once the lock is held and the desired set has
been read: reconcile `authz_current` with it. -/
def recompute (order : MapOrder Member) (now : Time)
    (desired : AList fun _ : Addr => AccountId) (t : AuthzTables) : AuthzTables :=
  let added := (order.reorder desired.entries).foldl (addMember t.current now) t
  let done := (order.reorder t.current.entries).foldl (delMember desired now) added
  { done with evaluatedAt := now }

/-- The addresses `RecomputeAuthz` returns as removed. -/
def removedBy (order : MapOrder Member) (desired : AList fun _ : Addr => AccountId)
    (t : AuthzTables) : List Addr :=
  ((order.reorder t.current.entries).filter fun m => !(desired.lookup m.1).isSome).map (·.1)

/-- A rolled-back recompute: its rows are gone, its numbers are not. -/
def burn (n : Nat) (t : AuthzTables) : AuthzTables :=
  { t with revSeq := t.revSeq + n }

/-- `CompactAuthzRevisions`: delete the rows older than the cutoff, except the
newest one.  Returns the number of rows deleted. -/
def compactAuthzRevisions (cutoff : Time) (t : AuthzTables) : Nat × AuthzTables :=
  let doomed := fun r : Revision => decide (r.createdAt < cutoff ∧ r.rev < t.maxRev)
  ((t.revisions.filter doomed).length,
    { t with revisions := t.revisions.filter fun r => !doomed r })

/-- The tables a compaction leaves. -/
def compact (cutoff : Time) (t : AuthzTables) : AuthzTables :=
  (compactAuthzRevisions cutoff t).2

end AuthzTables

/-! ## The log and the table it describes -/

/-- The account a log leaves an address with: that of its last row, unless the
row is a removal. -/
def holder (log : List Revision) (a : Addr) : Option AccountId :=
  (lastWrite (·.fipsAddr) log a).bind fun r => if r.op = .add then some r.accountId else none

@[simp] theorem holder_nil (a : Addr) : holder [] a = none := rfl

theorem holder_concat_of_ne (log : List Revision) {r : Revision} {a : Addr}
    (h : r.fipsAddr ≠ a) : holder (log ++ [r]) a = holder log a := by
  simp only [holder]
  rw [lastWrite_concat_of_ne (fun r : Revision => r.fipsAddr) log h]

theorem holder_concat_self (log : List Revision) (r : Revision) :
    holder (log ++ [r]) r.fipsAddr = if r.op = .add then some r.accountId else none := by
  simp only [holder]
  rw [lastWrite_concat_self (fun r : Revision => r.fipsAddr)]
  rfl

/-- **The coupling of the log with the authorized set.**  The rows ever appended
are numbered in increasing order, the surviving ones are some of them and include
the newest, and replaying all of them gives `authz_current`. -/
structure LogInv (t : AuthzTables) : Prop where
  seq_nonneg : 0 ≤ t.revSeq
  sorted : t.appended.Pairwise fun r₁ r₂ => r₁.rev < r₂.rev
  bounded : ∀ r ∈ t.appended, 0 < r.rev ∧ r.rev ≤ t.revSeq
  sublist : t.revisions.Sublist t.appended
  newest : t.revisions.getLast? = t.appended.getLast?
  coupled : ∀ a, t.current.lookup a = holder t.appended a

namespace AuthzTables

theorem empty_logInv : LogInv empty where
  seq_nonneg := le_rfl
  sorted := List.Pairwise.nil
  bounded := by simp [empty]
  sublist := List.Sublist.refl _
  newest := rfl
  coupled := by simp [empty]

/-- Appending a row keeps the log's own part of the invariant; what is left to
show is that the table follows the row. -/
theorem insertRevision_logInv {t : AuthzTables} (inv : LogInv t) (now : Time) (op : RevOp)
    (addr : Addr) (acct : AccountId) (current : AList fun _ : Addr => AccountId)
    (self : current.lookup addr = if op = .add then some acct else none)
    (other : ∀ a, addr ≠ a → current.lookup a = t.current.lookup a) :
    LogInv (insertRevision now op addr acct { t with current }) where
  seq_nonneg := by
    have := inv.seq_nonneg
    simp only [insertRevision]
    omega
  sorted := by
    simp only [insertRevision]
    refine List.pairwise_append.mpr ⟨inv.sorted, List.pairwise_singleton _ _, ?_⟩
    intro r member new isNew
    have := (inv.bounded r member).2
    rw [List.mem_singleton.mp isNew]
    show r.rev < t.revSeq + 1
    omega
  bounded := by
    simp only [insertRevision]
    intro r member
    have nonneg := inv.seq_nonneg
    rcases List.mem_append.mp member with old | new
    · have := inv.bounded r old
      omega
    · rw [List.mem_singleton.mp new]
      exact ⟨by show 0 < t.revSeq + 1; omega, le_rfl⟩
  sublist := inv.sublist.append (List.Sublist.refl _)
  newest := by simp [insertRevision]
  coupled := by
    simp only [insertRevision]
    intro a
    by_cases same : addr = a
    · subst same
      have last := holder_concat_self t.appended ⟨t.revSeq + 1, op, addr, acct, now⟩
      exact self.trans last.symm
    · rw [other a same, inv.coupled a]
      exact (holder_concat_of_ne t.appended same).symm

theorem addMember_logInv {t : AuthzTables} (inv : LogInv t)
    (current : AList fun _ : Addr => AccountId) (now : Time) (m : Member) :
    LogInv (addMember current now t m) := by
  unfold addMember
  split
  · exact inv
  · refine insertRevision_logInv inv now .add m.1 m.2 _ (by simp [AList.lookup_insert]) ?_
    intro a different
    exact AList.lookup_insert_ne (Ne.symm different)

theorem delMember_logInv {t : AuthzTables} (inv : LogInv t)
    (desired : AList fun _ : Addr => AccountId) (now : Time) (m : Member) :
    LogInv (delMember desired now t m) := by
  unfold delMember
  split
  · exact inv
  · refine insertRevision_logInv inv now .del m.1 m.2 _ (by simp [AList.lookup_erase]) ?_
    intro a different
    exact AList.lookup_erase_ne (Ne.symm different)

theorem logInv_setEvaluatedAt {t : AuthzTables} (inv : LogInv t) (now : Time) :
    LogInv { t with evaluatedAt := now } :=
  ⟨inv.seq_nonneg, inv.sorted, inv.bounded, inv.sublist, inv.newest, inv.coupled⟩

/-- A recompute keeps the coupling: every one of its row operations does. -/
theorem recompute_logInv {t : AuthzTables} (inv : LogInv t) (order : MapOrder Member)
    (now : Time) (desired : AList fun _ : Addr => AccountId) :
    LogInv (recompute order now desired t) := by
  refine logInv_setEvaluatedAt ?_ now
  refine List.foldlRecOn _ _ ?_ fun t inv m _ => delMember_logInv inv desired now m
  exact List.foldlRecOn _ _ inv fun t' inv m _ => addMember_logInv inv t.current now m

theorem burn_logInv {t : AuthzTables} (inv : LogInv t) (n : Nat) : LogInv (t.burn n) where
  seq_nonneg := by
    have := inv.seq_nonneg
    simp only [burn]
    omega
  sorted := inv.sorted
  bounded := by
    intro r member
    have := inv.bounded r member
    simp only [burn]
    omega
  sublist := inv.sublist
  newest := inv.newest
  coupled := inv.coupled

/-! ## The newest row -/

theorem revisions_subset {t : AuthzTables} (inv : LogInv t) {r : Revision}
    (member : r ∈ t.revisions) : r ∈ t.appended :=
  inv.sublist.subset member

theorem rev_le_of_getLast {log : List Revision} {last r : Revision}
    (sorted : log.Pairwise fun r₁ r₂ => r₁.rev < r₂.rev)
    (isLast : log.getLast? = some last) (member : r ∈ log) : r.rev ≤ last.rev := by
  obtain ⟨init, rfl⟩ := List.getLast?_eq_some_iff.mp isLast
  rcases List.mem_append.mp member with old | new
  · exact le_of_lt ((List.pairwise_append.mp sorted).2.2 r old last (by simp))
  · rw [List.mem_singleton.mp new]

/-- `max(rev)` is the number of the newest row. -/
theorem maxRev_eq_of_getLast {t : AuthzTables} (inv : LogInv t) {last : Revision}
    (isLast : t.appended.getLast? = some last) : t.maxRev = last.rev := by
  have kept : last ∈ t.revisions := List.mem_of_getLast? (inv.newest.trans isLast)
  have isMax : (t.revisions.map (·.rev)).max? = some last.rev := by
    refine List.max?_eq_some_iff.mpr ⟨List.mem_map_of_mem kept, ?_⟩
    intro n isRev
    obtain ⟨r, member, rfl⟩ := List.mem_map.mp isRev
    exact rev_le_of_getLast inv.sorted isLast (revisions_subset inv member)
  rw [maxRev, isMax]
  rfl

theorem maxRev_eq_zero {t : AuthzTables} (inv : LogInv t) (fresh : t.appended = []) :
    t.maxRev = 0 := by
  have none : t.revisions = [] := by
    have := inv.sublist
    rw [fresh] at this
    exact List.sublist_nil.mp this
  simp [maxRev, none]

theorem rev_le_maxRev {t : AuthzTables} (inv : LogInv t) {r : Revision}
    (member : r ∈ t.appended) : r.rev ≤ t.maxRev := by
  obtain ⟨last, isLast⟩ := Option.isSome_iff_exists.mp
    (List.getLast?_isSome.mpr (List.ne_nil_of_mem member))
  rw [maxRev_eq_of_getLast inv isLast]
  exact rev_le_of_getLast inv.sorted isLast member

theorem maxRev_le_revSeq {t : AuthzTables} (inv : LogInv t) : t.maxRev ≤ t.revSeq := by
  cases isLast : t.appended.getLast? with
  | none =>
      rw [maxRev_eq_zero inv (List.getLast?_eq_none_iff.mp isLast)]
      exact inv.seq_nonneg
  | some last =>
      rw [maxRev_eq_of_getLast inv isLast]
      exact (inv.bounded last (List.mem_of_getLast? isLast)).2

theorem maxRev_nonneg {t : AuthzTables} (inv : LogInv t) : 0 ≤ t.maxRev := by
  cases isLast : t.appended.getLast? with
  | none => rw [maxRev_eq_zero inv (List.getLast?_eq_none_iff.mp isLast)]
  | some last =>
      rw [maxRev_eq_of_getLast inv isLast]
      exact le_of_lt (inv.bounded last (List.mem_of_getLast? isLast)).1

/-- `min(rev)` is a lower bound of the surviving rows, and one of them has it. -/
theorem minRev_spec {t : AuthzTables} (nonempty : t.revisions ≠ []) :
    (∃ r ∈ t.revisions, r.rev = t.minRev) ∧ ∀ r ∈ t.revisions, t.minRev ≤ r.rev := by
  have isSome : (t.revisions.map (·.rev)).min?.isSome := by
    simpa using nonempty
  obtain ⟨least, isLeast⟩ := Option.isSome_iff_exists.mp isSome
  have eq : t.minRev = least := by rw [minRev, isLeast]; rfl
  obtain ⟨member, lower⟩ := List.min?_eq_some_iff.mp isLeast
  obtain ⟨r, present, isRev⟩ := List.mem_map.mp member
  exact ⟨⟨r, present, isRev.trans eq.symm⟩,
    fun r' present' => eq ▸ lower _ (List.mem_map_of_mem present')⟩

/-! ## Compaction -/

theorem mem_compact {t : AuthzTables} {cutoff : Time} {r : Revision} :
    r ∈ (t.compact cutoff).revisions ↔
      r ∈ t.revisions ∧ ¬ (r.createdAt < cutoff ∧ r.rev < t.maxRev) := by
  simp only [compact, compactAuthzRevisions, List.mem_filter, Bool.not_eq_true',
    decide_eq_false_iff_not]

@[simp] theorem compact_appended (t : AuthzTables) (cutoff : Time) :
    (t.compact cutoff).appended = t.appended := rfl

/-- Whatever the cutoff, the newest row survives, so `max(rev)` is stable. -/
theorem compact_logInv {t : AuthzTables} (inv : LogInv t) (cutoff : Time) :
    LogInv (t.compact cutoff) where
  seq_nonneg := inv.seq_nonneg
  sorted := inv.sorted
  bounded := inv.bounded
  sublist := List.filter_sublist.trans inv.sublist
  newest := by
    rw [compact_appended, ← inv.newest]
    cases isLast : t.revisions.getLast? with
    | none =>
        have none : t.revisions = [] := List.getLast?_eq_none_iff.mp isLast
        simp [compact, compactAuthzRevisions, none]
    | some last =>
        -- the newest row has the largest number, so the deletion spares it
        obtain ⟨init, split⟩ := List.getLast?_eq_some_iff.mp isLast
        have top := maxRev_eq_of_getLast inv (inv.newest.symm.trans isLast)
        refine List.getLast?_eq_some_iff.mpr ?_
        simp [compact, compactAuthzRevisions, split, top]
  coupled := inv.coupled

/-! ## What a recompute leaves -/

theorem lookup_foldl_addMember (current : AList fun _ : Addr => AccountId) (now : Time) (a : Addr) :
    ∀ (l : List Member) (t : AuthzTables), l.NodupKeys →
      (l.foldl (addMember current now) t).current.lookup a =
        match l.dlookup a with
        | some acct => if current.lookup a = some acct then t.current.lookup a else some acct
        | none => t.current.lookup a := by
  intro l
  induction l with
  | nil => intro t _; rfl
  | cons m l ih =>
      intro t nodup
      obtain ⟨addr, acct⟩ := m
      obtain ⟨absent, nodup⟩ := List.nodupKeys_cons.mp nodup
      rw [List.foldl_cons, ih _ nodup]
      by_cases same : a = addr
      · -- keys are distinct, so no later member touches the address
        subst same
        rw [List.dlookup_cons_eq, List.dlookup_eq_none.mpr absent]
        simp only [addMember]
        split
        · rfl
        · simp [insertRevision, AList.lookup_insert]
      · have skip : List.dlookup a (⟨addr, acct⟩ :: l) = List.dlookup a l :=
          List.dlookup_cons_ne l (⟨addr, acct⟩ : Member) same
        have untouched : (addMember current now t ⟨addr, acct⟩).current.lookup a =
            t.current.lookup a := by
          simp only [addMember]
          split
          · rfl
          · exact AList.lookup_insert_ne same
        rw [skip, untouched]

theorem lookup_foldl_delMember (desired : AList fun _ : Addr => AccountId) (now : Time) (a : Addr) :
    ∀ (l : List Member) (t : AuthzTables),
      (l.foldl (delMember desired now) t).current.lookup a =
        if a ∈ l.map Sigma.fst ∧ desired.lookup a = none then none else t.current.lookup a := by
  intro l
  induction l with
  | nil => intro t; simp
  | cons m l ih =>
      intro t
      obtain ⟨addr, acct⟩ := m
      rw [List.foldl_cons, ih]
      by_cases same : a = addr
      · subst same
        cases wanted : desired.lookup a with
        | none => simp [delMember, wanted, insertRevision, AList.lookup_erase]
        | some x => simp [delMember, wanted]
      · have untouched : (delMember desired now t ⟨addr, acct⟩).current.lookup a =
            t.current.lookup a := by
          simp only [delMember]
          split
          · rfl
          · exact AList.lookup_erase_ne same
        simp only [untouched, List.map_cons, List.mem_cons, or_iff_right same]

/-- **A recompute leaves exactly the desired set**, whatever the order in which
Go enumerates the two maps. -/
theorem lookup_recompute (order : MapOrder Member) (now : Time)
    (desired : AList fun _ : Addr => AccountId) (t : AuthzTables) (a : Addr) :
    (recompute order now desired t).current.lookup a = desired.lookup a := by
  have permDesired := order.perm desired.entries
  have nodup : (order.reorder desired.entries).NodupKeys :=
    (List.perm_nodupKeys permDesired).mpr desired.nodupKeys
  have dlookup : (order.reorder desired.entries).dlookup a = desired.lookup a :=
    List.perm_dlookup a nodup permDesired
  have listed : a ∈ (order.reorder t.current.entries).map Sigma.fst ↔
      (t.current.lookup a).isSome := by
    rw [((order.perm t.current.entries).map Sigma.fst).mem_iff]
    exact AList.lookup_isSome.symm
  simp only [recompute]
  rw [lookup_foldl_delMember, lookup_foldl_addMember _ _ _ _ _ nodup, dlookup]
  simp only [listed]
  cases wanted : desired.lookup a with
  | some acct =>
      by_cases same : t.current.lookup a = some acct
      · simp [same]
      · simp [same]
  | none =>
      cases held : t.current.lookup a with
      | none => simp
      | some acct => simp

theorem keys_recompute (order : MapOrder Member) (now : Time)
    (desired : AList fun _ : Addr => AccountId) (t : AuthzTables) :
    (recompute order now desired t).keys = desired.keys.toFinset := by
  ext a
  rw [mem_keys, lookup_recompute, List.mem_toFinset, AList.lookup_isSome, AList.mem_keys]

/-! ## How the log grows -/

/-- `t'` comes later than `t`: its log continues the log of `t`, with numbers the
sequence had not handed out yet. -/
structure Extends (t t' : AuthzTables) : Prop where
  seq_le : t.revSeq ≤ t'.revSeq
  grows : ∃ new, t'.appended = t.appended ++ new ∧ ∀ r ∈ new, t.revSeq < r.rev

theorem Extends.refl (t : AuthzTables) : Extends t t :=
  ⟨le_rfl, [], by simp⟩

theorem Extends.trans {t₁ t₂ t₃ : AuthzTables} (h₁ : Extends t₁ t₂) (h₂ : Extends t₂ t₃) :
    Extends t₁ t₃ := by
  obtain ⟨new₁, eq₁, above₁⟩ := h₁.grows
  obtain ⟨new₂, eq₂, above₂⟩ := h₂.grows
  refine ⟨h₁.seq_le.trans h₂.seq_le, new₁ ++ new₂, by rw [eq₂, eq₁, List.append_assoc], ?_⟩
  intro r member
  rcases List.mem_append.mp member with old | new
  · exact above₁ r old
  · exact lt_of_le_of_lt h₁.seq_le (above₂ r new)

/-- What one recompute transaction does to the log: rows with fresh numbers,
stamped with the transaction's `now()`, at the end of it. -/
structure Appends (now : Time) (t t' : AuthzTables) : Prop where
  seq_le : t.revSeq ≤ t'.revSeq
  grows : ∃ new, t'.revisions = t.revisions ++ new ∧ t'.appended = t.appended ++ new ∧
    ∀ r ∈ new, t.revSeq < r.rev ∧ r.createdAt = now

theorem Appends.refl (now : Time) (t : AuthzTables) : Appends now t t :=
  ⟨le_rfl, [], by simp⟩

theorem Appends.trans {now : Time} {t₁ t₂ t₃ : AuthzTables} (h₁ : Appends now t₁ t₂)
    (h₂ : Appends now t₂ t₃) : Appends now t₁ t₃ := by
  obtain ⟨new₁, revs₁, app₁, above₁⟩ := h₁.grows
  obtain ⟨new₂, revs₂, app₂, above₂⟩ := h₂.grows
  refine ⟨h₁.seq_le.trans h₂.seq_le, new₁ ++ new₂, by rw [revs₂, revs₁, List.append_assoc],
    by rw [app₂, app₁, List.append_assoc], ?_⟩
  intro r member
  rcases List.mem_append.mp member with old | new
  · exact above₁ r old
  · exact ⟨lt_of_le_of_lt h₁.seq_le (above₂ r new).1, (above₂ r new).2⟩

theorem Appends.extends {now : Time} {t t' : AuthzTables} (h : Appends now t t') :
    Extends t t' := by
  obtain ⟨new, -, eq, fresh⟩ := h.grows
  exact ⟨h.seq_le, new, eq, fun r member => (fresh r member).1⟩

theorem insertRevision_appends (now : Time) (op : RevOp) (addr : Addr) (acct : AccountId)
    (current : AList fun _ : Addr => AccountId) (t : AuthzTables) :
    Appends now t (insertRevision now op addr acct { t with current }) where
  seq_le := by
    simp only [insertRevision]
    omega
  grows := by
    refine ⟨[⟨t.revSeq + 1, op, addr, acct, now⟩], rfl, rfl, fun r member => ?_⟩
    rw [List.mem_singleton.mp member]
    exact ⟨by show t.revSeq < t.revSeq + 1; omega, rfl⟩

theorem recompute_appends (order : MapOrder Member) (now : Time)
    (desired : AList fun _ : Addr => AccountId) (t : AuthzTables) :
    Appends now t (recompute order now desired t) := by
  have added : Appends now t
      ((order.reorder desired.entries).foldl (addMember t.current now) t) := by
    refine List.foldlRecOn _ _ (Appends.refl now t) fun t' grown m _ => grown.trans ?_
    unfold addMember
    split
    · exact Appends.refl now t'
    · exact insertRevision_appends _ _ _ _ _ _
  have done := List.foldlRecOn (order.reorder t.current.entries) (delMember desired now) added
    fun t' grown m _ => grown.trans (by
      unfold delMember
      split
      · exact Appends.refl now t'
      · exact insertRevision_appends _ _ _ _ _ _)
  exact ⟨done.seq_le, done.grows⟩

theorem burn_extends (n : Nat) (t : AuthzTables) : Extends t (t.burn n) :=
  ⟨by simp only [burn]; omega, [], by simp [burn]⟩

theorem compact_extends (cutoff : Time) (t : AuthzTables) : Extends t (t.compact cutoff) :=
  ⟨le_rfl, [], by simp⟩

/-- The global revision never goes back. -/
theorem maxRev_mono {t t' : AuthzTables} (inv : LogInv t) (inv' : LogInv t')
    (grown : Extends t t') : t.maxRev ≤ t'.maxRev := by
  cases isLast : t.appended.getLast? with
  | none =>
      rw [maxRev_eq_zero inv (List.getLast?_eq_none_iff.mp isLast)]
      exact maxRev_nonneg inv'
  | some last =>
      obtain ⟨new, eq, -⟩ := grown.grows
      rw [maxRev_eq_of_getLast inv isLast]
      refine rev_le_maxRev inv' ?_
      rw [eq]
      exact List.mem_append_left _ (List.mem_of_getLast? isLast)

end AuthzTables

end FipsExitGate
