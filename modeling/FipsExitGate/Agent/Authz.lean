import FipsExitGate.Lib.Program
import FipsExitGate.Store.Deltas
import FipsExitGate.Sync.InlineRevoke
import Mathlib.Data.List.AList

/-!
# Applying an authorization response

`applyAuthz` of `agent.go`, with `presentOnly`, `isMassRevoke` and `diffAuthorized`: one
response of the backend, applied to the kernel's set of authorized addresses and to the
cursor.  A full response is compared with the live set in both directions; a delta is taken
as it is, except that deletions of absent members are dropped.  The firewall takes a batch as
a whole or not at all, and refuses one that deletes an absent member.

`Sync.InlineRevoke` interleaves the two loops of the agent that change the set, and has this
function in two steps and over finite sets.  Here it stands as one call, with its errors;
`applyAuthz_cases` says once what the call can do, and the two main results are read off it.

## Design notes

* A Go map without values is an `AList` of units; its loops visit the keys in any order.
* `Nft` says how the `nft` binary fares during the call: the listing may fail, and the batch
  may fail for reasons of its own.
* A batch is refused if a deleted member is absent before it, as the interface says; how `nft`
  takes a member that is deleted twice in one batch is left out.
* Writing the state file succeeds, and no other loop runs during the call.

## Main results

* `applyAuthz_cases` — nothing, for a reason, or the batch of the response
* `applyAuthz_exact` — all or nothing, and exactly the response
* `applyAuthz_refines` — the sync loop's two steps are this function
-/

namespace FipsExitGate.Agent

open Program

/-! ## The firewall -/

/-- `map[netip.Addr]struct{}`. -/
abbrev AddrSet := AList fun _ : Addr => Unit

/-- The kernel's set, and the cursor in the runtime. -/
structure AuthzState where
  kernel : AddrSet
  authzRev : Int

/-- The ways for `applyAuthz` to fail. -/
inductive AuthzErr where
  /-- The set cannot be listed. -/
  | unreadable
  /-- `massRevokeError`. -/
  | massRevoke (del current : Nat)
  /-- `revRegressionError`. -/
  | revRegression (got cursor : Int)
  /-- The batch deletes a member that is not there. -/
  | absentMember (a : Addr)
  /-- The batch fails for another reason. -/
  | nftFailed
  deriving DecidableEq

/-- The texts of the agent's own errors. -/
def AuthzErr.text : AuthzErr → Option String
  | .massRevoke del current =>
      some ("full set would revoke " ++ toString del ++ " of " ++ toString current ++
        " live addresses")
  | .revRegression got cursor =>
      some ("backend revision " ++ toString got ++ " is below our cursor " ++ toString cursor ++
        " (backend reset?)")
  | _ => none

abbrev AuthzM := Prog AuthzState AuthzErr

/-- How `nft` fares, and the orders of the two loops of `diffAuthorized`. -/
structure Nft where
  unreadable : Bool
  fails : Bool
  desiredOrder : MapOrder Addr
  currentOrder : MapOrder Addr

/-- `ListAuthorized`. -/
def listAuthorized (nft : Nft) : AuthzM AddrSet := do
  if nft.unreadable then throw .unreadable
  else
    let st ← get
    return st.kernel

/-- The set after a batch: additions first. -/
def batch (kernel : AddrSet) (add del : List Addr) : AddrSet :=
  del.foldl (fun m a => m.erase a) (add.foldl (fun m a => m.insert a ()) kernel)

/-- `ApplyAuthorized`: nothing to do, or one batch, all or nothing. -/
def applyAuthorized (nft : Nft) (add del : List Addr) : AuthzM Unit := do
  if add = [] ∧ del = [] then return ()
  else if nft.fails then throw .nftFailed
  else
    let st ← get
    match del.find? fun a => decide (a ∉ st.kernel) with
    | some a => throw (.absentMember a)
    | none => modify fun st => { st with kernel := batch st.kernel add del }

/-! ## The response -/

/-- `authzResponse`. -/
structure AuthzResponse where
  rev : Int
  full : Bool
  addresses : List AuthzMember
  add : List AuthzMember
  del : List Addr
  force : Bool

/-- The settings of the mass-revoke guard. -/
structure GuardConfig where
  massRevokeMin : Int
  allowMassRevoke : Bool

/-- `isMassRevoke`. -/
def GuardConfig.isMassRevoke (cfg : GuardConfig) (del current : Nat) : Bool :=
  decide (cfg.massRevokeMin < del) && decide (current < del * 2)

/-- `diffAuthorized`. -/
def diffAuthorized (nft : Nft) (current desired : AddrSet) : List Addr × List Addr :=
  ((nft.desiredOrder.reorder desired.keys).filter fun a => decide (a ∉ current),
    (nft.currentOrder.reorder current.keys).filter fun a => decide (a ∉ desired))

/-- `presentOnly`. -/
def presentOnly (nft : Nft) (del : List Addr) : AuthzM (List Addr) := do
  if del = [] then return []
  else
    let current ← listAuthorized nft
    return del.filter fun a => decide (a ∈ current)

/-- The map that the loop over `resp.Addresses` builds. -/
def desiredSet (addresses : List AuthzMember) : AddrSet :=
  addresses.foldl (fun m member => m.insert member.addr ()) ∅

/-- `applyAuthz`, up to the batch. -/
def authzBatch (cfg : GuardConfig) (nft : Nft) (resp : AuthzResponse) :
    AuthzM (List Addr × List Addr) := do
  if resp.full then
    let current ← listAuthorized nft
    let (add, del) := diffAuthorized nft current (desiredSet resp.addresses)
    if !resp.force && !cfg.allowMassRevoke && cfg.isMassRevoke del.length current.keys.length then
      throw (.massRevoke del.length current.keys.length)
    else return (add, del)
  else
    let st ← get
    if resp.rev < st.authzRev then throw (.revRegression resp.rev st.authzRev)
    else
      let del ← presentOnly nft resp.del
      return (resp.add.map (·.addr), del)

/-- `applyAuthz`. -/
def applyAuthz (cfg : GuardConfig) (nft : Nft) (resp : AuthzResponse) : AuthzM Unit := do
  let (add, del) ← authzBatch cfg nft resp
  applyAuthorized nft add del
  modify fun st => { st with authzRev := resp.rev }

/-! ## The members after a batch -/

theorem mem_foldl_insert (add : List Addr) (m : AddrSet) (a : Addr) :
    a ∈ add.foldl (fun m a => m.insert a ()) m ↔ a ∈ m ∨ a ∈ add := by
  induction add generalizing m with
  | nil => simp
  | cons b add ih =>
      rw [List.foldl_cons, ih, AList.mem_insert, List.mem_cons]
      tauto

theorem mem_foldl_erase (del : List Addr) (m : AddrSet) (a : Addr) :
    a ∈ del.foldl (fun m a => m.erase a) m ↔ a ∈ m ∧ a ∉ del := by
  induction del generalizing m with
  | nil => simp
  | cons b del ih =>
      rw [List.foldl_cons, ih, AList.mem_erase, List.mem_cons]
      tauto

theorem mem_batch {kernel : AddrSet} {add del : List Addr} {a : Addr} :
    a ∈ batch kernel add del ↔ (a ∈ kernel ∨ a ∈ add) ∧ a ∉ del := by
  rw [batch, mem_foldl_erase, mem_foldl_insert]

theorem mem_desiredSet {addresses : List AuthzMember} {a : Addr} :
    a ∈ desiredSet addresses ↔ a ∈ addresses.map (·.addr) := by
  have built : desiredSet addresses =
      (addresses.map (·.addr)).foldl (fun m a => m.insert a ()) ∅ := by
    rw [desiredSet, List.foldl_map]
  rw [built, mem_foldl_insert]
  exact or_iff_right (AList.notMem_empty a)

/-! ## What a call does -/

/-- The members of the set that a full response does not list. -/
def unlisted (kernel : AddrSet) (addresses : List AuthzMember) : List Addr :=
  kernel.keys.filter fun a => decide (a ∉ addresses.map (·.addr))

/-- The reason for which a call may fail with the error. -/
def Refuses (cfg : GuardConfig) (nft : Nft) (resp : AuthzResponse) (st : AuthzState) :
    AuthzErr → Prop
  | .unreadable => nft.unreadable = true
  | .massRevoke del current =>
      resp.full = true ∧ resp.force = false ∧ cfg.allowMassRevoke = false ∧
        del = (unlisted st.kernel resp.addresses).length ∧ current = st.kernel.keys.length ∧
        cfg.isMassRevoke del current = true
  | .revRegression got cursor =>
      resp.full = false ∧ got = resp.rev ∧ cursor = st.authzRev ∧ resp.rev < st.authzRev
  | .absentMember _ => False
  | .nftFailed => nft.fails = true

/-- The batch of a full response. -/
structure FullBatch (cfg : GuardConfig) (resp : AuthzResponse) (st : AuthzState)
    (add del : List Addr) : Prop where
  mem_add : ∀ a, a ∈ add ↔ a ∈ resp.addresses.map (·.addr) ∧ a ∉ st.kernel
  del_perm : del.Perm (unlisted st.kernel resp.addresses)
  allowed : resp.force = true ∨ cfg.allowMassRevoke = true ∨
    cfg.isMassRevoke (unlisted st.kernel resp.addresses).length st.kernel.keys.length = false

/-- The batch of a delta. -/
structure DeltaBatch (resp : AuthzResponse) (st : AuthzState) (add del : List Addr) : Prop where
  not_below : st.authzRev ≤ resp.rev
  add_eq : add = resp.add.map (·.addr)
  del_eq : del = resp.del.filter fun a => decide (a ∈ st.kernel)

/-- The batch that a call sends. -/
def IsBatch (cfg : GuardConfig) (resp : AuthzResponse) (st : AuthzState)
    (add del : List Addr) : Prop :=
  if resp.full then FullBatch cfg resp st add del else DeltaBatch resp st add del

theorem mem_unlisted {kernel : AddrSet} {addresses : List AuthzMember} {a : Addr} :
    a ∈ unlisted kernel addresses ↔ a ∈ kernel ∧ a ∉ addresses.map (·.addr) := by
  rw [unlisted, List.mem_filter, decide_eq_true_iff, ← AList.mem_keys]

section Calls

variable {cfg : GuardConfig} {nft : Nft} {resp : AuthzResponse} {st : AuthzState}
  {add del : List Addr}

/-- **No batch names an absent member.** -/
theorem IsBatch.present (h : IsBatch cfg resp st add del) : ∀ a ∈ del, a ∈ st.kernel := by
  intro a removed
  unfold IsBatch at h
  split at h
  · exact (mem_unlisted.mp (h.del_perm.mem_iff.mp removed)).1
  · rw [h.del_eq, List.mem_filter, decide_eq_true_iff] at removed
    exact removed.2

theorem exec_listAuthorized (nft : Nft) (st : AuthzState) :
    exec (listAuthorized nft) st =
      if nft.unreadable then (.error .unreadable, st) else (.ok st.kernel, st) := by
  unfold listAuthorized
  split <;> rfl

/-- A batch without absent members goes through unless `nft` fails. -/
theorem exec_applyAuthorized (nft : Nft) (add : List Addr) (present : ∀ a ∈ del, a ∈ st.kernel) :
    (exec (applyAuthorized nft add del) st = (.error .nftFailed, st) ∧ nft.fails = true) ∨
      exec (applyAuthorized nft add del) st =
        (.ok (), { st with kernel := batch st.kernel add del }) := by
  have found : del.find? (fun a => decide (a ∉ st.kernel)) = none := by
    simpa using present
  unfold applyAuthorized
  split
  next empty =>
    right
    rw [empty.1, empty.2]
    rfl
  next =>
    split
    next failing => exact .inl ⟨rfl, failing⟩
    next =>
      right
      rw [exec_get_bind, found]
      rfl

theorem diffAuthorized_del_perm (nft : Nft) (kernel : AddrSet) (addresses : List AuthzMember) :
    (diffAuthorized nft kernel (desiredSet addresses)).2.Perm (unlisted kernel addresses) := by
  have same : ∀ a, decide (a ∉ desiredSet addresses) = decide (a ∉ addresses.map (·.addr)) := by
    intro a
    rw [decide_eq_decide, mem_desiredSet]
  simp only [diffAuthorized, unlisted, same]
  exact (nft.currentOrder.perm kernel.keys).filter _

theorem mem_diffAuthorized_add (nft : Nft) (kernel : AddrSet) (addresses : List AuthzMember)
    (a : Addr) :
    a ∈ (diffAuthorized nft kernel (desiredSet addresses)).1 ↔
      a ∈ addresses.map (·.addr) ∧ a ∉ kernel := by
  rw [diffAuthorized, List.mem_filter, decide_eq_true_iff, MapOrder.mem_reorder, ← AList.mem_keys,
    mem_desiredSet]

theorem exec_presentOnly (nft : Nft) (st : AuthzState) (del : List Addr) :
    (exec (presentOnly nft del) st = (.error .unreadable, st) ∧ nft.unreadable = true) ∨
      exec (presentOnly nft del) st =
        (.ok (del.filter fun a => decide (a ∈ st.kernel)), st) := by
  unfold presentOnly
  split
  next empty =>
    right
    rw [empty]
    rfl
  next =>
    rw [exec_bind, exec_listAuthorized]
    cases unreadable : nft.unreadable with
    | true => exact .inl ⟨rfl, rfl⟩
    | false => exact .inr rfl

/-- **The batch of a call**, or the reason why there is none; the state is only read. -/
theorem authzBatch_cases (cfg : GuardConfig) (nft : Nft) (resp : AuthzResponse)
    (st : AuthzState) :
    (∃ e, exec (authzBatch cfg nft resp) st = (.error e, st) ∧ Refuses cfg nft resp st e) ∨
      ∃ add del, exec (authzBatch cfg nft resp) st = (.ok (add, del), st) ∧
        IsBatch cfg resp st add del := by
  unfold authzBatch IsBatch
  cases full : resp.full with
  | true =>
      simp only [if_true]
      rw [exec_bind, exec_listAuthorized]
      cases unreadable : nft.unreadable with
      | true => exact .inl ⟨.unreadable, rfl, unreadable⟩
      | false =>
          have perm := diffAuthorized_del_perm nft st.kernel resp.addresses
          have listed := mem_diffAuthorized_add nft st.kernel resp.addresses
          simp only [Bool.false_eq_true, if_false]
          split
          next guarded =>
            simp only [Bool.and_eq_true, Bool.not_eq_true'] at guarded
            exact .inl ⟨.massRevoke _ _, rfl, full, guarded.1.1, guarded.1.2, perm.length_eq, rfl,
              guarded.2⟩
          next passed =>
            refine .inr ⟨_, _, rfl, listed, perm, ?_⟩
            rw [← perm.length_eq]
            simpa [or_assoc, imp_iff_not_or] using passed
  | false =>
      simp only [Bool.false_eq_true, if_false]
      rw [exec_get_bind]
      split
      next below => exact .inl ⟨.revRegression resp.rev st.authzRev, rfl, full, rfl, rfl, below⟩
      next notBelow =>
        rw [exec_bind]
        rcases exec_presentOnly nft st resp.del with ⟨run, unreadable⟩ | run
        · rw [run]
          exact .inl ⟨.unreadable, rfl, unreadable⟩
        · rw [run]
          exact .inr ⟨_, _, rfl, Int.not_lt.mp notBelow, rfl, rfl⟩

/-- **What a call does**: nothing, for a reason, or its batch and the new cursor. -/
theorem applyAuthz_cases (cfg : GuardConfig) (nft : Nft) (resp : AuthzResponse)
    (st : AuthzState) :
    (∃ e, exec (applyAuthz cfg nft resp) st = (.error e, st) ∧ Refuses cfg nft resp st e) ∨
      ∃ add del, IsBatch cfg resp st add del ∧
        exec (applyAuthz cfg nft resp) st = (.ok (), ⟨batch st.kernel add del, resp.rev⟩) := by
  unfold applyAuthz
  rcases authzBatch_cases cfg nft resp st with ⟨e, run, reason⟩ | ⟨add, del, run, isBatch⟩
  · exact .inl ⟨e, exec_bind_error run, reason⟩
  · rw [exec_bind_ok run]
    rcases exec_applyAuthorized nft add isBatch.present with ⟨failed, fails⟩ | sent
    · exact .inl ⟨.nftFailed, exec_bind_error failed, fails⟩
    · refine .inr ⟨add, del, isBatch, ?_⟩
      rw [exec_bind_ok sent]
      rfl

/-! ## All or nothing, and exactly the response -/

/-- The members that a call takes out of the set. -/
def removed (before after : AddrSet) : List Addr :=
  before.keys.filter fun a => decide (a ∉ after)

theorem removed_self (kernel : AddrSet) : removed kernel kernel = [] := by
  rw [removed, List.filter_eq_nil_iff]
  intro a member
  simpa using AList.mem_keys.mpr member

/-- After the batch of a full response the set is the response's. -/
theorem FullBatch.mem_batch_iff (h : FullBatch cfg resp st add del) (a : Addr) :
    a ∈ batch st.kernel add del ↔ a ∈ resp.addresses.map (·.addr) := by
  rw [mem_batch, h.mem_add, h.del_perm.mem_iff, mem_unlisted]
  tauto

/-- What the guard counts is what goes. -/
theorem FullBatch.removed_eq (h : FullBatch cfg resp st add del) :
    removed st.kernel (batch st.kernel add del) = unlisted st.kernel resp.addresses := by
  simp only [removed, unlisted, h.mem_batch_iff]

/-- After the batch of a delta the deletions that were filtered out are absent as well,
unless the delta adds them. -/
theorem DeltaBatch.mem_batch_iff (h : DeltaBatch resp st add del)
    (disjoint : ∀ a ∈ resp.add.map (·.addr), a ∉ resp.del) (a : Addr) :
    a ∈ batch st.kernel add del ↔
      (a ∈ st.kernel ∨ a ∈ resp.add.map (·.addr)) ∧ a ∉ resp.del := by
  rw [mem_batch, h.add_eq, h.del_eq, List.mem_filter, decide_eq_true_iff]
  have apart := disjoint a
  tauto

/-- **A response is applied as a whole or not at all.**  A call that fails leaves the set and
the cursor as they were, and has one of four reasons, an absent member not among them.  A call
that returns leaves the response's revision and exactly its set, or the old set with the
delta's additions and without its deletions.  Without the two overrides a full response never
takes out more than `massRevokeMin` members that are more than half of the set, and a delta
never lowers the cursor. -/
theorem applyAuthz_exact (cfg : GuardConfig) (nft : Nft) (resp : AuthzResponse)
    (st : AuthzState) :
    let result := (exec (applyAuthz cfg nft resp) st).1
    let st' := (exec (applyAuthz cfg nft resp) st).2
    (∀ e, result = .error e → st' = st ∧ Refuses cfg nft resp st e) ∧
    (result = .ok () →
      st'.authzRev = resp.rev ∧
      (resp.full = true → ∀ a, a ∈ st'.kernel ↔ a ∈ resp.addresses.map (·.addr)) ∧
      (resp.full = false → (∀ a ∈ resp.add.map (·.addr), a ∉ resp.del) →
        ∀ a, a ∈ st'.kernel ↔
          (a ∈ st.kernel ∨ a ∈ resp.add.map (·.addr)) ∧ a ∉ resp.del)) ∧
    (∀ a, result ≠ .error (.absentMember a)) ∧
    (resp.full = true → resp.force = false → cfg.allowMassRevoke = false →
      ¬ (cfg.massRevokeMin < (removed st.kernel st'.kernel).length ∧
        st.kernel.keys.length < 2 * (removed st.kernel st'.kernel).length)) ∧
    (resp.full = false → st.authzRev ≤ st'.authzRev) := by
  rcases applyAuthz_cases cfg nft resp st with ⟨e, run, reason⟩ | ⟨add, del, isBatch, run⟩
  · simp only [run]
    refine ⟨?_, nofun, ?_, ?_, fun _ => le_refl _⟩
    · rintro _ ⟨⟩
      exact ⟨trivial, reason⟩
    · rintro a ⟨⟩
      exact reason
    · intro _ _ _
      simp [removed_self]
  · simp only [run]
    unfold IsBatch at isBatch
    refine ⟨nofun, fun _ => ⟨trivial, ?_, ?_⟩, nofun, ?_, ?_⟩
    · intro full
      rw [if_pos full] at isBatch
      exact isBatch.mem_batch_iff
    · intro delta
      rw [if_neg (by simp [delta])] at isBatch
      exact isBatch.mem_batch_iff
    · intro full notForced notAllowed
      rw [if_pos full] at isBatch
      rw [isBatch.removed_eq]
      have passed := isBatch.allowed
      simp only [notForced, notAllowed, GuardConfig.isMassRevoke, Bool.false_eq_true, false_or,
        Bool.and_eq_false_iff, decide_eq_false_iff_not] at passed
      omega
    · intro delta
      rw [if_neg (by simp [delta])] at isBatch
      exact isBatch.not_below

-- a deletion that an inline revoke has already made does not hold up the additions
example :
    let out := exec (applyAuthz ⟨50, false⟩ ⟨false, false, .id, .id⟩
      ⟨8, false, [], [⟨secondAddr, 2⟩], [thirdAddr], false⟩) ⟨desiredSet [⟨firstAddr, 1⟩], 7⟩
    out.1 = .ok () ∧ out.2.kernel.keys = [secondAddr, firstAddr] ∧ out.2.authzRev = 8 := by
  decide

end Calls

/-! ## The sync loop's view -/

/-- The set as `Sync.InlineRevoke` has it. -/
def AddrSet.toFinset (m : AddrSet) : Finset Addr := m.keys.toFinset

@[simp] theorem AddrSet.mem_toFinset {m : AddrSet} {a : Addr} :
    a ∈ AddrSet.toFinset m ↔ a ∈ m := by
  rw [AddrSet.toFinset, List.mem_toFinset, AList.mem_keys]

/-- The response as an answer of the backend. -/
def AuthzResponse.answer (resp : AuthzResponse) : Answer :=
  if resp.full then .full resp.addresses resp.rev else .delta ⟨resp.add, resp.del, resp.rev⟩

/-- The guard's settings, where the minimum is not negative. -/
def GuardConfig.ofSync (cfg : InlineRevoke.Config) : GuardConfig :=
  ⟨cfg.massRevokeMin, cfg.allowMassRevoke⟩

theorem isMassRevoke_ofSync (cfg : InlineRevoke.Config) (del current : Nat) :
    (GuardConfig.ofSync cfg).isMassRevoke del current = cfg.isMassRevoke del current := by
  simp [GuardConfig.isMassRevoke, GuardConfig.ofSync, InlineRevoke.Config.isMassRevoke]

theorem card_toFinset (m : AddrSet) : (AddrSet.toFinset m).card = m.keys.length :=
  List.toFinset_card_of_nodup m.keys_nodup

theorem card_unlisted (m : AddrSet) (addresses : List AuthzMember) :
    (AddrSet.toFinset m \ (addresses.map (·.addr)).toFinset).card =
      (unlisted m addresses).length := by
  have nodup : (unlisted m addresses).Nodup := m.keys_nodup.filter _
  rw [← List.toFinset_card_of_nodup nodup]
  congr 1
  ext a
  rw [Finset.mem_sdiff, AddrSet.mem_toFinset, List.mem_toFinset, List.mem_toFinset]
  exact mem_unlisted.symm

section Refinement

variable {cfg : InlineRevoke.Config} {nft : Nft} {resp : AuthzResponse} {st : AuthzState}
  {add del : List Addr}

/-- With a working `nft` only the guard and the revision check are left as reasons. -/
theorem prepareAuthz_of_refuses {e : AuthzErr} (readable : nft.unreadable = false)
    (works : nft.fails = false) (reason : Refuses (GuardConfig.ofSync cfg) nft resp st e) :
    InlineRevoke.prepareAuthz cfg (AddrSet.toFinset st.kernel) st.authzRev resp.force
      resp.answer = none := by
  cases e with
  | unreadable => exact absurd (readable.symm.trans reason) nofun
  | nftFailed => exact absurd (works.symm.trans reason) nofun
  | absentMember a => exact reason.elim
  | massRevoke d current =>
      obtain ⟨full, notForced, notAllowed, rfl, rfl, guarded⟩ := reason
      rw [isMassRevoke_ofSync] at guarded
      have allowed : cfg.allowMassRevoke = false := notAllowed
      simp [AuthzResponse.answer, InlineRevoke.prepareAuthz, full, notForced, allowed,
        card_unlisted, card_toFinset, guarded]
  | revRegression got cursor =>
      obtain ⟨delta, -, -, below⟩ := reason
      simp [AuthzResponse.answer, InlineRevoke.prepareAuthz, delta, below]

/-- The sync loop prepares the same batch. -/
theorem prepareAuthz_of_isBatch (h : IsBatch (GuardConfig.ofSync cfg) resp st add del) :
    InlineRevoke.prepareAuthz cfg (AddrSet.toFinset st.kernel) st.authzRev resp.force
      resp.answer = some (add.toFinset, del.toFinset, resp.rev) := by
  unfold IsBatch at h
  cases full : resp.full with
  | true =>
      rw [if_pos full] at h
      have adds : (resp.addresses.map (·.addr)).toFinset \ AddrSet.toFinset st.kernel =
          add.toFinset := by
        ext a
        rw [Finset.mem_sdiff, List.mem_toFinset, AddrSet.mem_toFinset, List.mem_toFinset,
          h.mem_add]
      have dels : AddrSet.toFinset st.kernel \ (resp.addresses.map (·.addr)).toFinset =
          del.toFinset := by
        ext a
        rw [Finset.mem_sdiff, List.mem_toFinset, AddrSet.mem_toFinset, List.mem_toFinset,
          h.del_perm.mem_iff, mem_unlisted]
      have passed := h.allowed
      rw [isMassRevoke_ofSync, ← card_unlisted, ← card_toFinset, dels] at passed
      have unguarded : (!resp.force && !cfg.allowMassRevoke &&
          cfg.isMassRevoke del.toFinset.card (AddrSet.toFinset st.kernel).card) = false := by
        rcases passed with forced | allowed | small
        · simp [forced]
        · have allowed : cfg.allowMassRevoke = true := allowed
          simp [allowed]
        · simp [small]
      simp only [AuthzResponse.answer, full, if_true, InlineRevoke.prepareAuthz, adds, dels,
        unguarded, Bool.false_eq_true, if_false]
  | false =>
      rw [if_neg (by simp [full])] at h
      have dels : InlineRevoke.presentOnly (AddrSet.toFinset st.kernel) resp.del =
          del.toFinset := by
        ext a
        simp [InlineRevoke.presentOnly, h.del_eq]
      simp only [AuthzResponse.answer, full, Bool.false_eq_true, if_false,
        InlineRevoke.prepareAuthz, dels, h.add_eq, if_neg (Int.not_lt.mpr h.not_below)]

theorem applyAuthorized_batch (present : ∀ a ∈ del, a ∈ st.kernel) :
    InlineRevoke.applyAuthorized (AddrSet.toFinset st.kernel) add.toFinset del.toFinset =
      some (AddrSet.toFinset (batch st.kernel add del)) := by
  have subset : del.toFinset ⊆ AddrSet.toFinset st.kernel := by
    intro a member
    exact AddrSet.mem_toFinset.mpr (present a (List.mem_toFinset.mp member))
  rw [InlineRevoke.applyAuthorized, if_pos subset]
  congr 1
  ext a
  rw [Finset.mem_sdiff, Finset.mem_union, AddrSet.mem_toFinset, AddrSet.mem_toFinset,
    List.mem_toFinset, List.mem_toFinset, mem_batch]

/-- **The sync loop's two steps are this function.**  With a working `nft`, a call fails where
the sync loop refuses the answer, and otherwise leaves the set of the sync loop's batch. -/
theorem applyAuthz_refines (cfg : InlineRevoke.Config) (readable : nft.unreadable = false)
    (works : nft.fails = false) (resp : AuthzResponse) (st : AuthzState) :
    match InlineRevoke.prepareAuthz cfg (AddrSet.toFinset st.kernel) st.authzRev resp.force
        resp.answer with
    | none => ∃ e, exec (applyAuthz (GuardConfig.ofSync cfg) nft resp) st = (.error e, st)
    | some (add, del, rev) => ∃ st',
        exec (applyAuthz (GuardConfig.ofSync cfg) nft resp) st = (.ok (), st') ∧
        InlineRevoke.applyAuthorized (AddrSet.toFinset st.kernel) add del =
          some (AddrSet.toFinset st'.kernel) ∧
        st'.authzRev = rev := by
  rcases applyAuthz_cases (GuardConfig.ofSync cfg) nft resp st with
    ⟨e, run, reason⟩ | ⟨add, del, isBatch, run⟩
  · rw [prepareAuthz_of_refuses readable works reason]
    exact ⟨e, run⟩
  · rw [prepareAuthz_of_isBatch isBatch]
    exact ⟨_, run, applyAuthorized_batch isBatch.present, rfl⟩

end Refinement

end FipsExitGate.Agent
