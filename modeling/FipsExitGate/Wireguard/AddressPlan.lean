import FipsExitGate.Lib.Subnet
import FipsExitGate.Whitelist.Peers

/-!
# The inner address plan

A peer's inner addresses are `Pool4` and `Pool6` with its index added.  `CreateWgPeer` draws the
index from a sequence, `2 + nextval % slots`, and tries again when the index is taken, 64 times
at most.  This file settles both halves.

**The plan.**  An index is at least 2, past the network address and the gateway, and at most
`slots + 1`, before the last address of the pool.  Neither addition wraps: the IPv4 pool has room
for the largest index, and the last four bytes of an IPv6 pool of 64 bits or less are zero.  The
column `idx` is unique, so the addresses are.

**The search.**  Each attempt looks at the next slot after the last one, so 64 attempts look at
64 neighbours.  Where these are taken the pool is reported exhausted, however many slots are free
elsewhere: after a wave of deletions the cursor may come round to a block that is still full.

## Main results

* `address_plan` — every table of peers that calls can lead to is within the plan
* `pool_full_iff` — the answer is right exactly if a free slot is near, or there is none
* `free_slots_reported_full` — 64 peers in a row, and 189 free slots
-/

namespace FipsExitGate

open Program Table Subnet

/-! ## The configuration -/

/-- A prefix, as `netip.ParsePrefix` reads it. -/
structure Prefix (w : Nat) where
  addr : BitVec w
  bits : Nat

/-- `mustPrefix`: the prefix with its host bits cleared. -/
def mustPrefix {w : Nat} (pool : Prefix w) : Prefix w :=
  ⟨network pool.addr pool.bits, pool.bits⟩

/-- `loadWgSettings`, the address plan: `WG_POOL4` and `WG_POOL6` if they are set.  `none` is the
end of the process. -/
def loadWgSettings (pool4 : Option (Prefix 32)) (pool6 : Option (Prefix 128)) : Option WgPools :=
  let pool4 := (pool4.map mustPrefix).getD ⟨defaultWgPools.addr4, defaultWgPools.bits4⟩
  let pool6 := (pool6.map mustPrefix).getD ⟨defaultWgPools.addr6, defaultWgPools.bits6⟩
  if 24 < pool4.bits ∨ 64 < pool6.bits then none
  else some ⟨pool4.addr, pool4.bits, pool6.addr, pool6.bits⟩

/-- What the plan needs of its prefixes. -/
structure WgPools.Admitted (p : WgPools) : Prop where
  bits4 : p.bits4 ≤ 24
  bits6 : p.bits6 ≤ 64

theorem admitted_of_loadWgSettings {pool4 : Option (Prefix 32)} {pool6 : Option (Prefix 128)}
    {p : WgPools} (loaded : loadWgSettings pool4 pool6 = some p) : p.Admitted := by
  simp only [loadWgSettings, Option.ite_none_left_eq_some, not_or, Nat.not_lt,
    Option.some.injEq] at loaded
  obtain ⟨⟨bits4, bits6⟩, rfl⟩ := loaded
  exact ⟨bits4, bits6⟩

/-- `Gateway4`. -/
def WgPools.gateway4 (p : WgPools) : BitVec 32 := offset4 p 1

/-- `Gateway6`. -/
def WgPools.gateway6 (p : WgPools) : BitVec 128 := offset6 p 1

/-! ## Indexes -/

/-- The index the sequence value `n` stands for. -/
def WgPools.probe (p : WgPools) (n : Int) : Int :=
  2 + n.tmod p.slots

/-- The indexes of a plan. -/
def WgPools.HasIndex (p : WgPools) (idx : Int) : Prop :=
  2 ≤ idx ∧ idx ≤ p.slots + 1

section Plan

variable {p : WgPools}

theorem slots_eq (p : WgPools) : p.slots = ((2 ^ min (32 - p.bits4) 24 : Nat) : Int) - 3 := by
  simp [WgPools.slots]

theorem slots_pos (admitted : p.Admitted) : 253 ≤ p.slots := by
  have wide : 8 ≤ min (32 - p.bits4) 24 := by
    have := admitted.bits4
    omega
  have grows : (2 : Nat) ^ 8 ≤ 2 ^ min (32 - p.bits4) 24 := Nat.pow_le_pow_right (by decide) wide
  rw [slots_eq]
  omega

/-- Whatever the sequence is at, the index is one of the plan. -/
theorem hasIndex_probe (admitted : p.Admitted) {n : Int} (drawn : 0 ≤ n) :
    p.HasIndex (p.probe n) := by
  have many := slots_pos admitted
  have low := Int.tmod_nonneg p.slots drawn
  have high := Int.tmod_lt_of_pos n (by omega : 0 < p.slots)
  unfold WgPools.HasIndex WgPools.probe
  omega

/-- **An index leaves the last address free**, and is below the size of both pools. -/
theorem index_lt (admitted : p.Admitted) {idx : Nat} (isIndex : p.HasIndex idx) :
    idx + 1 < 2 ^ (32 - p.bits4) ∧ idx < 2 ^ 32 ∧ idx < 2 ^ (128 - p.bits6) := by
  have high := isIndex.2
  have cap : (2 : Nat) ^ min (32 - p.bits4) 24 ≤ 2 ^ (32 - p.bits4) :=
    Nat.pow_le_pow_right (by decide) (min_le_left _ _)
  have word : (2 : Nat) ^ (32 - p.bits4) ≤ 2 ^ 32 :=
    Nat.pow_le_pow_right (by decide) (Nat.sub_le _ _)
  have wide : (2 : Nat) ^ 32 ≤ 2 ^ (128 - p.bits6) :=
    Nat.pow_le_pow_right (by decide) (by have := admitted.bits6; omega)
  rw [slots_eq] at high
  omega

/-- `offset4` is the host of its number. -/
theorem offset4_natCast (p : WgPools) (n : Nat) :
    offset4 p n = network p.addr4 p.bits4 + BitVec.ofNat 32 n := by
  rw [offset4, BitVec.ofInt_natCast]
  rfl

/-- The last four bytes of the network address, into which `offset6` adds. -/
theorem lastWord_network (admitted : p.Admitted) :
    (network p.addr6 p.bits6).extractLsb' 0 32 = 0#32 :=
  extractLsb'_network p.addr6 (by have := admitted.bits6; omega)

/-- `offset6` is the host of its number. -/
theorem offset6_natCast (admitted : p.Admitted) {n : Nat} (fits : n < 2 ^ 32) :
    offset6 p n = network p.addr6 p.bits6 + BitVec.ofNat 128 n := by
  have room : ((network p.addr6 p.bits6).extractLsb' 0 32).toNat + n < 2 ^ 32 := by
    rw [lastWord_network admitted, BitVec.toNat_zero, Nat.zero_add]
    exact fits
  have added := splice_low_eq_add (m := 96) (n := 32) (network p.addr6 p.bits6) room
  rw [offset6, BitVec.ofInt_natCast]
  exact added

/-- **What the plan says of a peer's addresses.** -/
structure IssuedPeer.InPlan (p : WgPools) (q : IssuedPeer) : Prop where
  inPool4 : Contains p.addr4 p.bits4 q.ip4
  notNetwork4 : q.ip4 ≠ network p.addr4 p.bits4
  notGateway4 : q.ip4 ≠ p.gateway4
  notLast4 : q.ip4 ≠ last p.addr4 p.bits4
  noWrap4 : (q.ip4.toNat : Int) = (network p.addr4 p.bits4).toNat + q.peer.idx
  inPool6 : Contains p.addr6 p.bits6 q.ip6
  notNetwork6 : q.ip6 ≠ network p.addr6 p.bits6
  notGateway6 : q.ip6 ≠ p.gateway6
  noWrap6 : (q.ip6.toNat : Int) = (network p.addr6 p.bits6).toNat + q.peer.idx

/-- A peer with an index of the plan has addresses of the plan. -/
theorem inPlan_of_hasIndex (admitted : p.Admitted) {peer : WgPeer} (isIndex : p.HasIndex peer.idx) :
    IssuedPeer.InPlan p ⟨peer, offset4 p peer.idx, offset6 p peer.idx⟩ := by
  obtain ⟨n, isNat⟩ := Int.eq_ofNat_of_zero_le (by have := isIndex.1; omega : 0 ≤ peer.idx)
  rw [isNat] at isIndex ⊢
  have host : 2 ≤ n := by
    have := isIndex.1
    omega
  obtain ⟨fits4, word, fits6⟩ := index_lt admitted isIndex
  have at4 := offset4_natCast p n
  have at6 := offset6_natCast admitted word
  have gateway4 : p.gateway4 = network p.addr4 p.bits4 + BitVec.ofNat 32 1 := offset4_natCast p 1
  have gateway6 : p.gateway6 = network p.addr6 p.bits6 + BitVec.ofNat 128 1 :=
    offset6_natCast admitted (n := 1) (by decide)
  exact {
    inPool4 := at4 ▸ contains_network_add p.addr4 (by omega)
    notNetwork4 := at4 ▸ (network_add_ne host (by omega)).1
    notGateway4 := by
      rw [gateway4, at4]
      exact (network_add_ne host (by omega)).2
    notLast4 := at4 ▸ network_add_ne_last fits4
    noWrap4 := by
      rw [at4, toNat_network_add p.addr4 (by omega : n < 2 ^ (32 - p.bits4)), isNat]
      exact Int.natCast_add _ _
    inPool6 := at6 ▸ contains_network_add p.addr6 fits6
    notNetwork6 := at6 ▸ (network_add_ne host fits6).1
    notGateway6 := by
      rw [gateway6, at6]
      exact (network_add_ne host fits6).2
    noWrap6 := by
      rw [at6, toNat_network_add p.addr6 fits6, isNat]
      exact Int.natCast_add _ _ }

/-- Addresses of the plan tell the index. -/
theorem idx_eq_of_inPlan {q r : IssuedPeer} (inPlanQ : q.InPlan p) (inPlanR : r.InPlan p)
    (same : q.ip4 = r.ip4 ∨ q.ip6 = r.ip6) : q.peer.idx = r.peer.idx := by
  rcases same with same4 | same6
  · have left := inPlanQ.noWrap4
    rw [same4, inPlanR.noWrap4] at left
    omega
  · have left := inPlanQ.noWrap6
    rw [same6, inPlanR.noWrap6] at left
    omega

end Plan

/-! ## The search -/

/-- A peer has the index. -/
def Db.idxTaken (db : Db) (idx : Int) : Bool :=
  db.wgPeers.any fun p => decide (p.idx = idx)

/-- The `k`-th index that a call probes, from 0 on. -/
def Store.probed (s : Store) (db : Db) (k : Nat) : Int :=
  s.wgPools.probe (db.wgPeerAlloc + 1 + k)

/-- What the `k`-th probe leaves when the index is free. -/
def Db.issued (db : Db) (k : Nat) (peer : WgPeer) : Except StoreErr WgPeer × Db :=
  let drawn := { db with wgPeerAlloc := db.wgPeerAlloc + 1 + k, nextId := db.nextId + 1 }
  if db.wgPeers.any fun p => decide (p.pubkey = peer.pubkey) then (.error .wgBadKey, drawn)
  else (.ok peer, { drawn with wgPeers := db.wgPeers ++ [peer] })

/-- **The search, in one equation**: it ends at the first free index that it probes, and fails
if all are taken. -/
theorem exec_allocWgPeer (s : Store) (new : Nat → Int → WgPeer) (attempts : Nat) (db : Db) :
    ((∀ k < attempts, db.idxTaken (s.probed db k) = true) ∧
        exec (allocWgPeer s new attempts) db =
          (.error .wgPoolFull, { db with wgPeerAlloc := db.wgPeerAlloc + attempts })) ∨
      ∃ k < attempts, db.idxTaken (s.probed db k) = false ∧
        exec (allocWgPeer s new attempts) db =
          db.issued k (new db.nextId (s.probed db k)) := by
  induction attempts generalizing db with
  | zero => exact .inl ⟨fun k below => absurd below (Nat.not_lt_zero k), by simp; rfl⟩
  | succ attempts ih =>
      rw [exec_allocWgPeer_succ]
      dsimp only
      have first : s.probed db 0 = 2 + (db.wgPeerAlloc + 1).tmod s.wgPools.slots := by
        simp [Store.probed, WgPools.probe]
      by_cases taken : db.idxTaken (s.probed db 0) = true
      · rw [if_pos (first ▸ taken)]
        -- the next probe is the first one after the number drawn here
        have shift : ∀ k, s.probed { db with wgPeerAlloc := db.wgPeerAlloc + 1 } k =
            s.probed db (k + 1) := by
          intro k
          simp only [Store.probed]
          congr 1
          push_cast
          omega
        rcases ih { db with wgPeerAlloc := db.wgPeerAlloc + 1 } with
          ⟨all, ends⟩ | ⟨k, below, free, ends⟩
        · refine .inl ⟨fun k below => ?_, ?_⟩
          · cases k with
            | zero => exact taken
            | succ k => exact shift k ▸ all k (by omega)
          · rw [ends]
            simp only [Nat.cast_succ]
            congr 2
            omega
        · refine .inr ⟨k + 1, by omega, shift k ▸ free, ?_⟩
          rw [ends, shift]
          simp only [Db.issued, Nat.cast_succ]
          have alloc : db.wgPeerAlloc + 1 + 1 + (k : Int) = db.wgPeerAlloc + 1 + (k + 1) := by omega
          rw [alloc]
      · refine .inr ⟨0, by omega, by simpa using taken, ?_⟩
        rw [if_neg (first ▸ taken)]
        simp [Db.issued, first]

/-! ## Tables of peers -/

/-- The peers of an address, as the cap counts them. -/
def Db.peersAt (db : Db) (addr : Addr) : List WgPeer :=
  db.wgPeers.filter fun p => decide (p.fipsAddr = addr)

/-- **The invariant of the table.** -/
structure Db.Planned (s : Store) (db : Db) : Prop where
  indexes : ∀ p ∈ db.wgPeers, s.wgPools.HasIndex p.idx
  distinct : (db.wgPeers.map WgPeer.idx).Nodup
  capped : ∀ addr, ((db.peersAt addr).length : Int) ≤ s.maxWgPeers

/-- Rows may go. -/
theorem planned_sublist {s : Store} {db db' : Db} (planned : db.Planned s)
    (fewer : db'.wgPeers.Sublist db.wgPeers) : db'.Planned s where
  indexes p member := planned.indexes p (fewer.subset member)
  distinct := planned.distinct.sublist (fewer.map _)
  capped addr := by
    refine le_trans ?_ (planned.capped addr)
    exact_mod_cast (fewer.filter _).length_le

/-- A row may come, with an index of the plan that is free, below the cap. -/
theorem planned_append {s : Store} {db db' : Db} {peer : WgPeer} (planned : db.Planned s)
    (isIndex : s.wgPools.HasIndex peer.idx) (free : db.idxTaken peer.idx = false)
    (underCap : ((db.peersAt peer.fipsAddr).length : Int) < s.maxWgPeers)
    (appended : db'.wgPeers = db.wgPeers ++ [peer]) : db'.Planned s where
  indexes p member := by
    rw [appended, List.mem_append, List.mem_singleton] at member
    rcases member with old | rfl
    · exact planned.indexes p old
    · exact isIndex
  distinct := by
    rw [appended]
    refine nodup_append_singleton planned.distinct fun p member same => ?_
    rw [Db.idxTaken, List.any_eq_false] at free
    exact free p member (decide_eq_true same)
  capped addr := by
    rw [Db.peersAt, appended, List.filter_append, List.length_append]
    by_cases here : peer.fipsAddr = addr
    · subst here
      simp only [List.filter_singleton, decide_true, cond_true, List.length_singleton]
      push_cast
      exact underCap
    · simp only [List.filter_singleton, decide_eq_false here, cond_false, List.length_nil]
      exact planned.capped addr

/-- **What is issued**: a peer at a free index that was probed, below the cap, with a valid key
that no other peer has. -/
structure Store.Issues (s : Store) (db : Db) (peer : WgPeer) : Prop where
  probed : ∃ k, peer.idx = s.probed db k
  free : db.idxTaken peer.idx = false
  underCap : ((db.peersAt peer.fipsAddr).length : Int) < s.maxWgPeers
  validKey : validWgKey peer.pubkey = true
  freshKey : ∀ p ∈ db.wgPeers, p.pubkey ≠ peer.pubkey

/-- What a call may make of the table: rows go, or one is issued. -/
def Store.PeersTo (s : Store) (db db' : Db) : Prop :=
  db'.wgPeers.Sublist db.wgPeers ∨ ∃ peer, s.Issues db peer ∧ db'.wgPeers = db.wgPeers ++ [peer]

/-- Inversion of an issue, with all that the table needs of it. -/
theorem createWgPeerTx_issues {s : Store} {sessionNpub forNpub label pubkey : String} {addr : Addr}
    {now : Time} {db db' : Db} {peer : WgPeer} (validKey : validWgKey pubkey = true)
    (run : exec (s.createWgPeerTx sessionNpub forNpub label pubkey addr now) db = (.ok peer, db')) :
    s.Issues db peer ∧ db'.wgPeers = db.wgPeers ++ [peer] := by
  unfold Store.createWgPeerTx at run
  rw [exec_get_bind] at run
  split at run
  · cases run
  split at run
  · cases run
  split at run
  · cases run
  rename_i w found underCap
  rcases exec_allocWgPeer s (fun id idx =>
      ⟨id, w.accountId, forNpub, addr, pubkey, idx, label, sessionNpub, now⟩) 64 db with
    ⟨-, ends⟩ | ⟨k, -, free, ends⟩
  · rw [ends] at run
    cases run
  · rw [ends, Db.issued] at run
    dsimp only at run
    split at run
    · cases run
    next fresh =>
      cases run
      rw [Bool.not_eq_true, List.any_eq_false] at fresh
      exact ⟨⟨⟨k, rfl⟩, free, Int.not_le.mp underCap, validKey,
        fun p member same => fresh p member (decide_eq_true same)⟩, rfl⟩

/-- **What a call does to the table.** -/
theorem peersTo_call (s : Store) (db : Db) (c : Call) : s.PeersTo db (s.call db c) := by
  obtain ⟨env, op⟩ := c
  have same : s.PeersTo db db := .inl (List.Sublist.refl _)
  by_cases issue : ∃ sessionNpub forNpub label pubkey,
      op = .createWgPeer sessionNpub forNpub label pubkey
  · obtain ⟨sessionNpub, forNpub, label, pubkey, rfl⟩ := issue
    have issues : Triple (· = db) (s.createWgPeer env sessionNpub forNpub label pubkey)
        (fun _ => s.PeersTo db) (s.PeersTo db) := by
      unfold Store.createWgPeer
      generalize trimSpace pubkey = key
      dsimp only
      cases validKey : validWgKey key
      · exact Triple.throw fun _ start => start ▸ same
      rw [Bool.not_true, if_neg Bool.false_ne_true]
      split
      · exact Triple.throw fun _ start => start ▸ same
      refine Triple.bind (Q := fun _ => s.PeersTo db) ?_ fun _ => Triple.pure fun _ done => done
      refine Triple.transaction (Triple.of_ok fun _ peer db' start run => ?_) fun _ _ start => ?_
      · exact .inr ⟨peer, createWgPeerTx_issues validKey (start ▸ run)⟩
      · exact start ▸ same
    have ends : Triple (· = db) (s.method env (.createWgPeer sessionNpub forNpub label pubkey))
        (fun _ => s.PeersTo db) (s.PeersTo db) :=
      Triple.bind issues fun _ => Triple.pure fun _ done => done
    exact ends.exec rfl
  by_cases deletion : ∃ sessionNpub id, op = .deleteWgPeer sessionNpub id
  · obtain ⟨sessionNpub, id, rfl⟩ := deletion
    have deletes : Triple (· = db) (deleteWgPeer env sessionNpub id) (fun _ => s.PeersTo db)
        (s.PeersTo db) := by
      rw [deleteWgPeer_eq]
      refine Triple.transaction (Triple.of_ok fun _ u db' start run => ?_) fun _ _ start => ?_
      · rw [start, deleteWgPeerTx, exec_get_bind] at run
        split at run
        · cases run
          exact .inl List.filter_sublist
        · cases run
      · exact start ▸ same
    exact deletes.exec rfl
  · have unchanged := wgPeers_call s db ⟨env, op⟩ (fun a b l k isIt => issue ⟨a, b, l, k, isIt⟩)
      fun n id isIt => deletion ⟨n, id, isIt⟩
    exact .inl (unchanged ▸ List.Sublist.refl _)

/-- A call, and where the sequence is when it starts. -/
structure PlanEvent where
  sequence : Nat
  call : Call

/-- The calls of a store, the sequence in any state before each of them. -/
def Store.planStep (s : Store) (db : Db) (e : PlanEvent) : Option Db :=
  some (s.call { db with wgPeerAlloc := e.sequence } e.call)

/-- Every call is a step. -/
theorem run_planStep (s : Store) (db : Db) (events : List PlanEvent) :
    Machine.run s.planStep db events = some (events.foldl
      (fun db e => s.call { db with wgPeerAlloc := e.sequence } e.call) db) :=
  List.foldlM_pure

/-- **Step**: every call keeps the table within the plan. -/
theorem planned_step {s : Store} (admitted : s.wgPools.Admitted) {db db' : Db} {e : PlanEvent}
    (planned : db.Planned s) (stepped : s.planStep db e = some db') : db'.Planned s := by
  cases stepped
  rcases peersTo_call s { db with wgPeerAlloc := (e.sequence : Int) } e.call with
    fewer | ⟨peer, issues, appended⟩
  · exact planned_sublist planned fewer
  · obtain ⟨k, isProbed⟩ := issues.probed
    have isIndex : s.wgPools.HasIndex peer.idx := by
      rw [isProbed]
      exact hasIndex_probe admitted (by dsimp only; omega)
    exact planned_append planned isIndex issues.free issues.underCap appended

/-- **The address plan.**  With every plan that `loadWgSettings` admits, in every state of every
run from a database without peers, wherever the sequence is before each call: the addresses of
each peer are those of the plan, without a wrap or a carry, no two peers share one, and no mesh
address has more peers than the cap. -/
theorem address_plan (pool4 : Option (Prefix 32)) (pool6 : Option (Prefix 128)) (s : Store)
    (loaded : loadWgSettings pool4 pool6 = some s.wgPools) (db db' : Db) (noPeers : db.wgPeers = [])
    (events : List PlanEvent) (visited : Machine.Visits s.planStep db events db') :
    (∀ p ∈ db'.wgPeers, (s.fillPeerIPs p).InPlan s.wgPools) ∧
      (db'.wgPeers.map s.fillPeerIPs).Pairwise (fun q r => q.ip4 ≠ r.ip4 ∧ q.ip6 ≠ r.ip6) ∧
      ∀ addr, ((db'.wgPeers.filter fun p => decide (p.fipsAddr = addr)).length : Int) ≤
        s.maxWgPeers := by
  have admitted := admitted_of_loadWgSettings loaded
  have positive : 0 ≤ s.maxWgPeers := by
    unfold Store.maxWgPeers
    split <;> omega
  have base : db.Planned s :=
    ⟨by simp [noPeers], by simp [noPeers], fun addr => by
      simpa [Db.peersAt, noPeers] using positive⟩
  have planned : db'.Planned s := Machine.visits_invariant
    (fun _ _ _ planned stepped => planned_step admitted planned stepped) base visited
  have inPlan : ∀ p ∈ db'.wgPeers, (s.fillPeerIPs p).InPlan s.wgPools := fun p member =>
    inPlan_of_hasIndex admitted (planned.indexes p member)
  refine ⟨inPlan, ?_, planned.capped⟩
  rw [List.pairwise_map]
  have distinct := List.pairwise_map.mp planned.distinct
  refine distinct.imp_of_mem fun {p q} memberP memberQ differ => ⟨fun same => ?_, fun same => ?_⟩
  · exact differ (idx_eq_of_inPlan (inPlan p memberP) (inPlan q memberQ) (.inl same))
  · exact differ (idx_eq_of_inPlan (inPlan p memberP) (inPlan q memberQ) (.inr same))

/-- The calls of a guest with a peer, the sequence at 297 before each: the peer gets index 300. -/
def hostedEvents : List PlanEvent := hostedPeer.map (PlanEvent.mk 297)

/-- The database these calls lead to. -/
def hostedPlan : Db :=
  hostedEvents.foldl (fun db e => plainStore.call { db with wgPeerAlloc := e.sequence } e.call)
    Db.empty

theorem address_plan_hosted :
    ∃ p ∈ hostedPlan.wgPeers, (plainStore.fillPeerIPs p).ip4 = 0x0a40012c#32 ∧
      (plainStore.fillPeerIPs p).ip6 = 0xfc10f1b5ea170000000000000000012c#128 ∧
      (plainStore.fillPeerIPs p).InPlan plainStore.wgPools := by
  have plan := address_plan none none plainStore rfl Db.empty hostedPlan rfl hostedEvents
    (Machine.visits_of_run (run_planStep plainStore Db.empty hostedEvents))
  obtain ⟨p, member, at4, at6⟩ : ∃ p ∈ hostedPlan.wgPeers,
      (plainStore.fillPeerIPs p).ip4 = 0x0a40012c#32 ∧
        (plainStore.fillPeerIPs p).ip6 = 0xfc10f1b5ea170000000000000000012c#128 := by
    decide +kernel
  exact ⟨p, member, at4, at6, plan.1 p member⟩

/-! ## When the pool is full -/

/-- A call that `CreateWgPeer` has no other reason to refuse: the session may act for the
identity, whose address is active and below the cap, and the key is valid and new. -/
structure Store.Issuable (s : Store) (db : Db) (sessionNpub forNpub pubkey : String)
    (addr : Addr) : Prop where
  validKey : validWgKey (trimSpace pubkey) = true
  derived : s.ident.fromNpub forNpub = some addr
  permitted : forNpub = sessionNpub ∨ db.whitelist.any (fun w =>
    decide (w.npub = forNpub) && w.active && db.isAccountOf sessionNpub w.accountId) = true
  active : db.whitelist.any (fun w => decide (w.fipsAddr = addr) && w.active) = true
  underCap : ((db.peersAt addr).length : Int) < s.maxWgPeers
  freshKey : ∀ p ∈ db.wgPeers, p.pubkey ≠ trimSpace pubkey

section Search

variable {s : Store} {env : Env} {db : Db} {sessionNpub forNpub pubkey : String} {addr : Addr}

/-- **What such a call returns**: the peer at the first free index among the 64 it probes. -/
theorem createWgPeer_of_issuable (issuable : s.Issuable db sessionNpub forNpub pubkey addr)
    (completes : env.fails 0 = false) (label : String) :
    ((∀ k < 64, db.idxTaken (s.probed db k) = true) ∧
        (exec (s.createWgPeer env sessionNpub forNpub label pubkey) db).1 = .error .wgPoolFull) ∨
      ∃ k < 64, db.idxTaken (s.probed db k) = false ∧ ∃ peer, peer.idx = s.probed db k ∧
        (exec (s.createWgPeer env sessionNpub forNpub label pubkey) db).1 =
          .ok (s.fillPeerIPs peer) ∧
        (exec (s.createWgPeer env sessionNpub forNpub label pubkey) db).2.wgPeers =
          db.wgPeers ++ [peer] := by
  have mayAct : ¬ (decide (forNpub ≠ sessionNpub) && !db.whitelist.any fun w =>
      decide (w.npub = forNpub) && w.active && db.isAccountOf sessionNpub w.accountId) = true := by
    rcases issuable.permitted with same | listed
    · simp [same]
    · simp only [listed, Bool.not_true, Bool.and_false, Bool.false_eq_true, not_false_eq_true]
  obtain ⟨w, found⟩ := Option.isSome_iff_exists.mp
    (List.find?_isSome.mpr (List.any_eq_true.mp issuable.active))
  have below : ¬ s.maxWgPeers ≤ (db.wgPeers.filter fun p => decide (p.fipsAddr = addr)).length :=
    Int.not_le.mpr issuable.underCap
  let new (id : Nat) (idx : Int) : WgPeer :=
    ⟨id, w.accountId, forNpub, addr, trimSpace pubkey, idx, label, sessionNpub, env.now 0⟩
  have body :
      exec (s.createWgPeerTx sessionNpub forNpub label (trimSpace pubkey) addr (env.now 0)) db =
        exec (allocWgPeer s new 64) db := by
    rw [Store.createWgPeerTx, exec_get_bind, if_neg mayAct, found]
    exact congrArg (fun m => exec m db) (if_neg below)
  have whole : exec (s.createWgPeer env sessionNpub forNpub label pubkey) db =
      match exec (allocWgPeer s new 64) db with
      | (.ok peer, db') => (.ok (s.fillPeerIPs peer), db')
      | (.error e, db') => (.error e, rollback db db') := by
    rw [Store.createWgPeer, issuable.validKey, issuable.derived, Bool.not_true,
      if_neg Bool.false_ne_true, exec_bind, inTx, exec_transaction, body, completes]
    rcases exec (allocWgPeer s new 64) db with ⟨_ | _, db'⟩ <;> rfl
  rcases exec_allocWgPeer s new 64 db with ⟨full, ends⟩ | ⟨k, near, free, ends⟩
  · exact .inl ⟨full, by rw [whole, ends]⟩
  · refine .inr ⟨k, near, free, new db.nextId (s.probed db k), rfl, ?_⟩
    have fresh : ¬ (db.wgPeers.any fun p => decide (p.pubkey = trimSpace pubkey)) = true := by
      simpa using issuable.freshKey
    rw [whole, ends, Db.issued, if_neg fresh]
    exact ⟨rfl, rfl⟩

end Search

/-- Every index of the plan is taken. -/
def Store.PoolFull (s : Store) (db : Db) : Prop :=
  ∀ idx, s.wgPools.HasIndex idx → db.idxTaken idx = true

/-- **The pool is reported full only when it is**, and a free index is issued otherwise. -/
structure Store.ReportsPool (s : Store) (db : Db) (result : Except StoreErr IssuedPeer × Db) :
    Prop where
  full_iff : result.1 = .error .wgPoolFull ↔ s.PoolFull db
  issues : ¬ s.PoolFull db → ∃ peer, result.1 = .ok (s.fillPeerIPs peer) ∧
    result.2.wgPeers = db.wgPeers ++ [peer] ∧ s.wgPools.HasIndex peer.idx ∧
    db.idxTaken peer.idx = false

/-- **The answer is right exactly if a free slot is near, or there is none.**  For every plan
that `loadWgSettings` admits, every table of peers, every state of the sequence and every call
with no other reason to be refused: the pool is reported full only when it is, and a free index
is issued otherwise, if and only if one of the 64 indexes that follow the cursor is free or no
index is free at all. -/
theorem pool_full_iff (pool4 : Option (Prefix 32)) (pool6 : Option (Prefix 128)) (s : Store)
    (loaded : loadWgSettings pool4 pool6 = some s.wgPools) (env : Env) (db : Db)
    (drawn : 0 ≤ db.wgPeerAlloc) (sessionNpub forNpub label pubkey : String) (addr : Addr)
    (completes : env.fails 0 = false)
    (issuable : s.Issuable db sessionNpub forNpub pubkey addr) :
    s.ReportsPool db (exec (s.createWgPeer env sessionNpub forNpub label pubkey) db) ↔
      (∃ k < 64, db.idxTaken (s.probed db k) = false) ∨ s.PoolFull db := by
  have admitted := admitted_of_loadWgSettings loaded
  rcases createWgPeer_of_issuable issuable completes label with
    ⟨full, returned⟩ | ⟨k, near, free, peer, isIndex, returned, table⟩
  · have noneNear : ¬ ∃ k < 64, db.idxTaken (s.probed db k) = false := by
      rintro ⟨k, near, free⟩
      exact Bool.false_ne_true (free.symm.trans (full k near))
    constructor
    · intro right
      exact .inr (right.full_iff.mp returned)
    · intro cond
      have isFull := cond.resolve_left noneNear
      exact ⟨iff_of_true returned isFull, fun notFull => absurd isFull notFull⟩
  · have inRange : s.wgPools.HasIndex (s.probed db k) := hasIndex_probe admitted (by omega)
    have notFull : ¬ s.PoolFull db :=
      fun isFull => Bool.false_ne_true (free.symm.trans (isFull _ inRange))
    refine iff_of_true ⟨iff_of_false ?_ notFull, fun _ => ?_⟩ (.inl ⟨k, near, free⟩)
    · rw [returned]
      exact nofun
    · exact ⟨peer, returned, table, isIndex ▸ inRange, isIndex ▸ free⟩

/-- A pool of 253 slots: 10.64.0.0/24. -/
def smallPool : WgPools := { defaultWgPools with bits4 := 24 }

/-- A store with that pool. -/
def smallStore : Store := { plainStore with pools := some smallPool }

/-- Valid keys that start with the characters of the base64 alphabet. -/
def sixtyFourKeys : List String :=
  "ABCDEFGHIJKLMNOPQRSTUVWXYZabcdefghijklmnopqrstuvwxyz0123456789+/".toList.map fun c =>
    String.ofList (c :: List.replicate 42 'A' ++ ['='])

/-- Peers at the indexes 3 to 66, five for each address. -/
def sixtyFourPeers : List WgPeer :=
  sixtyFourKeys.zipIdx.map fun (key, n) =>
    ⟨10 + n, 1, "guest", .v6 (BitVec.ofNat 128 (n / 5)), key, 3 + n, "", firstNpub, 0⟩

/-- An account that is active, these peers, and the sequence at `last`. -/
def longLived (last : Nat) : Db :=
  { Db.empty with
    accounts := [⟨1, firstNpub, firstAddr, .active⟩]
    whitelist := [⟨2, 1, firstNpub, firstAddr, .owner, true, false, none, 0⟩]
    wgPeers := sixtyFourPeers
    wgPeerAlloc := last
    nextId := 100 }

/-- The key that is asked for. -/
def newKey : String := "ABBBBBBBBBBBBBBBBBBBBBBBBBBBBBBBBBBBBBBBBBA="

theorem issuable_longLived (last : Nat) :
    smallStore.Issuable (longLived last) firstNpub firstNpub newKey firstAddr where
  validKey := by decide +kernel
  derived := by decide +kernel
  permitted := .inl rfl
  active := rfl
  underCap :=
    show ((sixtyFourPeers.filter fun p => decide (p.fipsAddr = firstAddr)).length : Int) <
      smallStore.maxWgPeers by decide +kernel
  freshKey := show ∀ p ∈ sixtyFourPeers, p.pubkey ≠ trimSpace newKey by decide +kernel

/-- Right after the 64 peers the next slot is free, and it is issued. -/
theorem pool_full_iff_first_round :
    smallStore.ReportsPool (longLived 64)
      (exec (smallStore.createWgPeer (calm 0) firstNpub firstNpub "laptop" newKey)
        (longLived 64)) := by
  refine (pool_full_iff (some ⟨0x0a400000#32, 24⟩) none smallStore (by decide) (calm 0)
    (longLived 64) (by decide) firstNpub firstNpub "laptop" newKey firstAddr rfl
    (issuable_longLived 64)).mpr (.inl ⟨0, by decide, by decide +kernel⟩)

/-- **Free slots reported as full.**  In 10.64.0.0/24, 64 peers have stayed since the first round
of the 253 slots and 189 have come and gone.  The cursor is back at the first slot, and the next
call finds the 64 slots it probes taken, while index 67 and all after it are free. -/
theorem free_slots_reported_full :
    (exec (smallStore.createWgPeer (calm 0) firstNpub firstNpub "laptop" newKey)
        (longLived 253)).1 = .error .wgPoolFull ∧
      (∀ idx : Nat, 67 ≤ idx ∧ idx ≤ 254 →
        smallStore.wgPools.HasIndex idx ∧ (longLived 253).idxTaken idx = false) ∧
      ¬ smallStore.ReportsPool (longLived 253)
        (exec (smallStore.createWgPeer (calm 0) firstNpub firstNpub "laptop" newKey)
          (longLived 253)) := by
  have probesTaken : ∀ k < 64,
      (longLived 253).idxTaken (smallStore.probed (longLived 253) k) = true := by
    decide +kernel
  have completes : (calm 0).fails 0 = false := rfl
  have returned : (exec (smallStore.createWgPeer (calm 0) firstNpub firstNpub "laptop" newKey)
      (longLived 253)).1 = .error .wgPoolFull := by
    rcases createWgPeer_of_issuable (issuable_longLived 253) completes "laptop" with
      ⟨-, returned⟩ | ⟨k, near, free, -⟩
    · exact returned
    · exact absurd (free.symm.trans (probesTaken k near)) Bool.false_ne_true
  have slots : smallStore.wgPools.slots = 253 := rfl
  have below : ∀ p ∈ sixtyFourPeers, p.idx < 67 := by decide +kernel
  have free : ∀ idx : Nat, 67 ≤ idx ∧ idx ≤ 254 →
      smallStore.wgPools.HasIndex idx ∧ (longLived 253).idxTaken idx = false := by
    intro idx range
    refine ⟨⟨by omega, by omega⟩, List.any_eq_false.mpr fun p member taken => ?_⟩
    have small := below p member
    have same := of_decide_eq_true taken
    omega
  refine ⟨returned, free, fun right => ?_⟩
  have taken := right.full_iff.mp returned 67 (free 67 (by decide)).1
  exact Bool.false_ne_true ((free 67 (by decide)).2.symm.trans taken)

end FipsExitGate
