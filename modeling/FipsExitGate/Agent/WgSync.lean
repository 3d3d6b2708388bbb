import FipsExitGate.Agent.WgInterface
import Mathlib.Data.Finset.Disjoint

/-!
# The agent mirrors the peer table

`applyWgPeers` of `wg.go` sets what differs between the interface and the backend's table with one
`wg set`; if that fails, with one `wg set` for each change.

A text that `wg` does not read, or a key that is none, makes a command fail; so can anything else,
which is the environment's choice.  Each command that succeeds is a change of ownership, and the
changes that `diffPeers` finds work toward the table, so that neither their order nor the failure
of some matters to the others.

## Main results

* `change_toward`, `settled_of_no_change` — changes lead to the table, and no change is missing
* `reconcile_reaches_table` — the batch, the fallback, and the etag
-/

namespace FipsExitGate.Agent

open Ownership LastWriter

/-! ## Commands -/

/-- A part of `wg set`: the peer `key`, and what is done to it. -/
inductive WgCommand where
  | allow (key text : Bytes)
  | remove (key : Bytes)
  deriving DecidableEq

/-- The peer a command is about. -/
def WgCommand.key : WgCommand → Bytes
  | .allow key _ => key
  | .remove key => key

section Commands

variable {Route : Type} [DecidableEq Route]

/-- How `wg` reads a list of prefixes. -/
def WgTexts.readAll (w : WgTexts Route) (text : Bytes) : Option (List Route) :=
  if text = [] then some [] else (splitByte 0x2c text).mapM w.read

/-- A command on the interface; `none` if `wg` cannot read it. -/
def WgDevice.exec (w : WgTexts Route) (d : WgDevice Route) : WgCommand → Option (WgDevice Route)
  | .allow key text => if plain : Plain key then (w.readAll text).map (d.allow key plain) else none
  | .remove key => some (d.remove key)

/-- The arguments that `SetPeers` gives to `wg set`. -/
def wgArgs (add : List WgPeerConf) (del : List Bytes) : List WgCommand :=
  (add.map fun p => .allow p.pubkey p.joined) ++ del.map .remove

/-- `SetPeers`: all of the arguments or nothing.  `accepts` says whether the command succeeds
where nothing in its text keeps it from it. -/
def setPeers (w : WgTexts Route) (accepts : Bool) (d : WgDevice Route) (add : List WgPeerConf)
    (del : List Bytes) : Option (WgDevice Route) :=
  if add.length = 0 ∧ del.length = 0 then some d
  else if accepts then (wgArgs add del).foldlM (fun d c => d.exec w c) d
  else none

/-- What may go wrong while a table is applied. -/
structure WgEnv where
  /-- `wg show` works. -/
  shows : Bool
  /-- The batch is accepted, if it can be read. -/
  batch : Bool
  /-- So is the command for a single change. -/
  each : WgCommand → Bool

/-- What the agent keeps about the peers, and the interface. -/
structure WgAgent (Route : Type) where
  device : WgDevice Route
  wgEtag : Bytes
  /-- The metrics `wgErr` and `setWgPeers`. -/
  wgErrors : Nat
  wgPeers : Nat

/-- A change on its own, with the count of those that failed. -/
def retryOne (w : WgTexts Route) (env : WgEnv) (st : WgDevice Route × Nat) (c : WgCommand)
    (add : List WgPeerConf) (del : List Bytes) : WgDevice Route × Nat :=
  match setPeers w (env.each c) st.1 add del with
  | some d => (d, st.2)
  | none => (st.1, st.2 + 1)

/-- The two loops of the fallback. -/
def retryEach (w : WgTexts Route) (env : WgEnv) (d : WgDevice Route) (add : List WgPeerConf)
    (del : List Bytes) : WgDevice Route × Nat :=
  let added := add.foldl (fun st p => retryOne w env st (.allow p.pubkey p.joined) [p] []) (d, 0)
  del.foldl (fun st k => retryOne w env st (.remove k) [] [k]) added

/-- `applyWgPeers`; `false` is the error. -/
def applyWgPeers (w : WgTexts Route) (o : WgShow) (env : WgEnv) (resp : WgPeersResponse)
    (a : WgAgent Route) : Bool × WgAgent Route :=
  if !env.shows then (false, a)
  else
    let current := parseWgDump (o.dump w a.device)
    let desired := desiredPeers resp
    let (add, del) := diffPeers current desired
    match setPeers w env.batch a.device add del with
    | some d => (true, ⟨d, resp.etag, a.wgErrors, desired.keys.length⟩)
    | none =>
        let (d, failed) := retryEach w env a.device add del
        -- nothing applied at all: a real failure
        if failed = add.length + del.length then (false, { a with device := d })
        else (true, ⟨d, resp.etag, a.wgErrors + failed, desired.keys.length⟩)

/-- A table that is applied leaves its etag. -/
theorem wgEtag_applyWgPeers {w : WgTexts Route} {o : WgShow} {env : WgEnv}
    {resp : WgPeersResponse} {a a' : WgAgent Route}
    (applied : applyWgPeers w o env resp a = (true, a')) : a'.wgEtag = resp.etag := by
  rw [applyWgPeers] at applied
  split at applied
  · exact absurd (congrArg Prod.fst applied) Bool.false_ne_true
  dsimp only at applied
  split at applied
  · exact (congrArg (fun out => out.2.wgEtag) applied).symm
  · split at applied
    · exact absurd (congrArg Prod.fst applied) Bool.false_ne_true
    · exact (congrArg (fun out => out.2.wgEtag) applied).symm

/-- What a command means; `none` if it cannot be read. -/
def WgTexts.change (w : WgTexts Route) : WgCommand → Option (Change Bytes Route)
  | .allow key text =>
      if Plain key then (w.readAll text).map fun routes => .assign key routes.toFinset else none
  | .remove key => some (.remove key)

variable {w : WgTexts Route} {env : WgEnv} {d d' : WgDevice Route}

/-- **A command is the change it means**, or fails if it means none. -/
theorem exec_cases (w : WgTexts Route) (d : WgDevice Route) (c : WgCommand) :
    (w.change c = none ∧ d.exec w c = none) ∨
      ∃ change d', w.change c = some change ∧ change.owner = c.key ∧ d.exec w c = some d' ∧
        d'.holdings = change.apply d.holdings := by
  cases c with
  | remove key => exact .inr ⟨_, _, rfl, rfl, rfl, holdings_remove d key⟩
  | allow key text =>
      by_cases plain : Plain key
      · cases isRead : w.readAll text with
        | none => exact .inl (by simp [WgTexts.change, WgDevice.exec, plain, isRead])
        | some routes =>
            refine .inr ⟨.assign key routes.toFinset, d.allow key plain routes, ?_, rfl, ?_,
              holdings_allow d key plain routes⟩
            · simp [WgTexts.change, plain, isRead]
            · simp [WgDevice.exec, plain, isRead]
      · exact .inl (by simp [WgTexts.change, WgDevice.exec, plain])

/-- A batch that is read is its changes, one after the other. -/
theorem foldlM_exec {cs : List WgCommand} (ran : cs.foldlM (fun d c => d.exec w c) d = some d') :
    (∀ c ∈ cs, w.change c ≠ none) ∧ d'.holdings = applyAll d.holdings (cs.filterMap w.change) := by
  induction cs generalizing d with
  | nil =>
      cases ran
      exact ⟨by simp, rfl⟩
  | cons c cs ih =>
      rw [List.foldlM_cons, Option.bind_eq_bind, Option.bind_eq_some_iff] at ran
      obtain ⟨d₁, first, rest⟩ := ran
      rcases exec_cases w d c with ⟨-, fails⟩ | ⟨change, d₂, means, -, runs, effect⟩
      · rw [fails] at first
        cases first
      · cases runs.symm.trans first
        obtain ⟨readable, reached⟩ := ih rest
        refine ⟨fun c' member => ?_, ?_⟩
        · rcases List.mem_cons.mp member with rfl | later
          · simp [means]
          · exact readable c' later
        · rw [reached, effect, List.filterMap_cons_some means]
          rfl

/-- A change that succeeds on its own, and what it means. -/
def WgEnv.effect (env : WgEnv) (w : WgTexts Route) (c : WgCommand) : Option (Change Bytes Route) :=
  if env.each c then w.change c else none

theorem setPeers_allow (w : WgTexts Route) (accepts : Bool) (d : WgDevice Route) (p : WgPeerConf) :
    setPeers w accepts d [p] [] =
      if accepts then d.exec w (.allow p.pubkey p.joined) else none := by
  cases accepts <;> simp [setPeers, wgArgs]

theorem setPeers_remove (w : WgTexts Route) (accepts : Bool) (d : WgDevice Route) (k : Bytes) :
    setPeers w accepts d [] [k] = if accepts then d.exec w (.remove k) else none := by
  cases accepts <;> simp [setPeers, wgArgs]

/-- A change on its own, as a command. -/
def attempt (w : WgTexts Route) (env : WgEnv) (st : WgDevice Route × Nat) (c : WgCommand) :
    WgDevice Route × Nat :=
  match if env.each c then st.1.exec w c else none with
  | some d => (d, st.2)
  | none => (st.1, st.2 + 1)

/-- The two loops are one over the arguments of the batch. -/
theorem retryEach_eq (w : WgTexts Route) (env : WgEnv) (d : WgDevice Route) (add : List WgPeerConf)
    (del : List Bytes) :
    retryEach w env d add del = (wgArgs add del).foldl (attempt w env) (d, 0) := by
  rw [retryEach, wgArgs, List.foldl_append, List.foldl_map, List.foldl_map]
  simp only [retryOne, setPeers_allow, setPeers_remove]
  rfl

/-- **The fallback**: the changes that succeed, one after the other, and the number of those that
do not. -/
theorem foldl_attempt (w : WgTexts Route) (env : WgEnv) (cs : List WgCommand)
    (st : WgDevice Route × Nat) :
    (cs.foldl (attempt w env) st).1.holdings =
        applyAll st.1.holdings (cs.filterMap (env.effect w)) ∧
      (cs.foldl (attempt w env) st).2 + (cs.filterMap (env.effect w)).length =
        st.2 + cs.length := by
  induction cs generalizing st with
  | nil => exact ⟨rfl, rfl⟩
  | cons c cs ih =>
      rw [List.foldl_cons]
      obtain ⟨reached, counted⟩ := ih (attempt w env st c)
      have failing (isNone : env.effect w c = none) (same : attempt w env st c = (st.1, st.2 + 1)) :
          ((cs.foldl (attempt w env) (attempt w env st c)).1.holdings =
            applyAll st.1.holdings ((c :: cs).filterMap (env.effect w))) ∧
          (cs.foldl (attempt w env) (attempt w env st c)).2 +
            ((c :: cs).filterMap (env.effect w)).length = st.2 + (c :: cs).length := by
        rw [List.filterMap_cons_none isNone, List.length_cons]
        rw [same] at reached counted ⊢
        exact ⟨reached, by omega⟩
      by_cases accepted : env.each c = true
      · rcases exec_cases w st.1 c with ⟨noChange, fails⟩ | ⟨change, d', means, -, runs, effect⟩
        · exact failing (by simp [WgEnv.effect, accepted, noChange])
            (by simp [attempt, accepted, fails])
        · have isSome : env.effect w c = some change := by simp [WgEnv.effect, accepted, means]
          have same : attempt w env st c = (d', st.2) := by simp [attempt, accepted, runs]
          rw [List.filterMap_cons_some isSome, List.length_cons, List.length_cons]
          rw [same] at reached counted ⊢
          refine ⟨?_, by omega⟩
          rw [reached, effect]
          rfl
      · exact failing (by simp [WgEnv.effect, accepted]) (by simp [attempt, accepted])

end Commands

/-! ## Toward the table -/

section Table

variable {Route : Type} [DecidableEq Route]

/-- The prefixes of a row, as `wg` reads them; none if it does not. -/
def WgPeerInfo.routes (w : WgTexts Route) (p : WgPeerInfo) : List Route :=
  (w.readAll p.conf.joined).getD []

/-- **Distinct keys and disjoint addresses.** -/
structure WgPeersResponse.Proper (w : WgTexts Route) (resp : WgPeersResponse) : Prop where
  distinct : (resp.peers.map WgPeerInfo.pubkey).Nodup
  disjoint : ∀ p ∈ resp.peers, ∀ q ∈ resp.peers, p.pubkey ≠ q.pubkey →
    ∀ r ∈ p.routes w, r ∉ q.routes w

/-- The table as ownership: what `desiredPeers` has for each key, read by `wg`. -/
def desiredHoldings (w : WgTexts Route) (resp : WgPeersResponse) : Holdings Bytes Route := fun k =>
  ((desiredPeers resp).lookup k).bind fun want => (w.readAll want.joined).map List.toFinset

/-- The changes `applyWgPeers` finds. -/
def WgAgent.changes (a : WgAgent Route) (w : WgTexts Route) (o : WgShow) (resp : WgPeersResponse) :
    List WgCommand :=
  let diff := diffPeers (parseWgDump (o.dump w a.device)) (desiredPeers resp)
  wgArgs diff.1 diff.2

variable {w : WgTexts Route} {o : WgShow} {env : WgEnv} {resp : WgPeersResponse} {a : WgAgent Route}

theorem disjointTarget_desired (proper : resp.Proper w) :
    DisjointTarget (desiredHoldings w resp) := by
  intro j k goods goods' other isJ isK
  simp only [desiredHoldings, Option.bind_eq_some_iff, Option.map_eq_some_iff,
    lookup_desiredPeers proper.distinct] at isJ isK
  obtain ⟨_, ⟨p, rowP, rfl, rfl⟩, routes, readP, rfl⟩ := isJ
  obtain ⟨_, ⟨q, rowQ, rfl, rfl⟩, routes', readQ, rfl⟩ := isK
  rw [Finset.disjoint_left]
  intro r inP inQ
  refine proper.disjoint p rowP q rowQ other r ?_ ?_
  · simpa [WgPeerInfo.routes, readP] using inP
  · simpa [WgPeerInfo.routes, readQ] using inQ

/-- **Each change works toward the table.** -/
theorem change_toward (proper : resp.Proper w) {c : WgCommand} (member : c ∈ a.changes w o resp)
    {change : Change Bytes Route} (means : w.change c = some change) :
    change.owner = c.key ∧ change.outcome = desiredHoldings w resp change.owner := by
  simp only [WgAgent.changes, wgArgs, List.mem_append, List.mem_map, mem_add_diffPeers,
    mem_del_diffPeers] at member
  rcases member with ⟨want, ⟨k, listed, -⟩, rfl⟩ | ⟨k, ⟨-, absent⟩, rfl⟩
  · obtain ⟨p, -, isKey, isConf⟩ := (lookup_desiredPeers proper.distinct).mp listed
    have isKey : want.pubkey = k := isConf ▸ isKey
    simp only [WgTexts.change, Option.ite_none_right_eq_some, Option.map_eq_some_iff] at means
    obtain ⟨-, routes, isRead, rfl⟩ := means
    refine ⟨rfl, ?_⟩
    show _ = desiredHoldings w resp want.pubkey
    rw [desiredHoldings, isKey, listed, Option.bind_some, isRead]
    rfl
  · cases means
    refine ⟨rfl, ?_⟩
    show _ = desiredHoldings w resp k
    rw [desiredHoldings, AList.lookup_eq_none.mpr absent]
    rfl

omit [DecidableEq Route] in
/-- What is printed and sorted is read back. -/
theorem readAll_joined_conf (w : WgTexts Route) (k : Bytes) (routes : List Route) :
    ∃ routes', w.readAll (w.conf k routes).joined = some routes' ∧
      ∀ r, r ∈ routes' ↔ r ∈ routes := by
  have printed : ∀ s, s ∈ (w.conf k routes).allowedIPs ↔ ∃ r ∈ routes, w.print r = s := by
    simp [WgTexts.conf, sortStrings, List.mem_insertionSort]
  have reads : (w.conf k routes).allowedIPs.mapM w.read =
      some ((w.conf k routes).allowedIPs.filterMap w.read) := by
    have each : ∀ ss : List Bytes, (∀ s ∈ ss, ∃ r, w.read s = some r) →
        ss.mapM w.read = some (ss.filterMap w.read) := by
      intro ss readable
      induction ss with
      | nil => rfl
      | cons s ss ih =>
          obtain ⟨r, isRead⟩ := readable s List.mem_cons_self
          rw [List.mapM_cons, isRead,
            ih fun s' member => readable s' (List.mem_cons_of_mem s member),
            List.filterMap_cons_some isRead]
          rfl
    refine each _ fun s member => ?_
    obtain ⟨r, -, rfl⟩ := (printed s).mp member
    exact ⟨r, w.read_print r⟩
  refine ⟨(w.conf k routes).allowedIPs.filterMap w.read, ?_, fun r => ?_⟩
  · by_cases isNil : (w.conf k routes).allowedIPs = []
    · simp [WgTexts.readAll, WgPeerConf.joined, isNil, joinByte]
    · obtain ⟨s, rest, isCons⟩ := List.exists_cons_of_ne_nil isNil
      obtain ⟨r, -, isPrint⟩ := (printed s).mp (by rw [isCons]; exact List.mem_cons_self)
      have nonempty : (w.conf k routes).joined ≠ [] := by
        refine List.ne_nil_of_mem (a := 0x2f) ?_
        refine mem_joinByte (s := s) (by rw [isCons]; exact List.mem_cons_self) ?_
        exact isPrint ▸ w.slash r
      rw [WgTexts.readAll, if_neg nonempty, WgPeerConf.joined, splitByte_joinByte isNil, reads]
      intro s' member
      obtain ⟨r', -, rfl⟩ := (printed s').mp member
      exact w.noComma r'
  · simp only [List.mem_filterMap, printed]
    constructor
    · rintro ⟨s, ⟨r', member, rfl⟩, isRead⟩
      rw [w.read_print] at isRead
      cases isRead
      exact member
    · intro member
      exact ⟨w.print r, ⟨r, member, rfl⟩, w.read_print r⟩

/-- **Peers without a change are as the table has them.** -/
theorem settled_of_no_change {k : Bytes} (proper : resp.Proper w)
    (unchanged : ∀ c ∈ a.changes w o resp, c.key ≠ k) :
    a.device.holdings k = desiredHoldings w resp k := by
  have noAdd : ∀ want ∈ (diffPeers (parseWgDump (o.dump w a.device)) (desiredPeers resp)).1,
      want.pubkey ≠ k := fun want member =>
    unchanged (.allow want.pubkey want.joined)
      (List.mem_append_left _ (List.mem_map.mpr ⟨want, member, rfl⟩))
  have noDel : k ∉ (diffPeers (parseWgDump (o.dump w a.device)) (desiredPeers resp)).2 :=
    fun member => unchanged (.remove k)
      (List.mem_append_right _ (List.mem_map.mpr ⟨k, member, rfl⟩)) rfl
  rw [WgDevice.holdings, desiredHoldings]
  cases listed : (desiredPeers resp).lookup k with
  | none =>
      -- not in the table, and not removed: it was not there
      have absent : k ∉ parseWgDump (o.dump w a.device) := fun present =>
        noDel (mem_del_diffPeers.mpr ⟨present, AList.lookup_eq_none.mp listed⟩)
      have missing := AList.lookup_eq_none.mpr absent
      rw [lookup_parseWgDump, Option.map_eq_none_iff] at missing
      rw [missing]
      rfl
  | some want =>
      obtain ⟨p, -, isKey, isConf⟩ := (lookup_desiredPeers proper.distinct).mp listed
      have isKey : want.pubkey = k := isConf ▸ isKey
      -- in the table, and not set: its text is the one in the dump
      have same : ∃ conf, (parseWgDump (o.dump w a.device)).lookup k = some conf ∧
          conf.joined = want.joined := by
        by_contra differs
        simp only [not_exists, not_and] at differs
        exact noAdd want (mem_add_diffPeers.mpr ⟨k, listed, differs⟩) isKey
      obtain ⟨conf, present, same⟩ := same
      rw [lookup_parseWgDump, Option.map_eq_some_iff] at present
      obtain ⟨routes, isPeer, rfl⟩ := present
      obtain ⟨routes', isRead, sameRoutes⟩ := readAll_joined_conf w k routes
      rw [isPeer, Option.bind_some, ← same, isRead, Option.map_some, Option.map_some]
      congr 1
      ext r
      simp [sameRoutes]

/-- The batch, for the changes `applyWgPeers` finds. -/
def WgAgent.batched (a : WgAgent Route) (w : WgTexts Route) (o : WgShow) (env : WgEnv)
    (resp : WgPeersResponse) : Option (WgDevice Route) :=
  let diff := diffPeers (parseWgDump (o.dump w a.device)) (desiredPeers resp)
  setPeers w env.batch a.device diff.1 diff.2

/-- A change is applied: with the batch, or on its own. -/
def WgAgent.Applied (a : WgAgent Route) (w : WgTexts Route) (o : WgShow) (env : WgEnv)
    (resp : WgPeersResponse) (c : WgCommand) : Prop :=
  a.batched w o env resp ≠ none ∨ env.effect w c ≠ none

theorem holdings_ne_none_iff {d : WgDevice Route} {k : Bytes} :
    d.holdings k ≠ none ↔ k ∈ d.peers := by
  rw [WgDevice.holdings, ne_eq, Option.map_eq_none_iff, AList.lookup_eq_none, not_not]

/-- A batch that succeeds has set every change. -/
theorem batched_eq_some {d : WgDevice Route} (succeeds : a.batched w o env resp = some d) :
    (∀ c ∈ a.changes w o resp, w.change c ≠ none) ∧
      d.holdings = applyAll a.device.holdings ((a.changes w o resp).filterMap w.change) := by
  simp only [WgAgent.batched, setPeers] at succeeds
  split at succeeds
  · next nothing =>
      cases succeeds
      have empty : a.changes w o resp = [] := by
        simp [WgAgent.changes, wgArgs, List.length_eq_zero_iff.mp nothing.1,
          List.length_eq_zero_iff.mp nothing.2]
      rw [empty]
      exact ⟨by simp, rfl⟩
  · split at succeeds
    · exact foldlM_exec succeeds
    · cases succeeds

/-- The changes that are carried out work toward the table. -/
theorem toward_filterMap (proper : resp.Proper w) {f : WgCommand → Option (Change Bytes Route)}
    (means : ∀ c change, f c = some change → w.change c = some change) :
    Toward (desiredHoldings w resp) ((a.changes w o resp).filterMap f) := by
  intro change member
  obtain ⟨c, isChange, isEffect⟩ := List.mem_filterMap.mp member
  exact (change_toward proper isChange (means c change isEffect)).2

/-- **What the changes carried out come to**: a peer each of whose changes was carried out is as
the table has it, and one with a change that was not has lost what others were given. -/
theorem applyAll_filterMap (proper : resp.Proper w) {f : WgCommand → Option (Change Bytes Route)}
    (means : ∀ c change, f c = some change → w.change c = some change) (k : Bytes) :
    (∀ c ∈ a.changes w o resp, c.key = k → f c ≠ none) →
      applyAll a.device.holdings ((a.changes w o resp).filterMap f) k =
        desiredHoldings w resp k := by
  intro carriedOut
  have disjoint := disjointTarget_desired proper
  have toward := toward_filterMap (a := a) (o := o) proper means
  by_cases touched : ∃ c ∈ a.changes w o resp, c.key = k
  · obtain ⟨c, isChange, isKey⟩ := touched
    obtain ⟨change, isEffect⟩ := Option.ne_none_iff_exists'.mp (carriedOut c isChange isKey)
    have isOwner := (change_toward proper isChange (means c change isEffect)).1
    rw [← isKey, ← isOwner]
    exact applyAll_of_touched disjoint toward (List.mem_filterMap.mpr ⟨c, isChange, isEffect⟩)
  · simp only [not_exists, not_and] at touched
    exact applyAll_of_settled disjoint toward (settled_of_no_change proper touched)

omit [DecidableEq Route] in
/-- A peer has one change. -/
theorem change_unique (proper : resp.Proper w) {c c' : WgCommand}
    (member : c ∈ a.changes w o resp) (member' : c' ∈ a.changes w o resp) (same : c.key = c'.key) :
    c = c' := by
  have listedAt {want : WgPeerConf} {k : Bytes}
      (listed : (desiredPeers resp).lookup k = some want) :
      (desiredPeers resp).lookup want.pubkey = some want := by
    obtain ⟨p, -, isKey, isConf⟩ := (lookup_desiredPeers proper.distinct).mp listed
    have isKey : want.pubkey = k := isConf ▸ isKey
    rwa [isKey]
  simp only [WgAgent.changes, wgArgs, List.mem_append, List.mem_map, mem_add_diffPeers,
    mem_del_diffPeers] at member member'
  rcases member with ⟨want, ⟨k, listed, -⟩, rfl⟩ | ⟨k, ⟨-, absent⟩, rfl⟩
  · rcases member' with ⟨want', ⟨k', listed', -⟩, rfl⟩ | ⟨k', ⟨-, absent'⟩, rfl⟩
    · have same : want.pubkey = want'.pubkey := same
      have both := listedAt listed
      rw [same, listedAt listed'] at both
      cases both
      rfl
    · have same : want.pubkey = k' := same
      have present := listedAt listed
      rw [same, AList.lookup_eq_none.mpr absent'] at present
      cases present
  · rcases member' with ⟨want', ⟨k', listed', -⟩, rfl⟩ | ⟨k', ⟨-, absent'⟩, rfl⟩
    · have same : k = want'.pubkey := same
      have present := listedAt listed'
      rw [← same, AList.lookup_eq_none.mpr absent] at present
      cases present
    · exact congrArg WgCommand.remove same

/-- The fallback counts as failed all changes exactly if none is carried out. -/
theorem retryEach_failed (w : WgTexts Route) (env : WgEnv) (d : WgDevice Route)
    (add : List WgPeerConf) (del : List Bytes) :
    (retryEach w env d add del).2 = add.length + del.length ↔
      ∀ c ∈ wgArgs add del, env.effect w c = none := by
  have counted := (foldl_attempt w env (wgArgs add del) (d, 0)).2
  have size : (wgArgs add del).length = add.length + del.length := by simp [wgArgs]
  rw [← retryEach_eq, size] at counted
  rw [← List.filterMap_eq_nil_iff, ← List.length_eq_zero_iff]
  omega

/-- Where every change is read, the table gives prefixes to all its keys. -/
theorem desiredHoldings_ne_none_iff {k : Bytes} (proper : resp.Proper w)
    (readable : ∀ c ∈ a.changes w o resp, w.change c ≠ none) :
    desiredHoldings w resp k ≠ none ↔ k ∈ desiredPeers resp := by
  constructor
  · intro isSome
    by_contra absent
    exact isSome (by rw [desiredHoldings, AList.lookup_eq_none.mpr absent]; rfl)
  · intro listed isNone
    obtain ⟨want, isWant⟩ := Option.isSome_iff_exists.mp (AList.lookup_isSome.mpr listed)
    -- a key without a change is a peer already, with the prefixes of the table
    obtain ⟨c, member, isKey⟩ : ∃ c ∈ a.changes w o resp, c.key = k := by
      by_contra unchanged
      simp only [not_exists, not_and] at unchanged
      have settled := settled_of_no_change proper unchanged
      rw [isNone, WgDevice.holdings, Option.map_eq_none_iff] at settled
      have isAdd : want ∈ (diffPeers (parseWgDump (o.dump w a.device)) (desiredPeers resp)).1 :=
        mem_add_diffPeers.mpr ⟨k, isWant, by simp [lookup_parseWgDump, settled]⟩
      obtain ⟨p, -, isKey, isConf⟩ := (lookup_desiredPeers proper.distinct).mp isWant
      exact unchanged (.allow want.pubkey want.joined)
        (List.mem_append_left _ (List.mem_map.mpr ⟨want, isAdd, rfl⟩)) (isConf ▸ isKey)
    obtain ⟨change, means⟩ := Option.ne_none_iff_exists'.mp (readable c member)
    obtain ⟨isOwner, aims⟩ := change_toward proper member means
    rw [isOwner, isKey, isNone] at aims
    cases c with
    | allow key text =>
        simp only [WgTexts.change, Option.ite_none_right_eq_some, Option.map_eq_some_iff] at means
        obtain ⟨-, routes, -, rfl⟩ := means
        cases aims
    | remove key =>
        simp only [WgAgent.changes, wgArgs, List.mem_append, List.mem_map,
          mem_del_diffPeers] at member
        rcases member with ⟨_, _, isAllow⟩ | ⟨k', ⟨-, absent⟩, isRemove⟩
        · cases isAllow
        · cases isRemove
          cases isKey
          exact absent listed

/-- **What it means that the interface is reconciled with the table**, in the state `out` that
`applyWgPeers` leaves. -/
structure WgAgent.Reconciled (a : WgAgent Route) (w : WgTexts Route) (o : WgShow) (env : WgEnv)
    (resp : WgPeersResponse) (out : WgAgent Route) : Prop where
  /-- If the batch succeeds, the peers and their prefixes are those of the table. -/
  batch : a.batched w o env resp ≠ none →
    ∀ k, out.device.holdings k = desiredHoldings w resp k ∧
      (k ∈ out.device.peers ↔ k ∈ desiredPeers resp)
  /-- If it does not, every peer whose change succeeds, or that needs none, is as desired. -/
  fallback : a.batched w o env resp = none →
    ∀ k, (∀ c ∈ a.changes w o resp, c.key = k → env.effect w c ≠ none) →
      out.device.holdings k = desiredHoldings w resp k
  /-- A peer whose change fails keeps what it had, but for what other rows are given. -/
  failures : a.batched w o env resp = none →
    ∀ c ∈ a.changes w o resp, env.effect w c = none →
      out.device.holdings c.key = (a.device.holdings c.key).map fun goods => goods.filter fun r =>
        ∀ change ∈ (a.changes w o resp).filterMap (env.effect w), r ∉ change.taken
  /-- The etag advances if a change was applied or none was needed. -/
  advances : (∃ c ∈ a.changes w o resp, a.Applied w o env resp c) ∨ a.changes w o resp = [] →
    out.wgEtag = resp.etag
  /-- And not otherwise. -/
  stays : ¬ ((∃ c ∈ a.changes w o resp, a.Applied w o env resp c) ∨ a.changes w o resp = []) →
    out.wgEtag = a.wgEtag

/-- A batch that succeeds. -/
theorem reconciled_of_batch {d : WgDevice Route} (proper : resp.Proper w)
    (batched : a.batched w o env resp = some d) (errors peers : Nat) :
    a.Reconciled w o env resp ⟨d, resp.etag, errors, peers⟩ := by
  obtain ⟨readable, reached⟩ := batched_eq_some batched
  have asTable : ∀ k, d.holdings k = desiredHoldings w resp k := fun k => by
    rw [reached]
    exact applyAll_filterMap proper (fun _ _ means => means) k fun c member _ => readable c member
  have isSome : a.batched w o env resp ≠ none := by simp [batched]
  exact {
    batch := fun _ k => ⟨asTable k, by
      rw [← holdings_ne_none_iff, asTable, desiredHoldings_ne_none_iff proper readable]⟩
    fallback := fun isNone => absurd isNone isSome
    failures := fun isNone => absurd isNone isSome
    advances := fun _ => rfl
    stays := fun noChange => by
      simp only [not_or, not_exists, not_and] at noChange
      obtain ⟨c, rest, isCons⟩ := List.exists_cons_of_ne_nil noChange.2
      exact absurd (.inl isSome) (noChange.1 c (by rw [isCons]; exact List.mem_cons_self)) }

/-- The fallback, after a batch that failed. -/
theorem reconciled_of_fallback {out : WgAgent Route} (proper : resp.Proper w)
    (batched : a.batched w o env resp = none)
    (reached : out.device.holdings =
      applyAll a.device.holdings ((a.changes w o resp).filterMap (env.effect w)))
    (etag : out.wgEtag = if ∀ c ∈ a.changes w o resp, env.effect w c = none then a.wgEtag
      else resp.etag) :
    a.Reconciled w o env resp out := by
  have readable : ∀ c change, env.effect w c = some change → w.change c = some change := by
    intro c change isEffect
    simp only [WgEnv.effect, Option.ite_none_right_eq_some] at isEffect
    exact isEffect.2
  -- without a change the batch would have succeeded
  have needed : a.changes w o resp ≠ [] := by
    intro isNil
    simp only [WgAgent.changes, wgArgs, List.append_eq_nil_iff, List.map_eq_nil_iff] at isNil
    simp [WgAgent.batched, setPeers, isNil.1, isNil.2] at batched
  have applied : (∃ c ∈ a.changes w o resp, a.Applied w o env resp c) ↔
      ¬ ∀ c ∈ a.changes w o resp, env.effect w c = none := by
    simp [WgAgent.Applied, batched]
  exact {
    batch := fun isSome => absurd batched isSome
    fallback := fun _ k carriedOut => by
      rw [reached]
      exact applyAll_filterMap proper readable k carriedOut
    failures := fun _ c member fails => by
      rw [reached]
      refine applyAll_of_untouched fun change isEffect isOwner => ?_
      obtain ⟨c', member', means⟩ := List.mem_filterMap.mp isEffect
      have owner := (change_toward proper member' (readable c' change means)).1
      obtain rfl := change_unique proper member' member (owner.symm.trans isOwner)
      rw [fails] at means
      cases means
    advances := fun anyChange => by
      rw [etag, if_neg (applied.mp (anyChange.resolve_right needed))]
    stays := fun noChange => by
      rw [etag, if_pos]
      by_contra some
      exact noChange (.inl (applied.mpr some)) }

/-- **Reconciliation reaches the table.**  For every interface, every table with distinct keys and
disjoint addresses, and whatever fails once the interface has been read. -/
theorem reconcile_reaches_table (w : WgTexts Route) (o : WgShow) (env : WgEnv)
    (resp : WgPeersResponse) (a : WgAgent Route) (shows : env.shows = true)
    (proper : resp.Proper w) :
    a.Reconciled w o env resp (applyWgPeers w o env resp a).2 := by
  have opens : applyWgPeers w o env resp a =
      match a.batched w o env resp with
      | some d => (true, ⟨d, resp.etag, a.wgErrors, (desiredPeers resp).keys.length⟩)
      | none =>
          let diff := diffPeers (parseWgDump (o.dump w a.device)) (desiredPeers resp)
          let tried := retryEach w env a.device diff.1 diff.2
          if tried.2 = diff.1.length + diff.2.length then (false, { a with device := tried.1 })
          else
            (true, ⟨tried.1, resp.etag, a.wgErrors + tried.2, (desiredPeers resp).keys.length⟩) := by
    rw [applyWgPeers, shows]
    rfl
  rw [opens]
  cases batched : a.batched w o env resp with
  | some d => exact reconciled_of_batch proper batched _ _
  | none =>
      dsimp only
      have reached := (foldl_attempt w env (a.changes w o resp) (a.device, 0)).1
      rw [WgAgent.changes, ← retryEach_eq] at reached
      by_cases allFailed : ∀ c ∈ a.changes w o resp, env.effect w c = none
      · rw [if_pos ((retryEach_failed w env a.device _ _).mpr allFailed)]
        exact reconciled_of_fallback proper batched reached (if_pos allFailed).symm
      · rw [if_neg fun failed => allFailed ((retryEach_failed w env a.device _ _).mp failed)]
        exact reconciled_of_fallback proper batched reached (if_neg allFailed).symm

end Table

/-- Two prefixes, 10.64.0.5/32 and 10.64.0.6/32. -/
def twoTexts : WgTexts Bool where
  print r := utf8 (if r then "10.64.0.5/32" else "10.64.0.6/32")
  read s := if s = utf8 "10.64.0.5/32" then some true
    else if s = utf8 "10.64.0.6/32" then some false else none
  read_print := by decide +kernel
  plain := by decide +kernel
  noComma := by decide +kernel
  slash := by decide +kernel

/-- A dump without anything remarkable. -/
def plainShow : WgShow where
  header := utf8 "(none)\tNODEPUB=\t51820\toff"
  presharedKey _ := utf8 "(none)"
  endpoint _ := utf8 "(none)"
  rest _ := utf8 "0\t0\t0\toff"
  header_ne := by decide +kernel
  plainHeader := by decide +kernel
  plainPresharedKey _ := by decide +kernel
  plainEndpoint _ := by decide +kernel
  plainRest _ := by decide +kernel

/-- Two peers with a prefix each. -/
def twoPeers : WgAgent Bool where
  device :=
    ⟨(AList.singleton (utf8 "AAAA") [true]).insert (utf8 "BBBB") [false], by decide +kernel⟩
  wgEtag := utf8 "e1"
  wgErrors := 0
  wgPeers := 2

/-- The table has the prefixes of the two swapped. -/
def swappedTable : WgPeersResponse where
  etag := utf8 "e2"
  peers := [⟨utf8 "AAAA", utf8 "10.64.0.6/32", []⟩, ⟨utf8 "BBBB", utf8 "10.64.0.5/32", []⟩]

/-- A swap in one batch: the first peer takes the prefix of the second, and the other way round. -/
theorem reconcile_reaches_table_swapped :
    (applyWgPeers twoTexts plainShow ⟨true, true, fun _ => true⟩ swappedTable
      twoPeers).2.device.holdings (utf8 "AAAA") = some {false} := by
  have proper : swappedTable.Proper twoTexts := ⟨by decide +kernel, by decide +kernel⟩
  have reached := reconcile_reaches_table twoTexts plainShow ⟨true, true, fun _ => true⟩
    swappedTable twoPeers rfl proper
  have succeeds : twoPeers.batched twoTexts plainShow ⟨true, true, fun _ => true⟩ swappedTable ≠
      none := by
    rw [← Option.isSome_iff_ne_none]
    decide +kernel
  exact (reached.batch succeeds (utf8 "AAAA")).1.trans (by decide +kernel)

end FipsExitGate.Agent
