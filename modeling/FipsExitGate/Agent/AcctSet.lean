import FipsExitGate.Agent.Revocation
import FipsExitGate.Agent.SyncLoop

/-!
# What is in the accounting set

The set `acct` has a fixed size and no timeout.  An element is made by the first packet of an
authorized address to a service, and only `gcAcct` takes elements out.  It is called for the
addresses that the answer to a usage report names.  An address that leaves the authorized set
through the sync loop (by a delta, by a full reconcile, or because the node fails closed) keeps
its elements, whatever is collected later, and the set fills up with former customers.

## The argument

The machine is that of `Agent.Revocation`, and `Census` records two things next to it: the
addresses that were ever authorized, and those that were revoked since the last completed
collection.  What is kept is that an element of a former customer is one that the revocation
under way is still going to delete (`Revoking.Covers`).  A collection does not run during a
revocation, so at its end there is no such element.

The sync loop keeps this if it takes out no address that has an element outside the revocation
under way: that is `LeavesNoElement`.

## Main results

* `sync_of_applyAuthz`, `sync_of_graceCheck` — the sync loop's paths are batches
* `tidy_step` — the invariant
* `acct_of_live_customers` — an element belongs to an authorized address, or to one that was
  revoked since the last collection
* `revoked_element_stays` — a delta, a collection, and the element is still there
-/

namespace FipsExitGate.Agent

open Machine Program

/-! ## The paths of the sync loop -/

/-- A response that is applied is a batch of the sync loop. -/
theorem sync_of_applyAuthz {cfg : GuardConfig} {nft : Nft} {resp : AuthzResponse} {rev : Int}
    {g : Gate} {st : AuthzState} (bufferCap : Nat)
    (applied : exec (applyAuthz cfg nft resp) ⟨g.authorized, rev⟩ = (.ok (), st)) :
    ∃ add del, IsBatch cfg resp ⟨g.authorized, rev⟩ add del ∧
      gateStep bufferCap g (.sync add del) = some { g with authorized := st.kernel } := by
  rcases applyAuthz_cases cfg nft resp ⟨g.authorized, rev⟩ with
    ⟨e, run, -⟩ | ⟨add, del, isBatch, run⟩
  · rw [run] at applied
    cases applied
  · rw [run] at applied
    cases applied
    exact ⟨add, del, isBatch, if_pos isBatch.present⟩

/-- So is a flush, of all members. -/
theorem sync_of_graceCheck {cfg : SyncConfig} {grace now : Time} {nft : Nft} {p : SyncProcess}
    {rev : Int} {g : Gate} {st : AuthzState} (bufferCap : Nat)
    (flushed : graceCheck cfg grace now nft p ⟨g.authorized, rev⟩ = (true, st)) :
    ∃ del, del.Perm g.authorized.keys ∧
      gateStep bufferCap g (.sync [] del) = some { g with authorized := st.kernel } := by
  have perm := nft.currentOrder.perm g.authorized.keys
  have present : ∀ a ∈ nft.currentOrder.reorder g.authorized.keys, a ∈ g.authorized :=
    fun a member => AList.mem_keys.mpr (perm.mem_iff.mp member)
  refine ⟨_, perm, ?_⟩
  unfold graceCheck at flushed
  rw [exec_listAuthorized] at flushed
  split at flushed
  · cases flushed
  · cases unreadable : nft.unreadable with
    | true => simp [unreadable] at flushed
    | false =>
        simp only [unreadable, Bool.false_eq_true, if_false] at flushed
        split at flushed
        · cases flushed
        · have present : ∀ a ∈ nft.currentOrder.reorder g.authorized.keys,
              a ∈ (AuthzState.mk g.authorized rev).kernel := present
          rcases exec_applyAuthorized nft [] present with ⟨run, -⟩ | run
          · rw [run] at flushed
            cases flushed
          · rw [run] at flushed
            cases flushed
            exact if_pos present

/-! ## The census -/

structure Census where
  gate : Gate
  /-- Ghost: the addresses that were authorized at some time. -/
  known : List Addr
  /-- Ghost: the addresses that were revoked since the last completed collection. -/
  recent : List Addr

def Census.initial (counters : Counters) (authorized : AddrSet) : Census :=
  ⟨.initial counters authorized, authorized.keys, []⟩

/-- The elements of the set. -/
abbrev Gate.acct (g : Gate) : Counters := g.world.kernel.counters

/-- The event ends a collection; the write after a delivery does not. -/
def Gate.completes (g : Gate) : GateEvent → Bool
  | .usage .persist => g.pending.isSome
  | _ => false

/-- The census after an event that leads to `g`. -/
def Census.next (c : Census) (e : GateEvent) (g : Gate) : Census where
  gate := g
  known := c.known ++ g.authorized.keys
  recent := if c.gate.completes e then [] else c.recent ++ removed c.gate.authorized g.authorized

def censusStep (bufferCap : Nat) (c : Census) (e : GateEvent) : Option Census :=
  (gateStep bufferCap c.gate e).map (c.next e)

/-- The elements that the revocation under way still deletes. -/
def Revoking.Covers (k : AcctKey) : Revoking → Prop
  | .idle => False
  | .listed revoke _ | .removed revoke => k.addr ∈ revoke
  | .picked keys => k ∈ keys

instance (k : AcctKey) : (r : Revoking) → Decidable (r.Covers k)
  | .idle => inferInstanceAs (Decidable False)
  | .listed revoke _ | .removed revoke => inferInstanceAs (Decidable (k.addr ∈ revoke))
  | .picked keys => inferInstanceAs (Decidable (k ∈ keys))

/-- **The condition**: an address that the sync loop takes out has no element, unless the
revocation under way still deletes it; and a revocation that stops early has none left to
delete. -/
def LeavesNoElement (c : Census) : GateEvent → Prop
  | .sync _ del =>
      ∀ k ∈ c.gate.acct.keys, k.addr ∈ del → c.gate.revoking.Covers k
  | .abort | .usage .crash =>
      ∀ k ∈ c.gate.acct.keys, c.gate.revoking.Covers k → k.addr ∈ c.gate.authorized
  | _ => True

/-! ## The invariant -/

/-- **The invariant**: an element of a former customer is about to be deleted, and the customer
was revoked since the last collection. -/
structure Census.Tidy (c : Census) : Prop where
  known : ∀ a ∈ c.gate.authorized, a ∈ c.known
  owned : ∀ k ∈ c.gate.acct, k.addr ∈ c.known →
    k.addr ∈ c.gate.authorized ∨ (c.gate.revoking.Covers k ∧ k.addr ∈ c.recent)
  listed : ∀ revoke del, c.gate.revoking = .listed revoke del → ∀ a ∈ del, a ∈ revoke

theorem tidy_initial (counters : Counters) (authorized : AddrSet) :
    (Census.initial counters authorized).Tidy where
  known _ member := AList.mem_keys.mp member
  owned _ _ known := .inl (AList.mem_keys.mpr known)
  listed := nofun

theorem mem_removed {before after : AddrSet} {a : Addr} :
    a ∈ removed before after ↔ a ∈ before ∧ a ∉ after := by
  rw [removed, List.mem_filter, decide_eq_true_iff, ← AList.mem_keys]

theorem mem_deleteAcct {κ : Kernel} {keys : List AcctKey} {k : AcctKey} :
    k ∈ (κ.deleteAcct keys).counters ↔ k ∈ κ.counters ∧ k ∉ keys := by
  induction keys generalizing κ with
  | nil => simp [Kernel.deleteAcct]
  | cons k' keys ih =>
      refine ih.trans ?_
      rw [Kernel.deleteElement, AList.mem_erase, List.mem_cons]
      tauto

/-- The usage loop changes no counter. -/
theorem kernel_of_usage {bufferCap : Nat} {g : Gate} {e : Event} {w : World}
    (admitted : g.admits e) (taken : step bufferCap g.world e = some w) :
    w.kernel = g.world.kernel := by
  cases e with
  | count | reset | delete | recover => cases admitted
  | crash =>
      cases taken
      rfl
  | ack =>
      simp only [step] at taken
      split at taken
      · split at taken <;> cases taken
        rfl
      · cases taken
  | collect =>
      simp only [step] at taken
      split at taken
      · split at taken <;> cases taken
        rfl
      · cases taken
  | readAcct | persist | post | deliver | giveUp | acknowledge =>
      simp only [step] at taken
      split at taken <;> cases taken <;> rfl

section Steps

variable {bufferCap : Nat} {c c' : Census} {e : GateEvent} {g : Gate}

/-- **What a step has to show**: elements are made for authorized addresses only, and one whose
address is not authorized any more is covered by the revocation under way. -/
theorem Census.Tidy.next (tidy : c.Tidy) (running : c.gate.completes e = false)
    (made : ∀ k ∈ g.acct, k ∈ c.gate.acct ∨ k.addr ∈ g.authorized)
    (covered : ∀ k ∈ g.acct, k.addr ∉ g.authorized →
      k.addr ∈ c.gate.authorized ∨ c.gate.revoking.Covers k → g.revoking.Covers k)
    (listed : ∀ revoke del, g.revoking = .listed revoke del → ∀ a ∈ del, a ∈ revoke) :
    (c.next e g).Tidy := by
  refine ⟨fun a member => List.mem_append_right _ (AList.mem_keys.mp member), ?_, listed⟩
  intro k element known
  by_cases authorized : k.addr ∈ g.authorized
  · exact .inl authorized
  have older : k ∈ c.gate.acct := (made k element).resolve_right authorized
  have known' : k.addr ∈ c.known := by
    rcases List.mem_append.mp known with before | now
    · exact before
    · exact absurd (AList.mem_keys.mpr now) authorized
  right
  show g.revoking.Covers k ∧ k.addr ∈ (if c.gate.completes e then [] else _)
  rw [running]
  rcases tidy.owned k older known' with was | ⟨covers, recent⟩
  · exact ⟨covered k element authorized (.inl was),
      List.mem_append_right _ (mem_removed.mpr ⟨was, authorized⟩)⟩
  · exact ⟨covered k element authorized (.inr covers), List.mem_append_left _ recent⟩

/-- A batch takes out what it names. -/
theorem mem_of_batch {kernel : AddrSet} {add del : List Addr} {a : Addr} (was : a ∈ kernel)
    (gone : a ∉ batch kernel add del) : a ∈ del := by
  by_contra spared
  exact gone (mem_batch.mpr ⟨.inl was, spared⟩)

/-- The usage loop: it changes neither set, and ends a collection only between revocations. -/
theorem Census.Tidy.usage (tidy : c.Tidy) {e : Event} {w : World} (admitted : c.gate.admits e)
    (leaves : LeavesNoElement c (.usage e)) (taken : step bufferCap c.gate.world e = some w) :
    (c.next (.usage e) (c.gate.note e w)).Tidy := by
  have kernel := kernel_of_usage admitted taken
  have sameAcct : (c.gate.note e w).acct = c.gate.acct := by
    unfold Gate.acct Gate.note
    cases e <;> exact congrArg Kernel.counters kernel
  have sameAuthorized : (c.gate.note e w).authorized = c.gate.authorized := by
    cases e <;> rfl
  by_cases ends : c.gate.completes (.usage e) = true
  · have persists : e = .persist := by
      cases e with
      | persist => rfl
      | _ => cases ends
    subst persists
    have idle : c.gate.revoking = .idle := by
      cases revoking : c.gate.revoking with
      | idle => rfl
      | listed | removed | picked => simp [Gate.admits, Revoking.isIdle, revoking] at admitted
    refine ⟨fun a member => List.mem_append_right _ (AList.mem_keys.mp member), ?_, ?_⟩
    · intro k element known
      left
      rcases List.mem_append.mp known with before | now
      · rcases tidy.owned k (sameAcct ▸ element) before with authorized | ⟨covers, -⟩
        · exact authorized
        · rw [idle] at covers
          exact covers.elim
      · exact AList.mem_keys.mpr now
    · intro revoke del isListed
      exact absurd (idle.symm.trans isListed) nofun
  · refine tidy.next (Bool.eq_false_iff.mpr ends) ?_ ?_ ?_
    · intro k element
      exact .inl (sameAcct ▸ element)
    · intro k element gone was
      rw [sameAuthorized] at gone
      have covers := was.resolve_left gone
      cases e with
      | crash => exact absurd (leaves k (AList.mem_keys.mp (sameAcct ▸ element)) covers) gone
      | _ => exact covers
    · intro revoke del isListed
      cases e with
      | crash => cases isListed
      | _ => exact tidy.listed revoke del isListed

theorem tidy_step (tidy : c.Tidy) (leaves : LeavesNoElement c e)
    (taken : censusStep bufferCap c e = some c') : c'.Tidy := by
  obtain ⟨g, stepped, rfl⟩ := Option.map_eq_some_iff.mp taken
  cases e with
  | traffic k n =>
      simp only [gateStep] at stepped
      split at stepped <;> cases stepped
      rename_i authorized
      refine tidy.next rfl ?_ ?_ tidy.listed
      · intro k' element
        rcases (AList.mem_insert c.gate.acct).mp element with rfl | older
        · exact .inr authorized
        · exact .inl older
      · exact fun _ _ gone was => was.resolve_left gone
  | sync add del =>
      simp only [gateStep] at stepped
      split at stepped <;> cases stepped
      refine tidy.next rfl (fun _ element => .inl element) ?_ tidy.listed
      intro k element gone was
      rcases was with authorized | covers
      · exact leaves k (AList.mem_keys.mp element) (mem_of_batch authorized gone)
      · exact covers
  | usage e =>
      simp only [gateStep] at stepped
      split at stepped
      · rename_i admitted
        obtain ⟨w, moved, rfl⟩ := Option.map_eq_some_iff.mp stepped
        exact tidy.usage admitted leaves moved
      · cases stepped
  | list revoke =>
      simp only [gateStep] at stepped
      split at stepped <;> cases stepped
      rename_i isIdle
      refine tidy.next rfl (fun _ element => .inl element) ?_ ?_
      · intro k _ gone was
        rw [isIdle] at was
        exact absurd (was.resolve_right id) gone
      · rintro _ _ ⟨⟩ a member
        exact (List.mem_filter.mp member).1
  | remove =>
      simp only [gateStep] at stepped
      split at stepped
      · rename_i revoke del isListed
        split at stepped <;> cases stepped
        refine tidy.next rfl (fun _ element => .inl element) ?_ (by rintro _ _ ⟨⟩)
        intro k _ gone was
        rw [isListed] at was
        rcases was with authorized | covers
        · exact tidy.listed revoke del isListed _ (mem_of_batch authorized gone)
        · exact covers
      · cases stepped
  | pick =>
      simp only [gateStep] at stepped
      split at stepped <;> cases stepped
      rename_i revoke isRemoved
      refine tidy.next rfl (fun _ element => .inl element) ?_ (by rintro _ _ ⟨⟩)
      intro k element gone was
      rw [isRemoved] at was
      have named : k.addr ∈ revoke := was.resolve_left gone
      exact List.mem_filter.mpr ⟨AList.mem_keys.mp element, decide_eq_true named⟩
  | delete =>
      simp only [gateStep] at stepped
      split at stepped
      · rename_i r keys isAcked isPicked
        split at stepped <;> cases stepped
        refine tidy.next rfl (fun _ element => .inl (mem_deleteAcct.mp element).1) ?_ (by rintro _ _ ⟨⟩)
        intro k element gone was
        rw [isPicked] at was
        exact absurd (was.resolve_left gone) (mem_deleteAcct.mp element).2
      · cases stepped
  | abort =>
      cases stepped
      refine tidy.next rfl (fun _ element => .inl element) ?_ (by rintro _ _ ⟨⟩)
      intro k element gone was
      exact absurd (leaves k (AList.mem_keys.mp element) (was.resolve_left gone)) gone

end Steps

/-! ## The size of the set -/

instance (c : Census) : (e : GateEvent) → Decidable (LeavesNoElement c e)
  | .sync _ del => inferInstanceAs (Decidable
      (∀ k ∈ c.gate.acct.keys, k.addr ∈ del → c.gate.revoking.Covers k))
  | .abort | .usage .crash => inferInstanceAs (Decidable
      (∀ k ∈ c.gate.acct.keys, c.gate.revoking.Covers k → k.addr ∈ c.gate.authorized))
  | .traffic .. | .list _ | .remove | .pick | .delete => inferInstanceAs (Decidable True)
  | .usage (.count ..) | .usage (.reset _) | .usage (.delete _) | .usage .readAcct
  | .usage (.collect ..) | .usage .persist | .usage .post | .usage (.deliver _)
  | .usage .giveUp | .usage .ack | .usage .acknowledge | .usage .recover =>
      inferInstanceAs (Decidable True)

/-- **The accounting set is that of the live customers**, in every run in which the sync loop
takes out no address that has elements: an element whose address was ever authorized belongs to
an authorized address, or to one that was revoked since the last completed collection. -/
theorem acct_of_live_customers (bufferCap : Nat) (counters : Counters) (authorized : AddrSet)
    (es : List GateEvent)
    (meets : Meets (censusStep bufferCap) LeavesNoElement (.initial counters authorized) es)
    {c : Census}
    (h : Machine.run (censusStep bufferCap) (.initial counters authorized) es = some c) :
    ∀ k ∈ c.gate.acct, k.addr ∈ c.known → k.addr ∈ c.gate.authorized ∨ k.addr ∈ c.recent := by
  have tidy : c.Tidy :=
    meets.run_invariant (fun _ _ _ tidy leaves taken => tidy_step tidy leaves taken)
      (tidy_initial counters authorized) h
  intro k element known
  exact (tidy.owned k element known).imp_right And.right

/-- The service that the examples count. -/
def socksKey : AcctKey := ⟨firstAddr, 1080⟩

/-- Traffic of one customer, and a collection. -/
def firstCollection : List GateEvent :=
  [.traffic socksKey 100, .usage .readAcct,
    .usage (.collect .id (fun _ => some "socks") "r1" "e" "t"), .usage .persist]

/-- The report is delivered, and the answer revokes the customer; then the next collection. -/
def revokedInline : List GateEvent :=
  firstCollection ++
    [.usage .post, .usage (.deliver 0), .usage .ack, .list [firstAddr], .remove, .pick, .delete,
      .usage .acknowledge, .usage .persist, .usage .readAcct,
      .usage (.collect .id (fun _ => some "socks") "r2" "e" "t"), .usage .persist]

/-- Where the inline revocation leads to. -/
def afterInline : Option Census :=
  Machine.run (censusStep 10) (.initial ∅ (desiredSet [⟨firstAddr, 1⟩])) revokedInline

theorem acct_of_live_customers_inline :
    ∃ c, afterInline = some c ∧ c.gate.acct.keys = [] ∧ c.recent = [] ∧
      ∀ k ∈ c.gate.acct, k.addr ∈ c.known → k.addr ∈ c.gate.authorized ∨ k.addr ∈ c.recent :=
  ⟨_, rfl, rfl, rfl, acct_of_live_customers 10 ∅ (desiredSet [⟨firstAddr, 1⟩]) revokedInline
    (meets_of_checks (by decide)) rfl⟩

/-- A delta that revokes the customer is applied between two collections. -/
def revokedByDelta : List GateEvent :=
  firstCollection ++
    [.sync [] [firstAddr], .usage .readAcct,
      .usage (.collect .id (fun _ => some "socks") "r2" "e" "t"), .usage .persist]

/-- **A customer revoked by a delta keeps the element.**  Nothing fails; the delta is what
`applyAuthz` makes of a response that deletes the address; and after the next collection the set
has an element of an address that is neither authorized nor was revoked since. -/
theorem revoked_element_stays :
    ∃ c, Machine.run (censusStep 10) (.initial ∅ (desiredSet [⟨firstAddr, 1⟩])) revokedByDelta =
        some c ∧
      (∀ nft : Nft, nft.unreadable = false → nft.fails = false →
        exec (applyAuthz ⟨50, false⟩ nft ⟨8, false, [], [], [firstAddr], false⟩)
            ⟨desiredSet [⟨firstAddr, 1⟩], 7⟩ =
          (.ok (), ⟨batch (desiredSet [⟨firstAddr, 1⟩]) [] [firstAddr], 8⟩)) ∧
      socksKey ∈ c.gate.acct.keys ∧ firstAddr ∈ c.known ∧
      firstAddr ∉ c.gate.authorized ∧ c.recent = [] := by
  refine ⟨_, rfl, ?_, by decide, by decide, by decide, rfl⟩
  rintro ⟨_, _, _, _⟩ ⟨⟩ ⟨⟩
  rfl

end FipsExitGate.Agent
