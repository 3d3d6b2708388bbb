import FipsExitGate.Lib.Machine
import FipsExitGate.Whitelist.Attribution

/-!
# The guest cap

`InviteGuest` counts the enabled guest rows of an account, and refuses one more guest
when there are `maxGuests()` of them.  It counts only if the guest has no row on the
account.  A row that was switched off keeps its place in the table but not in the count,
and there are two ways to switch it on again that do not count: another invitation, and
the toggle.

So the cap is an invariant of the runs in which a disabled guest is revived only while
there is room (`Store.hasRoom`).  All other moves are harmless by themselves: they add no
guest row and enable none, since by `Registry.Valid` an open invitation is enabled already
when it is accepted.

## Main results

* `guests_capped` — the cap holds in every state of such a run
* `toggle_exceeds_cap` — without the condition it does not
-/

namespace FipsExitGate

open Program Table Machine

/-! ## Counting guests -/

def isEnabledGuest (acct : AccountId) (w : WhitelistEntry) : Bool :=
  decide (w.accountId = acct) && decide (w.role = .guest) && w.enabled

/-- The count of `InviteGuest`. -/
def guestCount (acct : AccountId) (rows : List WhitelistEntry) : Nat :=
  rows.countP (isEnabledGuest acct)

/-- No account has more enabled guest rows than the limit. -/
def Registry.Capped (limit : Int) (r : Registry) : Prop :=
  ∀ acct, (guestCount acct r.rows : Int) ≤ limit

section Count

variable {acct : AccountId} {rows : List WhitelistEntry}

/-- A rewriting that enables no guest row. -/
theorem guestCount_map_le {f : WhitelistEntry → WhitelistEntry}
    (old : ∀ w ∈ rows, isEnabledGuest acct (f w) = true → isEnabledGuest acct w = true) :
    guestCount acct (rows.map f) ≤ guestCount acct rows := by
  unfold guestCount
  rw [List.countP_map]
  exact List.countP_mono_left old

theorem guestCount_updateWhere_le {p : WhitelistEntry → Bool}
    {f : WhitelistEntry → WhitelistEntry}
    (old : ∀ w ∈ rows, p w = true → isEnabledGuest acct (f w) = true →
      isEnabledGuest acct w = true) :
    guestCount acct (updateWhere p f rows) ≤ guestCount acct rows := by
  refine guestCount_map_le fun w member counted => ?_
  by_cases hit : p w = true
  · exact old w member hit (by simpa [hit] using counted)
  · simpa [hit] using counted

theorem guestCount_deleteWhere_le (p : WhitelistEntry → Bool) :
    guestCount acct (deleteWhere p rows) ≤ guestCount acct rows :=
  List.filter_sublist.countP_le

theorem guestCount_append (new : WhitelistEntry) :
    guestCount acct (rows ++ [new]) =
      guestCount acct rows + if isEnabledGuest acct new then 1 else 0 := by
  simp [guestCount, List.countP_append, List.countP_singleton]

end Count

namespace Registry.Valid

variable {ident : Identity} {r : Registry}

theorem guestCount_activate_le (valid : r.Valid ident) {w : WhitelistEntry} (member : w ∈ r.rows)
    (enabled : w.role = .guest → w.enabled = true) (acct : AccountId) :
    guestCount acct (activateRow w.id w.fipsAddr r.rows) ≤ guestCount acct r.rows := by
  rw [activateRow_eq_map]
  refine guestCount_map_le fun x row counted => ?_
  by_cases target : x.id = w.id
  · obtain rfl := valid.keyed.row_eq_of_id row member target
    simp only [moved, isEnabledGuest, if_true, Bool.and_true, Bool.and_eq_true,
      decide_eq_true_eq] at counted
    simp [isEnabledGuest, counted, enabled counted.2]
  · unfold moved at counted
    rw [if_neg target] at counted
    split at counted
    · simp [isEnabledGuest] at counted
    · exact counted

/-- **The row of one guest is switched on**: the count grows by at most one, and only if
the row was a disabled guest row of the account. -/
theorem guestCount_entry_le (valid : r.Valid ident) {host : AccountId} {guest : String}
    {f : WhitelistEntry → WhitelistEntry} (same : ∀ w, (f w).key = w.key) {limit : Int}
    (room : ∀ w ∈ r.rows, isEntry host guest w = true → w.role = .guest → w.enabled = false →
      (guestCount host r.rows : Int) < limit)
    (capped : r.Capped limit) (acct : AccountId) :
    (guestCount acct (updateWhere (isEntry host guest) f r.rows) : Int) ≤ limit := by
  have sameRole : ∀ w, (f w).role = w.role := fun w => congrArg RowKey.role (same w)
  have sameAccount : ∀ w, (f w).accountId = w.accountId := fun w =>
    congrArg RowKey.accountId (same w)
  by_cases revives : acct = host ∧ ∃ w ∈ r.rows, isEntry host guest w = true ∧
      w.role = .guest ∧ w.enabled = false
  · obtain ⟨rfl, w, member, isIt, isGuest, disabled⟩ := revives
    have below := room w member isIt isGuest disabled
    have grown := countP_updateWhere_le (isEntry acct guest) (isEnabledGuest acct) f r.rows
    have one : r.rows.countP (isEntry acct guest) ≤ 1 :=
      countP_le_one (List.Nodup.of_map _ valid.keyed.entryIds) fun w₁ row₁ w₂ row₂ =>
        valid.keyed.row_eq_of_entry acct guest row₁ row₂
    unfold guestCount at below ⊢
    omega
  · have noMore : guestCount acct (updateWhere (isEntry host guest) f r.rows) ≤
        guestCount acct r.rows := by
      refine guestCount_updateWhere_le fun w member isIt counted => ?_
      simp only [isEnabledGuest, sameRole, sameAccount, Bool.and_eq_true,
        decide_eq_true_eq] at counted
      have onHost : w.accountId = host := by
        simp only [isEntry, Bool.and_eq_true, decide_eq_true_eq] at isIt
        exact isIt.1
      by_contra disabled
      refine revives ⟨counted.1.1.symm.trans onHost, w, member, isIt, counted.1.2, ?_⟩
      simpa [isEnabledGuest, counted.1] using disabled
    have before := capped acct
    omega

end Registry.Valid

/-! ## Moves -/

/-- The moves that may enable a guest row. -/
def Label.enables : Label → Bool
  | .invite _ _ | .add _ _ | .toggle _ _ true => true
  | _ => false

/-- **Step**: all other moves keep the cap. -/
theorem capped_move {ident : Identity} {l : Label} {r r' : Registry} {limit : Int}
    (move : Move ident l r r') (harmless : l.enables = false) (valid : r.Valid ident)
    (capped : r.Capped limit) : r'.Capped limit := by
  intro acct
  have before := capped acct
  suffices noMore : guestCount acct r'.rows ≤ guestCount acct r.rows by omega
  have owner : ∀ {p : WhitelistEntry → Bool} {rows : List WhitelistEntry},
      (∀ w, p w = true → w.role = .owner) →
      guestCount acct (updateWhere p (fun w => { w with enabled := true, pending := false }) rows) ≤
        guestCount acct rows := by
    intro p rows isOwner
    refine guestCount_updateWhere_le fun w _ hit counted => ?_
    simp [isEnabledGuest, isOwner w hit] at counted
  have off : ∀ {host : AccountId} {guest : String},
      guestCount acct (toggleRows host guest false r.rows) ≤ guestCount acct r.rows :=
    guestCount_updateWhere_le fun w _ _ counted => by simp [isEnabledGuest, toggled] at counted
  cases move with
  | idle _ n le => exact le_rfl
  | account _ npub addr derived newNpub newAddr => exact le_rfl
  | owner _ a addr enabled now member derived noRow unlessActive =>
      simp [guestCount_append, isEnabledGuest]
  | invite _ a guest addr label now member derived other => cases harmless
  | withdraw _ p isOpen => exact guestCount_deleteWhere_le p
  | accept _ host w member isHost onHost isGuest isPending =>
      exact valid.guestCount_activate_le member (fun _ => (valid.invited w member isPending).1) acct
  | home _ w member isOwner =>
      refine valid.guestCount_activate_le member (fun isGuest => ?_) acct
      rw [isOwner] at isGuest
      cases isGuest
  | add _ a guest addr label now member derived index => cases harmless
  | toggleOn _ a guest member index => cases harmless
  | toggleOff _ a guest w member row isRow noInvite active => exact off
  | toggleOffHome _ a guest w member row isRow noInvite orphan =>
      refine (owner fun w isOwner => ?_).trans off
      simp only [Bool.and_eq_true, decide_eq_true_eq] at isOwner
      exact isOwner.2

/-! ## Calls -/

/-- If the guest has a disabled row on the account of `owner`, the account has room. -/
def Store.RoomFor (s : Store) (db : Db) (owner guest : String) : Prop :=
  ∀ a ∈ db.accounts, a.npub = s.ident.normNpub owner →
    ∀ w ∈ db.whitelist, isEntry a.id (s.ident.normNpub guest) w = true → w.role = .guest →
      w.enabled = false → (guestCount a.id db.whitelist : Int) < s.maxGuests

instance (s : Store) (db : Db) (owner guest : String) : Decidable (s.RoomFor db owner guest) :=
  inferInstanceAs (Decidable (∀ a ∈ db.accounts, a.npub = s.ident.normNpub owner →
    ∀ w ∈ db.whitelist, isEntry a.id (s.ident.normNpub guest) w = true → w.role = .guest →
      w.enabled = false → (guestCount a.id db.whitelist : Int) < s.maxGuests))

/-- **The condition**: the call does not revive a disabled guest of a full account. -/
def Store.hasRoom (s : Store) (db : Db) : Op → Bool
  | .inviteGuest owner guest _ => decide (s.RoomFor db owner guest)
  | .setWhitelistEnabled owner guest true => decide (s.RoomFor db owner guest)
  | _ => true

/-- The operator's path, which is not capped. -/
def Op.isAddWhitelist : Op → Bool
  | .addWhitelist _ _ _ => true
  | _ => false

theorem setWhitelistEnabledTx_on {acct : AccountId} {guest : String} {db db' : Db} {u : Unit}
    (run : exec (setWhitelistEnabledTx acct guest true) db = (.ok u, db')) :
    db' = db ∨ db' = { db with whitelist := toggleRows acct guest true db.whitelist } := by
  unfold setWhitelistEnabledTx at run
  rw [exec_get_bind, if_neg (by simp)] at run
  split at run
  · cases run
    exact .inl rfl
  · obtain ⟨_, db₁, written, run⟩ := exec_bind_eq_ok run
    cases run
    exact .inr (writeWhitelist_ok written).1

section Calls

variable {s : Store} {db : Db}

/-- An invitation of somebody who is not on the account is counted. -/
theorem capped_inviteGuest (valid : db.registry.Valid s.ident)
    (capped : db.registry.Capped s.maxGuests) {owner guest : String}
    (room : s.RoomFor db owner guest) (env : Env) (label : String) :
    (s.call db ⟨env, .inviteGuest owner guest label⟩).registry.Capped s.maxGuests := by
  let J (r : Registry) : Prop := r.Capped s.maxGuests
  have triple : Triple (· = db) (s.inviteGuest env owner guest label)
      (fun _ db => J db.registry) fun db => J db.registry := by
    have failed : ∀ db' acct, db' = db ∧ acct ∈ db'.accounts ∧
        acct.npub = s.ident.normNpub owner → J db'.registry := fun _ _ h => h.1 ▸ capped
    refine Triple.bind ((triple_getAccountByNpub owner).conseq (fun _ h => h) (fun _ _ h => h)
      fun _ h => h ▸ capped) fun acct => ?_
    split
    · exact Triple.throw fun db' h => failed db' acct h
    split
    · exact Triple.throw fun db' h => failed db' acct h
    refine triple_registryTx (fun db' h => failed db' acct h) ?_ id
    rintro now db' pending db'' ⟨rfl, isHost, isIt⟩ run
    obtain ⟨eq, counted⟩ := inviteGuestTx_ok run
    rw [eq]
    intro other
    unfold inviteRows upsert
    split
    · exact valid.guestCount_entry_le (Registry.reinvited_key label) (room acct isHost isIt) capped other
    · rename_i noRow
      have before : (guestCount other db'.whitelist : Int) ≤ s.maxGuests := capped other
      have below : (guestCount acct.id db'.whitelist : Int) < s.maxGuests := by
        unfold guestCount
        rw [List.countP_eq_length_filter]
        exact counted.resolve_left noRow
      rw [guestCount_append]
      by_cases isHosts : acct.id = other
      · subst isHosts
        simpa [isEnabledGuest] using Int.add_one_le_iff.mpr below
      · simpa [isEnabledGuest, isHosts] using before
  exact (triple.bind fun _ => Keeps.pure ()).exec rfl

theorem capped_toggleOn (valid : db.registry.Valid s.ident)
    (capped : db.registry.Capped s.maxGuests) {owner guest : String}
    (room : s.RoomFor db owner guest) (env : Env) :
    (s.call db ⟨env, .setWhitelistEnabled owner guest true⟩).registry.Capped s.maxGuests := by
  let J (r : Registry) : Prop := r.Capped s.maxGuests
  have triple : Triple (· = db) (s.setWhitelistEnabled env owner guest true)
      (fun _ db => J db.registry) fun db => J db.registry := by
    refine Triple.bind ((triple_getAccountByNpub owner).conseq (fun _ h => h) (fun _ _ h => h)
      fun _ h => h ▸ capped) fun acct => ?_
    refine triple_registryTx (fun db' h => h.1 ▸ capped) ?_ id
    rintro now db' u db'' ⟨rfl, isHost, isIt⟩ run
    rcases setWhitelistEnabledTx_on run with rfl | rfl
    · exact capped
    · exact fun other => valid.guestCount_entry_le (Registry.toggled_key db'.whitelist true)
        (room acct isHost isIt) capped other
  exact triple.exec rfl

/-- An operation that can enable a guest row is one of three. -/
theorem harmless_of_allows {db₀ : Db} {op : Op} {r : Registry} {l : Label}
    (allowed : s.Allows db₀ op r l) (noInvite : ∀ owner guest label, op ≠ .inviteGuest owner guest label)
    (noToggle : ∀ owner guest, op ≠ .setWhitelistEnabled owner guest true)
    (noAdd : op.isAddWhitelist = false) : l.enables = false := by
  cases allowed with
  | invite owner guest label => exact absurd rfl (noInvite owner guest label)
  | add owner guest label => cases noAdd
  | toggle owner guest enabled =>
      cases enabled with
      | true => exact absurd rfl (noToggle owner guest)
      | false => rfl
  | _ => rfl

/-- **Step**: a call with room keeps the cap. -/
theorem capped_call {c : Call} (valid : db.registry.Valid s.ident)
    (capped : db.registry.Capped s.maxGuests) (room : s.hasRoom db c.op = true)
    (noAdd : c.op.isAddWhitelist = false) : (s.call db c).registry.Capped s.maxGuests := by
  obtain ⟨env, op⟩ := c
  by_cases invites : ∃ owner guest label, op = .inviteGuest owner guest label
  · obtain ⟨owner, guest, label, rfl⟩ := invites
    exact capped_inviteGuest valid capped (of_decide_eq_true room) env label
  by_cases toggles : ∃ owner guest, op = .setWhitelistEnabled owner guest true
  · obtain ⟨owner, guest, rfl⟩ := toggles
    exact capped_toggleOn valid capped (of_decide_eq_true room) env
  refine (leads_invariant (J := fun r => r.Valid s.ident ∧ r.Capped s.maxGuests) ?_
    (leads_of_call s db ⟨env, op⟩) ⟨valid, capped⟩).2
  intro l r r' allowed move h
  have harmless := harmless_of_allows allowed (fun owner guest label isIt =>
    invites ⟨owner, guest, label, isIt⟩) (fun owner guest isIt => toggles ⟨owner, guest, isIt⟩) noAdd
  exact ⟨valid_move move h.1, capped_move move harmless h.1 h.2⟩

end Calls

/-! ## Runs -/

theorem capped_empty (s : Store) : Db.empty.registry.Capped s.maxGuests := by
  intro acct
  have positive : 0 < s.maxGuests := by
    unfold Store.maxGuests
    split
    · assumption
    · decide
  simpa [guestCount, Db.registry, Db.empty] using positive.le

/-- **The guest cap.**  In every run of calls other than the operator's `AddWhitelist`, each
of which revives a disabled guest only if the account has room, no state has an account
with more than `maxGuests()` enabled guest rows. -/
theorem guests_capped (s : Store) (calls : List Call)
    (portal : ∀ c ∈ calls, c.op.isAddWhitelist = false)
    (room : Meets s.step (fun db c => s.hasRoom db c.op = true) Db.empty calls) (db : Db)
    (visited : Visits s.step Db.empty calls db) (acct : AccountId) :
    (guestCount acct db.whitelist : Int) ≤ s.maxGuests := by
  have both : Meets s.step
      (fun db c => s.hasRoom db c.op = true ∧ c.op.isAddWhitelist = false) Db.empty calls := by
    intro pre c post db' split reached
    exact ⟨room pre c post db' split reached, portal c (by simp [split])⟩
  let Inv (db : Db) : Prop := db.registry.Valid s.ident ∧ db.registry.Capped s.maxGuests
  have base : Inv Db.empty := ⟨valid_empty s.ident, capped_empty s⟩
  have final : Inv db := by
    refine both.visits_invariant (fun db c db' inv cond stepped => ?_) base visited
    cases stepped
    refine ⟨?_, capped_call inv.1 inv.2 cond.1 cond.2⟩
    exact leads_invariant (fun _ _ _ _ move => valid_move move) (leads_of_call s db c) inv.1
  exact final.2 acct

/-- A store with a limit of one guest. -/
def oneGuestStore : Store := { plainStore with MaxGuests := 1 }

/-- A host with a package has a guest, who is switched off. -/
def dismissedGuest : List Call :=
  [⟨calm 0, .createAccount firstNpub⟩, ⟨calm 1, .creditTime firstNpub 30⟩,
    ⟨calm 2, .inviteGuest firstNpub secondNpub "phone"⟩,
    ⟨calm 3, .acceptInvite secondNpub firstNpub⟩,
    ⟨calm 4, .setWhitelistEnabled firstNpub secondNpub false⟩]

/-- The guest is switched on again. -/
theorem guests_capped_revived :
    (guestCount 1 (oneGuestStore.after (dismissedGuest ++
      [⟨calm 5, .setWhitelistEnabled firstNpub secondNpub true⟩])).whitelist : Int) ≤
        oneGuestStore.maxGuests :=
  guests_capped oneGuestStore _ (by decide) (meets_of_checks (by decide +kernel)) _
    (visits_of_run (run_step oneGuestStore _)) 1

/-- **The toggle exceeds the cap**: with a limit of one, the host invites somebody else in
the place of a guest who was switched off, and then switches that guest on again. -/
theorem toggle_exceeds_cap :
    oneGuestStore.maxGuests < (guestCount 1 (oneGuestStore.after (dismissedGuest ++
      [⟨calm 5, .inviteGuest firstNpub thirdNpub "laptop"⟩,
        ⟨calm 6, .setWhitelistEnabled firstNpub secondNpub true⟩])).whitelist : Int) := by
  decide +kernel

end FipsExitGate
