import FipsExitGate.Lib.Machine
import FipsExitGate.Purchases.Lifecycle
import FipsExitGate.Store.Readers

/-!
# The reconciler

`reconciler.go`: a loop that lists the open Lightning purchases, asks the node about each
of them, and then grants the paid ones and voids the unpaid ones that are too old.  It is
there so that payments settle even if the webhook is missed.

The machine has the database, the node, and the place the sweep has reached.  Between any
two steps of a sweep payments may arrive and any other part of the backend may call the
store.

## The argument

What the rest of the backend does to a purchase is to process or to settle it
(`Progress`): only the reconciler voids.  So a paid purchase is live, that is, not voided,
as long as no void is decided on an answer that is out of date and no payment arrives for
a purchase that is voided already (`Timely`).  A live purchase that is not settled is on
the list of the next sweep, and stays ahead of that sweep until it is granted (`Polled`).

## Main results

* `paid_purchase_settles` — if all steps before it are timely, a sweep that goes well
  settles every purchase that was paid when it began
* `payment_lost_to_void` — a payment between a lookup and its void is never settled
-/

namespace FipsExitGate

open Program Table Machine

/-! ## The node -/

/-- The answer to `GET /payments/incoming/{paymentHash}`. -/
inductive LookupReply where
  /-- The request fails. -/
  | failed
  | notFound
  /-- Another status that is not 2xx. -/
  | refused (status : Nat)
  /-- The body is no JSON of the expected form. -/
  | undecodable
  | body (isPaid : Bool) (receivedSat completedAt : Int)
  deriving DecidableEq, Repr

/-- `LookupIncoming`; `none` is its error. -/
def lookupIncoming : LookupReply → Option Bool
  | .failed | .refused _ | .undecodable => none
  | .notFound => some false
  | .body isPaid receivedSat completedAt =>
      some (isPaid || decide (0 < completedAt) || decide (0 < receivedSat))

/-! ## The machine -/

/-- `OpenInvoice`. -/
structure OpenInvoice where
  purchaseId : Nat
  invoiceId : String
  createdAt : Time
  deriving DecidableEq, Repr

/-- `ListOpenLightning`. -/
def Db.listOpenLightning (db : Db) : List OpenInvoice :=
  db.purchases.filterMap fun p =>
    match p.invoiceId with
    | some invoiceId =>
        if p.payRequest.isSome && p.isOpen then some ⟨p.id, invoiceId, p.createdAt⟩ else none
    | none => none

/-- Where the reconciler is. -/
inductive Sweep where
  | idle
  | polling (todo : List OpenInvoice)
  /-- `LookupIncoming` has answered for the first of the list. -/
  | decided (o : OpenInvoice) (paid : Bool) (todo : List OpenInvoice)

structure Shop where
  db : Db
  /-- The invoices the node reports as paid. -/
  paid : String → Bool
  sweep : Sweep

/-- Before any payment, with the reconciler between two sweeps. -/
def Shop.initial (db : Db) : Shop := ⟨db, fun _ => false, .idle⟩

inductive ShopEvent where
  /-- The node receives the payment of an invoice. -/
  | pay (invoiceId : String)
  /-- A call by another part of the backend; a webhook that arrives is one. -/
  | call (c : Call)
  /-- A sweep begins with its list. -/
  | list
  | lookup (reply : LookupReply)
  /-- The sweep acts on the answer; `now` is what `time.Since` reads. -/
  | settle (env : Env) (now : Time)
  | finish

/-- What other parts of a backend on the Lightning rail call: only the reconciler voids, and
`/buy` attaches an invoice to a purchase that has none. -/
def Db.admits (db : Db) : Op → Bool
  | .voidByInvoice _ _ => false
  | .attachInvoice purchaseId _ _ _ =>
      db.purchases.all fun p => decide (p.id ≠ purchaseId) || p.invoiceId.isNone
  | _ => true

/-- One event; the node answers truthfully. -/
def shopStep (s : Store) (ttl : Time) (x : Shop) : ShopEvent → Option Shop
  | .pay invoiceId => some { x with paid := Function.update x.paid invoiceId true }
  | .call c => if x.db.admits c.op then some { x with db := s.call x.db c } else none
  | .list =>
      match x.sweep with
      | .idle => some { x with sweep := .polling x.db.listOpenLightning }
      | _ => none
  | .lookup reply =>
      match x.sweep with
      | .polling (o :: todo) =>
          match lookupIncoming reply with
          | none => some { x with sweep := .polling todo }
          | some paid =>
              if paid = x.paid o.invoiceId then some { x with sweep := .decided o paid todo }
              else none
      | _ => none
  | .settle env now =>
      match x.sweep with
      | .decided o paid todo =>
          let db :=
            if paid then s.call x.db ⟨env, .grantByInvoice o.invoiceId⟩
            else if ttl < now - o.createdAt then
              s.call x.db ⟨env, .voidByInvoice o.invoiceId .expired⟩
            else x.db
          some { x with db := db, sweep := .polling todo }
      | _ => none
  | .finish =>
      match x.sweep with
      | .polling [] => some { x with sweep := .idle }
      | _ => none

/-! ## What a call does to the purchases -/

/-- The purchase is not voided. -/
def Purchase.Live (p : Purchase) : Prop :=
  p.status ≠ .invalid ∧ p.status ≠ .expired

instance (p : Purchase) : Decidable p.Live :=
  inferInstanceAs (Decidable (_ ∧ _))

/-- What becomes of a purchase: it may get an invoice if it has none, it may be processed,
and it may be settled. -/
structure Advances (p p' : Purchase) : Prop where
  id : p'.id = p.id
  invoice : p'.invoiceId = p.invoiceId ∨ p.invoiceId = none
  status : p'.status = p.status ∨ p'.status = .processing ∨ p'.status = .settled
  final : p.status = .settled → p'.status = .settled

theorem Advances.refl (p : Purchase) : Advances p p :=
  ⟨rfl, .inl rfl, .inl rfl, fun settled => settled⟩

theorem Advances.trans {p₁ p₂ p₃ : Purchase} (first : Advances p₁ p₂) (second : Advances p₂ p₃) :
    Advances p₁ p₃ where
  id := second.id.trans first.id
  invoice := by
    rcases first.invoice with same | none
    · rw [← same]
      exact second.invoice
    · exact .inr none
  status := by
    rcases second.status with same | other
    · rw [same]
      exact first.status
    · exact .inr other
  final settled := second.final (first.final settled)

theorem Advances.live {p p' : Purchase} (advances : Advances p p') (live : p.Live) : p'.Live := by
  unfold Purchase.Live
  rcases advances.status with same | processing | settled
  · rw [same]
    exact live
  · simp [processing]
  · simp [settled]

/-- **What the rest of the backend does to the purchases**: each of them advances, and new
ones are live. -/
structure Progress (before after : List Purchase) : Prop where
  forward : ∀ p ∈ before, ∃ p' ∈ after, Advances p p'
  backward : ∀ p' ∈ after, (∃ p ∈ before, Advances p p') ∨ p'.Live

namespace Progress

variable {before after : List Purchase}

theorem refl (purchases : List Purchase) : Progress purchases purchases :=
  ⟨fun p member => ⟨p, member, .refl p⟩, fun p member => .inl ⟨p, member, .refl p⟩⟩

theorem add (progress : Progress before after) {new : Purchase} (live : new.Live) :
    Progress before (after ++ [new]) := by
  refine ⟨fun p member => ?_, List.forall_mem_append.mpr
    ⟨progress.backward, List.forall_mem_singleton.mpr (.inr live)⟩⟩
  obtain ⟨p', row, advances⟩ := progress.forward p member
  exact ⟨p', List.mem_append_left _ row, advances⟩

/-- A statement under which rows advance. -/
theorem update (progress : Progress before after) {hit : Purchase → Bool}
    {f : Purchase → Purchase} (moves : ∀ p ∈ after, hit p = true → Advances p (f p)) :
    Progress before (updateWhere hit f after) := by
  refine ⟨fun p member => ?_, forall_updateWhere (fun p' row isHit => ?_)
    fun p' row _ => progress.backward p' row⟩
  · obtain ⟨p', row, advances⟩ := progress.forward p member
    refine ⟨_, mem_updateWhere_of_mem row, ?_⟩
    split
    · rename_i isHit
      exact advances.trans (moves p' row isHit)
    · exact advances
  · have moved := moves p' row isHit
    rcases progress.backward p' row with ⟨p, member, advances⟩ | live
    · exact .inl ⟨p, member, advances.trans moved⟩
    · exact .inr (moved.live live)

end Progress

/-- **Step**: progress survives every change but an attached invoice and a void. -/
theorem progress_endures (env : Env) (before : List Purchase) :
    Endures env fun db => Progress before db.purchases where
  rolledBack _ _ progress := progress
  registry _ _ _ _ _ progress := progress
  unread _ _ _ _ _ _ progress := progress
  createPackage := keeps_createPackage (fun _ _ progress => progress)
    (fun _ _ _ _ progress => progress) env
  deactivatePackage := keeps_deactivatePackage (fun _ _ progress => progress)
    (fun _ _ progress => progress) env
  createPurchase s npub packageId := by
    refine Keeps.bind (keeps_getAccountByNpub s npub) fun acct => ?_
    refine keeps_inTx (fun now db id db' progress run => ?_) fun _ _ progress => progress
    rw [exec_get_bind] at run
    split at run
    · cases run
      exact progress.add (by simp [Purchase.Live])
    · cases run
  markProcessing invoiceId := by
    refine Keeps.inTx (fun now => Keeps.get_bind fun db => ?_) fun _ _ progress => progress
    refine Keeps.ite (Keeps.modify fun db progress => progress.update fun p _ isHit => ?_)
      (Keeps.throw _)
    simp only [Bool.and_eq_true, decide_eq_true_eq] at isHit
    exact ⟨rfl, .inl rfl, .inr (.inl rfl), fun settled => by simp [isHit.2] at settled⟩
  credited _ _ _ _ _ _ progress := progress
  granted db db' p k progress _ _ run := by
    have settled : Progress before (settleRow p.id (env.now k) db.purchases) :=
      progress.update fun q _ _ => ⟨rfl, .inl rfl, .inr (.inr rfl), fun _ => rfl⟩
    obtain ⟨q, -, pt, -, -, -, ⟨-, rfl⟩ | ⟨-, db₁, home, rfl⟩⟩ := grantEntitlementTx_ok run
    · exact settled
    · rcases activateOwnerTx_ok home with ⟨rfl, -⟩ | ⟨w, -, -, -, rfl, -⟩
      · exact settled
      · exact settled
  recorded _ _ progress := progress
  sampled _ _ progress := progress
  drawn _ _ _ progress := progress
  recomputed k := keeps_recomputeAuthz env k (fun _ _ progress => progress)
    fun _ _ progress => progress
  compacted _ _ progress := progress

section Calls

variable (s : Store) (db : Db) (env : Env)

/-- A call that attaches an invoice does so or changes no purchase. -/
theorem purchases_attachInvoice (purchaseId : Nat) (invoiceId checkoutUrl payRequest : String) :
    (s.call db ⟨env, .attachInvoice purchaseId invoiceId checkoutUrl payRequest⟩).purchases =
        db.purchases ∨
      (s.call db ⟨env, .attachInvoice purchaseId invoiceId checkoutUrl payRequest⟩).purchases =
        updateWhere (fun p => decide (p.id = purchaseId))
          (fun p => { p with
            invoiceId := some invoiceId
            checkoutUrl := some checkoutUrl
            payRequest := if payRequest = "" then none else some payRequest }) db.purchases := by
  let outcome (db' : Db) : Prop := db'.purchases = db.purchases ∨
    db'.purchases = updateWhere (fun p => decide (p.id = purchaseId))
      (fun p => { p with
        invoiceId := some invoiceId
        checkoutUrl := some checkoutUrl
        payRequest := if payRequest = "" then none else some payRequest }) db.purchases
  have triple : Triple (· = db) (attachInvoice env purchaseId invoiceId checkoutUrl payRequest)
      (fun _ => outcome) outcome := by
    refine triple_inTx ?_ ?_
    · rintro now _ u db' rfl run
      rw [exec_get_bind] at run
      split at run
      · split at run
        · cases run
        · cases run
          exact .inr rfl
      · cases run
    · rintro _ db' rfl
      exact .inl rfl
  exact triple.exec rfl

/-- A void strikes the purchase of its invoice or changes no purchase. -/
theorem purchases_voidByInvoice (invoiceId : String) (status : VoidStatus) :
    (s.call db ⟨env, .voidByInvoice invoiceId status⟩).purchases = db.purchases ∨
      ∃ p ∈ db.purchases, p.invoiceId = some invoiceId ∧
        (s.call db ⟨env, .voidByInvoice invoiceId status⟩).purchases =
          (db.voided p.id status).purchases := by
  let outcome (db' : Db) : Prop := db'.purchases = db.purchases ∨
    ∃ p ∈ db.purchases, p.invoiceId = some invoiceId ∧
      db'.purchases = (db.voided p.id status).purchases
  have tx : Triple (· = db) (inTx env 0 fun _ => voidByInvoiceTx invoiceId status)
      (fun _ => outcome) outcome := by
    refine triple_inTx ?_ ?_
    · rintro now _ u db' rfl run
      rcases voidByInvoiceTx_ok run with ⟨rfl, -⟩ | ⟨p, member, isIts, -, rfl⟩
      · exact .inl rfl
      · exact .inr ⟨p, member, isIts, rfl⟩
    · rintro _ db' rfl
      exact .inl rfl
  have recompute : Keeps outcome (recomputeAuthz env 1) :=
    keeps_recomputeAuthz env 1 (fun _ _ kept => kept) fun _ _ kept => kept
  exact (tx.bind fun _ => Keeps.bind recompute fun _ => Keeps.pure ()).exec rfl

end Calls

/-- A call that neither attaches nor voids an invoice lets purchases advance. -/
theorem progress_method (s : Store) (db : Db) (env : Env) {op : Op}
    (notAttached : ∀ purchaseId invoiceId checkoutUrl payRequest,
      op ≠ .attachInvoice purchaseId invoiceId checkoutUrl payRequest)
    (notVoided : ∀ invoiceId status, op ≠ .voidByInvoice invoiceId status) :
    Progress db.purchases (s.call db ⟨env, op⟩).purchases := by
  refine ((progress_endures env db.purchases).method op (fun cutoff _ => ?_)
    (fun _ _ _ _ isIt => absurd isIt (notAttached _ _ _ _))
    fun _ _ isIt => absurd isIt (notVoided _ _)).exec (.refl _)
  exact keeps_aggregateUsage (fun _ _ progress => progress) (fun _ _ _ _ progress => progress)
    env cutoff

/-- **What other parts of the backend call lets purchases advance.** -/
theorem progress_call (s : Store) {db : Db} {c : Call} (admitted : db.admits c.op = true) :
    Progress db.purchases (s.call db c).purchases := by
  obtain ⟨env, op⟩ := c
  cases op with
  | voidByInvoice invoiceId status => cases admitted
  | attachInvoice purchaseId invoiceId checkoutUrl payRequest =>
      rcases purchases_attachInvoice s db env purchaseId invoiceId checkoutUrl payRequest with
        same | attached
      · rw [same]
        exact .refl _
      · rw [attached]
        refine (Progress.refl _).update fun p member isHit => ?_
        have free : p.invoiceId = none := by
          have guard := List.all_eq_true.mp admitted p member
          simp only [decide_eq_true_eq] at isHit
          simpa [isHit] using guard
        exact ⟨rfl, .inr free, .inl rfl, fun settled => settled⟩
  | _ => exact progress_method s db env nofun nofun

/-! ## Paid purchases are live -/

/-- A purchase that has no invoice, or whose invoice is paid, is live. -/
def Db.Accounted (paid : String → Bool) (db : Db) : Prop :=
  ∀ p ∈ db.purchases, (∀ i, p.invoiceId = some i → paid i = true) → p.Live

section Accounted

variable {s : Store} {db : Db} {paid : String → Bool}

theorem Db.Accounted.progress {db' : Db} (accounted : db.Accounted paid)
    (progress : Progress db.purchases db'.purchases) : db'.Accounted paid := by
  intro p' row isPaid
  rcases progress.backward p' row with ⟨p, member, advances⟩ | live
  · refine advances.live (accounted p member fun i attached => isPaid i ?_)
    rcases advances.invoice with same | none
    · rw [same, attached]
    · rw [none] at attached
      cases attached
  · exact live

/-- The void of an unpaid invoice. -/
theorem Db.Accounted.void (accounted : db.Accounted paid) (ledger : db.Ledgered) {invoiceId : String}
    (unpaid : paid invoiceId = false) (env : Env) (status : VoidStatus) :
    (s.call db ⟨env, .voidByInvoice invoiceId status⟩).Accounted paid := by
  rcases purchases_voidByInvoice s db env invoiceId status with same | ⟨p, member, isIts, voided⟩
  · unfold Db.Accounted
    rwa [same]
  · unfold Db.Accounted
    rw [voided]
    refine forall_updateWhere (fun q row isHit isPaid => ?_) fun q row _ => accounted q row
    -- the row that is struck has the unpaid invoice
    have isIt : q = p := Ledger.purchase_eq ledger row member (by simpa using isHit)
    have settled := isPaid invoiceId (isIt ▸ isIts)
    rw [unpaid] at settled
    cases settled

/-- As long as nothing is paid: purchases without an invoice are live. -/
theorem accounted_after (s : Store) (calls : List Call) :
    (s.after calls).Accounted fun _ => false := by
  induction calls using List.reverseRecOn with
  | nil => exact fun p member => by cases member
  | append_singleton calls c ih =>
      rw [after_append_singleton]
      obtain ⟨env, op⟩ := c
      cases op with
      | voidByInvoice invoiceId status => exact ih.void (ledger_after s calls) rfl env status
      | attachInvoice purchaseId invoiceId checkoutUrl payRequest =>
          unfold Db.Accounted
          rcases purchases_attachInvoice s (s.after calls) env purchaseId invoiceId checkoutUrl
            payRequest with same | attached
          · rwa [same]
          · rw [attached]
            refine forall_updateWhere (fun q _ _ isPaid => ?_) fun q row _ => ih q row
            cases isPaid invoiceId rfl
      | _ => exact ih.progress (progress_method s _ env nofun nofun)

end Accounted

/-- A void at `now` is not decided on an answer that is out of date. -/
def Sweep.UpToDate (paid : String → Bool) (ttl now : Time) : Sweep → Prop
  | .decided o false _ => ttl < now - o.createdAt → paid o.invoiceId = false
  | _ => True

instance (paid : String → Bool) (ttl now : Time) :
    (sweep : Sweep) → Decidable (sweep.UpToDate paid ttl now)
  | .idle => isTrue trivial
  | .polling _ => isTrue trivial
  | .decided _ true _ => isTrue trivial
  | .decided _ false _ => inferInstanceAs (Decidable (_ → _))

/-- **The condition**: a payment does not arrive for a voided purchase, and no invoice is
paid between a lookup and the void that follows it. -/
def Timely (ttl : Time) (x : Shop) : ShopEvent → Prop
  | .pay invoiceId => ∀ p ∈ x.db.purchases, p.invoiceId = some invoiceId → p.Live
  | .settle _ now => x.sweep.UpToDate x.paid ttl now
  | _ => True

instance (ttl : Time) (x : Shop) : (e : ShopEvent) → Decidable (Timely ttl x e)
  | .pay invoiceId =>
      inferInstanceAs (Decidable (∀ p ∈ x.db.purchases, p.invoiceId = some invoiceId → p.Live))
  | .settle _ now => inferInstanceAs (Decidable (x.sweep.UpToDate x.paid ttl now))
  | .call _ | .list | .lookup _ | .finish => isTrue trivial

theorem shopStep_list {s : Store} {ttl : Time} {x x' : Shop}
    (h : shopStep s ttl x .list = some x') :
    x.sweep = .idle ∧ x' = { x with sweep := .polling x.db.listOpenLightning } := by
  simp only [shopStep] at h
  split at h
  · rename_i idle
    exact ⟨idle, (Option.some.inj h).symm⟩
  · cases h

theorem shopStep_finish {s : Store} {ttl : Time} {x x' : Shop}
    (h : shopStep s ttl x .finish = some x') :
    x.sweep = .polling [] ∧ x' = { x with sweep := .idle } := by
  simp only [shopStep] at h
  split at h
  · rename_i polling
    exact ⟨polling, (Option.some.inj h).symm⟩
  · cases h

/-- What one event can do. -/
theorem shopStep_cases {s : Store} {ttl : Time} {x x' : Shop} {e : ShopEvent}
    (h : shopStep s ttl x e = some x') :
    (∃ i, e = .pay i ∧ x' = { x with paid := Function.update x.paid i true }) ∨
    (∃ c, e = .call c ∧ x.db.admits c.op = true ∧ x' = { x with db := s.call x.db c }) ∨
    (e = .list ∧ x.sweep = .idle ∧ x' = { x with sweep := .polling x.db.listOpenLightning }) ∨
    (∃ reply o todo, e = .lookup reply ∧ x.sweep = .polling (o :: todo) ∧
      (lookupIncoming reply = none ∧ x' = { x with sweep := .polling todo } ∨
        ∃ paid, lookupIncoming reply = some paid ∧ paid = x.paid o.invoiceId ∧
          x' = { x with sweep := .decided o paid todo })) ∨
    (∃ env now o todo, e = .settle env now ∧
      (x.sweep = .decided o true todo ∧
          x' = { x with
            db := s.call x.db ⟨env, .grantByInvoice o.invoiceId⟩, sweep := .polling todo } ∨
        x.sweep = .decided o false todo ∧
          (ttl < now - o.createdAt ∧
              x' = { x with
                db := s.call x.db ⟨env, .voidByInvoice o.invoiceId .expired⟩
                sweep := .polling todo } ∨
            x' = { x with sweep := .polling todo }))) ∨
    (e = .finish ∧ x.sweep = .polling [] ∧ x' = { x with sweep := .idle }) := by
  cases e with
  | pay i => exact .inl ⟨i, rfl, (Option.some.inj h).symm⟩
  | call c =>
      simp only [shopStep] at h
      split at h
      · rename_i admitted
        exact .inr (.inl ⟨c, rfl, admitted, (Option.some.inj h).symm⟩)
      · cases h
  | list => exact .inr (.inr (.inl ⟨rfl, shopStep_list h⟩))
  | lookup reply =>
      simp only [shopStep] at h
      split at h
      · rename_i o todo polling
        refine .inr (.inr (.inr (.inl ⟨reply, o, todo, rfl, polling, ?_⟩)))
        split at h
        · rename_i failed
          exact .inl ⟨failed, (Option.some.inj h).symm⟩
        · rename_i paid answered
          split at h
          · rename_i truthful
            exact .inr ⟨paid, answered, truthful, (Option.some.inj h).symm⟩
          · cases h
      · cases h
  | settle env now =>
      simp only [shopStep] at h
      split at h
      · rename_i o paid todo decided
        refine .inr (.inr (.inr (.inr (.inl ⟨env, now, o, todo, rfl, ?_⟩))))
        cases paid with
        | true => exact .inl ⟨decided, (Option.some.inj h).symm⟩
        | false =>
            refine .inr ⟨decided, ?_⟩
            simp only [Bool.false_eq_true, if_false] at h
            split at h
            · rename_i old
              exact .inl ⟨old, (Option.some.inj h).symm⟩
            · exact .inr (Option.some.inj h).symm
      · cases h
  | finish => exact .inr (.inr (.inr (.inr (.inr ⟨rfl, shopStep_finish h⟩))))

/-- What holds along a timely run. -/
structure Tracked (s : Store) (x : Shop) : Prop where
  reached : ∃ calls, x.db = s.after calls
  accounted : x.db.Accounted x.paid

section Reached

variable {s : Store} {db : Db}

theorem reached_call (reached : ∃ calls, db = s.after calls) (c : Call) :
    ∃ calls, s.call db c = s.after calls := by
  obtain ⟨calls, rfl⟩ := reached
  exact ⟨calls ++ [c], (after_append_singleton s calls c).symm⟩

theorem ledger_reached (reached : ∃ calls, db = s.after calls) : db.Ledgered := by
  obtain ⟨calls, rfl⟩ := reached
  exact ledger_after s calls

end Reached

theorem tracked_initial (s : Store) (calls : List Call) :
    Tracked s (Shop.initial (s.after calls)) :=
  ⟨⟨calls, rfl⟩, accounted_after s calls⟩

/-- **Step**: a timely event keeps paid purchases live. -/
theorem tracked_step {s : Store} {ttl : Time} {x x' : Shop} {e : ShopEvent} (tracked : Tracked s x)
    (timely : Timely ttl x e) (h : shopStep s ttl x e = some x') : Tracked s x' := by
  obtain ⟨i, rfl, rfl⟩ | ⟨c, rfl, admitted, rfl⟩ | ⟨rfl, -, rfl⟩ |
    ⟨reply, o, todo, rfl, -, ⟨-, rfl⟩ | ⟨paid, -, -, rfl⟩⟩ |
    ⟨env, now, o, todo, rfl, ⟨-, rfl⟩ | ⟨decided, ⟨old, rfl⟩ | rfl⟩⟩ | ⟨rfl, -, rfl⟩ :=
    shopStep_cases h
  · refine ⟨tracked.reached, fun p member isPaid => ?_⟩
    by_cases isIts : p.invoiceId = some i
    · exact timely p member isIts
    · refine tracked.accounted p member fun j attached => ?_
      have other : j ≠ i := fun same => isIts (same ▸ attached)
      simpa [Function.update_of_ne other] using isPaid j attached
  · exact ⟨reached_call tracked.reached c, tracked.accounted.progress (progress_call s admitted)⟩
  · exact ⟨tracked.reached, tracked.accounted⟩
  · exact ⟨tracked.reached, tracked.accounted⟩
  · exact ⟨tracked.reached, tracked.accounted⟩
  · exact ⟨reached_call tracked.reached _, tracked.accounted.progress (progress_call s rfl)⟩
  · refine ⟨reached_call tracked.reached _, ?_⟩
    simp only [Timely, decided] at timely
    exact tracked.accounted.void (ledger_reached tracked.reached) (timely old) env .expired
  · exact ⟨tracked.reached, tracked.accounted⟩
  · exact ⟨tracked.reached, tracked.accounted⟩

/-! ## The sweep that settles -/

/-- The purchase with the invoice is there, in a state with `P`. -/
def Db.Billed (db : Db) (purchaseId : Nat) (invoiceId : String) (P : Purchase → Prop) : Prop :=
  ∃ p ∈ db.purchases, p.id = purchaseId ∧ p.invoiceId = some invoiceId ∧ P p

section Billed

variable {s : Store} {db : Db} {purchaseId : Nat} {invoiceId : String} {P : Purchase → Prop}

theorem Db.Billed.progress {db' : Db} (billed : db.Billed purchaseId invoiceId P)
    (kept : ∀ p p', Advances p p' → P p → P p') (progress : Progress db.purchases db'.purchases) :
    db'.Billed purchaseId invoiceId P := by
  obtain ⟨p, member, isIt, attached, holds⟩ := billed
  obtain ⟨p', row, advances⟩ := progress.forward p member
  refine ⟨p', row, advances.id.trans isIt, ?_, kept p p' advances holds⟩
  rcases advances.invoice with same | none
  · rw [same, attached]
  · rw [none] at attached
    cases attached

/-- A void of another invoice. -/
theorem Db.Billed.void (billed : db.Billed purchaseId invoiceId P) (ledger : db.Ledgered)
    {other : String} (differs : other ≠ invoiceId) (env : Env) (status : VoidStatus) :
    (s.call db ⟨env, .voidByInvoice other status⟩).Billed purchaseId invoiceId P := by
  obtain ⟨p, member, isIt, attached, holds⟩ := billed
  rcases purchases_voidByInvoice s db env other status with same | ⟨q, row, isIts, voided⟩
  · exact ⟨p, same.symm ▸ member, isIt, attached, holds⟩
  · refine ⟨p, ?_, isIt, attached, holds⟩
    rw [voided]
    refine mem_updateWhere.mpr (.inr ⟨member, ?_⟩)
    refine decide_eq_false fun sameId => differs ?_
    rw [Ledger.purchase_eq ledger member row sameId, isIts] at attached
    exact Option.some.inj attached

/-- A grant that commits settles the purchase of its invoice. -/
theorem Db.Billed.grant (billed : db.Billed purchaseId invoiceId P)
    (reached : ∃ calls, db = s.after calls) {env : Env} (completes : env.fails 0 = false) :
    (s.call db ⟨env, .grantByInvoice invoiceId⟩).Billed purchaseId invoiceId
      fun p => p.status = .settled := by
  obtain ⟨calls, rfl⟩ := reached
  obtain ⟨p, member, isIt, attached, -⟩ := billed
  obtain ⟨p', row, follows, settled⟩ := lifecycle_step (ledger_after s calls) (valid_after s calls)
    member attached ⟨env, .grantByInvoice⟩
  refine ⟨p', row, follows.id.trans isIt, follows.invoiceId.trans attached, ?_⟩
  simpa [PurchaseStep.next, completes, PurchaseEvent.next] using settled

end Billed

/-- The invoice is still to be polled, or an answer is there for it. -/
def Sweep.Ahead (invoiceId : String) : Sweep → Prop
  | .idle => False
  | .polling todo => ∃ o ∈ todo, o.invoiceId = invoiceId
  | .decided o _ todo => o.invoiceId = invoiceId ∨ ∃ o ∈ todo, o.invoiceId = invoiceId

/-- An answer for the invoice is that it is paid. -/
def Sweep.Honest (invoiceId : String) : Sweep → Prop
  | .decided o paid _ => o.invoiceId = invoiceId → paid = true
  | _ => True

/-- An event during a sweep whose lookups succeed and whose grants commit. -/
def ShopEvent.goesWell : ShopEvent → Bool
  | .pay _ | .call _ => true
  | .lookup reply => (lookupIncoming reply).isSome
  | .settle env _ => !env.fails 0
  | .list | .finish => false

/-- **What holds during a sweep** that began when the invoice was paid and the purchase live. -/
structure Polled (s : Store) (purchaseId : Nat) (invoiceId : String) (x : Shop) : Prop where
  reached : ∃ calls, x.db = s.after calls
  paid : x.paid invoiceId = true
  billed : x.db.Billed purchaseId invoiceId fun _ => True
  honest : x.sweep.Honest invoiceId
  ahead : x.db.Billed purchaseId invoiceId (fun p => p.status = .settled) ∨ x.sweep.Ahead invoiceId

namespace Polled

variable {s : Store} {ttl : Time} {purchaseId : Nat} {invoiceId : String} {x x' : Shop}

/-- A sweep begins. -/
theorem list (tracked : Tracked s x) {p : Purchase} (member : p ∈ x.db.purchases)
    (attached : p.invoiceId = some invoiceId) (lightning : p.payRequest.isSome = true)
    (paid : x.paid invoiceId = true) :
    Polled s p.id invoiceId { x with sweep := .polling x.db.listOpenLightning } := by
  refine ⟨tracked.reached, paid, ⟨p, member, rfl, attached, trivial⟩, trivial, ?_⟩
  by_cases settled : p.status = .settled
  · exact .inl ⟨p, member, rfl, attached, settled⟩
  · have live : p.Live := tracked.accounted p member fun i isIts =>
      Option.some.inj (attached.symm.trans isIts) ▸ paid
    have isOpen : p.isOpen = true := by
      unfold Purchase.Live at live
      cases status : p.status <;> simp_all [Purchase.isOpen]
    refine .inr ⟨⟨p.id, invoiceId, p.createdAt⟩, List.mem_filterMap.mpr ⟨p, member, ?_⟩, rfl⟩
    simp [attached, lightning, isOpen]

/-- **Step**: during a sweep that goes well the purchase is settled or ahead. -/
theorem step {e : ShopEvent} (polled : Polled s purchaseId invoiceId x) (well : e.goesWell = true)
    (h : shopStep s ttl x e = some x') : Polled s purchaseId invoiceId x' := by
  obtain ⟨reached, paid, billed, honest, ahead⟩ := polled
  have settledStays : ∀ p p', Advances p p' → p.status = .settled → p'.status = .settled :=
    fun p p' advances => advances.final
  obtain ⟨i, rfl, rfl⟩ | ⟨c, rfl, admitted, rfl⟩ | ⟨rfl, -, rfl⟩ |
    ⟨reply, o, todo, rfl, polling, ⟨failed, rfl⟩ | ⟨answer, -, truthful, rfl⟩⟩ |
    ⟨env, now, o, todo, rfl, ⟨decided, rfl⟩ | ⟨decided, ⟨old, rfl⟩ | rfl⟩⟩ | ⟨rfl, -, rfl⟩ :=
    shopStep_cases h
  · refine ⟨reached, ?_, billed, honest, ahead⟩
    by_cases isIt : invoiceId = i
    · simp [isIt]
    · simpa [Function.update_of_ne isIt] using paid
  · have progress := progress_call s admitted
    refine ⟨reached_call reached c, paid, billed.progress (fun _ _ _ holds => holds) progress,
      honest, ahead.imp_left fun settled => settled.progress settledStays progress⟩
  · cases well
  · simp [ShopEvent.goesWell, failed] at well
  · refine ⟨reached, paid, billed, fun isIt => ?_, ahead.imp_right fun front => ?_⟩
    · rw [truthful, isIt, paid]
    · rw [polling] at front
      simpa [Sweep.Ahead] using front
  · -- a grant: of this invoice, or of another one
    have progress := progress_call (c := ⟨env, .grantByInvoice o.invoiceId⟩) s
      (show x.db.admits _ = true from rfl)
    refine ⟨reached_call reached _, paid, billed.progress (fun _ _ _ holds => holds) progress,
      trivial, ?_⟩
    rcases ahead with settled | front
    · exact .inl (settled.progress settledStays progress)
    · rw [decided] at front
      rcases front with rfl | front
      · exact .inl (billed.grant reached (by simpa [ShopEvent.goesWell] using well))
      · exact .inr front
  · -- a void: the answer for this invoice would have been that it is paid
    rw [decided] at honest ahead
    have differs : o.invoiceId ≠ invoiceId := fun isIt => by cases honest isIt
    have ledger := ledger_reached reached
    refine ⟨reached_call reached _, paid, billed.void ledger differs env .expired, trivial, ?_⟩
    rcases ahead with settled | isIt | front
    · exact .inl (settled.void ledger differs env .expired)
    · exact absurd isIt differs
    · exact .inr front
  · rw [decided] at honest ahead
    refine ⟨reached, paid, billed, trivial, ?_⟩
    rcases ahead with settled | isIt | front
    · exact .inl settled
    · cases honest isIt
    · exact .inr front
  · cases well

/-- **Run**: until the end of the sweep. -/
theorem run {body : List ShopEvent} (polled : Polled s purchaseId invoiceId x)
    (well : ∀ e ∈ body, e.goesWell = true) (h : Machine.run (shopStep s ttl) x body = some x') :
    Polled s purchaseId invoiceId x' := by
  have meets : Meets (shopStep s ttl) (fun _ e => e.goesWell = true) x body :=
    meets_of_forall fun e member _ => well e member
  exact meets.run_invariant (fun x e x' polled well h => polled.step well h) polled h

end Polled

/-- **Paid purchases settle.**  In every run whose steps are timely, whatever payments,
calls and sweeps it has: a sweep that begins when the node reports the invoice as paid,
whose lookups succeed and whose grants commit, leaves the purchase settled, with its
entitlement. -/
theorem paid_purchase_settles (s : Store) (ttl : Time) (calls : List Call)
    (before body : List ShopEvent) (x x' : Shop) (p : Purchase) (invoiceId : String)
    (timely : Meets (shopStep s ttl) (Timely ttl) (Shop.initial (s.after calls)) before)
    (ran : Machine.run (shopStep s ttl) (Shop.initial (s.after calls)) before = some x)
    (member : p ∈ x.db.purchases) (attached : p.invoiceId = some invoiceId)
    (lightning : p.payRequest.isSome = true) (paid : x.paid invoiceId = true)
    (well : ∀ e ∈ body, e.goesWell = true)
    (swept : Machine.run (shopStep s ttl) x (.list :: body ++ [.finish]) = some x') :
    ∃ q ∈ x'.db.purchases, q.id = p.id ∧ q.invoiceId = some invoiceId ∧ q.status = .settled ∧
      ∃ e, entitlementsOf p.id x'.db.entitlements = [e] := by
  have tracked : Tracked s x := timely.run_invariant
    (fun x e x' tracked timely h => tracked_step tracked timely h) (tracked_initial s calls) ran
  obtain ⟨last, started, ended⟩ := run_concat_eq_some swept
  obtain ⟨first, listed, polls⟩ := run_cons_eq_some started
  obtain ⟨-, rfl⟩ := shopStep_list listed
  obtain ⟨done, rfl⟩ := shopStep_finish ended
  have polled := (Polled.list tracked member attached lightning paid).run well polls
  rcases polled.ahead with ⟨q, row, isIt, attached, settled⟩ | front
  · refine ⟨q, row, isIt, attached, settled, ?_⟩
    have ledger := ledger_reached polled.reached
    have present := (Ledger.granted ledger q row).mpr settled
    rw [isIt] at present
    exact List.length_eq_one_iff.mp
      (le_antisymm (Ledger.single ledger p.id) (List.length_pos_iff.mpr present))
  · rw [done] at front
    obtain ⟨o, none, -⟩ := front
    cases none

/-- An account buys a package over Lightning. -/
def lightningCalls : List Call :=
  [⟨calm 0, .createAccount firstNpub⟩,
    ⟨calm 1, .createPackage .volume "10 GB" 10000000000 30 5000 none⟩,
    ⟨calm 2, .createPurchase firstNpub 3⟩,
    ⟨calm 3, .attachInvoice 4 "hash" "/pay/4" "lnbc50n1"⟩]

/-- One hour, the default of `PHOENIXD_INVOICE_TTL_S`. -/
def invoiceTtl : Time := 3600 * 1000000

/-- A sweep finds the invoice unpaid, and the webhook of the payment is lost. -/
def missedWebhook : List ShopEvent :=
  [.list, .lookup .notFound, .settle (calm 10) 10, .finish, .pay "hash"]

/-- The purchase of `lightningCalls` until it is settled. -/
def lightningPurchase : Purchase :=
  ⟨4, 1, 3, some "hash", .pending, 2, none, some "/pay/4", some "lnbc50n1"⟩

/-- The sweep after a lost webhook settles the purchase. -/
theorem paid_purchase_settles_missedWebhook :
    ∃ x x', Machine.run (shopStep plainStore invoiceTtl)
        (Shop.initial (plainStore.after lightningCalls)) missedWebhook = some x ∧
      Machine.run (shopStep plainStore invoiceTtl) x
        (.list :: [.lookup (.body true 5 11), .settle (calm 20) 20] ++ [.finish]) = some x' ∧
      ∃ e, entitlementsOf 4 x'.db.entitlements = [e] := by
  have ends : ∃ x x', Machine.run (shopStep plainStore invoiceTtl)
        (Shop.initial (plainStore.after lightningCalls)) missedWebhook = some x ∧
      lightningPurchase ∈ x.db.purchases ∧ x.paid "hash" = true ∧
      Machine.run (shopStep plainStore invoiceTtl) x
        (.list :: [.lookup (.body true 5 11), .settle (calm 20) 20] ++ [.finish]) = some x' := by
    refine ⟨_, _, rfl, ?_, rfl, rfl⟩
    decide +kernel
  obtain ⟨x, x', ran, member, paid, swept⟩ := ends
  obtain ⟨q, -, -, -, -, entitled⟩ := paid_purchase_settles plainStore invoiceTtl lightningCalls
    missedWebhook [.lookup (.body true 5 11), .settle (calm 20) 20] x x' lightningPurchase "hash"
    (meets_of_checks (by decide +kernel)) ran member rfl rfl paid (by decide) swept
  exact ⟨x, x', ran, swept, entitled⟩

/-- **A payment lost to a void.**  The payment lands between the lookup of a sweep and its
void.  The purchase expires, the next sweep does not list it any more, and it ends without
an entitlement although it is paid. -/
theorem payment_lost_to_void :
    ∃ x x', Machine.run (shopStep plainStore invoiceTtl)
        (Shop.initial (plainStore.after lightningCalls))
        [.list, .lookup .notFound, .pay "hash",
          .settle (calm (invoiceTtl + 10)) (invoiceTtl + 10), .finish] = some x ∧
      (∃ p ∈ x.db.purchases, p.id = 4 ∧ p.invoiceId = some "hash" ∧ p.payRequest.isSome = true) ∧
      x.paid "hash" = true ∧
      Machine.run (shopStep plainStore invoiceTtl) x (.list :: [] ++ [.finish]) = some x' ∧
      (∀ q ∈ x'.db.purchases, q.status = .expired) ∧ x'.db.entitlements = [] := by
  refine ⟨_, _, rfl, ?_, rfl, rfl, ?_, ?_⟩
  · decide +kernel
  · decide +kernel
  · decide +kernel

end FipsExitGate
