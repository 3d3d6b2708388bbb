import FipsExitGate.Lib.Machine
import FipsExitGate.Store.Usage
import FipsExitGate.Store.Wireguard
import Mathlib.Data.List.Induction

/-!
# Runs of the store

The store's methods as one type of operations, and the databases that sequences of
calls lead to.  A call brings its own environment, so a sequence may lose any
transaction of any call: whatever holds `after` every sequence holds after every
partial failure too.
-/

namespace FipsExitGate

open Program

/-- The store's writing methods, with their arguments. -/
inductive Op where
  | createAccount (npub : String)
  | addWhitelist (ownerNpub guestNpub label : String)
  | inviteGuest (ownerNpub guestNpub label : String)
  | withdrawInvite (ownerNpub guestNpub : String)
  | acceptInvite (guestNpub hostNpub : String)
  | declineInvite (guestNpub hostNpub : String)
  | activateOwner (npub : String)
  | setWhitelistEnabled (ownerNpub guestNpub : String) (enabled : Bool)
  | creditVolume (npub : String) (volumeBytes validityDays : Int)
  | creditTime (npub : String) (validityDays : Int)
  | createPackage (kind : Kind) (name : String) (volumeBytes validityDays priceMsat : Int)
      (availableUntil : Option Time)
  | deactivatePackage (id : Nat)
  | createPurchase (npub : String) (packageId : Nat)
  | attachInvoice (purchaseId : Nat) (invoiceId checkoutUrl payRequest : String)
  | markProcessing (invoiceId : String)
  | grantByInvoice (invoiceId : String)
  | voidByInvoice (invoiceId : String) (status : VoidStatus)
  | settlePurchase (purchaseId : Nat)
  | createService (key name : String) (port : BitVec 16) (ratePpm : Int) (enabled : Bool)
  | ingestUsage (nodeId : String) (report : ReportInput)
  | aggregateUsage (cutoff : Time)
  | compactAuthz (cutoff : Time)
  /-- The expiry sweep, and any other bare `RecomputeAuthz`. -/
  | recompute
  | createWgPeer (sessionNpub forNpub label pubkey : String)
  | deleteWgPeer (sessionNpub : String) (id : Nat)

/-- The method an operation calls, its result dropped. -/
def Store.method (s : Store) (env : Env) : Op → StoreM Unit
  | .createAccount npub => s.createAccount env npub >>= fun _ => pure ()
  | .addWhitelist ownerNpub guestNpub label => s.addWhitelist env ownerNpub guestNpub label
  | .inviteGuest ownerNpub guestNpub label =>
      s.inviteGuest env ownerNpub guestNpub label >>= fun _ => pure ()
  | .withdrawInvite ownerNpub guestNpub => s.withdrawInvite env ownerNpub guestNpub
  | .acceptInvite guestNpub hostNpub => s.acceptInvite env guestNpub hostNpub
  | .declineInvite guestNpub hostNpub => s.declineInvite env guestNpub hostNpub
  | .activateOwner npub => s.activateOwner env npub
  | .setWhitelistEnabled ownerNpub guestNpub enabled =>
      s.setWhitelistEnabled env ownerNpub guestNpub enabled
  | .creditVolume npub volumeBytes validityDays => s.creditVolume env npub volumeBytes validityDays
  | .creditTime npub validityDays => s.creditTime env npub validityDays
  | .createPackage kind name volumeBytes validityDays priceMsat availableUntil =>
      createPackage env kind name volumeBytes validityDays priceMsat availableUntil >>= fun _ => pure ()
  | .deactivatePackage id => deactivatePackage env id
  | .createPurchase npub packageId => s.createPurchase env npub packageId >>= fun _ => pure ()
  | .attachInvoice purchaseId invoiceId checkoutUrl payRequest =>
      attachInvoice env purchaseId invoiceId checkoutUrl payRequest
  | .markProcessing invoiceId => markProcessing env invoiceId
  | .grantByInvoice invoiceId => grantByInvoice env invoiceId
  | .voidByInvoice invoiceId status => voidByInvoice env invoiceId status
  | .settlePurchase purchaseId => settlePurchase env purchaseId
  | .createService key name port ratePpm enabled => createService env key name port ratePpm enabled
  | .ingestUsage nodeId report => ingestUsage env nodeId report >>= fun _ => pure ()
  | .aggregateUsage cutoff => aggregateUsage env cutoff >>= fun _ => pure ()
  | .compactAuthz cutoff => compactAuthz env cutoff >>= fun _ => pure ()
  | .recompute => recomputeAuthz env 0 >>= fun _ => pure ()
  | .createWgPeer sessionNpub forNpub label pubkey =>
      s.createWgPeer env sessionNpub forNpub label pubkey >>= fun _ => pure ()
  | .deleteWgPeer sessionNpub id => deleteWgPeer env sessionNpub id

/-- One call: an operation and the environment it runs in. -/
structure Call where
  env : Env
  op : Op

/-- The database after a call, whether it returned or failed. -/
def Store.call (s : Store) (db : Db) (c : Call) : Db :=
  (exec (s.method c.env c.op) db).2

/-- The database after a sequence of calls on a freshly migrated one. -/
def Store.after (s : Store) (calls : List Call) : Db :=
  calls.foldl s.call Db.empty

@[simp] theorem after_nil (s : Store) : s.after [] = Db.empty := rfl

theorem after_append_singleton (s : Store) (calls : List Call) (c : Call) :
    s.after (calls ++ [c]) = s.call (s.after calls) c := by
  simp [Store.after]

/-- What holds of the fresh database and is kept by every method holds after every
sequence of calls. -/
theorem after_invariant {s : Store} {I : Db → Prop} (base : I Db.empty)
    (kept : ∀ env op, Keeps I (s.method env op)) (calls : List Call) : I (s.after calls) := by
  induction calls using List.reverseRecOn with
  | nil => exact base
  | append_singleton calls c ih =>
      rw [after_append_singleton]
      exact (kept c.env c.op).exec ih

/-- The store as a machine, in which every call is enabled. -/
def Store.step (s : Store) (db : Db) (c : Call) : Option Db :=
  some (s.call db c)

theorem run_step (s : Store) (calls : List Call) :
    Machine.run s.step Db.empty calls = some (s.after calls) := by
  induction calls using List.reverseRecOn with
  | nil => rfl
  | append_singleton calls c ih =>
      rw [Machine.run_concat, ih, after_append_singleton]
      rfl

/-! ## A store to try things on -/

/-- A store whose identity scheme knows the test vectors of `fipsaddr`: their npubs, which
normalisation leaves as they are, have the derived addresses, and nothing else decodes. -/
def plainStore : Store where
  ident :=
    ⟨fun npub => npub,
      fun npub =>
        [(firstNpub, firstAddr), (secondNpub, secondAddr), (thirdNpub, thirdAddr)].lookup npub,
      fun _ => rfl⟩
  MaxGuests := 0
  pools := none
  MaxWgPeersPerAddr := 0

/-- An environment in which nothing fails, at a time given in microseconds. -/
def calm (now : Time) : Env :=
  ⟨fun _ => now, now * 1000, fun _ => false, MapOrder.id⟩

end FipsExitGate
