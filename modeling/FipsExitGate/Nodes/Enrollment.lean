import FipsExitGate.Fipsaddr.Sha256
import FipsExitGate.Lib.Hex
import FipsExitGate.Lib.Machine
import FipsExitGate.Lib.RowLock
import FipsExitGate.Store.Basic

/-!
# Enrollment of exit nodes

`store/nodes.go`: the operator issues one-time tokens, a node trades one for an identity, and every
later request of the node is checked against that identity.  A token may be leaked or configured
on several machines, so any number of requests may arrive with it at the same time.

Other than in `Store`, a transaction of `EnrollNode` is not one step here.  Its statements are steps
of their own, which interleave with those of other transactions; it may be lost between any two of
them, and a commit may succeed without the caller being told.  What makes a token one-time is the
row lock: `SELECT … FOR UPDATE` waits for the transaction that holds the row, and then reads what
that transaction has committed.

## Design notes

* The identities (`gen_random_uuid`) and the secrets (`rand.Read`) are arguments of the statements
  that use them; an insertion waits for another transaction that has inserted the same key.
* How a text is read as a `uuid` is a parameter.
* The columns that nothing here reads are left out: notes, and the times of creation.

## Main results

* `enrolled_once` — used tokens and nodes correspond one to one
* `credentials_exact` — what is accepted as a node's credentials is what `EnrollNode` has issued for
  a token of the operator
-/

namespace FipsExitGate

open Machine RowLock

/-! ## The tables -/

/-- `sha256Hex`. -/
def sha256Hex (s : String) : Bytes :=
  Hex.encode (Sha256.sum256 (utf8 s))

abbrev NodeId := BitVec 128

/-- A row of `enroll_tokens`, whose key is the hash of the token. -/
structure EnrollTokenRow where
  usedAt : Option Time
  nodeId : Option NodeId
  deriving DecidableEq, Repr

/-- A row of `exit_nodes`. -/
structure NodeRow where
  name : String
  nodePubkey : String
  authTokenHash : Bytes
  lastSeen : Option Time
  version : Option String
  deriving DecidableEq, Repr

/-- The arguments of `EnrollNode`. -/
structure EnrollRequest where
  enrollToken : String
  nodePubkey : String
  name : String
  deriving DecidableEq, Repr

/-- What a call of `EnrollNode` has come to. -/
inductive EnrollResult where
  /-- The transaction is committed; whether the caller learns of it. -/
  | enrolled (id : NodeId) (authToken : String) (reported : Bool)
  /-- `ErrInvalidEnrollToken`. -/
  | refused
  /-- Another error, and a rollback. -/
  | failed
  deriving DecidableEq, Repr

/-- Where a call of `EnrollNode` is; `now` is the time its transaction began at. -/
inductive Enrolling where
  | idle
  | begun (r : EnrollRequest) (now : Time)
  /-- The token is selected, for update, and was not used. -/
  | selected (r : EnrollRequest) (now : Time)
  | inserted (r : EnrollRequest) (now : Time) (id : NodeId) (authToken : String)
  | updated (r : EnrollRequest) (now : Time) (id : NodeId) (authToken : String)
  | done (r : EnrollRequest) (result : EnrollResult)
  deriving DecidableEq, Repr

namespace Enrolling

/-- The row of `enroll_tokens` that the transaction has locked. -/
def token : Enrolling → Option Bytes
  | selected r _ | inserted r _ _ _ | updated r _ _ _ => some (sha256Hex r.enrollToken)
  | _ => none

/-- The key of `exit_nodes` that it has inserted. -/
def node : Enrolling → Option NodeId
  | inserted _ _ id _ | updated _ _ id _ => some id
  | _ => none

/-- The request of a transaction that has begun and has not ended. -/
def request : Enrolling → Option EnrollRequest
  | begun r _ | selected r _ | inserted r _ _ _ | updated r _ _ _ => some r
  | _ => none

/-- The call has enrolled a node. -/
def isEnrolled : Enrolling → Bool
  | done _ (.enrolled _ _ _) => true
  | _ => false

theorem isEnrolled_of_request {p : Enrolling} {r : EnrollRequest} (inFlight : p.request = some r) :
    p.isEnrolled = false := by
  cases p with
  | idle => rfl
  | done => cases inFlight
  | _ => rfl

end Enrolling

/-! ## The machine -/

structure Registrar where
  tokens : Bytes → Option EnrollTokenRow
  nodes : NodeId → Option NodeRow
  tokenLocks : Bytes → Option Nat
  nodeLocks : NodeId → Option Nat
  calls : Nat → Enrolling

def Registrar.initial : Registrar :=
  ⟨fun _ => none, fun _ => none, fun _ => none, fun _ => none, fun _ => .idle⟩

inductive EnrollEvent where
  /-- `CreateEnrollToken`; the secret is an argument. -/
  | createToken (token : String)
  | start (t : Nat) (r : EnrollRequest) (now : Time)
  | select (t : Nat)
  | insert (t : Nat) (id : NodeId) (authToken : String)
  | update (t : Nat)
  | commit (t : Nat) (reported : Bool)
  /-- The connection or the process is lost, or the request is cancelled. -/
  | abort (t : Nat)
  /-- The statement of `Heartbeat`. -/
  | heartbeat (id : NodeId) (version : String) (now : Time)

namespace Registrar

/-- The transaction goes on. -/
def advance (w : Registrar) (t : Nat) (p : Enrolling) : Registrar :=
  { w with calls := Function.update w.calls t p }

/-- The transaction ends, and what it has locked is free. -/
def finish (w : Registrar) (t : Nat) (r : EnrollRequest) (result : EnrollResult) : Registrar :=
  { w with
    tokenLocks := free w.tokenLocks (w.calls t).token
    nodeLocks := free w.nodeLocks (w.calls t).node
    calls := Function.update w.calls t (.done r result) }

/-- What a transaction of `EnrollNode` writes. -/
def enroll (w : Registrar) (r : EnrollRequest) (now : Time) (id : NodeId) (authToken : String) :
    Registrar :=
  { w with
    nodes := Function.update w.nodes id
      (some ⟨r.name, r.nodePubkey, sha256Hex authToken, none, none⟩)
    tokens := Function.update w.tokens (sha256Hex r.enrollToken) (some ⟨some now, some id⟩) }

end Registrar

/-- One event; `none` if the statement has to wait, or is not the next one. -/
def registrarStep (w : Registrar) : EnrollEvent → Option Registrar
  | .createToken token =>
      match w.tokens (sha256Hex token) with
      | none => some { w with tokens := Function.update w.tokens (sha256Hex token) (some ⟨none, none⟩) }
      | some _ => some w
  | .start t r now =>
      match w.calls t with
      | .idle => some (w.advance t (.begun r now))
      | _ => none
  | .select t =>
      match w.calls t with
      | .begun r now =>
          match w.tokens (sha256Hex r.enrollToken), w.tokenLocks (sha256Hex r.enrollToken) with
          | none, _ => some (w.finish t r .refused)
          | some row, none =>
              if row.usedAt.isSome then some (w.finish t r .refused)
              else
                some { w.advance t (.selected r now) with
                  tokenLocks := Function.update w.tokenLocks (sha256Hex r.enrollToken) (some t) }
          | some _, some _ => none
      | _ => none
  | .insert t id authToken =>
      match w.calls t with
      | .selected r now =>
          match w.nodeLocks id, w.nodes id with
          | some _, _ => none
          | none, some _ => some (w.finish t r .failed)
          | none, none =>
              some { w.advance t (.inserted r now id authToken) with
                nodeLocks := Function.update w.nodeLocks id (some t) }
      | _ => none
  | .update t =>
      match w.calls t with
      | .inserted r now id authToken => some (w.advance t (.updated r now id authToken))
      | _ => none
  | .commit t reported =>
      match w.calls t with
      | .updated r now id authToken =>
          some ((w.enroll r now id authToken).finish t r (.enrolled id authToken reported))
      | _ => none
  | .abort t =>
      match (w.calls t).request with
      | some r => some (w.finish t r .failed)
      | none => none
  | .heartbeat id version now =>
      some { w with nodes := Function.update w.nodes id ((w.nodes id).map fun node =>
        { node with lastSeen := some now, version := some version }) }

/-- `AuthNode`; `readUuid` reads the text of an identity. -/
def Registrar.authNode (readUuid : String → Option NodeId) (w : Registrar) (nodeId token : String) :
    Bool :=
  match readUuid nodeId with
  | none => false
  | some id =>
      match w.nodes id with
      | none => false
      | some node => decide (node.authTokenHash = sha256Hex token)

/-! ## The invariant -/

/-- **The invariant.** -/
structure RegistrarInv (w : Registrar) : Prop where
  tokenLocks : Held w.tokenLocks Enrolling.token w.calls
  nodeLocks : Held w.nodeLocks Enrolling.node w.calls
  /-- A token that a transaction relies on is there and is not used. -/
  unused : ∀ t h, (w.calls t).token = some h → w.tokens h = some ⟨none, none⟩
  /-- An identity that is about to be given away is not in use. -/
  fresh : ∀ t id, (w.calls t).node = some id → w.nodes id = none
  /-- An enrollment is in both tables. -/
  recorded : ∀ t r id authToken reported,
    w.calls t = .done r (.enrolled id authToken reported) →
      (∃ node, w.nodes id = some node ∧ node.authTokenHash = sha256Hex authToken) ∧
      ∃ at', w.tokens (sha256Hex r.enrollToken) = some ⟨some at', some id⟩
  /-- A token that is not fresh is that of an enrollment. -/
  used : ∀ h row, w.tokens h = some row → row ≠ ⟨none, none⟩ →
    ∃ t r id authToken reported, w.calls t = .done r (.enrolled id authToken reported) ∧
      sha256Hex r.enrollToken = h
  /-- A node is that of an enrollment. -/
  issued : ∀ id, w.nodes id ≠ none →
    ∃ t r authToken reported, w.calls t = .done r (.enrolled id authToken reported)
  /-- An identity is given away once. -/
  single : ∀ t t' id r r' authToken authToken' reported reported',
    w.calls t = .done r (.enrolled id authToken reported) →
      w.calls t' = .done r' (.enrolled id authToken' reported') → t = t'

section Step

variable {w : Registrar}

/-- A call moves from a phase that has not enrolled a node to another one. -/
theorem calls_update {t : Nat} {p : Enrolling} (was : (w.calls t).isEnrolled = false)
    (is : p.isEnrolled = false) (t' : Nat) (r : EnrollRequest) (id : NodeId) (authToken : String)
    (reported : Bool) :
    Function.update w.calls t p t' = .done r (.enrolled id authToken reported) ↔
      w.calls t' = .done r (.enrolled id authToken reported) := by
  by_cases same : t' = t
  · rw [same, Function.update_self]
    constructor
    · intro isDone
      rw [isDone] at is
      cases is
    · intro isDone
      rw [isDone] at was
      cases was
  · rw [Function.update_of_ne same]

/-- **A call moves on without writing**: the row and the key it comes to rely on are as they
should be. -/
theorem RegistrarInv.move (inv : RegistrarInv w) {t : Nat} {p : Enrolling}
    {tokenLocks : Bytes → Option Nat} {nodeLocks : NodeId → Option Nat}
    (heldTokens : Held tokenLocks Enrolling.token (Function.update w.calls t p))
    (heldNodes : Held nodeLocks Enrolling.node (Function.update w.calls t p))
    (was : (w.calls t).isEnrolled = false) (is : p.isEnrolled = false)
    (unused : ∀ h, p.token = some h → w.tokens h = some ⟨none, none⟩)
    (fresh : ∀ id, p.node = some id → w.nodes id = none) :
    RegistrarInv { w with
      tokenLocks := tokenLocks
      nodeLocks := nodeLocks
      calls := Function.update w.calls t p } := by
  have same := calls_update was is
  have unused' := (Function.forall_update_iff (a := t) w.calls fun _ q => ∀ h, q.token = some h →
    w.tokens h = some ⟨none, none⟩).mpr ⟨unused, fun t' _ => inv.unused t'⟩
  have fresh' := (Function.forall_update_iff (a := t) w.calls fun _ q => ∀ id, q.node = some id →
    w.nodes id = none).mpr ⟨fresh, fun t' _ => inv.fresh t'⟩
  refine ⟨heldTokens, heldNodes, unused', fresh', fun t' r id authToken reported isDone => ?_,
    fun h row isRow notFresh => ?_, fun id known => ?_, ?_⟩
  · exact inv.recorded t' r id authToken reported ((same ..).mp isDone)
  · obtain ⟨t', r, id, authToken, reported, isDone, isIts⟩ := inv.used h row isRow notFresh
    exact ⟨t', r, id, authToken, reported, (same ..).mpr isDone, isIts⟩
  · obtain ⟨t', r, authToken, reported, isDone⟩ := inv.issued id known
    exact ⟨t', r, authToken, reported, (same ..).mpr isDone⟩
  · intro t₁ t₂ id r r' authToken authToken' reported reported' first second
    exact inv.single t₁ t₂ id r r' authToken authToken' reported reported' ((same ..).mp first)
      ((same ..).mp second)

/-- A transaction that ends without a commit. -/
theorem RegistrarInv.rollback (inv : RegistrarInv w) {t : Nat} {r : EnrollRequest}
    (inFlight : (w.calls t).request = some r) {result : EnrollResult}
    (unchanged : (Enrolling.done r result).isEnrolled = false) :
    RegistrarInv (w.finish t r result) := by
  refine inv.move (inv.tokenLocks.release rfl) (inv.nodeLocks.release rfl)
    (Enrolling.isEnrolled_of_request inFlight) unchanged ?_ ?_
  · rintro h ⟨⟩
  · rintro id ⟨⟩

/-- **The commit of an enrollment.** -/
theorem RegistrarInv.commit (inv : RegistrarInv w) {t : Nat} {r : EnrollRequest} {now : Time}
    {id : NodeId} {authToken : String} (isUpdated : w.calls t = .updated r now id authToken)
    (reported : Bool) :
    RegistrarInv ((w.enroll r now id authToken).finish t r (.enrolled id authToken reported)) := by
  have isToken : (w.calls t).token = some (sha256Hex r.enrollToken) := by rw [isUpdated]; rfl
  have isNode : (w.calls t).node = some id := by rw [isUpdated]; rfl
  have unused := inv.unused t _ isToken
  have fresh := inv.fresh t _ isNode
  -- the row and the key are this transaction's alone
  have otherToken : ∀ t' h, t' ≠ t → (w.calls t').token = some h → h ≠ sha256Hex r.enrollToken :=
    fun t' h other relies isIt => other (inv.tokenLocks.unique relies (isIt ▸ isToken))
  have otherNode : ∀ t' id', t' ≠ t → (w.calls t').node = some id' → id' ≠ id :=
    fun t' id' other relies isIt => other (inv.nodeLocks.unique relies (isIt ▸ isNode))
  -- and no enrollment before has used either
  have oldToken : ∀ {t' r' id' authToken' reported'},
      w.calls t' = .done r' (.enrolled id' authToken' reported') →
        sha256Hex r'.enrollToken ≠ sha256Hex r.enrollToken := by
    intro t' r' id' authToken' reported' isDone isIt
    obtain ⟨-, at', row⟩ := inv.recorded t' r' id' authToken' reported' isDone
    rw [isIt, unused] at row
    cases row
  have oldNode : ∀ {t' r' id' authToken' reported'},
      w.calls t' = .done r' (.enrolled id' authToken' reported') → id' ≠ id := by
    intro t' r' id' authToken' reported' isDone isIt
    obtain ⟨⟨node, isRow, -⟩, -⟩ := inv.recorded t' r' id' authToken' reported' isDone
    rw [isIt, fresh] at isRow
    cases isRow
  have old : ∀ {t' r' id' authToken' reported'},
      w.calls t' = .done r' (.enrolled id' authToken' reported') → t' ≠ t := by
    intro t' r' id' authToken' reported' isDone isIt
    rw [isIt, isUpdated] at isDone
    cases isDone
  have here : Function.update w.calls t (.done r (.enrolled id authToken reported)) t =
      .done r (.enrolled id authToken reported) := Function.update_self ..
  have there : ∀ {t'}, t' ≠ t →
      Function.update w.calls t (.done r (.enrolled id authToken reported)) t' = w.calls t' :=
    fun other => Function.update_of_ne other ..
  refine ⟨inv.tokenLocks.release rfl, inv.nodeLocks.release rfl, fun t' h relies => ?_,
    fun t' id' relies => ?_, fun t' r' id' authToken' reported' isDone => ?_,
    fun h row isRow notFresh => ?_, fun id' known => ?_, ?_⟩
  · by_cases isIt : t' = t
    · rw [isIt] at relies
      cases (congrArg Enrolling.token here).symm.trans relies
    · have relies' := (congrArg Enrolling.token (there isIt)).symm.trans relies
      exact (Function.update_of_ne (otherToken t' h isIt relies') ..).trans (inv.unused t' h relies')
  · by_cases isIt : t' = t
    · rw [isIt] at relies
      cases (congrArg Enrolling.node here).symm.trans relies
    · have relies' := (congrArg Enrolling.node (there isIt)).symm.trans relies
      exact (Function.update_of_ne (otherNode t' id' isIt relies') ..).trans
        (inv.fresh t' id' relies')
  · by_cases isIt : t' = t
    · rw [isIt] at isDone
      cases here.symm.trans isDone
      exact ⟨⟨_, Function.update_self .., rfl⟩, now, Function.update_self ..⟩
    · have isDone' := (there isIt).symm.trans isDone
      obtain ⟨⟨node, isNode, hash⟩, at', isRow⟩ := inv.recorded t' r' id' authToken' reported' isDone'
      exact ⟨⟨node, (Function.update_of_ne (oldNode isDone') ..).trans isNode, hash⟩, at',
        (Function.update_of_ne (oldToken isDone') ..).trans isRow⟩
  · by_cases isIt : h = sha256Hex r.enrollToken
    · exact ⟨t, r, id, authToken, reported, here, isIt.symm⟩
    · have isRow' : w.tokens h = some row := (Function.update_of_ne isIt ..).symm.trans isRow
      obtain ⟨t', r', id', authToken', reported', isDone, isIts⟩ := inv.used h row isRow' notFresh
      exact ⟨t', r', id', authToken', reported', (there (old isDone)).trans isDone, isIts⟩
  · by_cases isIt : id' = id
    · exact ⟨t, r, authToken, reported, isIt ▸ here⟩
    · have known' : w.nodes id' ≠ none := fun isNone =>
        known ((Function.update_of_ne isIt ..).trans isNone)
      obtain ⟨t', r', authToken', reported', isDone⟩ := inv.issued id' known'
      exact ⟨t', r', authToken', reported', (there (old isDone)).trans isDone⟩
  · intro t₁ t₂ id' r₁ r₂ authToken₁ authToken₂ reported₁ reported₂ first second
    by_cases isFirst : t₁ = t
    · rw [isFirst] at first ⊢
      cases here.symm.trans first
      by_contra other
      exact oldNode ((there (Ne.symm other)).symm.trans second) rfl
    · have first' := (there isFirst).symm.trans first
      by_cases isSecond : t₂ = t
      · rw [isSecond] at second
        cases here.symm.trans second
        exact absurd rfl (oldNode first')
      · exact inv.single t₁ t₂ id' r₁ r₂ authToken₁ authToken₂ reported₁ reported₂ first'
          ((there isSecond).symm.trans second)

theorem RegistrarInv.createToken (inv : RegistrarInv w) {h : Bytes} (new : w.tokens h = none) :
    RegistrarInv { w with tokens := Function.update w.tokens h (some ⟨none, none⟩) } := by
  have kept : ∀ {h' row}, w.tokens h' = some row →
      Function.update w.tokens h (some ⟨none, none⟩) h' = some row := by
    intro h' row isRow
    have other : h' ≠ h := by
      intro isIt
      rw [isIt, new] at isRow
      cases isRow
    rw [Function.update_of_ne other]
    exact isRow
  refine ⟨inv.tokenLocks, inv.nodeLocks, fun t h' relies => kept (inv.unused t h' relies),
    inv.fresh, fun t r id authToken reported isDone => ?_, fun h' row isRow notFresh => ?_,
    inv.issued, inv.single⟩
  · obtain ⟨node, at', isRow⟩ := inv.recorded t r id authToken reported isDone
    exact ⟨node, at', kept isRow⟩
  · by_cases isIt : h' = h
    · rw [isIt] at isRow
      cases (Function.update_self ..).symm.trans isRow
      exact absurd rfl notFresh
    · exact inv.used h' row ((Function.update_of_ne isIt ..).symm.trans isRow) notFresh

theorem RegistrarInv.heartbeat (inv : RegistrarInv w) (id : NodeId) {f : NodeRow → NodeRow}
    (sameHash : ∀ node, (f node).authTokenHash = node.authTokenHash) :
    RegistrarInv { w with nodes := Function.update w.nodes id ((w.nodes id).map f) } := by
  have kept : ∀ id', Function.update w.nodes id ((w.nodes id).map f) id' = none ↔
      w.nodes id' = none := by
    intro id'
    by_cases isIt : id' = id
    · rw [isIt, Function.update_self, Option.map_eq_none_iff]
    · rw [Function.update_of_ne isIt]
  refine ⟨inv.tokenLocks, inv.nodeLocks, inv.unused,
    fun t id' relies => (kept id').mpr (inv.fresh t id' relies),
    fun t r id' authToken reported isDone => ?_, inv.used,
    fun id' known => inv.issued id' fun isNone => known ((kept id').mpr isNone), inv.single⟩
  obtain ⟨⟨node, isNode, hash⟩, row⟩ := inv.recorded t r id' authToken reported isDone
  refine ⟨?_, row⟩
  by_cases isIt : id' = id
  · refine ⟨f node, ?_, (sameHash node).trans hash⟩
    rw [← isIt, isNode]
    exact Function.update_self ..
  · exact ⟨node, (Function.update_of_ne isIt ..).trans isNode, hash⟩

/-- **Step.** -/
theorem registrarInv_step {w' : Registrar} {e : EnrollEvent} (inv : RegistrarInv w)
    (h : registrarStep w e = some w') : RegistrarInv w' := by
  cases e with
  | createToken token =>
      simp only [registrarStep] at h
      split at h
      · rename_i new
        cases h
        exact inv.createToken new
      · cases h
        exact inv
  | start t r now =>
      simp only [registrarStep] at h
      split at h
      · rename_i isIdle
        cases h
        refine inv.move (inv.tokenLocks.keep ?_) (inv.nodeLocks.keep ?_) ?_ rfl ?_ ?_
        · rintro _ ⟨⟩
        · rintro _ ⟨⟩
        · rw [isIdle]
          rfl
        · rintro _ ⟨⟩
        · rintro _ ⟨⟩
      · cases h
  | select t =>
      simp only [registrarStep] at h
      split at h
      · rename_i r now isBegun
        have inFlight : (w.calls t).request = some r := by rw [isBegun]; rfl
        split at h
        · cases h
          exact inv.rollback inFlight rfl
        · rename_i row isRow isFree
          split at h
          · cases h
            exact inv.rollback inFlight rfl
          · rename_i notUsed
            cases h
            -- the row is as it was created: nothing but an enrollment writes it
            have unused : w.tokens (sha256Hex r.enrollToken) = some ⟨none, none⟩ := by
              by_contra isOther
              obtain ⟨t', r', id, authToken, reported, isDone, isIts⟩ :=
                inv.used _ row isRow fun isIt => isOther (isIt ▸ isRow)
              obtain ⟨-, at', isUsed⟩ := inv.recorded t' r' id authToken reported isDone
              rw [isIts, isRow] at isUsed
              cases isUsed
              exact notUsed rfl
            refine inv.move (inv.tokenLocks.take isFree rfl) (inv.nodeLocks.keep ?_)
              (Enrolling.isEnrolled_of_request inFlight) rfl ?_ ?_
            · rintro _ ⟨⟩
            · rintro _ ⟨⟩
              exact unused
            · rintro _ ⟨⟩
        · cases h
      · cases h
  | insert t id authToken =>
      simp only [registrarStep] at h
      split at h
      · rename_i r now isSelected
        have inFlight : (w.calls t).request = some r := by rw [isSelected]; rfl
        have isToken : (w.calls t).token = some (sha256Hex r.enrollToken) := by
          rw [isSelected]
          rfl
        split at h
        · cases h
        · cases h
          exact inv.rollback inFlight rfl
        · rename_i isFree isNew
          cases h
          refine inv.move (inv.tokenLocks.keep ?_) (inv.nodeLocks.take isFree rfl)
            (Enrolling.isEnrolled_of_request inFlight) rfl ?_ ?_
          · rintro _ ⟨⟩
            exact isToken
          · rintro _ ⟨⟩
            exact inv.unused t _ isToken
          · rintro _ ⟨⟩
            exact isNew
      · cases h
  | update t =>
      simp only [registrarStep] at h
      split at h
      · rename_i r now id authToken isInserted
        cases h
        have isToken : (w.calls t).token = some (sha256Hex r.enrollToken) := by
          rw [isInserted]
          rfl
        have isNode : (w.calls t).node = some id := by rw [isInserted]; rfl
        refine inv.move (inv.tokenLocks.keep ?_) (inv.nodeLocks.keep ?_) ?_ rfl ?_ ?_
        · rintro _ ⟨⟩
          exact isToken
        · rintro _ ⟨⟩
          exact isNode
        · rw [isInserted]
          rfl
        · rintro _ ⟨⟩
          exact inv.unused t _ isToken
        · rintro _ ⟨⟩
          exact inv.fresh t _ isNode
      · cases h
  | commit t reported =>
      simp only [registrarStep] at h
      split at h
      · rename_i r now id authToken isUpdated
        cases h
        exact inv.commit isUpdated reported
      · cases h
  | abort t =>
      simp only [registrarStep] at h
      split at h
      · rename_i r inFlight
        cases h
        exact inv.rollback inFlight rfl
      · cases h
  | heartbeat id version now =>
      cases h
      exact inv.heartbeat id fun _ => rfl

end Step

theorem registrarInv_initial : RegistrarInv Registrar.initial := by
  constructor <;> intros <;> simp_all [Registrar.initial, Held, Enrolling.token, Enrolling.node]

/-- **Run.** -/
theorem run_registrarInv {es : List EnrollEvent} {w : Registrar}
    (reached : run registrarStep Registrar.initial es = some w) : RegistrarInv w :=
  run_invariant (fun _ _ _ inv h => registrarInv_step inv h) es registrarInv_initial reached

/-! ## Tokens and nodes -/

/-- **A token is good for one node.**  In every state that is reached, however the statements of
any number of requests interleave and wherever they are cut off: every node belongs to exactly one
token, a token is marked as used exactly if the node it is linked to is there, and no two requests
have enrolled a node with one token. -/
theorem enrolled_once (es : List EnrollEvent) {w : Registrar}
    (reached : run registrarStep Registrar.initial es = some w) :
    (∀ id, w.nodes id ≠ none → ∃! h, ∃ row, w.tokens h = some row ∧ row.nodeId = some id) ∧
    (∀ h row, w.tokens h = some row →
      (row.usedAt ≠ none ↔ ∃ id, row.nodeId = some id ∧ w.nodes id ≠ none)) ∧
    (∀ t t' r r' id id' authToken authToken' reported reported',
      w.calls t = .done r (.enrolled id authToken reported) →
      w.calls t' = .done r' (.enrolled id' authToken' reported') →
      sha256Hex r.enrollToken = sha256Hex r'.enrollToken → t = t') := by
  have inv := run_registrarInv reached
  refine ⟨fun id known => ?_, fun h row isRow => ?_, ?_⟩
  · obtain ⟨t, r, authToken, reported, isDone⟩ := inv.issued id known
    obtain ⟨-, at', isRow⟩ := inv.recorded t r id authToken reported isDone
    refine ⟨sha256Hex r.enrollToken, ⟨_, isRow, rfl⟩, ?_⟩
    rintro h ⟨row, isRow', linked⟩
    -- another token with this node would be that of the same call
    have notFresh : row ≠ ⟨none, none⟩ := by
      rintro rfl
      cases linked
    obtain ⟨t', r', id', authToken', reported', isDone', isIts⟩ := inv.used h row isRow' notFresh
    obtain ⟨-, at'', isRow''⟩ := inv.recorded t' r' id' authToken' reported' isDone'
    rw [isIts, isRow'] at isRow''
    cases isRow''
    cases linked
    have same := inv.single t' t id r' r authToken' authToken reported' reported isDone' isDone
    rw [same, isDone] at isDone'
    cases isDone'
    exact isIts.symm
  · by_cases isFresh : row = ⟨none, none⟩
    · subst isFresh
      refine iff_of_false (fun used => used rfl) ?_
      rintro ⟨id, ⟨⟩, -⟩
    · obtain ⟨t, r, id, authToken, reported, isDone, isIts⟩ := inv.used h row isRow isFresh
      obtain ⟨⟨node, isNode, -⟩, at', isRow'⟩ := inv.recorded t r id authToken reported isDone
      rw [isIts, isRow] at isRow'
      cases isRow'
      refine iff_of_true (Option.some_ne_none at') ⟨id, rfl, ?_⟩
      rw [isNode]
      exact Option.some_ne_none node
  · intro t t' r r' id id' authToken authToken' reported reported' first second same
    obtain ⟨-, at', isRow⟩ := inv.recorded t r id authToken reported first
    obtain ⟨-, at'', isRow'⟩ := inv.recorded t' r' id' authToken' reported' second
    rw [same, isRow'] at isRow
    cases isRow
    exact inv.single t t' id r r' authToken authToken' reported reported' first second

/-- Two machines are configured with one token; the answer to the first is lost. -/
def sharedToken : List EnrollEvent :=
  [.createToken "token", .start 0 ⟨"token", "first", "exit"⟩ 1, .start 1 ⟨"token", "second", "exit"⟩ 2,
    .select 0, .insert 0 7 "secret", .update 0, .commit 0 false, .select 1]

theorem enrolled_once_sharedToken :
    ∃ w, run registrarStep Registrar.initial sharedToken = some w ∧
      w.calls 1 = .done ⟨"token", "second", "exit"⟩ .refused ∧
      ∃! h, ∃ row, w.tokens h = some row ∧ row.nodeId = some 7 := by
  have evaluated : ∃ w, run registrarStep Registrar.initial sharedToken = some w ∧
      w.calls 1 = .done ⟨"token", "second", "exit"⟩ .refused ∧ w.nodes 7 ≠ none := by
    simp [run, sharedToken, registrarStep, Registrar.initial, Registrar.advance, Registrar.finish,
      Registrar.enroll, Enrolling.token, Enrolling.node, free]
  obtain ⟨w, reached, refused, known⟩ := evaluated
  exact ⟨w, reached, refused, (enrolled_once sharedToken reached).1 7 known⟩

/-! ## Credentials -/

/-- Every token in the table was issued by the operator. -/
def Issued (es : List EnrollEvent) (w : Registrar) : Prop :=
  ∀ h, w.tokens h ≠ none → ∃ token, .createToken token ∈ es ∧ sha256Hex token = h

section Credentials

variable {w : Registrar} {es : List EnrollEvent}

theorem Issued.concat (issued : Issued es w) {w' : Registrar} (e : EnrollEvent)
    (old : ∀ h, w'.tokens h ≠ none → w.tokens h ≠ none) : Issued (es ++ [e]) w' := by
  intro h known
  obtain ⟨token, created, isIts⟩ := issued h (old h known)
  exact ⟨token, List.mem_append_left _ created, isIts⟩

/-- **Step**: only `CreateEnrollToken` makes a token. -/
theorem issued_step {w' : Registrar} {e : EnrollEvent} (inv : RegistrarInv w)
    (issued : Issued es w) (h : registrarStep w e = some w') : Issued (es ++ [e]) w' := by
  have same : w'.tokens = w.tokens → Issued (es ++ [e]) w' := fun isIt =>
    issued.concat e fun h known => isIt ▸ known
  cases e with
  | createToken token =>
      simp only [registrarStep] at h
      split at h
      · cases h
        intro h known
        by_cases isIt : h = sha256Hex token
        · exact ⟨token, List.mem_append_right _ (List.mem_singleton_self _), isIt.symm⟩
        · have old : w.tokens h ≠ none := fun isNone =>
            known ((Function.update_of_ne isIt ..).trans isNone)
          obtain ⟨token', created, isIts⟩ := issued h old
          exact ⟨token', List.mem_append_left _ created, isIts⟩
      · cases h
        exact same rfl
  | commit t reported =>
      simp only [registrarStep] at h
      split at h
      · rename_i r now id authToken isUpdated
        cases h
        refine issued.concat _ fun h known isNone => ?_
        -- the row that is written was there
        have unused := inv.unused t (sha256Hex r.enrollToken) (by rw [isUpdated]; rfl)
        by_cases isIt : h = sha256Hex r.enrollToken
        · rw [isIt, unused] at isNone
          cases isNone
        · exact known ((Function.update_of_ne isIt ..).trans isNone)
      · cases h
  | _ =>
      simp only [registrarStep] at h
      repeat' split at h
      all_goals cases h <;> exact same rfl

theorem run_issued (reached : run registrarStep Registrar.initial es = some w) : Issued es w := by
  have base : Issued [] Registrar.initial := fun h known => absurd rfl known
  exact run_history base (fun _ _ _ _ reached issued h =>
    issued_step (run_registrarInv reached) issued h) es reached

/-- A call that is done stays as it is. -/
theorem done_step {w' : Registrar} {e : EnrollEvent} (h : registrarStep w e = some w') {t : Nat}
    {r : EnrollRequest} {result : EnrollResult} (isDone : w.calls t = .done r result) :
    w'.calls t = .done r result := by
  have moved : ∀ {t' was is}, w.calls t' = was → was ≠ .done r result →
      Function.update w.calls t' is t = .done r result := by
    intro t' was is isPhase other
    have apart : t ≠ t' := fun isIt => other (isPhase.symm.trans (isIt ▸ isDone))
    rw [Function.update_of_ne apart]
    exact isDone
  cases e with
  | createToken | heartbeat =>
      simp only [registrarStep] at h
      repeat' split at h
      all_goals cases h
      all_goals exact isDone
  | abort t' =>
      simp only [registrarStep] at h
      split at h
      · rename_i r' inFlight
        cases h
        refine moved rfl fun isIt => ?_
        rw [isIt] at inFlight
        cases inFlight
      · cases h
  | _ =>
      simp only [registrarStep] at h
      split at h
      · rename_i isPhase
        repeat' split at h
        all_goals cases h
        all_goals exact moved isPhase (by rintro ⟨⟩)
      · cases h

theorem authNode_eq_true {readUuid : String → Option NodeId} {nodeId token : String} :
    w.authNode readUuid nodeId token = true ↔
      ∃ id node, readUuid nodeId = some id ∧ w.nodes id = some node ∧
        node.authTokenHash = sha256Hex token := by
  unfold Registrar.authNode
  constructor
  · intro accepted
    split at accepted
    · cases accepted
    rename_i id isId
    split at accepted
    · cases accepted
    rename_i node isNode
    exact ⟨id, node, isId, isNode, of_decide_eq_true accepted⟩
  · rintro ⟨id, node, isId, isNode, hash⟩
    rw [isId]
    dsimp only
    rw [isNode]
    exact decide_eq_true hash

end Credentials

/-- **What is accepted is what was issued.**  In every state that is reached, `AuthNode` accepts a
name and a secret exactly if some request has enrolled a node of that name and the secret has the
hash of the one it was given.  Such a request has traded in a token of the operator, and its
credentials are accepted from then on. -/
theorem credentials_exact (readUuid : String → Option NodeId) (es : List EnrollEvent) {w : Registrar}
    (reached : run registrarStep Registrar.initial es = some w) :
    (∀ nodeId token, w.authNode readUuid nodeId token = true ↔
      ∃ t r id authToken reported, w.calls t = .done r (.enrolled id authToken reported) ∧
        readUuid nodeId = some id ∧ sha256Hex token = sha256Hex authToken) ∧
    (∀ t r id authToken reported, w.calls t = .done r (.enrolled id authToken reported) →
      (∃ token, .createToken token ∈ es ∧ sha256Hex token = sha256Hex r.enrollToken) ∧
      ∀ es' w', run registrarStep w es' = some w' → ∀ nodeId, readUuid nodeId = some id →
        w'.authNode readUuid nodeId authToken = true) := by
  have inv := run_registrarInv reached
  refine ⟨fun nodeId token => ?_, fun t r id authToken reported isDone => ⟨?_, ?_⟩⟩
  · rw [authNode_eq_true]
    constructor
    · rintro ⟨id, node, isId, isNode, hash⟩
      have known : w.nodes id ≠ none := by
        rw [isNode]
        exact Option.some_ne_none node
      obtain ⟨t, r, authToken, reported, isDone⟩ := inv.issued id known
      obtain ⟨⟨node', isNode', hash'⟩, -⟩ := inv.recorded t r id authToken reported isDone
      cases isNode.symm.trans isNode'
      exact ⟨t, r, id, authToken, reported, isDone, isId, hash.symm.trans hash'⟩
    · rintro ⟨t, r, id, authToken, reported, isDone, isId, same⟩
      obtain ⟨⟨node, isNode, hash⟩, -⟩ := inv.recorded t r id authToken reported isDone
      exact ⟨id, node, isId, isNode, hash.trans same.symm⟩
  · obtain ⟨-, at', isRow⟩ := inv.recorded t r id authToken reported isDone
    refine run_issued reached _ ?_
    rw [isRow]
    exact Option.some_ne_none _
  · intro es' w' later nodeId isId
    have inv' := run_registrarInv (run_append_of_run reached later)
    have isDone' : w'.calls t = .done r (.enrolled id authToken reported) :=
      run_invariant (fun w₁ _ _ isDone h => done_step h isDone) es' isDone later
    obtain ⟨⟨node, isNode, hash⟩, -⟩ := inv'.recorded t r id authToken reported isDone'
    exact authNode_eq_true.mpr ⟨id, node, isId, isNode, hash⟩

/-- The first machine, had it not lost its answer, would be let in; and so is whoever finds it. -/
theorem credentials_exact_sharedToken :
    ∃ w, run registrarStep Registrar.initial sharedToken = some w ∧
      w.authNode (fun _ => some 7) "7" "secret" = true := by
  have evaluated : ∃ w, run registrarStep Registrar.initial sharedToken = some w ∧
      w.calls 0 = .done ⟨"token", "first", "exit"⟩ (.enrolled 7 "secret" false) := by
    simp [run, sharedToken, registrarStep, Registrar.initial, Registrar.advance, Registrar.finish,
      Registrar.enroll, Enrolling.token, Enrolling.node, free]
  obtain ⟨w, reached, isDone⟩ := evaluated
  have exact' := credentials_exact (fun _ => some 7) sharedToken reached
  exact ⟨w, reached, (exact'.1 "7" "secret").mpr ⟨0, _, 7, _, _, isDone, rfl, rfl⟩⟩

end FipsExitGate
