import FipsExitGate.Portal.Buy
import FipsExitGate.Portal.CaptiveToken
import FipsExitGate.Portal.Login

/-!
# Sessions

`session.go`, and the three ways to a session in `portal.go`: a signed challenge (`authVerify`), a
request from a mesh address, which authenticates the identity it is derived from (`authFips`), and
the same on the way to the packages (`packagesPage`).

A session is not stored.  It is a cookie of three texts separated by dots: the npub in base64, the
time it ends at, and a MAC over both.  None of the three has a dot in it, so a cookie that was set
is read back, and a payload belongs to one npub and one time only.

That a MAC cannot be forged is nothing that can be proved.  What is proved is that there is no other
way in: a cookie that is accepted has a MAC that the portal has computed itself, or a forged one
(`Forged`).  The portal computes MACs of this form for the login challenges, too, and with the same
key if `SESSION_SECRET` and `CHALLENGE_SECRET` are the same, as they are in the example
configuration.  A challenge is then accepted as a session, but one of the nonce in it.

## Design notes

* `sourceAddr` is `none` also where an index is out of range and the handler panics: no session is
  set then.
* The cookie's attributes, and how `net/http` finds the cookie in a request, are left out.

## Main results

* `session_exact` — a session is the one of a login, for a week
-/

namespace FipsExitGate

open Program Table Nostr

/-! ## The cookie -/

def sessionTTLHours : Int := 24 * 7

/-- The time a session ends at that is set at `now`. -/
def sessionExpiry (now : Clock) : Int := wrap64 (now.unix + sessionTTLHours * 3600)

/-- `sessionMAC`. -/
def sessionMAC (secret msg : Bytes) : Bytes :=
  base64RawURL ((hmacSha256 secret msg).take 16)

theorem dot_not_mem_sessionMAC (secret msg : Bytes) : 0x2e ∉ sessionMAC secret msg :=
  dot_not_mem_base64RawURL _

/-- What is signed of a session. -/
def sessionPayload (npub : String) (now : Clock) : Bytes :=
  base64RawURL (utf8 npub) ++ 0x2e :: Decimal.formatInt (sessionExpiry now)

/-- The value of the cookie that `setSession` sets. -/
def setSession (secret : Bytes) (npub : String) (now : Clock) : Bytes :=
  sessionPayload npub now ++ 0x2e :: sessionMAC secret (sessionPayload npub now)

/-- `session`: whom a cookie stands for. -/
def session (secret : Bytes) (cookie : Option Bytes) (now : Clock) : Option Bytes :=
  match cookie with
  | none => none
  | some value =>
      match splitByte 0x2e value with
      | [npubText, expText, mac] =>
          if mac ≠ sessionMAC secret (npubText ++ 0x2e :: expText) then none
          else
            match parseInt64 expText with
            | none => none
            | some exp =>
                if exp < now.unix then none
                else
                  match Base64.decode Captivetoken.rawURLEncoding npubText with
                  | .error _ => none
                  | .ok npub => some npub
      | _ => none

theorem sessionExpiry_eq (now : Clock) : sessionExpiry now = now.unix + 604800 := by
  have low := now.min
  have high := now.max
  exact wrap64_of_mem (by unfold sessionTTLHours; omega) (by unfold sessionTTLHours; omega)

theorem parseInt64_sessionExpiry (now : Clock) :
    parseInt64 (Decimal.formatInt (sessionExpiry now)) = some (now.unix + 604800) := by
  have low := now.min
  have high := now.max
  rw [sessionExpiry_eq, parseInt64_formatInt (by omega) (by omega)]

/-- **What is set is read back**, until it ends. -/
theorem session_setSession (secret : Bytes) (npub : String) (set now : Clock) :
    session secret (some (setSession secret npub set)) now =
      if set.unix + 604800 < now.unix then none else some (utf8 npub) := by
  have parts : splitByte 0x2e (setSession secret npub set) =
      [base64RawURL (utf8 npub), Decimal.formatInt (sessionExpiry set),
        sessionMAC secret (sessionPayload npub set)] := by
    rw [setSession, sessionPayload, List.append_assoc, List.cons_append, splitByte_append,
      splitByte_append, splitByte_of_not_mem (dot_not_mem_base64RawURL _),
      splitByte_of_not_mem (dot_not_mem_formatInt _),
      splitByte_of_not_mem (dot_not_mem_sessionMAC _ _)]
    rfl
  rw [session, parts]
  dsimp only
  rw [if_neg (by simp [sessionPayload]), parseInt64_sessionExpiry]
  dsimp only
  rw [Captivetoken.decode_base64RawURL]

/-- **What is accepted**: a MAC over the very texts that the npub and the time are read from. -/
theorem of_session {secret cookie who : Bytes} {now : Clock}
    (accepted : session secret (some cookie) now = some who) :
    ∃ npubText expText exp, 0x2e ∉ npubText ∧
      cookie = (npubText ++ 0x2e :: expText) ++
        0x2e :: sessionMAC secret (npubText ++ 0x2e :: expText) ∧
      parseInt64 expText = some exp ∧ now.unix ≤ exp ∧
      Base64.decode Captivetoken.rawURLEncoding npubText = .ok who := by
  unfold session at accepted
  dsimp only at accepted
  split at accepted
  · rename_i npubText expText mac split
    split at accepted
    · cases accepted
    rename_i signed
    split at accepted
    · cases accepted
    rename_i exp isExp
    split at accepted
    · cases accepted
    rename_i fresh
    split at accepted
    · cases accepted
    rename_i npub decoded
    cases accepted
    have joined := joinByte_splitByte 0x2e cookie
    rw [split, not_not.mp signed] at joined
    refine ⟨npubText, expText, exp, ?_, ?_, isExp, Int.not_lt.mp fresh, decoded⟩
    · exact not_mem_of_mem_splitByte (split ▸ List.mem_cons_self)
    · rw [← joined]
      simp [joinByte]
  · cases accepted

/-! ## The way in from a mesh address -/

/-- What `splitHostPort` returns, the port left out. -/
inductive SplitHost where
  | host (h : Bytes)
  | failed
  /-- An index is out of range. -/
  | panics
  deriving DecidableEq, Repr

/-- `splitHostPort`. -/
def Portal.splitHostPort (hostport : Bytes) : SplitHost :=
  match lastIndexByte hostport 0x3a with
  | none => .failed
  | some i =>
      if [0x5b].isPrefixOf hostport then
        match hostport.idxOf? 0x5d with
        | none => .failed
        | some close =>
            -- `hostport[end+2:]`
            if hostport.length < close + 2 then .panics
            else .host ((hostport.take close).drop 1)
      else .host (hostport.take i)

/-- `sourceAddr`. -/
def sourceAddr (remoteAddr : Bytes) : Option Inet.Parsed :=
  match Portal.splitHostPort remoteAddr with
  | .host h => Inet.parseAddr h
  | .failed => Inet.parseAddr remoteAddr
  | .panics => none

/-- `fipsaddr.Valid`: in `fd00::/8`, which has no address with a zone in it. -/
def Fipsaddr.valid : Inet.Parsed → Bool
  | .v6 (group :: _) [] => decide (group / 256 = 0xfd)
  | _ => false

/-- `fipsaddr.CheckDerivation` of a valid address. -/
def Identity.checkDerivation (ident : Identity) (npub : String) (src : Inet.Parsed) : Bool :=
  match ident.fromNpub npub with
  | none => false
  | some derived => decide (Agent.netip derived = src)

/-- The active rows of an address, the owner's before the others. -/
def Db.rowsByAddr (db : Db) (src : Inet.Parsed) : List WhitelistEntry :=
  let rows := db.whitelist.filter fun w => decide (Agent.netip w.fipsAddr = src) && w.active
  (rows.filter fun w => decide (w.role = .owner)) ++ rows.filter fun w => decide (w.role ≠ .owner)

/-- `NpubByAddr`. -/
def npubByAddr (env : Env) (src : Inet.Parsed) : StoreM String :=
  inTx env 0 fun _ => do
    let db ← get
    match db.rowsByAddr src with
    | w :: _ => return w.npub
    | [] => throw .accountNotFound

/-- The portal, with what its sessions need. -/
structure SessionPortal extends Portal where
  sessionSecret : Bytes
  trustFipsSource : Bool

/-- A request that may come from a mesh address. -/
structure FipsRequest where
  remoteAddr : Bytes
  /-- `r.FormValue("npub")`. -/
  claim : String
  /-- What `NpubByAddr` finds. -/
  lookupEnv : Env
  /-- What `CreateAccount` finds. -/
  env : Env

/-- `transparentNpub`. -/
def SessionPortal.transparentNpub (p : SessionPortal) (db : Db) (req : FipsRequest) : Option String :=
  if !p.trustFipsSource then none
  else
    match sourceAddr req.remoteAddr with
    | none => none
    | some src =>
        if !Fipsaddr.valid src then none
        else if req.claim ≠ "" then
          if p.store.ident.checkDerivation req.claim src then some req.claim else none
        else
          match exec (npubByAddr req.lookupEnv src) db with
          | (.error _, _) => none
          | (.ok npub, _) => some npub

/-- `authFips`: the npub a session is set for. -/
def SessionPortal.authFips (p : SessionPortal) (db : Db) (req : FipsRequest) : Option String × Db :=
  match p.transparentNpub db req with
  | none => (none, db)
  | some npub =>
      match exec (p.store.createAccount req.env npub) db with
      | (.error _, db) => (none, db)
      | (.ok _, db) => (some npub, db)

/-- `packagesPage`, as far as its session goes. -/
def SessionPortal.packagesPage (p : SessionPortal) (db : Db) (cookie : Option Bytes)
    (req : FipsRequest) (now : Clock) : Option String :=
  match session p.sessionSecret cookie now with
  | some _ => none
  | none => p.transparentNpub db req

theorem of_npubByAddr {env : Env} {src : Inet.Parsed} {db db' : Db} {npub : String}
    (found : exec (npubByAddr env src) db = (.ok npub, db')) :
    ∃ w ∈ db.whitelist, Agent.netip w.fipsAddr = src ∧ w.npub = npub := by
  unfold npubByAddr at found
  rw [inTx, exec_transaction, exec_get_bind] at found
  cases rows : db.rowsByAddr src with
  | nil =>
      rw [rows] at found
      cases found
  | cons w rest =>
      rw [rows] at found
      have there : w ∈ db.rowsByAddr src := rows ▸ List.mem_cons_self
      have isRow : w ∈ db.whitelist ∧ Agent.netip w.fipsAddr = src := by
        simp only [Db.rowsByAddr, List.mem_append, List.mem_filter, Bool.and_eq_true,
          decide_eq_true_eq] at there
        rcases there with ⟨⟨member, isIt, -⟩, -⟩ | ⟨⟨member, isIt, -⟩, -⟩
        · exact ⟨member, isIt⟩
        · exact ⟨member, isIt⟩
      refine ⟨w, isRow.1, isRow.2, ?_⟩
      cases lost : env.fails 0 with
      | true =>
          simp only [lost, if_true] at found
          cases found
      | false =>
          simp only [lost] at found
          cases found
          rfl

/-- The request comes from the address of the npub. -/
def SessionPortal.ComesFrom (p : SessionPortal) (req : FipsRequest) (npub : String) : Prop :=
  p.trustFipsSource = true ∧ ∃ addr, p.store.ident.fromNpub npub = some addr ∧
    sourceAddr req.remoteAddr = some (Agent.netip addr)

/-- **Nobody is taken for another**: whom a request is taken for has its address. -/
theorem comesFrom_of_transparentNpub {p : SessionPortal} {db : Db} {req : FipsRequest} {npub : String}
    (valid : db.registry.Valid p.store.ident) (isNpub : p.transparentNpub db req = some npub) :
    p.ComesFrom req npub := by
  unfold SessionPortal.transparentNpub at isNpub
  split at isNpub
  · cases isNpub
  rename_i trusted
  split at isNpub
  · cases isNpub
  rename_i src isSrc
  split at isNpub
  · cases isNpub
  refine ⟨by simpa using trusted, ?_⟩
  rw [isSrc]
  split at isNpub
  · -- the claim is checked against the address
    split at isNpub
    · rename_i checked
      cases isNpub
      unfold Identity.checkDerivation at checked
      split at checked
      · cases checked
      · rename_i derived isDerived
        exact ⟨derived, isDerived, congrArg some (of_decide_eq_true checked).symm⟩
    · cases isNpub
  · -- a row of the registry has the address of its npub
    split at isNpub
    · cases isNpub
    · rename_i found
      cases isNpub
      obtain ⟨w, member, isSrc', rfl⟩ := of_npubByAddr found
      exact ⟨w.fipsAddr, valid.keyed.derived member, congrArg some isSrc'.symm⟩

/-! ## The portal at work -/

/-- The state of the portal, with the sessions it has set and the challenges it has issued. -/
structure SessionState extends PortalState where
  sessions : List (String × Clock)
  challenges : List (Vector UInt8 16 × Clock)

inductive SessionEvent where
  /-- Another part of the backend calls the store. -/
  | call (c : Call)
  /-- The process starts again, with the same secrets. -/
  | restart
  /-- `authChallenge`. -/
  | challenge (nonce : Vector UInt8 16) (now : Clock)
  /-- `authVerify`; `set` is the clock of `setSession`. -/
  | verify (req : AuthRequest) (set : Clock)
  /-- `authFips`. -/
  | fips (req : FipsRequest) (set : Clock)
  /-- `packagesPage`. -/
  | packages (cookie : Option Bytes) (req : FipsRequest) (now set : Clock)

namespace SessionPortal

variable (p : SessionPortal)

/-- The session that is set, if any. -/
def opens (st : SessionState) : SessionEvent → Option (String × Clock)
  | .call _ | .restart | .challenge _ _ => none
  | .verify req set => (p.authVerify st.toPortalState req).1.toOption.map (·, set)
  | .fips req set => (p.authFips st.db req).1.map (·, set)
  | .packages cookie req now set => (p.packagesPage st.db cookie req now).map (·, set)

/-- What is left of the state of the portal. -/
def handles (st : PortalState) : SessionEvent → PortalState
  | .call c => { st with db := p.store.call st.db c }
  | .restart => .initial st.db
  | .challenge _ _ | .packages _ _ _ _ => st
  | .verify req _ => (p.authVerify st req).2
  | .fips req _ => { st with db := (p.authFips st.db req).2 }

/-- The challenge that is issued, if any. -/
def issues : SessionEvent → Option (Vector UInt8 16 × Clock)
  | .challenge nonce now => some (nonce, now)
  | _ => none

def step (st : SessionState) (e : SessionEvent) : SessionState where
  toPortalState := p.handles st.toPortalState e
  sessions := st.sessions ++ (p.opens st e).toList
  challenges := st.challenges ++ (issues e).toList

/-- The state after a history. -/
def after (es : List SessionEvent) : SessionState :=
  es.foldl p.step ⟨.initial Db.empty, [], []⟩

theorem after_concat (es : List SessionEvent) (e : SessionEvent) :
    p.after (es ++ [e]) = p.step (p.after es) e := by
  simp [after]

/-- **The event proves the npub**: it brings an event signed by it over a valid challenge, or comes
from its address. -/
def Proves (npub : String) (set : Clock) : SessionEvent → Prop
  | .call _ | .restart | .challenge _ _ => False
  | .verify req at' => p.authenticate req = .ok npub ∧ set = at'
  | .fips req at' | .packages _ req _ at' => p.ComesFrom req npub ∧ set = at'

/-- The texts the portal has computed a MAC of, with the key of the sessions. -/
def Signed (st : SessionState) (payload : Bytes) : Prop :=
  (∃ s ∈ st.sessions, payload = sessionPayload s.1 s.2) ∨
  (p.sessionSecret = p.challengeSecret ∧ ∃ c ∈ st.challenges,
    payload = base64RawURL c.1.toList ++ 0x2e :: Decimal.formatInt (challengeExpiry c.2.unix))

/-- **A forged cookie**: it has the MAC of a text that the portal has not computed it of. -/
def Forged (st : SessionState) (cookie : Bytes) : Prop :=
  ∃ payload, cookie = payload ++ 0x2e :: sessionMAC p.sessionSecret payload ∧ ¬ p.Signed st payload

/-! ## What the histories keep -/

variable {p} {st : SessionState} {e : SessionEvent}

theorem authenticate_of_authVerify {pst : PortalState} {req : AuthRequest} {npub : String}
    (opened : (p.authVerify pst req).1 = .ok npub) : p.authenticate req = .ok npub := by
  unfold Portal.authVerify at opened
  split at opened
  · cases opened
  · rename_i authenticated
    split at opened
    · cases opened
    · split at opened
      · cases opened
      · cases opened
        exact authenticated

theorem transparentNpub_of_authFips {db : Db} {req : FipsRequest} {npub : String}
    (opened : (p.authFips db req).1 = some npub) : p.transparentNpub db req = some npub := by
  unfold authFips at opened
  split at opened
  · cases opened
  · rename_i isNpub
    split at opened
    · cases opened
    · cases opened
      exact isNpub

theorem transparentNpub_of_packagesPage {db : Db} {cookie : Option Bytes} {req : FipsRequest}
    {now : Clock} {npub : String} (opened : p.packagesPage db cookie req now = some npub) :
    p.transparentNpub db req = some npub := by
  unfold packagesPage at opened
  split at opened
  · cases opened
  · exact opened

/-- **Step**: a session is set for whom the event proves. -/
theorem proves_of_opens {s : String × Clock} (valid : st.db.registry.Valid p.store.ident)
    (opened : p.opens st e = some s) : p.Proves s.1 s.2 e := by
  cases e with
  | call c => cases opened
  | restart => cases opened
  | challenge nonce now => cases opened
  | verify req set =>
      obtain ⟨npub, isNpub, rfl⟩ := Option.map_eq_some_iff.mp opened
      cases answered : (p.authVerify st.toPortalState req).1 with
      | error failure =>
          rw [answered] at isNpub
          cases isNpub
      | ok npub' =>
          rw [answered] at isNpub
          cases isNpub
          exact ⟨authenticate_of_authVerify answered, rfl⟩
  | fips req set =>
      obtain ⟨npub, isNpub, rfl⟩ := Option.map_eq_some_iff.mp opened
      exact ⟨comesFrom_of_transparentNpub valid (transparentNpub_of_authFips isNpub), rfl⟩
  | packages cookie req now set =>
      obtain ⟨npub, isNpub, rfl⟩ := Option.map_eq_some_iff.mp opened
      exact ⟨comesFrom_of_transparentNpub valid (transparentNpub_of_packagesPage isNpub), rfl⟩

theorem reached_createAccount {db : Db} (reached : ∃ calls, db = p.store.after calls) (env : Env)
    (npub : String) : ∃ calls, (exec (p.store.createAccount env npub) db).2 = p.store.after calls :=
  reached_exec reached env (.createAccount npub) rfl

theorem reached_handles {pst : PortalState} (reached : ∃ calls, pst.db = p.store.after calls)
    (e : SessionEvent) : ∃ calls, (p.handles pst e).db = p.store.after calls := by
  cases e with
  | call c => exact reached_call reached c
  | restart => exact reached
  | challenge nonce now => exact reached
  | verify req set =>
      show ∃ calls, (p.authVerify pst req).2.db = _
      unfold Portal.authVerify
      split
      · exact reached
      · rename_i npub _
        have created := reached_createAccount reached req.env npub
        split
        · exact reached
        · split
          all_goals
            rename_i ends
            rw [ends] at created
            exact created
  | fips req set =>
      show ∃ calls, (p.authFips pst.db req).2 = _
      unfold authFips
      split
      · exact reached
      · rename_i npub _
        have created := reached_createAccount reached req.env npub
        split
        all_goals
          rename_i ends
          rw [ends] at created
          exact created
  | packages cookie req now set => exact reached

/-- What a history leaves behind. -/
structure Accounted (p : SessionPortal) (es : List SessionEvent) (st : SessionState) : Prop where
  reached : ∃ calls, st.db = p.store.after calls
  proved : ∀ s ∈ st.sessions, ∃ e ∈ es, p.Proves s.1 s.2 e
  issued : ∀ c ∈ st.challenges, SessionEvent.challenge c.1 c.2 ∈ es

/-- **Run.** -/
theorem accounted_after (p : SessionPortal) (es : List SessionEvent) : p.Accounted es (p.after es) := by
  induction es using List.reverseRecOn with
  | nil => exact ⟨⟨[], rfl⟩, by simp [after], by simp [after]⟩
  | append_singleton es e ih =>
      rw [after_concat]
      refine ⟨reached_handles ih.reached e, ?_, ?_⟩
      · intro s member
        rcases List.mem_append.mp member with earlier | now
        · obtain ⟨e', there, proves⟩ := ih.proved s earlier
          exact ⟨e', List.mem_append_left _ there, proves⟩
        · obtain ⟨calls, isDb⟩ := ih.reached
          have valid := isDb ▸ valid_after p.store calls
          exact ⟨e, by simp, proves_of_opens valid (Option.mem_toList.mp now)⟩
      · intro c member
        rcases List.mem_append.mp member with earlier | now
        · exact List.mem_append_left _ (ih.issued c earlier)
        · have isIt := Option.mem_toList.mp now
          cases e with
          | challenge nonce at' =>
              cases isIt
              simp
          | _ => cases isIt

end SessionPortal

theorem parseInt64_challengeExpiry (issued : Clock) :
    parseInt64 (Decimal.formatInt (challengeExpiry issued.unix)) =
      some (issued.unix + challengeTTLSeconds) := by
  have low := issued.min
  have high := issued.max
  rw [challengeExpiry_eq, parseInt64_formatInt (by unfold challengeTTLSeconds; omega)
    (by unfold challengeTTLSeconds; omega)]

/-- The texts that are read from a payload are those it was made of. -/
theorem read_payload {npubText expText who text : Bytes} {exp ends expiry : Int}
    (absent : 0x2e ∉ npubText)
    (same : npubText ++ 0x2e :: expText = base64RawURL text ++ 0x2e :: Decimal.formatInt ends)
    (isExpiry : parseInt64 (Decimal.formatInt ends) = some expiry)
    (isExp : parseInt64 expText = some exp)
    (decoded : Base64.decode Captivetoken.rawURLEncoding npubText = .ok who) :
    who = text ∧ exp = expiry := by
  obtain ⟨rfl, rfl⟩ := append_sep_inj absent (dot_not_mem_base64RawURL _) same
  rw [Captivetoken.decode_base64RawURL] at decoded
  exact ⟨(Except.ok.inj decoded).symm, Option.some.inj (isExp.symm.trans isExpiry)⟩

/-- **A session is the one of a login, for a week.**  Whatever the portal has been asked so far: a
cookie that it accepts was set within the last week for an npub that proved itself then, by a signed
event or by its mesh address, and stands for that npub; or it is a login challenge not older than two
minutes, where both are signed with one key, and stands for the nonce in it; or its MAC is forged.
And each session that was set is accepted for just that week, also by a process that was started
later. -/
theorem session_exact (p : SessionPortal) (es : List SessionEvent) :
    (∀ cookie who now, session p.sessionSecret (some cookie) now = some who →
      (∃ npub set, (npub, set) ∈ (p.after es).sessions ∧ (∃ e ∈ es, p.Proves npub set e) ∧
        who = utf8 npub ∧ now.unix ≤ set.unix + 604800) ∨
      (p.sessionSecret = p.challengeSecret ∧ ∃ nonce issued, .challenge nonce issued ∈ es ∧
        who = nonce.toList ∧ now.unix ≤ issued.unix + challengeTTLSeconds) ∨
      p.Forged (p.after es) cookie) ∧
    ∀ npub set, (npub, set) ∈ (p.after es).sessions → ∀ now,
      session p.sessionSecret (some (setSession p.sessionSecret npub set)) now =
        if set.unix + 604800 < now.unix then none else some (utf8 npub) := by
  have accounted := p.accounted_after es
  refine ⟨?_, fun npub set _ now => session_setSession p.sessionSecret npub set now⟩
  intro cookie who now accepted
  obtain ⟨npubText, expText, exp, absent, isCookie, isExp, fresh, decoded⟩ := of_session accepted
  by_cases signed : p.Signed (p.after es) (npubText ++ 0x2e :: expText)
  · rcases signed with ⟨s, member, same⟩ | ⟨oneKey, c, member, same⟩
    · obtain ⟨isWho, rfl⟩ := read_payload absent same (parseInt64_sessionExpiry _) isExp decoded
      exact .inl ⟨s.1, s.2, member, accounted.proved s member, isWho, fresh⟩
    · obtain ⟨isWho, rfl⟩ := read_payload absent same (parseInt64_challengeExpiry _) isExp decoded
      exact .inr (.inl ⟨oneKey, c.1, c.2, accounted.issued c member, isWho, fresh⟩)
  · exact .inr (.inr ⟨_, isCookie, signed⟩)

/-- A portal whose two keys are the same. -/
def meshPortal : SessionPortal where
  toPortal := examplePortal
  sessionSecret := examplePortal.challengeSecret
  trustFipsSource := true

/-- The first npub names itself, from its address. -/
def meshRequest : FipsRequest :=
  ⟨utf8 "[fd10:93b2:8586:6046:e42d:c089:3228:ccff]:40412", firstNpub, calm 0, calm 0⟩

theorem transparentNpub_meshRequest :
    meshPortal.transparentNpub Db.empty meshRequest = some firstNpub := by
  have source : sourceAddr meshRequest.remoteAddr = some (Agent.netip firstAddr) := by decide +kernel
  unfold SessionPortal.transparentNpub
  rw [source]
  decide +kernel

/-- A visit to the packages sets a session; the cookie is taken for the npub on the last second of
the week, and for nobody after it. -/
theorem session_exact_visit :
    let set : Clock := ⟨1700000000, by decide, by decide⟩
    let cookie := setSession meshPortal.sessionSecret firstNpub set
    (firstNpub, set) ∈ (meshPortal.after [.packages none meshRequest set set]).sessions ∧
      session meshPortal.sessionSecret (some cookie) ⟨1700604800, by decide, by decide⟩ =
        some (utf8 firstNpub) ∧
      session meshPortal.sessionSecret (some cookie) ⟨1700604801, by decide, by decide⟩ = none := by
  intro set cookie
  have opened :
      (firstNpub, set) ∈ (meshPortal.after [.packages none meshRequest set set]).sessions := by
    show (firstNpub, set) ∈ [] ++ ((meshPortal.transparentNpub Db.empty meshRequest).map (·, set)).toList
    rw [transparentNpub_meshRequest]
    simp
  have accepted :=
    (session_exact meshPortal [.packages none meshRequest set set]).2 firstNpub set opened
  exact ⟨opened, accepted _, accepted _⟩

end FipsExitGate
