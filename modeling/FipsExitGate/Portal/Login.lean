import FipsExitGate.Portal.Challenge
import FipsExitGate.Store.Ops

/-!
# Signing in with a signed challenge

`authVerify` of `portal.go`: the checks a login event has to pass, in the order of the
source.  The last of them takes the challenge out of circulation (`Consume`), and what is
proved here is that it does so for good.

A challenge that is used at `t` is remembered up to `t` plus the lifetime, so it is
refused as long as the clock has not passed that time.  Once it has, the challenge has
expired by itself: it was issued before it was used.  Both deadlines have the same length
but not the same start, and it is the order of issue and use that makes the memory outlive
the challenge.

## Design notes

* The signature check, `url.Parse` and `strings.EqualFold` are parameters of the portal:
  nothing here depends on what they accept.
* A run is the sequence of requests in the order in which they are handled.  The memory
  is that of one process, which starts with an empty one.

## Main results

* `challenge_single_use` — no issued challenge passes twice, and one that was never used
  is not refused as used
-/

namespace FipsExitGate

open Program

namespace Nostr

/-- `Event`. -/
structure Event where
  id : Bytes
  pubkey : Bytes
  createdAt : Int
  kind : Int
  tags : List (List Bytes)
  content : Bytes
  sig : Bytes
  deriving DecidableEq

def authEventKind : Int := 27235

/-- `ExtractTag`: the first value of the named tag, or the empty string. -/
def extractTag (e : Event) (name : Bytes) : Bytes :=
  (e.tags.findSome? fun
    | key :: value :: _ => if key = name then some value else none
    | _ => none).getD []

/-- `ExtractChallenge`. -/
def extractChallenge (e : Event) : Bytes := extractTag e (utf8 "challenge")

end Nostr

open Nostr

/-! ## The handler -/

/-- The parts of `portal` that `authVerify` reads. -/
structure Portal where
  store : Store
  challengeSecret : Bytes
  publicURL : Bytes
  /-- `nostr.Verify`: the npub of the signer; `none` is its error. -/
  verify : Nostr.Event → Option String
  /-- The `Host` of what `url.Parse` returns; `none` is its error. -/
  urlHost : Bytes → Option Bytes
  /-- `strings.EqualFold`. -/
  equalFold : Bytes → Bytes → Bool

/-- A request to `authVerify`. -/
structure AuthRequest where
  /-- The content type is JSON. -/
  jsonReq : Bool
  /-- The event in the body or the form; `none` if it does not decode. -/
  event : Option Nostr.Event
  host : Bytes
  tls : Bool
  /-- The header `X-Forwarded-Proto`. -/
  forwardedProto : Bytes
  /-- `time.Now()` in the handler. -/
  now : Clock
  /-- What `CreateAccount` finds. -/
  env : Env

/-- The challenge a request presents. -/
def AuthRequest.challenge (req : AuthRequest) : Bytes :=
  (req.event.map extractChallenge).getD []

/-- What `authFail` is called with. -/
inductive AuthFailure where
  | badRequest
  | invalidEvent
  | signature
  | wrongKind
  | invalidChallenge
  | staleEvent
  | audience (verifyURL : Bytes)
  | alreadyUsed
  | noAccount
  deriving DecidableEq

def AuthFailure.text : AuthFailure → Bytes
  | .badRequest => utf8 "bad request"
  | .invalidEvent => utf8 "invalid event JSON"
  | .signature => utf8 "signature did not verify"
  | .wrongKind => utf8 "wrong event kind"
  | .invalidChallenge => utf8 "invalid or expired challenge"
  | .staleEvent => utf8 "stale event"
  | .audience verifyURL =>
      utf8 "event must carry a \"u\" tag naming this portal (" ++ verifyURL ++ utf8 ")"
  | .alreadyUsed => utf8 "challenge already used"
  | .noAccount => utf8 "could not create account"

/-- `audienceOK`. -/
def Portal.audienceOK (p : Portal) (u host : Bytes) : Bool :=
  match p.urlHost u with
  | none => false
  | some named =>
      decide (named ≠ []) && (p.equalFold named host ||
        match p.urlHost p.publicURL with
        | none => false
        | some own => decide (own ≠ []) && p.equalFold named own)

/-- `verifyURL`. -/
def Portal.verifyURL (p : Portal) (req : AuthRequest) : Bytes :=
  let scheme :=
    if req.tls || p.equalFold req.forwardedProto (utf8 "https") then utf8 "https" else utf8 "http"
  scheme ++ utf8 "://" ++ req.host ++ utf8 "/auth/verify"

/-- The state the handler works on. -/
structure PortalState where
  db : Db
  usedChallenges : UsedChallenges

/-- The checks of `authVerify` before `Consume`: the npub of the signer. -/
def Portal.authenticate (p : Portal) (req : AuthRequest) : Except AuthFailure String :=
  match req.event with
  | none => .error (if req.jsonReq then .badRequest else .invalidEvent)
  | some ev =>
      match p.verify ev with
      | none => .error .signature
      | some npub =>
          if ev.kind ≠ authEventKind then .error .wrongKind
          else
            match verifyChallenge p.challengeSecret (extractChallenge ev) req.now.unix with
            | .error _ => .error .invalidChallenge
            | .ok () =>
                if ev.createdAt < wrap64 (req.now.unix - challengeTTLSeconds) ∨
                    wrap64 (req.now.unix + 60) < ev.createdAt then .error .staleEvent
                else if !p.audienceOK (extractTag ev (utf8 "u")) req.host then
                  .error (.audience (p.verifyURL req))
                else .ok npub

/-- `authVerify`: the npub a session is set for, or the failure. -/
def Portal.authVerify (p : Portal) (st : PortalState) (req : AuthRequest) :
    Except AuthFailure String × PortalState :=
  match p.authenticate req with
  | .error failure => (.error failure, st)
  | .ok npub =>
      match st.usedChallenges.consume req.challenge req.now.unix with
      | (false, _) => (.error .alreadyUsed, st)
      | (true, used) =>
          match exec (p.store.createAccount req.env npub) st.db with
          | (.error _, db) => (.error .noAccount, ⟨db, used⟩)
          | (.ok _, db) => (.ok npub, ⟨db, used⟩)

/-- The request has passed `VerifyChallenge` and `Consume`. -/
def passed : Except AuthFailure String → Bool
  | .ok _ => true
  | .error failure => decide (failure = .noAccount)

section Step

variable {p : Portal} {st : PortalState} {req : AuthRequest}

/-- What passes the checks has a challenge that verifies. -/
theorem verifyChallenge_of_authenticate {npub : String} (ok : p.authenticate req = .ok npub) :
    verifyChallenge p.challengeSecret req.challenge req.now.unix = .ok () := by
  unfold Portal.authenticate at ok
  cases event : req.event with
  | none => simp [event] at ok
  | some ev =>
      have isIt : req.challenge = extractChallenge ev := by simp [AuthRequest.challenge, event]
      rw [isIt]
      simp only [event] at ok
      split at ok
      · cases ok
      split at ok
      · cases ok
      split at ok
      · cases ok
      · rename_i valid
        exact valid

/-- The checks themselves never fail as `Consume` or `CreateAccount` would. -/
theorem authenticate_failure {failure : AuthFailure} (failed : p.authenticate req = .error failure) :
    failure ≠ .noAccount ∧ failure ≠ .alreadyUsed := by
  unfold Portal.authenticate at failed
  split at failed
  · cases failed
    split <;> simp
  split at failed
  · cases failed
    simp
  split at failed
  · cases failed
    simp
  split at failed
  · cases failed
    simp
  split at failed
  · cases failed
    simp
  split at failed
  · cases failed
    simp
  · cases failed

/-- **What one request does** to the memory: a request that does not pass leaves it alone;
one that passes has a valid challenge, and consumes it. -/
theorem authVerify_cases (p : Portal) (st : PortalState) (req : AuthRequest) :
    (passed (p.authVerify st req).1 = false ∧ (p.authVerify st req).2 = st ∧
      ((p.authVerify st req).1 = .error .alreadyUsed →
        (st.usedChallenges.consume req.challenge req.now.unix).1 = false)) ∨
    (passed (p.authVerify st req).1 = true ∧ (p.authVerify st req).1 ≠ .error .alreadyUsed ∧
      verifyChallenge p.challengeSecret req.challenge req.now.unix = .ok () ∧
      st.usedChallenges.consume req.challenge req.now.unix =
        (true, (p.authVerify st req).2.usedChallenges)) := by
  unfold Portal.authVerify
  split
  · rename_i failure failed
    obtain ⟨notAccount, notUsed⟩ := authenticate_failure failed
    refine .inl ⟨by simpa [passed] using notAccount, rfl, fun isUsed => ?_⟩
    exact absurd (Except.error.inj isUsed) notUsed
  · rename_i npub ok
    split
    · rename_i refused
      exact .inl ⟨rfl, rfl, fun _ => by rw [refused]⟩
    · rename_i used accepted
      have valid := verifyChallenge_of_authenticate ok
      split
      · exact .inr ⟨rfl, by simp, valid, accepted⟩
      · exact .inr ⟨rfl, by simp, valid, accepted⟩

end Step

/-! ## Runs -/

/-- The state after a sequence of requests. -/
def Portal.after (p : Portal) (st : PortalState) (reqs : List AuthRequest) : PortalState :=
  reqs.foldl (fun st req => (p.authVerify st req).2) st

/-- A process starts with no used challenges. -/
def PortalState.initial (db : Db) : PortalState := ⟨db, .new⟩

/-- **A use of a challenge**: after the requests `before`, the request presents it and
passes `VerifyChallenge` and `Consume`. -/
def Portal.Uses (p : Portal) (db : Db) (c : Bytes) (before : List AuthRequest) (req : AuthRequest) :
    Prop :=
  req.challenge = c ∧ passed (p.authVerify (p.after (.initial db) before) req).1 = true

section Runs

variable {p : Portal} {st : PortalState} {c : Bytes}

theorem after_concat (reqs : List AuthRequest) (req : AuthRequest) :
    p.after st (reqs ++ [req]) = (p.authVerify (p.after st reqs) req).2 := by
  simp [Portal.after]

/-- What is remembered up to `t` stays remembered while the clock is not past `t`. -/
theorem remembers_authVerify {t : Int} {req : AuthRequest}
    (remembers : st.usedChallenges.Remembers c t) (early : req.now.unix ≤ t) :
    (p.authVerify st req).2.usedChallenges.Remembers c t := by
  rcases authVerify_cases p st req with ⟨-, same, -⟩ | ⟨-, -, -, consumed⟩
  · rw [same]
    exact remembers
  · have kept := remembers.consume early req.challenge
    rw [consumed] at kept
    exact kept

theorem remembers_after {t : Int} {reqs : List AuthRequest}
    (remembers : st.usedChallenges.Remembers c t) (early : ∀ req ∈ reqs, req.now.unix ≤ t) :
    (p.after st reqs).usedChallenges.Remembers c t := by
  induction reqs using List.reverseRecOn with
  | nil => exact remembers
  | append_singleton reqs req ih =>
      rw [after_concat]
      exact remembers_authVerify (ih fun r member => early r (by simp [member]))
        (early req (by simp))

/-- A use is remembered for the lifetime of a challenge. -/
theorem Portal.Uses.remembered {db : Db} {before : List AuthRequest} {req : AuthRequest}
    (uses : p.Uses db c before req) :
    (p.after (.initial db) (before ++ [req])).usedChallenges.Remembers c
      (req.now.unix + challengeTTLSeconds) := by
  obtain ⟨rfl, pass⟩ := uses
  rw [after_concat]
  rcases authVerify_cases p (p.after (.initial db) before) req with ⟨noPass, -⟩ | ⟨-, -, -, consumed⟩
  · rw [noPass] at pass
    cases pass
  · have remembers := UsedChallenges.remembers_of_accepted (congrArg Prod.fst consumed)
    rw [consumed] at remembers
    exact remembers

/-- What is remembered is not used. -/
theorem Portal.Uses.not_remembers {db : Db} {before : List AuthRequest} {req : AuthRequest}
    (uses : p.Uses db c before req) :
    ¬ (p.after (.initial db) before).usedChallenges.Remembers c req.now.unix := by
  obtain ⟨rfl, pass⟩ := uses
  intro remembers
  rcases authVerify_cases p (p.after (.initial db) before) req with ⟨noPass, -⟩ | ⟨-, -, -, consumed⟩
  · rw [noPass] at pass
    cases pass
  · have refused := UsedChallenges.consume_fst.mpr remembers
    rw [consumed] at refused
    cases refused

/-- An issued challenge is used by its expiry. -/
theorem Portal.Uses.inTime {db : Db} {nonce : Vector UInt8 16} {issued : Clock}
    {before : List AuthRequest} {req : AuthRequest}
    (uses : p.Uses db (issueChallenge p.challengeSecret nonce issued.unix) before req) :
    req.now.unix ≤ issued.unix + challengeTTLSeconds := by
  obtain ⟨isIt, pass⟩ := uses
  rcases authVerify_cases p (p.after (.initial db) before) req with ⟨noPass, -⟩ | ⟨-, -, valid, -⟩
  · rw [noPass] at pass
    cases pass
  · rw [isIt, verifyChallenge_issueChallenge] at valid
    by_contra late
    rw [if_pos (by omega)] at valid
    cases valid

/-- A challenge that no request has used is not in the memory. -/
theorem lookup_after_eq_none {db : Db} {reqs : List AuthRequest}
    (unused : ∀ before req rest, reqs = before ++ req :: rest → ¬ p.Uses db c before req) :
    (p.after (.initial db) reqs).usedChallenges.seen.lookup c = none := by
  induction reqs using List.reverseRecOn with
  | nil => rfl
  | append_singleton reqs req ih =>
      have earlier := ih fun before r rest split =>
        unused before r (rest ++ [req]) (by simp [split])
      rw [after_concat]
      rcases authVerify_cases p (p.after (.initial db) reqs) req with
        ⟨-, same, -⟩ | ⟨pass, -, -, consumed⟩
      · rw [same]
        exact earlier
      · have differs : c ≠ req.challenge :=
          fun isIt => unused reqs req [] (by simp) ⟨isIt.symm, pass⟩
        have kept := UsedChallenges.lookup_consume_ne req.now.unix earlier differs
        rw [consumed] at kept
        exact kept

end Runs

/-- **A login challenge is single-use.**  In every run of requests whose clock readings do
not decrease: a challenge that `IssueChallenge` has issued no later than some use of it is
not used again; and a challenge that was not used before and has not expired is not refused
by `Consume`. -/
theorem challenge_single_use (p : Portal) (db : Db) (nonce : Vector UInt8 16) (issued : Clock)
    (reqs : List AuthRequest)
    (ordered : reqs.Pairwise fun req later => req.now.unix ≤ later.now.unix) :
    let c := issueChallenge p.challengeSecret nonce issued.unix
    (∀ before req between later rest, reqs = before ++ req :: (between ++ later :: rest) →
      issued.unix ≤ req.now.unix → p.Uses db c before req →
        ¬ p.Uses db c (before ++ req :: between) later) ∧
    (∀ before req rest, reqs = before ++ req :: rest →
      (∀ before' req' rest', before = before' ++ req' :: rest' → ¬ p.Uses db c before' req') →
      req.now.unix ≤ issued.unix + challengeTTLSeconds →
        ((p.after (.initial db) before).usedChallenges.consume c req.now.unix).1 = true ∧
        (req.challenge = c →
          (p.authVerify (p.after (.initial db) before) req).1 ≠ .error .alreadyUsed)) := by
  intro c
  constructor
  · rintro before req between later rest rfl afterIssue first second
    have order := (List.pairwise_append.mp ordered).2.1
    have fromBetween := (List.pairwise_append.mp (List.pairwise_cons.mp order).2).2.2
    -- the challenge expires before the memory of its first use does
    have deadline : later.now.unix ≤ req.now.unix + challengeTTLSeconds := by
      have inTime := second.inTime
      omega
    have early : ∀ r ∈ between, r.now.unix ≤ req.now.unix + challengeTTLSeconds := fun r member =>
      (fromBetween r member later (by simp)).trans deadline
    obtain ⟨exp, found, late⟩ := remembers_after (p := p) first.remembered early
    refine second.not_remembers ⟨exp, ?_, deadline.trans late⟩
    rw [← found]
    simp [Portal.after]
  · rintro before req rest rfl unused -
    have absent := lookup_after_eq_none unused
    have accepted : ((p.after (.initial db) before).usedChallenges.consume c req.now.unix).1 =
        true := by
      by_contra refused
      obtain ⟨exp, found, -⟩ := UsedChallenges.consume_fst.mp (by simpa using refused)
      rw [absent] at found
      cases found
    refine ⟨accepted, fun isIt isUsed => ?_⟩
    rcases authVerify_cases p (p.after (.initial db) before) req with
      ⟨-, -, refused⟩ | ⟨-, notUsed, -⟩
    · have refusal := refused isUsed
      rw [isIt, accepted] at refusal
      cases refusal
    · exact notUsed isUsed

/-! ## A login and its replay -/

/-- A portal at one address, which takes every event to be signed by the first npub. -/
def examplePortal : Portal where
  store := plainStore
  challengeSecret := utf8 "secret"
  publicURL := utf8 "https://portal.fips"
  verify _ := some firstNpub
  urlHost u := if u = utf8 "https://portal.fips/auth/verify" then some (utf8 "portal.fips") else none
  equalFold a b := decide (a = b)

def exampleNonce : Vector UInt8 16 := .ofFn fun i => UInt8.ofNat i

/-- A login event for a challenge issued at Unix time 1700000000. -/
def loginEvent : Nostr.Event :=
  ⟨[], [], 1700000010, 27235,
    [[utf8 "challenge", issueChallenge (utf8 "secret") exampleNonce 1700000000],
      [utf8 "u", utf8 "https://portal.fips/auth/verify"]], [], []⟩

def loginAt (now : Clock) : AuthRequest :=
  ⟨true, some loginEvent, utf8 "portal.fips", true, [], now, calm 0⟩

/-- The event signs in once; the same event sent again five seconds later does not. -/
theorem challenge_single_use_replay :
    let c := issueChallenge (utf8 "secret") exampleNonce 1700000000
    let first := loginAt ⟨1700000010, by decide, by decide⟩
    let replay := loginAt ⟨1700000015, by decide, by decide⟩
    examplePortal.Uses Db.empty c [] first ∧ ¬ examplePortal.Uses Db.empty c [first] replay := by
  intro c first replay
  have uses : examplePortal.Uses Db.empty c [] first := ⟨by decide +kernel, by decide +kernel⟩
  refine ⟨uses, ?_⟩
  have single := challenge_single_use examplePortal Db.empty exampleNonce
    ⟨1700000000, by decide, by decide⟩ [first, replay] (by simp [first, replay, loginAt])
  exact single.1 [] first [] replay [] rfl (by simp [first, loginAt]) uses

end FipsExitGate
