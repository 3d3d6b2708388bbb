import FipsExitGate.Fipsaddr.Sha256
import FipsExitGate.Lib.Decimal
import FipsExitGate.Store.Basic

/-!
# Login challenges

`nostr/challenge.go`: challenges, and the memory of the used ones.  A challenge is a nonce
and an expiry with a MAC over both, in text form and separated by dots; none of the three
parts has a dot in it, so that what `IssueChallenge` wrote `VerifyChallenge` reads back.

`UsedChallenges` maps a used challenge to the time until which it is refused.  That time
is counted from its use, the expiry in the challenge from its issue.  What the memory
guarantees is `Remembers`: a challenge that was used at `t` is refused up to `t` plus the
lifetime of a challenge, whatever else is used and pruned before.

## Design notes

* The nonce is an argument, in place of `rand.Read`.
* `int64` sums are written out with their wrap-around.  A reading of the clock is a
  `Clock`, for which they do not wrap.

## Main results

* `verifyChallenge_issueChallenge` — an issued challenge is valid up to its expiry
* `UsedChallenges.Remembers.consume` — what is remembered stays remembered
-/

namespace FipsExitGate

/-- A reading of `time.Now().Unix()`; a `time.Time` counts the seconds since the year 1 in
an `int64`. -/
structure Clock where
  unix : Int
  min : -2 ^ 63 ≤ unix
  max : unix + 62135596800 < 2 ^ 63

namespace Nostr

/-! ## The parts of a challenge -/

/-- A character of `base64.RawURLEncoding`. -/
def base64Char (n : Nat) : UInt8 :=
  if n < 26 then UInt8.ofNat (0x41 + n)
  else if n < 52 then UInt8.ofNat (0x61 + (n - 26))
  else if n < 62 then UInt8.ofNat (0x30 + (n - 52))
  else if n = 62 then 0x2d
  else 0x5f

/-- The first `n` of the four characters for three bytes. -/
def base64Group (n : Nat) (a b c : UInt8) : Bytes :=
  let v := a.toNat * 2 ^ 16 + b.toNat * 2 ^ 8 + c.toNat
  ([v / 2 ^ 18, v / 2 ^ 12 % 64, v / 2 ^ 6 % 64, v % 64].take n).map base64Char

/-- `base64.RawURLEncoding.EncodeToString`. -/
def base64RawURL : Bytes → Bytes
  | [] => []
  | [a] => base64Group 2 a 0 0
  | [a, b] => base64Group 3 a b 0
  | a :: b :: c :: rest => base64Group 4 a b c ++ base64RawURL rest

/-- `hmac` over `sha256`, whose blocks have 64 bytes. -/
def hmacSha256 (secret msg : Bytes) : Bytes :=
  let key := if 64 < secret.length then Sha256.sum256 secret else secret
  let block := key ++ List.replicate (64 - key.length) 0
  Sha256.sum256 (block.map (· ^^^ 0x5c) ++ Sha256.sum256 (block.map (· ^^^ 0x36) ++ msg))

/-- `macOf`. -/
def macOf (secret msg : Bytes) : Bytes :=
  base64RawURL ((hmacSha256 secret msg).take 16)

/-- `strconv.ParseInt(s, 10, 64)`; `none` is its error. -/
def parseInt64 (s : Bytes) : Option Int :=
  (Decimal.parseInt s).filter fun n => decide (-2 ^ 63 ≤ n) && decide (n < 2 ^ 63)

/-! ## Issuing and verifying -/

def challengeTTLSeconds : Int := 120

/-- The expiry of a challenge that is issued at `nowUnix`. -/
def challengeExpiry (nowUnix : Int) : Int := wrap64 (nowUnix + challengeTTLSeconds)

/-- `IssueChallenge`. -/
def issueChallenge (secret : Bytes) (nonce : Vector UInt8 16) (nowUnix : Int) : Bytes :=
  let payload := base64RawURL nonce.toList ++ 0x2e :: Decimal.formatInt (challengeExpiry nowUnix)
  payload ++ 0x2e :: macOf secret payload

example : issueChallenge (utf8 "secret") (.ofFn fun i => UInt8.ofNat i) 1700000000 =
    utf8 "AAECAwQFBgcICQoLDA0ODw.1700000120.P53oVECFoUyr1EV9fMAr2Q" := by
  decide +kernel

/-- The errors of `VerifyChallenge`. -/
inductive ChallengeErr where
  | malformed
  | badSignature
  | badExpiry
  | expired
  deriving DecidableEq, Repr

def ChallengeErr.text : ChallengeErr → String
  | .malformed => "nostr: malformed challenge"
  | .badSignature => "nostr: bad challenge signature"
  | .badExpiry => "nostr: bad challenge expiry"
  | .expired => "nostr: challenge expired"

/-- `VerifyChallenge`. -/
def verifyChallenge (secret challenge : Bytes) (nowUnix : Int) : Except ChallengeErr Unit :=
  match splitByte 0x2e challenge with
  | [nonce, expiry, mac] =>
      if mac ≠ macOf secret (nonce ++ 0x2e :: expiry) then .error .badSignature
      else
        match parseInt64 expiry with
        | none => .error .badExpiry
        | some exp => if exp < nowUnix then .error .expired else .ok ()
  | _ => .error .malformed

theorem base64Char_ne_dot (n : Nat) : base64Char n ≠ 0x2e := by
  by_cases small : n < 62
  · revert n
    decide
  · unfold base64Char
    rw [if_neg (by omega), if_neg (by omega), if_neg small]
    split <;> decide

theorem dot_not_mem_base64Group (n : Nat) (a b c : UInt8) : 0x2e ∉ base64Group n a b c := by
  intro member
  obtain ⟨v, -, isDot⟩ := List.mem_map.mp member
  exact base64Char_ne_dot v isDot

theorem dot_not_mem_base64RawURL (s : Bytes) : 0x2e ∉ base64RawURL s := by
  induction s using base64RawURL.induct with
  | case1 => simp [base64RawURL]
  | case2 a => exact dot_not_mem_base64Group 2 a 0 0
  | case3 a b => exact dot_not_mem_base64Group 3 a b 0
  | case4 a b c rest ih =>
      rw [base64RawURL, List.mem_append, not_or]
      exact ⟨dot_not_mem_base64Group 4 a b c, ih⟩

theorem dot_not_mem_macOf (secret msg : Bytes) : 0x2e ∉ macOf secret msg :=
  dot_not_mem_base64RawURL _

theorem dot_not_mem_formatInt (n : Int) : 0x2e ∉ Decimal.formatInt n := by
  intro member
  rcases Decimal.mem_formatInt member with minus | digit
  · cases minus
  · cases digit

theorem challengeExpiry_eq (now : Clock) :
    challengeExpiry now.unix = now.unix + challengeTTLSeconds := by
  have low := now.min
  have high := now.max
  exact wrap64_of_mem (by unfold challengeTTLSeconds; omega) (by unfold challengeTTLSeconds; omega)

theorem parseInt64_formatInt {n : Int} (low : -2 ^ 63 ≤ n) (high : n < 2 ^ 63) :
    parseInt64 (Decimal.formatInt n) = some n := by
  rw [parseInt64, Decimal.parseInt_formatInt, Option.filter_some, decide_eq_true low,
    decide_eq_true high]
  rfl

/-- **An issued challenge is valid up to its expiry.** -/
theorem verifyChallenge_issueChallenge (secret : Bytes) (nonce : Vector UInt8 16) (issued : Clock)
    (nowUnix : Int) :
    verifyChallenge secret (issueChallenge secret nonce issued.unix) nowUnix =
      if issued.unix + challengeTTLSeconds < nowUnix then .error .expired else .ok () := by
  have low := issued.min
  have high := issued.max
  have parts : splitByte 0x2e (issueChallenge secret nonce issued.unix) =
      [base64RawURL nonce.toList, Decimal.formatInt (challengeExpiry issued.unix),
        macOf secret (base64RawURL nonce.toList ++
          0x2e :: Decimal.formatInt (challengeExpiry issued.unix))] := by
    simp only [issueChallenge, List.append_assoc, List.cons_append]
    rw [splitByte_append, splitByte_append, splitByte_of_not_mem (dot_not_mem_base64RawURL _),
      splitByte_of_not_mem (dot_not_mem_formatInt _), splitByte_of_not_mem (dot_not_mem_macOf _ _)]
    rfl
  rw [verifyChallenge, parts]
  dsimp only
  rw [if_neg (by simp), challengeExpiry_eq,
    parseInt64_formatInt (by unfold challengeTTLSeconds; omega)
      (by unfold challengeTTLSeconds; omega)]

/-! ## The memory of used challenges -/

/-- `UsedChallenges`: each challenge with the time up to which it is refused. -/
structure UsedChallenges where
  seen : AList fun _ : Bytes => Int

/-- `NewUsedChallenges`. -/
def UsedChallenges.new : UsedChallenges := ⟨∅⟩

/-- The loop that deletes what has expired. -/
def prune (nowUnix : Int) (seen : AList fun _ : Bytes => Int) : AList fun _ : Bytes => Int where
  entries := seen.entries.filter fun entry => !decide (entry.2 < nowUnix)
  nodupKeys := List.NodupKeys.sublist List.filter_sublist seen.nodupKeys

/-- `Consume`: whether the challenge is fresh, and the memory afterwards. -/
def UsedChallenges.consume (u : UsedChallenges) (challenge : Bytes) (nowUnix : Int) :
    Bool × UsedChallenges :=
  if (u.seen.lookup challenge).any fun exp => decide (nowUnix ≤ exp) then (false, u)
  else
    let seen := if 1024 < u.seen.entries.length then prune nowUnix u.seen else u.seen
    (true, ⟨seen.insert challenge (wrap64 (nowUnix + challengeTTLSeconds))⟩)

theorem lookup_prune {nowUnix : Int} {seen : AList fun _ : Bytes => Int} {c : Bytes} {exp : Int} :
    (prune nowUnix seen).lookup c = some exp ↔ seen.lookup c = some exp ∧ nowUnix ≤ exp := by
  rw [← Option.mem_def, ← Option.mem_def, AList.mem_lookup_iff, AList.mem_lookup_iff, prune,
    List.mem_filter]
  simp

/-- **The memory's promise**: the challenge is refused up to time `t`. -/
def UsedChallenges.Remembers (u : UsedChallenges) (c : Bytes) (t : Int) : Prop :=
  ∃ exp, u.seen.lookup c = some exp ∧ t ≤ exp

namespace UsedChallenges

variable {u : UsedChallenges} {c : Bytes} {t nowUnix : Int}

/-- What is remembered up to now is refused, and nothing else. -/
theorem consume_fst : (u.consume c nowUnix).1 = false ↔ u.Remembers c nowUnix := by
  have asked : ((u.seen.lookup c).any fun exp => decide (nowUnix ≤ exp)) = true ↔
      u.Remembers c nowUnix := by
    simp [Remembers, Option.any_eq_true]
  rw [← asked]
  unfold consume
  split <;> simp_all

/-- A refusal changes nothing. -/
theorem consume_of_refused (refused : (u.consume c nowUnix).1 = false) :
    u.consume c nowUnix = (false, u) := by
  unfold consume at refused ⊢
  split at refused
  · rename_i found
    rw [if_pos found]
  · cases refused

/-- **Step**: nothing that happens up to time `t` makes the memory forget. -/
theorem Remembers.consume (remembers : u.Remembers c t) (early : nowUnix ≤ t) (other : Bytes) :
    (u.consume other nowUnix).2.Remembers c t := by
  obtain ⟨exp, found, late⟩ := remembers
  by_cases refused : (u.consume other nowUnix).1 = false
  · rw [consume_of_refused refused]
    exact ⟨exp, found, late⟩
  -- an accepted challenge is another one
  have differs : c ≠ other := by
    rintro rfl
    exact refused (consume_fst.mpr ⟨exp, found, early.trans late⟩)
  refine ⟨exp, ?_, late⟩
  unfold UsedChallenges.consume at refused ⊢
  split
  · exact found
  · dsimp only
    rw [AList.lookup_insert_ne differs]
    split
    · exact lookup_prune.mpr ⟨found, early.trans late⟩
    · exact found

/-- A use is remembered for the lifetime of a challenge. -/
theorem remembers_of_accepted {now : Clock} (accepted : (u.consume c now.unix).1 = true) :
    (u.consume c now.unix).2.Remembers c (now.unix + challengeTTLSeconds) := by
  unfold consume at accepted ⊢
  split
  · rename_i found
    rw [if_pos found] at accepted
    cases accepted
  · exact ⟨_, AList.lookup_insert _, (challengeExpiry_eq now).ge⟩

/-- Only what is used is remembered. -/
theorem lookup_consume_ne (nowUnix : Int) {other : Bytes} (unused : u.seen.lookup c = none)
    (differs : c ≠ other) : (u.consume other nowUnix).2.seen.lookup c = none := by
  unfold consume
  split
  · exact unused
  · dsimp only
    rw [AList.lookup_insert_ne differs]
    split
    · rw [Option.eq_none_iff_forall_ne_some]
      intro exp found
      rw [(lookup_prune.mp found).1] at unused
      cases unused
    · exact unused

end UsedChallenges

end Nostr

end FipsExitGate
