import FipsExitGate.Agent.AddrText
import FipsExitGate.Lib.Base64
import FipsExitGate.Portal.Challenge

/-!
# Captive tokens

The package `captivetoken`.  The captive daemon sends a visitor to the portal with a token that
names the address it saw and an expiry, `addr|exp|mac` in base64, where the MAC is over `addr|exp`
and itself in base64.

None of the three parts has the separator in it, so `Verify` takes apart what `Sign` put together.
In the other direction nothing is assumed of the token.  The two layers of base64 are not
canonical: bits at the end and line breaks are ignored, so there are other texts of the same token,
and `Verify` accepts them.  What it accepts is a MAC over the very texts that it then reads the
address and the expiry from.

## Design notes

* The times are `int64`.  `Verify` returns an address as `netip.ParseAddr` reads it, which may
  have a zone.
* `hmac.Equal` is equality.  That two texts have different MACs cannot be proved; `NoCollision` says
  it of two texts.

## Main results

* `captive_token_codec` — what was signed is accepted up to its expiry, and what is accepted carries
  a MAC for just the address and expiry that are read
-/

namespace FipsExitGate.Captivetoken

open Nostr Agent

/-- `base64.RawURLEncoding`. -/
def rawURLEncoding : Base64.Encoding where
  alphabet := utf8 "ABCDEFGHIJKLMNOPQRSTUVWXYZabcdefghijklmnopqrstuvwxyz0123456789-_"
  length_alphabet := by decide +kernel
  nodup := by decide +kernel
  plain := by
    have all : (utf8 "ABCDEFGHIJKLMNOPQRSTUVWXYZabcdefghijklmnopqrstuvwxyz0123456789-_").all
        (fun c => !Base64.isBreak c && decide (c ≠ Base64.pad)) = true := by decide +kernel
    intro c member
    simpa using List.all_eq_true.mp all c member
  padded := false
  strict := false

theorem base64Char_eq {n : Nat} (small : n < 64) : base64Char n = rawURLEncoding.char n := by
  have all : ∀ n < 64, base64Char n = rawURLEncoding.char n := by decide +kernel
  exact all n small

/-- The encoder of the challenges is this one. -/
theorem base64RawURL_eq (bs : Bytes) : base64RawURL bs = Base64.encode rawURLEncoding bs := by
  have group (n : Nat) (a b c : UInt8) :
      base64Group n a b c = ((Base64.digits a b c).take n).map rawURLEncoding.char := by
    refine List.map_congr_left fun d member => base64Char_eq ?_
    exact Base64.digits_lt a b c d (List.mem_of_mem_take member)
  induction bs using base64RawURL.induct with
  | case1 => rfl
  | case2 a => rw [base64RawURL, Base64.encode, group, Base64.padding]; rfl
  | case3 a b => rw [base64RawURL, Base64.encode, group, Base64.padding]; rfl
  | case4 a b c rest ih => rw [base64RawURL, Base64.encode, group, ih]; rfl

theorem decode_base64RawURL (bs : Bytes) :
    Base64.decode rawURLEncoding (base64RawURL bs) = .ok bs := by
  rw [base64RawURL_eq, Base64.decode_encode]

/-! ## Signing and verifying -/

/-- `mac`. -/
def mac (secret msg : Bytes) : Bytes := (hmacSha256 secret msg).take 16

/-- The text that is signed. -/
def payload (addr : Addr) (expUnix : Int64) : Bytes :=
  addrString addr ++ 0x7c :: Decimal.formatInt expUnix.toInt

/-- `Sign`. -/
def sign (secret : Bytes) (addr : Addr) (expUnix : Int64) : Bytes :=
  let raw := payload addr expUnix ++ 0x7c :: base64RawURL (mac secret (payload addr expUnix))
  base64RawURL raw

/-- The errors of `Verify`. -/
inductive TokenErr where
  | badBase64 (offset : Nat)
  | malformed
  | badSignature
  | badExpiry
  | expired
  | badAddr
  deriving DecidableEq, Repr

/-- The texts of the errors, that of `ParseAddr` left out. -/
def TokenErr.text : TokenErr → String
  | .badBase64 offset =>
      s!"captive token: bad base64: illegal base64 data at input byte {offset}"
  | .malformed => "captive token: malformed"
  | .badSignature => "captive token: bad signature"
  | .badExpiry => "captive token: bad expiry"
  | .expired => "captive token: expired"
  | .badAddr => "captive token: bad addr: "

/-- `Verify`. -/
def verify (secret token : Bytes) (now : Int64) : Except TokenErr Inet.Parsed :=
  match Base64.decode rawURLEncoding token with
  | .error offset => .error (.badBase64 offset)
  | .ok raw =>
      match splitByte 0x7c raw with
      | [addrText, expText, macText] =>
          match Base64.decode rawURLEncoding macText with
          | .error _ => .error .badSignature
          | .ok got =>
              if mac secret (addrText ++ 0x7c :: expText) ≠ got then .error .badSignature
              else
                match parseInt64 expText with
                | none => .error .badExpiry
                | some exp =>
                    if exp < now.toInt then .error .expired
                    else
                      match Inet.parseAddr addrText with
                      | none => .error .badAddr
                      | some addr => .ok addr
      | _ => .error .malformed

/-! ## The parts of a token -/

/-- The texts of a token, and the bytes of its MAC. -/
structure Parts where
  addr : Bytes
  exp : Bytes
  mac : Bytes
  deriving DecidableEq, Repr

/-- The text that the MAC of a token is over. -/
def Parts.payload (p : Parts) : Bytes := p.addr ++ 0x7c :: p.exp

/-- A token taken apart. -/
def parts (token : Bytes) : Option Parts :=
  match Base64.decode rawURLEncoding token with
  | .error _ => none
  | .ok raw =>
      match splitByte 0x7c raw with
      | [addrText, expText, macText] =>
          match Base64.decode rawURLEncoding macText with
          | .error _ => none
          | .ok got => some ⟨addrText, expText, got⟩
      | _ => none

theorem parts_eq {token raw addrText expText macText got : Bytes}
    (decoded : Base64.decode rawURLEncoding token = .ok raw)
    (split : splitByte 0x7c raw = [addrText, expText, macText])
    (decodedMac : Base64.decode rawURLEncoding macText = .ok got) :
    parts token = some ⟨addrText, expText, got⟩ := by
  simp only [parts, decoded, split, decodedMac]

/-- What `Verify` does with the parts of a token. -/
theorem verify_of_parts {token : Bytes} {p : Parts} (isParts : parts token = some p)
    (secret : Bytes) (now : Int64) :
    verify secret token now =
      if mac secret p.payload ≠ p.mac then .error .badSignature
      else
        match parseInt64 p.exp with
        | none => .error .badExpiry
        | some exp =>
            if exp < now.toInt then .error .expired
            else
              match Inet.parseAddr p.addr with
              | none => .error .badAddr
              | some addr => .ok addr := by
  unfold parts at isParts
  unfold verify
  split at isParts
  · cases isParts
  next raw decoded =>
    split at isParts
    · next addrText expText macText split =>
        split at isParts
        · cases isParts
        next got decodedMac =>
          cases isParts
          rfl
    · cases isParts

/-- A token that cannot be taken apart is not accepted. -/
theorem parts_of_verify {secret token : Bytes} {now : Int64} {addr : Inet.Parsed}
    (accepted : verify secret token now = .ok addr) : ∃ p, parts token = some p := by
  unfold verify at accepted
  unfold parts
  split at accepted
  · cases accepted
  next raw decoded =>
    split at accepted
    · next addrText expText macText split =>
        split at accepted
        · cases accepted
        next got decodedMac => exact ⟨_, rfl⟩
    · cases accepted

/-- **What is accepted**: a MAC over two texts that are read as the address and an expiry that has
not passed. -/
theorem verify_eq_ok_iff {secret token : Bytes} {now : Int64} {addr : Inet.Parsed} :
    verify secret token now = .ok addr ↔
      ∃ p exp, parts token = some p ∧ p.mac = mac secret p.payload ∧
        parseInt64 p.exp = some exp ∧ now.toInt ≤ exp ∧ Inet.parseAddr p.addr = some addr := by
  constructor
  · intro accepted
    obtain ⟨p, isParts⟩ := parts_of_verify accepted
    rw [verify_of_parts isParts] at accepted
    split at accepted
    · cases accepted
    next signed =>
      split at accepted
      · cases accepted
      next exp isExp =>
        split at accepted
        · cases accepted
        next fresh =>
          split at accepted
          · cases accepted
          next addr' isAddr =>
            cases accepted
            exact ⟨p, exp, isParts, (not_not.mp signed).symm, isExp, Int.not_lt.mp fresh, isAddr⟩
  · rintro ⟨p, exp, isParts, signed, isExp, fresh, isAddr⟩
    rw [verify_of_parts isParts, if_neg (not_not.mpr signed.symm), isExp]
    simp only [if_neg (Int.not_lt.mpr fresh), isAddr]

/-! ## Signed tokens -/

theorem separator_notMem_addrString (addr : Addr) : 0x7c ∉ addrString addr := by
  intro member
  rcases mem_addrString member with hex | isDot | isColon
  · exact absurd hex (by decide)
  · exact absurd isDot (by decide)
  · exact absurd isColon (by decide)

theorem separator_notMem_formatInt (n : Int) : 0x7c ∉ Decimal.formatInt n := by
  intro member
  rcases Decimal.mem_formatInt member with minus | digit
  · cases minus
  · cases digit

theorem separator_notMem_base64RawURL (bs : Bytes) : 0x7c ∉ base64RawURL bs := by
  rw [base64RawURL_eq]
  intro member
  rcases Base64.mem_encode rawURLEncoding member with inAlphabet | isPad
  · exact absurd inAlphabet (by decide +kernel)
  · exact absurd isPad (by decide)

theorem parseInt64_formatInt64 (n : Int64) : parseInt64 (Decimal.formatInt n.toInt) = some n.toInt :=
  parseInt64_formatInt n.le_toInt n.toInt_lt

/-- The parts that a token is signed with. -/
def signedParts (secret : Bytes) (addr : Addr) (exp : Int64) : Parts :=
  ⟨addrString addr, Decimal.formatInt exp.toInt, mac secret (payload addr exp)⟩

theorem payload_signedParts (secret : Bytes) (addr : Addr) (exp : Int64) :
    (signedParts secret addr exp).payload = payload addr exp := rfl

theorem mac_signedParts (secret : Bytes) (addr : Addr) (exp : Int64) :
    (signedParts secret addr exp).mac = mac secret (payload addr exp) := rfl

/-- **A signed token is taken apart into what it was made of.** -/
theorem parts_sign (secret : Bytes) (addr : Addr) (exp : Int64) :
    parts (sign secret addr exp) = some (signedParts secret addr exp) := by
  have split (m : Bytes) : splitByte 0x7c (payload addr exp ++ 0x7c :: base64RawURL m) =
      [addrString addr, Decimal.formatInt exp.toInt, base64RawURL m] := by
    rw [splitByte_append, payload, splitByte_append,
      splitByte_of_not_mem (separator_notMem_addrString _),
      splitByte_of_not_mem (separator_notMem_formatInt _),
      splitByte_of_not_mem (separator_notMem_base64RawURL _)]
    rfl
  exact parts_eq (decode_base64RawURL _) (split _) (decode_base64RawURL _)

/-- **A signed token is accepted up to its expiry.** -/
theorem verify_sign (secret : Bytes) (addr : Addr) (exp now : Int64) :
    verify secret (sign secret addr exp) now =
      if now ≤ exp then .ok (netip addr) else .error .expired := by
  rw [verify_of_parts (parts_sign secret addr exp), payload_signedParts, mac_signedParts,
    if_neg (not_not.mpr rfl)]
  simp only [signedParts, parseInt64_formatInt64, parseAddr_addrString]
  by_cases fresh : now ≤ exp
  · rw [if_pos fresh]
    exact if_neg (Int.not_lt.mpr (Int64.le_iff_toInt_le.mp fresh))
  · rw [if_neg fresh]
    exact if_pos (Int.not_le.mp (mt Int64.le_iff_toInt_le.mpr fresh))

/-! ## The codec -/

/-- The two texts do not have the same MAC by chance. -/
def NoCollision (secret msg msg' : Bytes) : Prop := mac secret msg = mac secret msg' → msg = msg'

/-- A payload is put together of two texts in one way only. -/
theorem of_payload {p : Parts} {addr : Addr} {exp : Int64} (same : p.payload = payload addr exp) :
    p.addr = addrString addr ∧ p.exp = Decimal.formatInt exp.toInt := by
  have split := congrArg (splitByte 0x7c) same
  rw [Parts.payload, payload, splitByte_append, splitByte_append,
    splitByte_of_not_mem (separator_notMem_addrString addr),
    splitByte_of_not_mem (separator_notMem_formatInt exp.toInt)] at split
  obtain ⟨addrText, moreAddr, isAddr⟩ :=
    List.exists_cons_of_ne_nil (splitByte_ne_nil 0x7c p.addr)
  obtain ⟨expText, moreExp, isExp⟩ := List.exists_cons_of_ne_nil (splitByte_ne_nil 0x7c p.exp)
  rw [isAddr, isExp] at split
  have lengths := congrArg List.length split
  simp only [List.length_append, List.length_cons, List.length_nil] at lengths
  obtain rfl : moreAddr = [] := List.length_eq_zero_iff.mp (by omega)
  obtain rfl : moreExp = [] := List.length_eq_zero_iff.mp (by omega)
  obtain ⟨rfl, rfl⟩ : addrText = addrString addr ∧ expText = Decimal.formatInt exp.toInt := by
    simpa using split
  have joinedAddr := joinByte_splitByte 0x7c p.addr
  have joinedExp := joinByte_splitByte 0x7c p.exp
  rw [isAddr] at joinedAddr
  rw [isExp] at joinedExp
  exact ⟨joinedAddr.symm, joinedExp.symm⟩

/-- **The codec of captive tokens.**  What was signed is accepted up to its expiry, and is expired
afterwards; a token is accepted exactly if it carries a MAC over the texts that the address and the
expiry are read from; and with the MAC of a signed token, it is accepted for the address and the
expiry that were signed. -/
theorem captive_token_codec (secret : Bytes) :
    (∀ (addr : Addr) (exp now : Int64), verify secret (sign secret addr exp) now =
      if now ≤ exp then .ok (netip addr) else .error .expired) ∧
    (∀ (token : Bytes) (now : Int64) (addr : Inet.Parsed), verify secret token now = .ok addr ↔
      ∃ p exp, parts token = some p ∧ p.mac = mac secret p.payload ∧
        parseInt64 p.exp = some exp ∧ now.toInt ≤ exp ∧ Inet.parseAddr p.addr = some addr) ∧
    ∀ (token : Bytes) (now : Int64) (addr : Inet.Parsed) (p : Parts) (addr' : Addr) (exp' : Int64),
      verify secret token now = .ok addr → parts token = some p →
      p.mac = mac secret (payload addr' exp') →
      NoCollision secret p.payload (payload addr' exp') →
        addr = netip addr' ∧ parseInt64 p.exp = some exp'.toInt ∧ now ≤ exp' := by
  refine ⟨verify_sign secret, fun token now addr => verify_eq_ok_iff, ?_⟩
  intro token now addr p addr' exp' accepted isParts borrowed noCollision
  obtain ⟨p', exp, isParts', signed, isExp, fresh, isAddr⟩ := verify_eq_ok_iff.mp accepted
  obtain rfl : p = p' := Option.some.inj (isParts.symm.trans isParts')
  obtain ⟨addrText, expText⟩ := of_payload (noCollision (signed.symm.trans borrowed))
  rw [addrText, parseAddr_addrString, Option.some.injEq] at isAddr
  rw [expText, parseInt64_formatInt64, Option.some.injEq] at isExp
  subst isAddr isExp
  exact ⟨rfl, by rw [expText, parseInt64_formatInt64], Int64.le_iff_toInt_le.mpr fresh⟩

/-- A visitor at `fd00::abcd`. -/
def visitor : Addr := .v6 0xfd00000000000000000000000000abcd

theorem captive_token_codec_visitor :
    verify (utf8 "s3cr3t") (sign (utf8 "s3cr3t") visitor 60) 60 = .ok (netip visitor) ∧
      verify (utf8 "s3cr3t") (sign (utf8 "s3cr3t") visitor 60) 61 = .error .expired ∧
      parseInt64 (signedParts (utf8 "s3cr3t") visitor 60).exp = some (60 : Int64).toInt := by
  obtain ⟨signed, -, same⟩ := captive_token_codec (utf8 "s3cr3t")
  have accepted : verify (utf8 "s3cr3t") (sign (utf8 "s3cr3t") visitor 60) 60 =
      .ok (netip visitor) := (signed visitor 60 60).trans (if_pos (by decide))
  have noCollision : NoCollision (utf8 "s3cr3t") (signedParts (utf8 "s3cr3t") visitor 60).payload
      (payload visitor 60) := fun _ => payload_signedParts _ visitor 60
  exact ⟨accepted, (signed visitor 60 61).trans (if_neg (by decide)),
    (same _ 60 _ _ visitor 60 accepted (parts_sign _ visitor 60) (mac_signedParts _ visitor 60)
      noCollision).2.1⟩

end FipsExitGate.Captivetoken
