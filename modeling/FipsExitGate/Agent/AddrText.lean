import FipsExitGate.Lib.Inet
import FipsExitGate.Sync.SetHash

/-!
# The text of an address

`netip.Addr.String` and `netip.ParseAddr` on the addresses without a zone.  An IPv4 address in an
IPv6 one keeps its dotted form, behind `::ffff:`.

## Main results

* `parseAddr_addrString` — the text of an address is read as that address
* `mem_addrString` — there are digits, dots and colons in it
-/

namespace FipsExitGate.Agent

open Inet (Text)

/-- The groups of an address. -/
def groups (bits : BitVec 128) : List Nat := Inet.groupsOf (Authzhash.keyBytes bits.toNat)

/-- The address as `netip` has it. -/
def netip : Addr → Inet.Parsed
  | .v4 bits => .v4 ⟨.ofNat (bits.toNat / 2 ^ 24), .ofNat (bits.toNat / 2 ^ 16),
      .ofNat (bits.toNat / 2 ^ 8), .ofNat bits.toNat⟩
  | .v6 bits => .v6 (groups bits) []

/-- `netip.Addr.String`, which is also `MarshalText` here. -/
def addrString : Addr → Text
  | .v4 bits => Inet.string4 ⟨.ofNat (bits.toNat / 2 ^ 24), .ofNat (bits.toNat / 2 ^ 16),
      .ofNat (bits.toNat / 2 ^ 8), .ofNat bits.toNat⟩
  | .v6 bits =>
      match Inet.to4 (Authzhash.keyBytes bits.toNat) with
      | some q => utf8 "::ffff:" ++ Inet.string4 q
      | none => Inet.string6 (groups bits)

/-- The groups of an address are those of no other. -/
theorem groups_inj {bits bits' : BitVec 128} (same : groups bits = groups bits') :
    bits = bits' := by
  have length : ∀ key, (Authzhash.keyBytes key).length = 2 * 8 := Authzhash.length_keyBytes
  have bytes := congrArg Inet.bytesOf same
  rw [groups, groups, Inet.bytesOf_groupsOf (length _), Inet.bytesOf_groupsOf (length _)] at bytes
  have small : ∀ b : BitVec 128, b.toNat < 256 ^ 16 := fun b => b.isLt
  exact BitVec.eq_of_toNat_eq (Authzhash.beBytes_inj (small bits) (small bits') bytes)

/-- Different addresses are different to `netip`. -/
theorem netip_inj {a a' : Addr} (same : netip a = netip a') : a = a' := by
  cases a with
  | v4 bits =>
      cases a' with
      | v4 bits' =>
          have small := bits.isLt
          have small' := bits'.isLt
          simp only [netip, Inet.Parsed.v4.injEq, Inet.Octets.mk.injEq, ← UInt8.toNat_inj,
            UInt8.toNat_ofNat'] at same
          exact congrArg Addr.v4 (BitVec.eq_of_toNat_eq (by omega))
      | v6 bits' => cases same
  | v6 bits =>
      cases a' with
      | v4 bits' => cases same
      | v6 bits' => exact congrArg Addr.v6 (groups_inj (Inet.Parsed.v6.inj same).1)

theorem spells_groups (bits : BitVec 128) :
    Inet.Spells (Inet.string6 (groups bits)) (groups bits) := by
  have length : (Authzhash.keyBytes bits.toNat).length = 2 * 8 := Authzhash.length_keyBytes _
  exact Inet.spells_string6 (Inet.length_groupsOf length) (Inet.groupsOf_lt _)

/-- The text with a dotted part is one of the address. -/
theorem spells_mapped (q : Inet.Octets) :
    Inet.Spells (utf8 "::ffff:" ++ Inet.string4 q)
      (Inet.groupsOf (Inet.v4InV6 ++ q.bytes)) := by
  have ffff : Inet.IsGroup (Inet.appendHex 0xffff) 0xffff := Inet.isGroup_appendHex (by decide)
  have spells := Inet.Spells.elided .nil (.cons ffff (.quad q)) (by simp [Inet.Octets.groups])
  have text : utf8 "::ffff:" = [0x3a, 0x3a] ++ Inet.appendHex 0xffff ++ [0x3a] := by
    decide +kernel
  have eight : Inet.groupsOf (Inet.v4InV6 ++ q.bytes) = [0, 0, 0, 0, 0, 0xffff] ++ q.groups := by
    simp [Inet.groupsOf, Inet.v4InV6, Inet.Octets.bytes, Inet.Octets.groups]
  rw [Inet.colons_cons_cons, Inet.colons, Inet.colons, List.intercalate_singleton] at spells
  rw [text, eight, List.append_assoc, List.append_assoc]
  exact spells

/-- **The text of an address is one that is read as it.** -/
theorem spells_addrString (bits : BitVec 128) :
    Inet.Spells (addrString (.v6 bits)) (groups bits) := by
  rw [addrString]
  cases mapped : Inet.to4 (Authzhash.keyBytes bits.toNat) with
  | none => exact spells_groups bits
  | some q =>
      rw [groups, Inet.eq_of_to4 (Authzhash.length_keyBytes _) mapped]
      exact spells_mapped q

/-- **The text of an address is read as that address.** -/
theorem parseAddr_addrString (a : Addr) : Inet.parseAddr (addrString a) = some (netip a) := by
  cases a with
  | v4 bits => exact Inet.parseAddr_string4 _
  | v6 bits => exact Inet.parseAddr_of_spells (spells_addrString bits)

/-- Different addresses have different texts. -/
theorem addrString_inj {a a' : Addr} (same : addrString a = addrString a') : a = a' := by
  have read := parseAddr_addrString a
  rw [same, parseAddr_addrString, Option.some.injEq] at read
  exact (netip_inj read).symm

/-- The bytes of the text of an address. -/
theorem mem_addrString {a : Addr} {c : UInt8} (member : c ∈ addrString a) :
    Inet.isHex c = true ∨ c = 0x2e ∨ c = 0x3a := by
  cases a with
  | v4 bits =>
      exact ((Inet.Items.quad _).bytes List.mem_cons_self member).imp_right .inl
  | v6 bits => exact (spells_addrString bits).bytes member

end FipsExitGate.Agent
