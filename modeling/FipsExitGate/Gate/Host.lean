import FipsExitGate.Gate.Chains
import FipsExitGate.Lib.Machine

/-!
# A host behind the ruleset

The ruleset is loaded and packets arrive, leave, and are answered, while addresses join and
leave the authorized set.  The verdict of the NAT chain is taken once and kept for the
connection: a client that was authorized when it connected has a connection to the service
for good, and one that was not is redirected for good.  What decides is that `svc_in` and
`svc_out` look at every packet, after NAT, against the set as it is then.

## Design notes

* A direction of a connection is its tuple `Conn`.  `deliver` returns the tuple after NAT.
* `flows` has the interface by which a listener was reached first.  Its answers leave by the
  same interface: mesh addresses are routed to `FIPS_IF`.
* Connections that the host had before the ruleset was loaded, and those it opens itself,
  have no NAT verdict of the chain; the first are arbitrary.

## Main results

* `deliver_sound`, `sends_sound` — one packet, against the set as it is
* `gate_sound` — services hear and answer members of the set only
-/

namespace FipsExitGate.Gate

open Nft

/-! ## The host -/

/-- One direction of a connection. -/
structure Conn where
  proto : Proto
  saddr : Addr
  sport : Nat
  daddr : Addr
  dport : Nat
  deriving DecidableEq

namespace Conn

/-- The other direction. -/
def reverse (c : Conn) : Conn := ⟨c.proto, c.daddr, c.dport, c.saddr, c.sport⟩

/-- A packet that arrives. -/
def arriving (c : Conn) (iface : String) (rst : Bool) : Packet Addr :=
  ⟨some iface, none, c.proto, c.saddr, c.sport, c.daddr, c.dport, rst⟩

/-- A packet that the host sends. -/
def leaving (c : Conn) (iface : String) (rst : Bool) : Packet Addr :=
  ⟨none, some iface, c.proto, c.saddr, c.sport, c.daddr, c.dport, rst⟩

/-- A segment with the flag is an RST; datagrams have no flags. -/
def isReset (c : Conn) (rst : Bool) : Bool := decide (c.proto = .tcp) && rst

theorem isReset_arriving (c : Conn) (iface : String) (rst : Bool) :
    (c.arriving iface rst).isReset = c.isReset rst := rfl

theorem isReset_leaving (c : Conn) (iface : String) (rst : Bool) :
    (c.leaving iface rst).isReset = c.isReset rst := rfl

end Conn

/-- The verdict of a NAT chain, as connection tracking keeps it. -/
inductive NatVerdict where
  | untouched
  | redirected (port : Nat)
  deriving DecidableEq

/-- A host, with its ruleset loaded. -/
structure Host where
  rules : Ruleset
  /-- The address that packets of an interface are redirected to. -/
  primary : String → Addr
  isLocal : Addr → Bool

structure HostState where
  authorized : Addr → Bool
  /-- The connections that are tracked. -/
  nat : Conn → Option NatVerdict
  /-- The directions in which a listener has been reached, with the interface. -/
  flows : Conn → Option String

/-- The state after the ruleset was loaded. -/
def HostState.loaded (seed : Addr → Bool) (nat : Conn → Option NatVerdict) : HostState :=
  ⟨seed, nat, fun _ => none⟩

/-- What the rules see of the state. -/
def HostState.context (st : HostState) (isNew : Bool) (exceeds : Nat → Bool) :
    Context Addr Bytes where
  sets := fun set a => decide (set = "authorized") && st.authorized a
  ports := portSet
  isNew := isNew
  countOver := exceeds

namespace Host

variable (host : Host)

/-- The packet gets through a chain. -/
def passes (ctx : Context Addr Bytes) (pkt : Packet Addr) (chain : ChainName) : Bool :=
  decide (verdict ctx pkt host.rules chain = .accept)

/-- The NAT verdict of a packet.  The chain is asked only about the first packet of a
connection; a stray RST is no connection. -/
def natVerdict (st : HostState) (c : Conn) (iface : String) (rst : Bool) : NatVerdict :=
  match st.nat c with
  | some kept => kept
  | none =>
      if c.isReset rst then .untouched
      else
        match verdict (st.context true fun _ => false) (c.arriving iface rst) host.rules .gate with
        | .redirect port => .redirected port
        | _ => .untouched

/-- The tuple after NAT. -/
def translate (c : Conn) (iface : String) : NatVerdict → Conn
  | .untouched => c
  | .redirected port => { c with daddr := host.primary iface, dport := port }

/-- **A packet arrives**: the tuple under which a listener gets it, if one does.  `exceeds` tells
whether the source has more than so many connections. -/
def deliver (st : HostState) (c : Conn) (iface : String) (rst : Bool) (exceeds : Nat → Bool) :
    Option Conn :=
  let ctx := st.context (st.nat c).isNone exceeds
  if host.passes ctx (c.arriving iface rst) .connLimit ∧
      host.passes ctx (c.arriving iface rst) .acctIn then
    let target := host.translate c iface (host.natVerdict st c iface rst)
    if host.isLocal target.daddr ∧ host.passes ctx (target.arriving iface rst) .svcIn then
      some target
    else none
  else none

/-- **The host sends a packet**, and it leaves by the interface. -/
def sends (st : HostState) (c : Conn) (iface : String) (rst : Bool) : Bool :=
  let ctx := st.context false fun _ => false
  host.passes ctx (c.leaving iface rst) .svcOut && host.passes ctx (c.leaving iface rst) .acctOut

/-- What happens to the host. -/
inductive Event where
  | receive (c : Conn) (iface : String) (rst : Bool) (exceeds : Nat → Bool)
  /-- A listener answers where it was reached. -/
  | answer (c : Conn) (rst : Bool)
  /-- The host opens a connection. -/
  | connect (c : Conn)
  | authorize (a : Addr)
  | revoke (a : Addr)
  /-- Connection tracking forgets. -/
  | expire (c : Conn)

/-- One event; a listener answers only where it was reached. -/
def step (st : HostState) : Event → Option HostState
  | .receive c iface rst exceeds =>
      match host.deliver st c iface rst exceeds with
      | none => some st
      | some target =>
          if c.isReset rst then some st
          else
            some { st with
              nat := Function.update st.nat c (some (host.natVerdict st c iface rst))
              flows := Function.update st.flows target (some iface) }
  | .answer c _ => if (st.flows c).isSome then some st else none
  | .connect c => some { st with nat := Function.update st.nat c.reverse (some .untouched) }
  | .authorize a => some { st with authorized := Function.update st.authorized a true }
  | .revoke a => some { st with authorized := Function.update st.authorized a false }
  | .expire c => some { st with nat := Function.update st.nat c none }

end Host

/-! ## Soundness -/

/-- The tuple leads to a listener of the catalog. -/
def AtService (services : Bytes) (exit : BitVec 128) (c : Conn) : Prop :=
  c.daddr = .v6 exit ∧ Catalogued services c.proto c.dport

/-- NAT changes neither the protocol nor the source. -/
theorem Host.translate_source (host : Host) (c : Conn) (iface : String) (v : NatVerdict) :
    (host.translate c iface v).proto = c.proto ∧ (host.translate c iface v).saddr = c.saddr := by
  cases v <;> exact ⟨rfl, rfl⟩

/-- A packet that is delivered has passed `svc_in` under the tuple it is delivered with. -/
theorem Host.deliver_eq_some {host : Host} {st : HostState} {c target : Conn} {iface : String}
    {rst : Bool} {exceeds : Nat → Bool}
    (delivered : host.deliver st c iface rst exceeds = some target) :
    (target.proto = c.proto ∧ target.saddr = c.saddr) ∧
      ∃ isNew, verdict (st.context isNew exceeds) (target.arriving iface rst) host.rules .svcIn =
        .accept := by
  unfold deliver at delivered
  dsimp only at delivered
  split at delivered
  · split at delivered
    · rename_i passed
      cases delivered
      exact ⟨host.translate_source c iface _, _, of_decide_eq_true passed.2⟩
    · cases delivered
  · cases delivered

theorem Host.sends_svcOut {host : Host} {st : HostState} {c : Conn} {iface : String} {rst : Bool}
    (sent : host.sends st c iface rst = true) :
    verdict (st.context false fun _ => false) (c.leaving iface rst) host.rules .svcOut = .accept :=
  of_decide_eq_true (Bool.and_eq_true_iff.mp sent).1

theorem HostState.context_authorized (st : HostState) (isNew : Bool) (exceeds : Nat → Bool)
    (a : Addr) : (st.context isNew exceeds).sets "authorized" a = st.authorized a := by
  simp [HostState.context]

section Sound

variable {env : RenderEnv} {services : Bytes} {host : Host} {exit : BitVec 128} {fipsIf : String}
  {st : HostState}

/-- What is delivered to a service came from `FIPS_IF`, from a member of the set. -/
theorem deliver_sound (rendered : render env services = .ok host.rules)
    (isExit : env.exitFipsAddr = some exit) (isFips : env.fipsIf = some fipsIf)
    (apart : env.wgGw6 ≠ some exit) {c target : Conn} {iface : String} {rst : Bool}
    {exceeds : Nat → Bool} (delivered : host.deliver st c iface rst exceeds = some target)
    (notReset : c.isReset rst = false) (atService : AtService services exit target) :
    iface = fipsIf ∧ st.authorized c.saddr = true := by
  obtain ⟨fipsIf', exit', captivePort, lists, wg, isFips', isExit', -, collected, tunnel, isRules⟩ :=
    render_ok rendered
  obtain rfl : fipsIf = fipsIf' := Option.some_inj.mp (isFips.symm.trans isFips')
  obtain rfl : exit = exit' := Option.some_inj.mp (isExit.symm.trans isExit')
  obtain ⟨⟨sameProto, sameSource⟩, isNew, accepted⟩ := Host.deliver_eq_some delivered
  by_contra outside
  rw [isRules] at accepted
  refine verdict_ne_accept (svcIn_blocks rfl atService.1 ?_ ?_ ?_ ?_) accepted
  · rw [target.isReset_arriving, Conn.isReset, sameProto]
    exact notReset
  · exact (has_iff collected target.proto target.dport).mpr atService.2
  · rintro w rfl -
    obtain ⟨-, ⟨gw4, isGw4⟩, gw6, isGw6, isV6⟩ := wgSettings_ok tunnel
    refine ⟨by simp [isGw4], fun same => absurd ?_ apart⟩
    rw [isV6] at same
    exact isGw6.trans (congrArg some (Addr.v6.inj same))
  · rw [st.context_authorized]
    rw [not_and_or, Bool.not_eq_true, ← sameSource] at outside
    exact outside.imp (fun elsewhere same => elsewhere (Option.some_inj.mp same)) id

/-- What a service sends by `FIPS_IF` goes to a member of the set. -/
theorem sends_sound (rendered : render env services = .ok host.rules)
    (isFips : env.fipsIf = some fipsIf) (isExit : env.exitFipsAddr = some exit) {c : Conn}
    {rst : Bool} (sent : host.sends st c fipsIf rst = true) (notReset : c.isReset rst = false)
    (fromService : AtService services exit c.reverse) : st.authorized c.daddr = true := by
  obtain ⟨fipsIf', exit', captivePort, lists, wg, isFips', isExit', -, collected, -, isRules⟩ :=
    render_ok rendered
  obtain rfl : fipsIf = fipsIf' := Option.some_inj.mp (isFips.symm.trans isFips')
  obtain rfl : exit = exit' := Option.some_inj.mp (isExit.symm.trans isExit')
  by_contra unauthorized
  have accepted := Host.sends_svcOut sent
  rw [isRules] at accepted
  refine verdict_ne_accept (svcOut_blocks rfl fromService.1 rfl ?_ ?_ ?_) accepted
  · rw [c.isReset_leaving]
    exact notReset
  · exact (has_iff collected c.proto c.sport).mpr fromService.2
  · rw [st.context_authorized]
    exact Bool.not_eq_true _ ▸ unauthorized

/-- Services have been reached by `FIPS_IF` only. -/
def HostState.Reached (services : Bytes) (exit : BitVec 128) (fipsIf : String) (st : HostState) :
    Prop :=
  ∀ c iface, st.flows c = some iface → AtService services exit c → iface = fipsIf

theorem reached_step (rendered : render env services = .ok host.rules)
    (isExit : env.exitFipsAddr = some exit) (isFips : env.fipsIf = some fipsIf)
    (apart : env.wgGw6 ≠ some exit) {st' : HostState} {e : Host.Event}
    (reached : st.Reached services exit fipsIf) (stepped : host.step st e = some st') :
    st'.Reached services exit fipsIf := by
  cases e with
  | receive c iface rst exceeds =>
      simp only [Host.step] at stepped
      split at stepped
      · cases stepped
        exact reached
      · rename_i target delivered
        split at stepped
        · cases stepped
          exact reached
        · rename_i notReset
          cases stepped
          intro c' iface' flow atService
          by_cases isTarget : c' = target
          · subst isTarget
            obtain rfl : iface = iface' := by
              simpa only [Function.update_self, Option.some_inj] using flow
            exact (deliver_sound rendered isExit isFips apart delivered
              (Bool.eq_false_of_not_eq_true notReset) atService).1
          · exact reached c' iface' (by simpa only [Function.update_of_ne isTarget] using flow)
              atService
  | answer c rst =>
      simp only [Host.step] at stepped
      split at stepped
      · cases stepped
        exact reached
      · cases stepped
  | connect c | authorize a | revoke a | expire c =>
      cases stepped
      exact reached

/-- **The gate is sound.**  At any time, a service gets packets only from `FIPS_IF` and only
from sources that are in the set then, and neither its answers nor anything else from its
port leave to an address outside the set; RST segments are exempt. -/
theorem gate_sound (rendered : render env services = .ok host.rules)
    (isExit : env.exitFipsAddr = some exit) (isFips : env.fipsIf = some fipsIf)
    (apart : env.wgGw6 ≠ some exit) (seed : Addr → Bool) (nat : Conn → Option NatVerdict)
    (events : List Host.Event)
    (run : Machine.run host.step (HostState.loaded seed nat) events = some st) :
    (∀ c iface rst exceeds target, host.deliver st c iface rst exceeds = some target →
      c.isReset rst = false → AtService services exit target →
        iface = fipsIf ∧ st.authorized c.saddr = true) ∧
    (∀ c iface rst, st.flows c = some iface → host.sends st c.reverse iface rst = true →
      c.isReset rst = false → AtService services exit c → st.authorized c.saddr = true) ∧
    ∀ c rst, host.sends st c fipsIf rst = true → c.isReset rst = false →
      AtService services exit c.reverse → st.authorized c.daddr = true := by
  have reached : st.Reached services exit fipsIf :=
    Machine.run_invariant (fun _ _ _ => reached_step rendered isExit isFips apart) events
      (fun c iface flow => by cases flow) run
  refine ⟨fun c iface rst exceeds target => deliver_sound rendered isExit isFips apart, ?_,
    fun c rst => sends_sound rendered isFips isExit⟩
  intro c iface rst flow sent notReset atService
  rw [reached c iface flow atService] at sent
  exact sends_sound rendered isFips isExit sent notReset atService

/-- An exit with the SOCKS service only. -/
def socksEnv : RenderEnv where
  fipsIf := some "fips0"
  exitFipsAddr := some 0xfd000000000000000000000000000001
  captivePort := some 8080
  maxConnsPerSrc := 0
  guardPorts := []
  wgIf := none
  externalIf := none
  wgPool4 := none
  wgPool6 := none
  wgGw4 := none
  wgGw6 := none

/-- The line `s 1080`. -/
def socksServices : Bytes := [0x73, 0x20, 0x31, 0x30, 0x38, 0x30, 0x0a]

def socksHost : Host where
  rules := ruleset ⟨"fips0", .v6 0xfd000000000000000000000000000001, 8080⟩
    ⟨[0x31, 0x30, 0x38, 0x30], []⟩ [] 0 none
  primary := fun _ => .v6 0xfd000000000000000000000000000001
  isLocal := fun a => a = .v6 0xfd000000000000000000000000000001

/-- A client of the service. -/
def socksConn : Conn :=
  ⟨.tcp, .v6 0xfd000000000000000000000000000002, 40000,
    .v6 0xfd000000000000000000000000000001, 1080⟩

/-- A client connects and is revoked. -/
def socksRevoked : List Host.Event :=
  [.authorize socksConn.saddr, .receive socksConn "fips0" false fun _ => false,
    .revoke socksConn.saddr]

theorem render_socks : render socksEnv socksServices = .ok socksHost.rules := by
  have collected : collect socksServices = .ok ⟨[0x31, 0x30, 0x38, 0x30], []⟩ := by
    decide +kernel
  exact render_eq_ok rfl rfl rfl collected rfl

/-- A client that connected while it was authorized: after its revocation the NAT verdict is
still there, but nothing gets through. -/
theorem gate_sound_revoked :
    ∃ st, Machine.run socksHost.step (HostState.loaded (fun _ => false) fun _ => none)
        socksRevoked = some st ∧
      st.flows socksConn = some "fips0" ∧ st.nat socksConn = some .untouched ∧
      (∀ exceeds target, socksHost.deliver st socksConn "fips0" false exceeds = some target →
        ¬AtService socksServices 0xfd000000000000000000000000000001 target) ∧
      socksHost.sends st socksConn.reverse "fips0" false = false := by
  obtain ⟨st, run⟩ : ∃ st, Machine.run socksHost.step
      (HostState.loaded (fun _ => false) fun _ => none) socksRevoked = some st :=
    Option.isSome_iff_exists.mp (by decide +kernel)
  have seen : ∀ {α : Type} (f : HostState → α) {value : α},
      (Machine.run socksHost.step (HostState.loaded (fun _ => false) fun _ => none)
        socksRevoked).map f = some value → f st = value := by
    intro α f value mapped
    rw [run] at mapped
    exact Option.some_inj.mp mapped
  have flow : st.flows socksConn = some "fips0" :=
    seen (fun st => st.flows socksConn) (by decide +kernel)
  have kept : st.nat socksConn = some .untouched :=
    seen (fun st => st.nat socksConn) (by decide +kernel)
  have revoked : st.authorized socksConn.saddr = false :=
    seen (fun st => st.authorized socksConn.saddr) (by decide +kernel)
  obtain ⟨heard, answered, -⟩ := gate_sound render_socks rfl rfl (by simp [socksEnv]) _ _ _ run
  have atService : AtService socksServices 0xfd000000000000000000000000000001 socksConn :=
    ⟨rfl, ⟨[0x31, 0x30, 0x38, 0x30], .tcp⟩, by decide +kernel, rfl, by decide +kernel⟩
  refine ⟨st, run, flow, kept, fun exceeds target delivered reaches => ?_, ?_⟩
  · have member := (heard _ _ _ exceeds target delivered rfl reaches).2
    rw [revoked] at member
    cases member
  · by_contra sent
    have member := answered _ _ false flow (by simpa using sent) rfl atService
    rw [revoked] at member
    cases member

end Sound

end FipsExitGate.Gate
