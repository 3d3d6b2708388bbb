import FipsExitGate.Gate.Catalog

/-!
# What the chains let through

The chains `svc_in` and `svc_out` of a rendered ruleset, for one packet.  All rules of these
chains block what they match, apart from the jump for packets of the tunnel; so one rule that
matches keeps a packet out, wherever it stands.

## Main results

* `render_ok` — what a successful run of the script has read
* `svcIn_blocks`, `svcOut_blocks` — the rules for service ports
* `svcIn_blocks_of_refused` — the rules for guarded ports
* `svcIn_accepts` — a packet that no rule is about gets through
-/

namespace FipsExitGate.Gate

open Nft

/-! ## What the script renders -/

/-- What a successful run of the script has read. -/
theorem render_ok {env : RenderEnv} {services : Bytes} {rules : Ruleset}
    (ok : render env services = .ok rules) :
    ∃ fipsIf exit captivePort lists wg, env.fipsIf = some fipsIf ∧
      env.exitFipsAddr = some exit ∧ env.captivePort = some captivePort ∧
      collect services = .ok lists ∧ wgSettings env = .ok wg ∧
      rules = ruleset ⟨fipsIf, .v6 exit, captivePort⟩ lists (ungatedPorts lists env.guardPorts)
        env.maxConnsPerSrc wg := by
  unfold render at ok
  cases isFips : env.fipsIf with
  | none => rw [isFips] at ok; cases ok
  | some fipsIf =>
  cases isExit : env.exitFipsAddr with
  | none => rw [isFips, isExit] at ok; cases ok
  | some exit =>
  cases isCaptive : env.captivePort with
  | none => rw [isFips, isExit, isCaptive] at ok; cases ok
  | some captivePort =>
  rw [isFips, isExit, isCaptive] at ok
  cases collected : collect services with
  | error e => rw [collected] at ok; cases ok
  | ok lists =>
  cases tunnel : wgSettings env with
  | error e => rw [collected, tunnel] at ok; cases ok
  | ok wg =>
  rw [collected, tunnel] at ok
  cases ok
  exact ⟨fipsIf, exit, captivePort, lists, wg, rfl, rfl, rfl, rfl, rfl, rfl⟩

theorem render_eq_ok {env : RenderEnv} {services : Bytes} {fipsIf : String} {exit : BitVec 128}
    {captivePort : Nat} {lists : PortLists} {wg : Option WgSettings}
    (isFips : env.fipsIf = some fipsIf) (isExit : env.exitFipsAddr = some exit)
    (isCaptive : env.captivePort = some captivePort) (collected : collect services = .ok lists)
    (tunnel : wgSettings env = .ok wg) :
    render env services = .ok (ruleset ⟨fipsIf, .v6 exit, captivePort⟩ lists
      (ungatedPorts lists env.guardPorts) env.maxConnsPerSrc wg) := by
  unfold render
  rw [isFips, isExit, isCaptive, collected, tunnel]
  rfl

theorem wgSettings_eq_none {env : RenderEnv} (ok : wgSettings env = .ok none) :
    env.wgIf = none := by
  cases isWg : env.wgIf with
  | none => rfl
  | some wgIf =>
      unfold wgSettings at ok
      rw [isWg] at ok
      cases external : env.externalIf <;> cases pool4 : env.wgPool4 <;>
        cases pool6 : env.wgPool6 <;> cases isGw4 : env.wgGw4 <;> cases isGw6 : env.wgGw6 <;>
        rw [external, pool4, pool6, isGw4, isGw6] at ok <;> cases ok

/-- The tunnel's addresses are those of the environment. -/
theorem wgSettings_ok {env : RenderEnv} {wg : WgSettings}
    (ok : wgSettings env = .ok (some wg)) :
    env.wgIf = some wg.wgIf ∧ (∃ gw4, wg.gw4 = .v4 gw4) ∧
      ∃ gw6, env.wgGw6 = some gw6 ∧ wg.gw6 = .v6 gw6 := by
  unfold wgSettings at ok
  cases isWg : env.wgIf with
  | none => rw [isWg] at ok; cases ok
  | some wgIf =>
  rw [isWg] at ok
  cases external : env.externalIf with
  | none => rw [external] at ok; cases ok
  | some _ =>
  cases pool4 : env.wgPool4 with
  | none => rw [external, pool4] at ok; cases ok
  | some _ =>
  cases pool6 : env.wgPool6 with
  | none => rw [external, pool4, pool6] at ok; cases ok
  | some _ =>
  cases isGw4 : env.wgGw4 with
  | none => rw [external, pool4, pool6, isGw4] at ok; cases ok
  | some gw4 =>
  cases isGw6 : env.wgGw6 with
  | none => rw [external, pool4, pool6, isGw4, isGw6] at ok; cases ok
  | some gw6 =>
  rw [external, pool4, pool6, isGw4, isGw6] at ok
  cases ok
  exact ⟨rfl, ⟨gw4, rfl⟩, gw6, rfl, rfl⟩

/-! ## The per-packet rules -/

section PerPacket

variable {cfg : Settings} {lists : PortLists} {ungated : Bytes} {maxConns : Nat}
  {wg : Option WgSettings} {ctx : Context Addr Bytes} {pkt : Packet Addr}

/-- The port is in the list of the protocol. -/
def PortLists.has (lists : PortLists) : Proto → Nat → Bool
  | .tcp => portSet lists.tcp
  | .udp => portSet lists.udp

theorem has_iff {services : Bytes} {lists : PortLists} (ok : collect services = .ok lists)
    (proto : Proto) (port : Nat) :
    lists.has proto port = true ↔ Catalogued services proto port := by
  cases proto with
  | tcp => exact (portSet_collect ok port).1
  | udp => exact (portSet_collect ok port).2

theorem PortLists.udp_ne_nil {port : Nat} (has : lists.has .udp port = true) : lists.udp ≠ [] := by
  intro isEmpty
  simp [PortLists.has, isEmpty, portSet, splitByte, words] at has

/-- The tunnel's chain does not let the packet through: it is not from the tunnel, or not for
the resolver. -/
def KeptFromTunnel (cfg : Settings) (wg : Option WgSettings) (pkt : Packet Addr) : Prop :=
  ∀ w, wg = some w → pkt.iif = some w.wgIf →
    w.gw4 ≠ cfg.exit ∧ (w.gw6 = cfg.exit → portSet dnsPort pkt.dport = false)

/-- From the tunnel, nothing but the resolver is reached. -/
theorem fromWg_drops {w : WgSettings} (depth : Nat) (ports : ctx.ports = portSet)
    (toExit : pkt.daddr = cfg.exit) (apart : w.gw4 ≠ cfg.exit)
    (notResolver : w.gw6 = cfg.exit → portSet dnsPort pkt.dport = false) :
    eval ctx pkt (ruleset cfg lists ungated maxConns (some w)) (depth + 1) .fromWg =
      some .drop := by
  have resolver : ¬(cfg.exit = w.gw6 ∧ portSet dnsPort pkt.dport = true) := by
    rintro ⟨same, isDns⟩
    rw [notResolver same.symm] at isDns
    cases isDns
  simp [eval, ruleset, fromWgRules, walk, Rule.hits, Match.holds, toExit, apart.symm, ports,
    resolver]

/-- **The rules of `svc_in`**: the jump for the tunnel, and for each list of ports the rules
that reject or drop. -/
theorem forall_svcInRules {P : GateRule → Prop}
    (tunnel : ∀ w, wg = some w → P ⟨[.iifname w.wgIf], .jump .fromWg⟩)
    (tcp : P ⟨cfg.notFromFips ++ [Match.dport .tcp lists.tcp, .noReset], .verdict .reject⟩ ∧
      P ⟨cfg.fromFips ++ [Match.dport .tcp lists.tcp, .noReset, .saddrNotIn "authorized"],
        .verdict .reject⟩)
    (refused : P ⟨cfg.fromFips ++ [Match.dport .tcp ungated, .noReset], .verdict .reject⟩ ∧
      P ⟨cfg.fromFips ++ [Match.dport .udp ungated], .verdict .drop⟩)
    (udp : P ⟨cfg.notFromFips ++ [Match.dport .udp lists.udp], .verdict .drop⟩ ∧
      P ⟨cfg.fromFips ++ [Match.dport .udp lists.udp, .saddrNotIn "authorized"], .verdict .drop⟩) :
    ∀ r ∈ svcInRules cfg lists ungated wg, P r := by
  intro r member
  simp only [svcInRules, List.mem_append] at member
  rcases member with ((isTunnel | isTcp) | isRefused) | isUdp
  · cases wg with
    | none => cases isTunnel
    | some w =>
        obtain rfl := List.mem_singleton.mp isTunnel
        exact tunnel w rfl
  · simp only [List.mem_cons, List.not_mem_nil, or_false] at isTcp
    rcases isTcp with rfl | rfl
    · exact tcp.1
    · exact tcp.2
  · unfold ungatedRules at isRefused
    split at isRefused
    · cases isRefused
    · simp only [List.mem_cons, List.not_mem_nil, or_false] at isRefused
      rcases isRefused with rfl | rfl
      · exact refused.1
      · exact refused.2
  · unfold udpInRules at isUdp
    split at isUdp
    · cases isUdp
    · simp only [List.mem_cons, List.not_mem_nil, or_false] at isUdp
      rcases isUdp with rfl | rfl
      · exact udp.1
      · exact udp.2

/-- Every rule of `svc_in` blocks what it matches. -/
theorem svcIn_strict (depth : Nat) (ports : ctx.ports = portSet) (toExit : pkt.daddr = cfg.exit)
    (kept : KeptFromTunnel cfg wg pkt) :
    ∀ r ∈ svcInRules cfg lists ungated wg, r.hits ctx pkt = true →
      r.Strict (eval ctx pkt (ruleset cfg lists ungated maxConns wg) (depth + 1)) := by
  refine forall_svcInRules (fun w isTunnel hit => ?_) ⟨?_, ?_⟩ ⟨?_, ?_⟩ ⟨?_, ?_⟩
  · obtain ⟨apart, notResolver⟩ := kept w isTunnel (by simpa [Rule.hits, Match.holds] using hit)
    subst isTunnel
    refine .jump (.inr ?_)
    rw [fromWg_drops depth ports toExit apart notResolver]
    exact .drop
  · exact fun _ => .verdict .reject
  · exact fun _ => .verdict .reject
  · exact fun _ => .verdict .reject
  · exact fun _ => .verdict .drop
  · exact fun _ => .verdict .drop
  · exact fun _ => .verdict .drop

/-- One rule of `svc_in` that matches is enough to keep the packet out. -/
theorem svcIn_blocks_of_hit (ports : ctx.ports = portSet) (toExit : pkt.daddr = cfg.exit)
    (kept : KeptFromTunnel cfg wg pkt) {r : GateRule} {v : Verdict}
    (member : r ∈ svcInRules cfg lists ungated wg) (isVerdict : r.stmt = .verdict v)
    (hit : r.hits ctx pkt = true) :
    Blocks (eval ctx pkt (ruleset cfg lists ungated maxConns wg) jumpStackSize .svcIn) :=
  walk_blocked member hit isVerdict (svcIn_strict 14 ports toExit kept)

/-- The condition on ports, and on the flag, of a rule for services. -/
def serviceMatches (lists : PortLists) : Proto → List (Match Addr Bytes)
  | .tcp => [.dport .tcp lists.tcp, .noReset]
  | .udp => [.dport .udp lists.udp]

theorem serviceMatches_hold (ports : ctx.ports = portSet) (notReset : pkt.isReset = false)
    (service : lists.has pkt.proto pkt.dport = true) :
    (serviceMatches lists pkt.proto).all (fun m => m.holds ctx pkt) = true := by
  cases isProto : pkt.proto with
  | tcp =>
      rw [isProto] at service
      have flag : pkt.rst = false := by simpa [Packet.isReset, isProto] using notReset
      have inSet : portSet lists.tcp pkt.dport = true := service
      simp [serviceMatches, Match.holds, isProto, ports, inSet, flag]
  | udp =>
      rw [isProto] at service
      have inSet : portSet lists.udp pkt.dport = true := service
      simp [serviceMatches, Match.holds, isProto, ports, inSet]

/-- For each protocol, `svc_in` has a rule for other interfaces and one for other sources. -/
theorem exists_service_rules {proto : Proto} {port : Nat} (service : lists.has proto port = true) :
    ∃ v, ⟨cfg.notFromFips ++ serviceMatches lists proto, .verdict v⟩ ∈
        svcInRules cfg lists ungated wg ∧
      ⟨cfg.fromFips ++ serviceMatches lists proto ++ [.saddrNotIn "authorized"], .verdict v⟩ ∈
        svcInRules cfg lists ungated wg := by
  cases proto with
  | tcp => exact ⟨.reject, by simp [svcInRules, serviceMatches], by simp [svcInRules, serviceMatches]⟩
  | udp =>
      have nonempty := lists.udp_ne_nil service
      exact ⟨.drop, by simp [svcInRules, udpInRules, nonempty, serviceMatches],
        by simp [svcInRules, udpInRules, nonempty, serviceMatches]⟩

/-- **`svc_in`**: a packet to a service port is kept out unless it came from `FIPS_IF` and
its source is authorized. -/
theorem svcIn_blocks (ports : ctx.ports = portSet) (toExit : pkt.daddr = cfg.exit)
    (notReset : pkt.isReset = false) (service : lists.has pkt.proto pkt.dport = true)
    (kept : KeptFromTunnel cfg wg pkt)
    (outside : pkt.iif ≠ some cfg.fipsIf ∨ ctx.sets "authorized" pkt.saddr = false) :
    Blocks (eval ctx pkt (ruleset cfg lists ungated maxConns wg) jumpStackSize .svcIn) := by
  obtain ⟨v, elsewhere, others⟩ := exists_service_rules service
  have holds := serviceMatches_hold ports notReset service
  by_cases fromFips : pkt.iif = some cfg.fipsIf
  · have unauthorized : ctx.sets "authorized" pkt.saddr = false :=
      outside.resolve_left fun notFips => notFips fromFips
    refine svcIn_blocks_of_hit ports toExit kept others rfl ?_
    rw [Rule.hits, List.all_append, List.all_append, holds]
    simp [Match.holds, Settings.fromFips, fromFips, toExit, unauthorized]
  · refine svcIn_blocks_of_hit ports toExit kept elsewhere rfl ?_
    rw [Rule.hits, List.all_append, holds]
    simp [Match.holds, Settings.notFromFips, fromFips, toExit]

/-- **The rules for guarded ports** keep out what comes from `FIPS_IF`. -/
theorem svcIn_blocks_of_refused (ports : ctx.ports = portSet) (toExit : pkt.daddr = cfg.exit)
    (notReset : pkt.isReset = false) (kept : KeptFromTunnel cfg wg pkt)
    (fromFips : pkt.iif = some cfg.fipsIf) (refused : portSet ungated pkt.dport = true) :
    Blocks (eval ctx pkt (ruleset cfg lists ungated maxConns wg) jumpStackSize .svcIn) := by
  have nonempty : ungated ≠ [] := by
    rintro rfl
    simp [portSet, splitByte, words] at refused
  cases isProto : pkt.proto with
  | tcp =>
      have flag : pkt.rst = false := by simpa [Packet.isReset, isProto] using notReset
      have member : ⟨cfg.fromFips ++ [.dport .tcp ungated, .noReset], .verdict .reject⟩ ∈
          svcInRules cfg lists ungated wg := by
        simp [svcInRules, ungatedRules, nonempty]
      refine svcIn_blocks_of_hit ports toExit kept member rfl ?_
      simp [Rule.hits, Match.holds, Settings.fromFips, fromFips, toExit, isProto, flag, ports,
        refused]
  | udp =>
      have member : ⟨cfg.fromFips ++ [.dport .udp ungated], .verdict .drop⟩ ∈
          svcInRules cfg lists ungated wg := by
        simp [svcInRules, ungatedRules, nonempty]
      refine svcIn_blocks_of_hit ports toExit kept member rfl ?_
      simp [Rule.hits, Match.holds, Settings.fromFips, fromFips, toExit, isProto, ports, refused]

/-- **A packet that no rule is about**: its port is in no list of its protocol, and it is not
from the tunnel. -/
theorem svcIn_accepts (ports : ctx.ports = portSet)
    (notTunnel : ∀ w, wg = some w → pkt.iif ≠ some w.wgIf)
    (noService : lists.has pkt.proto pkt.dport = false)
    (notRefused : portSet ungated pkt.dport = false) :
    verdict ctx pkt (ruleset cfg lists ungated maxConns wg) .svcIn = .accept := by
  have misses : ∀ r ∈ svcInRules cfg lists ungated wg, r.hits ctx pkt = false := by
    -- each rule asks for a protocol together with a list of ports
    have tcpMiss : ¬(pkt.proto = .tcp ∧ portSet lists.tcp pkt.dport = true) := by
      rintro ⟨isTcp, inSet⟩
      rw [isTcp] at noService
      exact Bool.false_ne_true (noService.symm.trans inSet)
    have udpMiss : ¬(pkt.proto = .udp ∧ portSet lists.udp pkt.dport = true) := by
      rintro ⟨isUdp, inSet⟩
      rw [isUdp] at noService
      exact Bool.false_ne_true (noService.symm.trans inSet)
    refine forall_svcInRules (fun w isTunnel => ?_) ⟨?_, ?_⟩ ⟨?_, ?_⟩ ⟨?_, ?_⟩
    · simpa [Rule.hits, Match.holds] using notTunnel w isTunnel
    · simp [Rule.hits, Match.holds, ports, Settings.notFromFips]
      grind
    · simp [Rule.hits, Match.holds, ports, Settings.fromFips]
      grind
    · simp [Rule.hits, Match.holds, ports, notRefused]
    · simp [Rule.hits, Match.holds, ports, notRefused]
    · simp [Rule.hits, Match.holds, ports, Settings.notFromFips]
      grind
    · simp [Rule.hits, Match.holds, ports, Settings.fromFips]
      grind
  have through : eval ctx pkt (ruleset cfg lists ungated maxConns wg) jumpStackSize .svcIn = none :=
    walk_eq_none misses
  rw [verdict, through, Option.getD_none]

theorem svcOut_strict {call : ChainName → Option Verdict} :
    ∀ r ∈ svcOutRules cfg lists, r.Strict call := by
  intro r member
  rcases List.mem_cons.mp member with rfl | udp
  · exact .verdict .reject
  · unfold udpOutRules at udp
    split at udp
    · cases udp
    · rw [List.mem_singleton.mp udp]
      exact .verdict .drop

/-- **`svc_out`**: a packet from a service port does not leave by `FIPS_IF` unless its
destination is authorized. -/
theorem svcOut_blocks (ports : ctx.ports = portSet) (fromExit : pkt.saddr = cfg.exit)
    (toFips : pkt.oif = some cfg.fipsIf) (notReset : pkt.isReset = false)
    (service : lists.has pkt.proto pkt.sport = true)
    (unauthorized : ctx.sets "authorized" pkt.daddr = false) :
    Blocks (eval ctx pkt (ruleset cfg lists ungated maxConns wg) jumpStackSize .svcOut) := by
  have blocked : ∀ r ∈ svcOutRules cfg lists, ∀ v, r.stmt = .verdict v → r.hits ctx pkt = true →
      Blocks (eval ctx pkt (ruleset cfg lists ungated maxConns wg) jumpStackSize .svcOut) :=
    fun r member v isVerdict hit =>
      walk_blocked member hit isVerdict fun r' isRule _ => svcOut_strict r' isRule
  cases isProto : pkt.proto with
  | tcp =>
      rw [isProto] at service
      have flag : pkt.rst = false := by simpa [Packet.isReset, isProto] using notReset
      refine blocked ⟨cfg.toFips ++ [.sport .tcp lists.tcp, .noReset, .daddrNotIn "authorized"],
        .verdict .reject⟩ (by simp [svcOutRules]) .reject rfl ?_
      have inSet : portSet lists.tcp pkt.sport = true := service
      simp [Rule.hits, Match.holds, Settings.toFips, toFips, fromExit, isProto, flag, ports, inSet,
        unauthorized]
  | udp =>
      rw [isProto] at service
      have nonempty := lists.udp_ne_nil service
      refine blocked ⟨cfg.toFips ++ [.sport .udp lists.udp, .daddrNotIn "authorized"],
        .verdict .drop⟩ (by simp [svcOutRules, udpOutRules, nonempty]) .drop rfl ?_
      have inSet : portSet lists.udp pkt.sport = true := service
      simp [Rule.hits, Match.holds, Settings.toFips, toFips, fromExit, isProto, ports, inSet,
        unauthorized]

end PerPacket

end FipsExitGate.Gate
