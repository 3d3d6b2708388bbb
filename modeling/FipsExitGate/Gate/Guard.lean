import FipsExitGate.Gate.Chains

/-!
# Guarded ports

`GUARD_PORTS` names the ports that services may bind on the address of the exit.  Those that
are missing from `services.conf` are to be refused, "instead of being open, ungated and
unmetered".  The loop decides about this by a search for the word of the port in both lists
at once, while the rules for service ports are per protocol.  A port that is catalogued for
the other protocol is therefore neither gated nor refused: with the line `wg 51820`, whose
protocol is `tcp` by default, the datagrams of WireGuard get through from everywhere.

## Main results

* `guard_closed_iff` — when a guarded port is closed to sources outside the set
* `guard_bypassed` — a catalog that leaves the port of WireGuard open
-/

namespace FipsExitGate.Gate

open Nft

/-- A word of `GUARD_PORTS`, with the protocol that its service binds. -/
structure GuardPort where
  word : Bytes
  port : Nat
  reads : nftPort word = some port
  proto : Proto

/-- **The port is not open and ungated**: of what comes from `FIPS_IF`, `svc_in` lets only
packets of the authorized set through.  RST segments are exempt. -/
def Closed (rules : Ruleset) (fipsIf : String) (exit : BitVec 128) (proto : Proto) (port : Nat) :
    Prop :=
  ∀ (ctx : Context Addr Bytes) (pkt : Packet Addr), ctx.ports = portSet →
    pkt.iif = some fipsIf → pkt.daddr = .v6 exit → pkt.proto = proto → pkt.dport = port →
    pkt.isReset = false → verdict ctx pkt rules .svcIn = .accept →
      ctx.sets "authorized" pkt.saddr = true

/-- A guarded port that is catalogued under its own protocol, or that has a word which is not
in the catalog at all. -/
def Covered (services : Bytes) (guards : List GuardPort) (g : GuardPort) : Prop :=
  Catalogued services g.proto g.port ∨
    ∃ other ∈ guards, other.port = g.port ∧ ∀ svc ∈ catalog services, svc.port ≠ other.word

section Exact

variable {env : RenderEnv} {services : Bytes} {rules : Ruleset} {fipsIf : String}
  {exit : BitVec 128} {guards : List GuardPort}

theorem portSet_refused {lists : PortLists} (collected : collect services = .ok lists) (port : Nat) :
    portSet (ungatedPorts lists (guards.map (·.word))) port = true ↔
      ∃ other ∈ guards, other.port = port ∧ ∀ svc ∈ catalog services, svc.port ≠ other.word := by
  have numerals : ∀ gp ∈ guards.map (·.word), IsNumeral gp := by
    intro gp member
    obtain ⟨g, -, rfl⟩ := List.mem_map.mp member
    exact isNumeral_of_nftPort g.reads
  rw [portSet_ungatedPorts collected numerals]
  constructor
  · rintro ⟨gp, member, reads, absent⟩
    obtain ⟨other, isGuard, rfl⟩ := List.mem_map.mp member
    exact ⟨other, isGuard, Option.some_inj.mp (other.reads.symm.trans reads), absent⟩
  · rintro ⟨other, isGuard, rfl, absent⟩
    exact ⟨other.word, List.mem_map_of_mem isGuard, other.reads, absent⟩

theorem portSet_dnsPort (port : Nat) : portSet dnsPort port = true ↔ port = 53 := by
  have reads : nftPort dnsPort = some 53 := by decide
  have numerals : ∀ word ∈ [dnsPort], IsNumeral word := by
    simpa only [List.mem_singleton, forall_eq] using isNumeral_of_nftPort reads
  rw [show dnsPort = joined [dnsPort] from rfl, portSet_joined numerals]
  simp only [List.mem_singleton, exists_eq_left, reads, Option.some_inj]
  exact eq_comm

/-- A packet from `FIPS_IF`. -/
def probe (fipsIf : String) (exit : BitVec 128) (proto : Proto) (port : Nat) : Packet Addr :=
  ⟨some fipsIf, none, proto, .v6 0, 40000, .v6 exit, port, false⟩

/-- Nobody is authorized. -/
def closedContext : Context Addr Bytes := ⟨fun _ _ => false, portSet, true, fun _ => false⟩

/-- A port is open if `svc_in` lets the probe through while nobody is authorized. -/
theorem not_closed {proto : Proto} {port : Nat}
    (accepted : verdict closedContext (probe fipsIf exit proto port) rules .svcIn = .accept) :
    ¬Closed rules fipsIf exit proto port := by
  intro closed
  have member := closed closedContext (probe fipsIf exit proto port) rfl rfl rfl rfl rfl
    (by simp [probe, Packet.isReset]) accepted
  cases member

/-- With the tunnel on the interface of the packet, its chain decides first. -/
theorem verdict_of_tunnel {cfg : Settings} {lists : PortLists} {ungated : Bytes} {maxConns : Nat}
    {w : WgSettings} {ctx : Context Addr Bytes} {pkt : Packet Addr} {v : Verdict}
    (fromTunnel : pkt.iif = some w.wgIf)
    (decided : eval ctx pkt (ruleset cfg lists ungated maxConns (some w)) 15 .fromWg = some v) :
    verdict ctx pkt (ruleset cfg lists ungated maxConns (some w)) .svcIn = v := by
  have hit : Rule.hits ctx pkt (⟨[.iifname w.wgIf], .jump .fromWg⟩ : GateRule) = true := by
    simp [Rule.hits, Match.holds, fromTunnel]
  have walked : eval ctx pkt (ruleset cfg lists ungated maxConns (some w)) jumpStackSize .svcIn =
      some v := by
    change walk ctx pkt (eval ctx pkt (ruleset cfg lists ungated maxConns (some w)) 15)
      (svcInRules cfg lists ungated (some w)) = some v
    simp only [svcInRules, wgInput, List.cons_append, walk, if_pos hit, decided]
  rw [verdict, walked, Option.getD_some]

/-- The tunnel on `FIPS_IF` itself leaves its resolver open. -/
theorem closed_iff_of_tunnel {cfg : Settings} {lists : PortLists} {ungated : Bytes}
    {maxConns : Nat} {w : WgSettings} (isExit : cfg.exit = .v6 exit) (isWg : w.wgIf = fipsIf)
    (apart : w.gw4 ≠ cfg.exit) (proto : Proto) (port : Nat) :
    Closed (ruleset cfg lists ungated maxConns (some w)) fipsIf exit proto port ↔
      ¬(w.gw6 = .v6 exit ∧ port = 53) := by
  constructor
  · rintro closed ⟨isGateway, rfl⟩
    refine not_closed (verdict_of_tunnel (congrArg some isWg.symm) ?_) closed
    have isDns : portSet dnsPort 53 = true := (portSet_dnsPort 53).mpr rfl
    have notV4 : Addr.v6 exit ≠ w.gw4 := fun same => apart (same.symm.trans isExit.symm)
    simp [eval, ruleset, fromWgRules, walk, Rule.hits, Match.holds, probe, closedContext, notV4,
      isGateway, isDns]
  · intro notResolver ctx pkt ports fromFips toExit _ isPort _ accepted
    have closed : w.gw6 = cfg.exit → portSet dnsPort pkt.dport = false := by
      intro isGateway
      rw [isPort, Bool.eq_false_iff, Ne, portSet_dnsPort]
      exact fun isDns => notResolver ⟨isGateway.trans isExit, isDns⟩
    rw [verdict_of_tunnel (fromFips.trans (congrArg some isWg.symm))
      (fromWg_drops 14 ports (toExit.trans isExit.symm) apart closed)] at accepted
    cases accepted

/-- **When a guarded port is closed.**  Unless the tunnel is on `FIPS_IF`, the port has to be
catalogued under its own protocol, or to be missing from the catalog under every protocol. -/
theorem guard_closed_iff (rendered : render env services = .ok rules)
    (isFips : env.fipsIf = some fipsIf) (isExit : env.exitFipsAddr = some exit)
    (isGuards : env.guardPorts = guards.map (·.word)) (g : GuardPort) :
    Closed rules fipsIf exit g.proto g.port ↔
      if env.wgIf = some fipsIf then ¬(env.wgGw6 = some exit ∧ g.port = 53)
      else Covered services guards g := by
  obtain ⟨fipsIf', exit', captivePort, lists, wg, isFips', isExit', -, collected, tunnel, isRules⟩ :=
    render_ok rendered
  obtain rfl : fipsIf = fipsIf' := Option.some_inj.mp (isFips.symm.trans isFips')
  obtain rfl : exit = exit' := Option.some_inj.mp (isExit.symm.trans isExit')
  rw [isRules, isGuards]
  split
  · rename_i onFips
    cases wg with
    | none =>
        rw [wgSettings_eq_none tunnel] at onFips
        cases onFips
    | some w =>
        obtain ⟨isWg, ⟨gw4, isGw4⟩, gw6, isGw6, isV6⟩ := wgSettings_ok tunnel
        rw [closed_iff_of_tunnel rfl (Option.some_inj.mp (isWg.symm.trans onFips))
          (by simp [isGw4]), isV6, isGw6, Addr.v6.injEq, Option.some_inj]
  · rename_i notOnFips
    have notTunnel : ∀ w, wg = some w → some fipsIf ≠ some w.wgIf := by
      rintro w rfl same
      exact notOnFips ((wgSettings_ok tunnel).1.trans same.symm)
    constructor
    · intro closed
      by_contra uncovered
      obtain ⟨notCatalogued, notRefused⟩ := not_or.mp uncovered
      refine not_closed (svcIn_accepts rfl notTunnel ?_ ?_) closed
      · exact Bool.eq_false_iff.mpr (mt (has_iff collected g.proto g.port).mp notCatalogued)
      · exact Bool.eq_false_iff.mpr (mt (portSet_refused collected g.port).mp notRefused)
    · intro covered ctx pkt ports fromFips toExit isProto isPort notReset accepted
      have kept : KeptFromTunnel ⟨fipsIf, .v6 exit, captivePort⟩ wg pkt := fun w isW fromW =>
        absurd (fromFips.symm.trans fromW) (notTunnel w isW)
      by_contra unauthorized
      refine verdict_ne_accept ?_ accepted
      rcases covered with catalogued | refused
      · refine svcIn_blocks ports toExit notReset ?_ kept (.inr (by simpa using unauthorized))
        rw [isProto, isPort]
        exact (has_iff collected g.proto g.port).mpr catalogued
      · refine svcIn_blocks_of_refused ports toExit notReset kept fromFips ?_
        rw [isPort]
        exact (portSet_refused collected g.port).mpr refused

end Exact

/-! ## The port of WireGuard -/

/-- The guarded ports of `up.sh`, with what binds them: two SOCKS services and WireGuard. -/
def upGuards : List GuardPort :=
  [⟨utf8 "1080", 1080, by decide +kernel, .tcp⟩, ⟨utf8 "1081", 1081, by decide +kernel, .tcp⟩,
    ⟨utf8 "51820", 51820, by decide +kernel, .udp⟩]

/-- The environment of the shipped configuration, with the tunnel. -/
def upEnv : RenderEnv where
  fipsIf := some "fips0"
  exitFipsAddr := some 0xfd000000000000000000000000000001
  captivePort := some 1088
  maxConnsPerSrc := 0
  guardPorts := upGuards.map (·.word)
  wgIf := some "wg0"
  externalIf := some "eth0"
  wgPool4 := some (utf8 "10.64.0.0/16")
  wgPool6 := some (utf8 "fc10:f1b5:ea17::/64")
  wgGw4 := some 0x0a400001
  wgGw6 := some 0xfc10f1b5ea1700000000000000000001

/-- The catalog with the tunnel's line as documented. -/
theorem collect_udp : collect (utf8 "clearnet 1080\nwg 51820 udp\n") =
    .ok ⟨utf8 "1080", utf8 "51820"⟩ := by
  decide +kernel

/-- The same catalog without the protocol. -/
theorem collect_omitted : collect (utf8 "clearnet 1080\nwg 51820\n") =
    .ok ⟨utf8 "1080, 51820", []⟩ := by
  decide +kernel

/-- With the documented line the port of WireGuard is closed. -/
theorem guard_closed_udp :
    ∃ rules, render upEnv (utf8 "clearnet 1080\nwg 51820 udp\n") = .ok rules ∧
      Closed rules "fips0" 0xfd000000000000000000000000000001 .udp 51820 := by
  have rendered : render upEnv (utf8 "clearnet 1080\nwg 51820 udp\n") = .ok _ :=
    render_eq_ok rfl rfl rfl collect_udp rfl
  refine ⟨_, rendered, ?_⟩
  refine (guard_closed_iff rendered rfl rfl rfl
    ⟨utf8 "51820", 51820, by decide +kernel, .udp⟩).mpr ?_
  rw [if_neg (by decide)]
  exact .inl ⟨⟨utf8 "51820", .udp⟩, by decide +kernel, rfl, by decide +kernel⟩

/-- **Without the protocol, the port is open and ungated**: the word is listed, so it is not
refused, but listed for TCP, so datagrams are not gated. -/
theorem guard_bypassed :
    ∃ rules, render upEnv (utf8 "clearnet 1080\nwg 51820\n") = .ok rules ∧
      ∃ g ∈ upGuards, ¬Closed rules "fips0" 0xfd000000000000000000000000000001 g.proto g.port := by
  refine ⟨_, render_eq_ok rfl rfl rfl collect_omitted rfl,
    ⟨utf8 "51820", 51820, by decide +kernel, .udp⟩, by simp [upGuards], not_closed ?_⟩
  decide +kernel

end FipsExitGate.Gate
