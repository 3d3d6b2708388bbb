import FipsExitGate.Fipsaddr.Strings
import FipsExitGate.Lib.Decimal
import FipsExitGate.Lib.Nft
import FipsExitGate.Store.Basic
import Mathlib.Data.List.Infix

/-!
# The ruleset of the exit

`deploy/render-nftables.sh`: from the service catalog and the environment to the chains
that local traffic passes.  The script works on text: it collects ports in two
comma-separated lists, pastes these into the rules, and looks for a guarded port by a
search for `, port,` in the lists.  All this is text here too; the rules have port sets as
written, and `portSet` is how `nft` reads them.

## Design notes

* A variable that is unset or empty is `none`.  `GUARD_PORTS` is the list of its words.
* The last line of a file is read only if it ends in a newline: `read` fails on any
  other, and the loop ends.
* The chains of forwarded traffic, and the seed of the authorized set, are left out.
* A word of digits that starts with a zero and is not in base eight is no port here.
-/

namespace FipsExitGate.Gate

open Nft

/-! ## The service catalog -/

/-- The words of a line: `read` splits at blanks and tabs. -/
def words (line : Bytes) : List Bytes :=
  (splitByte 0x20 (line.map fun b => if b = 0x09 then 0x20 else b)).filter (· ≠ [])

/-- The lines of a file that `read` returns. -/
def linesOf (file : Bytes) : List Bytes := (splitByte 0x0a file).dropLast

/-- The script's ways to fail. -/
inductive RenderErr where
  | required (name : String)
  | badPort (key port : Bytes)
  | badProto (key proto : Bytes)
  | noTcpServices
  deriving DecidableEq

/-- The message on standard error; `file` is `$SERVICES_FILE`. -/
def RenderErr.text (file : Bytes) : RenderErr → Bytes
  | .required name =>
      utf8 name ++ utf8 " is required" ++
        if name ∈ ["FIPS_IF", "EXIT_FIPS_ADDR", "CAPTIVE_PORT"] then [] else utf8 " with WG_IF"
  | .badPort key port =>
      utf8 "bad port for service '" ++ key ++ utf8 "' in " ++ file ++ utf8 ": '" ++ port ++ utf8 "'"
  | .badProto key proto =>
      utf8 "bad proto for service '" ++ key ++ utf8 "' in " ++ file ++ utf8 ": '" ++ proto ++
        utf8 "' (tcp|udp)"
  | .noTcpServices => utf8 "no TCP services enabled in " ++ file

/-- The lists `$ports` and `$udp_ports`. -/
structure PortLists where
  tcp : Bytes
  udp : Bytes
  deriving DecidableEq

/-- The separator of the lists. -/
def comma : Bytes := [0x2c, 0x20]

/-- `${ports:+$ports, }$port`. -/
def addPort (ports port : Bytes) : Bytes :=
  if ports = [] then port else ports ++ comma ++ port

def tcpWord : Bytes := [0x74, 0x63, 0x70]

def udpWord : Bytes := [0x75, 0x64, 0x70]

/-- One line of the catalog. -/
def collectLine (lists : PortLists) (line : Bytes) : Except RenderErr PortLists :=
  let key := (words line).getD 0 []
  let port := (words line).getD 1 []
  let proto := (words line).getD 2 []
  if key = [] ∨ key.head? = some 0x23 then .ok lists
  else if port = [] ∨ !port.all Decimal.isDigit then .error (.badPort key port)
  else if proto = [] ∨ proto = tcpWord then .ok { lists with tcp := addPort lists.tcp port }
  else if proto = udpWord then .ok { lists with udp := addPort lists.udp port }
  else .error (.badProto key proto)

/-- The loop over `services.conf`. -/
def collect (services : Bytes) : Except RenderErr PortLists := do
  let lists ← (linesOf services).foldlM collectLine ⟨[], []⟩
  if lists.tcp = [] then throw .noTcpServices
  else return lists

/-! ## Port sets -/

/-- How `nft` reads a number: in base eight if it starts with a zero. -/
def nftNumber (word : Bytes) : Option Nat :=
  if word = [] ∨ !word.all Decimal.isDigit then none
  else if word.head? = some 0x30 then
    if word.all (· < 0x38) then some (Digits.value 8 (word.map fun b => b.toNat - 0x30)) else none
  else some (Digits.value 10 (word.map fun b => b.toNat - 0x30))

/-- A port as `nft` reads it. -/
def nftPort (word : Bytes) : Option Nat :=
  (nftNumber word).filter fun n => decide (n < 2 ^ 16)

/-- The ports of a set `{ text }`: numbers, separated by commas. -/
def portSet (text : Bytes) (port : Nat) : Bool :=
  (splitByte 0x2c text).any fun element =>
    match words element with
    | [word] => decide (nftPort word = some port)
    | _ => false

/-! ## The rules -/

inductive ChainName where
  | gate
  | svcIn
  | svcOut
  | acctIn
  | acctOut
  | connLimit
  | fromWg
  deriving DecidableEq, Repr

abbrev GateRule := Rule Addr Bytes ChainName

abbrev Ruleset := ChainName → List GateRule

/-- The environment of the script. -/
structure RenderEnv where
  fipsIf : Option String
  exitFipsAddr : Option (BitVec 128)
  captivePort : Option Nat
  /-- `0` is disabled. -/
  maxConnsPerSrc : Nat
  guardPorts : List Bytes
  wgIf : Option String
  externalIf : Option String
  wgPool4 : Option Bytes
  wgPool6 : Option Bytes
  wgGw4 : Option (BitVec 32)
  wgGw6 : Option (BitVec 128)

/-- What `render` has made sure is set. -/
structure Settings where
  fipsIf : String
  exit : Addr
  captivePort : Nat

/-- The interface and the gateway addresses of the tunnel. -/
structure WgSettings where
  wgIf : String
  gw4 : Addr
  gw6 : Addr

/-- `*", $gp,"*` against `", $list,"`. -/
def listed (gp list : Bytes) : Bool :=
  decide ((comma ++ gp ++ [0x2c]) <:+: (comma ++ list ++ [0x2c]))

/-- The loop that collects the guarded ports that are not catalogued. -/
def ungatedPorts (lists : PortLists) (guardPorts : List Bytes) : Bytes :=
  guardPorts.foldl (fun ungated gp =>
    if listed gp (lists.tcp ++ comma ++ lists.udp) then ungated
    else if listed gp ungated then ungated
    else addPort ungated gp) []

section Rules

variable (cfg : Settings)

/-- `iifname FIPS_IF ip6 daddr EXIT_FIPS_ADDR`. -/
def Settings.fromFips : List (Match Addr Bytes) := [.iifname cfg.fipsIf, .daddr cfg.exit]

/-- `iifname != FIPS_IF ip6 daddr EXIT_FIPS_ADDR`. -/
def Settings.notFromFips : List (Match Addr Bytes) := [.iifnameNot cfg.fipsIf, .daddr cfg.exit]

/-- `oifname FIPS_IF ip6 saddr EXIT_FIPS_ADDR`. -/
def Settings.toFips : List (Match Addr Bytes) := [.oifname cfg.fipsIf, .saddr cfg.exit]

def gateRules (lists : PortLists) : List GateRule :=
  [⟨[.iifnameNot cfg.fipsIf], .ret⟩,
    ⟨[.daddr cfg.exit, .dport .tcp lists.tcp, .saddrIn "authorized"], .verdict .accept⟩,
    ⟨[.daddr cfg.exit, .dport .tcp lists.tcp], .verdict (.redirect cfg.captivePort)⟩]

/-- `$wg_input`. -/
def wgInput (wg : Option WgSettings) : List GateRule :=
  match wg with
  | none => []
  | some wg => [⟨[.iifname wg.wgIf], .jump .fromWg⟩]

/-- `$ungated_rule`. -/
def ungatedRules (ungated : Bytes) : List GateRule :=
  if ungated = [] then []
  else
    [⟨cfg.fromFips ++ [.dport .tcp ungated, .noReset], .verdict .reject⟩,
      ⟨cfg.fromFips ++ [.dport .udp ungated], .verdict .drop⟩]

/-- `$udp_local` and `$udp_in`. -/
def udpInRules (udp : Bytes) : List GateRule :=
  if udp = [] then []
  else
    [⟨cfg.notFromFips ++ [.dport .udp udp], .verdict .drop⟩,
      ⟨cfg.fromFips ++ [.dport .udp udp, .saddrNotIn "authorized"], .verdict .drop⟩]

/-- `$udp_out`. -/
def udpOutRules (udp : Bytes) : List GateRule :=
  if udp = [] then []
  else [⟨cfg.toFips ++ [.sport .udp udp, .daddrNotIn "authorized"], .verdict .drop⟩]

def svcInRules (lists : PortLists) (ungated : Bytes) (wg : Option WgSettings) : List GateRule :=
  wgInput wg ++
    [⟨cfg.notFromFips ++ [.dport .tcp lists.tcp, .noReset], .verdict .reject⟩,
      ⟨cfg.fromFips ++ [.dport .tcp lists.tcp, .noReset, .saddrNotIn "authorized"],
        .verdict .reject⟩] ++
    ungatedRules cfg ungated ++ udpInRules cfg lists.udp

def svcOutRules (lists : PortLists) : List GateRule :=
  ⟨cfg.toFips ++ [.sport .tcp lists.tcp, .noReset, .daddrNotIn "authorized"], .verdict .reject⟩ ::
    udpOutRules cfg lists.udp

def acctInRules (lists : PortLists) : List GateRule :=
  ⟨[.iifname cfg.fipsIf, .saddrIn "authorized", .dport .tcp lists.tcp], .account⟩ ::
    if lists.udp = [] then []
    else [⟨[.iifname cfg.fipsIf, .saddrIn "authorized", .dport .udp lists.udp], .account⟩]

def acctOutRules (lists : PortLists) : List GateRule :=
  ⟨[.oifname cfg.fipsIf, .daddrIn "authorized", .sport .tcp lists.tcp], .account⟩ ::
    if lists.udp = [] then []
    else [⟨[.oifname cfg.fipsIf, .daddrIn "authorized", .sport .udp lists.udp], .account⟩]

/-- `$conn_limit_chain`. -/
def connLimitRules (lists : PortLists) (maxConnsPerSrc : Nat) : List GateRule :=
  if 0 < maxConnsPerSrc then
    [⟨cfg.fromFips ++ [.dport .tcp lists.tcp, .saddrIn "authorized", .ctNew,
      .countOver maxConnsPerSrc], .verdict .drop⟩]
  else []

/-- Port 53, the resolver's. -/
def dnsPort : Bytes := [0x35, 0x33]

/-- The chain `from_wg`. -/
def fromWgRules (wg : Option WgSettings) : List GateRule :=
  match wg with
  | none => []
  | some wg =>
      [⟨[.daddr wg.gw4, .thDport dnsPort], .verdict .accept⟩,
        ⟨[.daddr wg.gw6, .thDport dnsPort], .verdict .accept⟩,
        ⟨[.icmp], .verdict .accept⟩,
        ⟨[.icmp], .verdict .accept⟩,
        ⟨[], .verdict .drop⟩]

end Rules

def ruleset (cfg : Settings) (lists : PortLists) (ungated : Bytes) (maxConnsPerSrc : Nat)
    (wg : Option WgSettings) : Ruleset
  | .gate => gateRules cfg lists
  | .svcIn => svcInRules cfg lists ungated wg
  | .svcOut => svcOutRules cfg lists
  | .acctIn => acctInRules cfg lists
  | .acctOut => acctOutRules cfg lists
  | .connLimit => connLimitRules cfg lists maxConnsPerSrc
  | .fromWg => fromWgRules wg

/-- `${NAME:?NAME is required}`. -/
def require {α : Type} (name : String) : Option α → Except RenderErr α
  | none => .error (.required name)
  | some value => .ok value

/-- The variables that `WG_IF` needs. -/
def wgSettings (env : RenderEnv) : Except RenderErr (Option WgSettings) :=
  match env.wgIf with
  | none => .ok none
  | some wgIf => do
      let _ ← require "EXTERNAL_IF" env.externalIf
      let _ ← require "WG_POOL4" env.wgPool4
      let _ ← require "WG_POOL6" env.wgPool6
      let gw4 ← require "WG_GW4" env.wgGw4
      let gw6 ← require "WG_GW6" env.wgGw6
      return some ⟨wgIf, .v4 gw4, .v6 gw6⟩

/-- **The script.** -/
def render (env : RenderEnv) (services : Bytes) : Except RenderErr Ruleset := do
  let fipsIf ← require "FIPS_IF" env.fipsIf
  let exit ← require "EXIT_FIPS_ADDR" env.exitFipsAddr
  let captivePort ← require "CAPTIVE_PORT" env.captivePort
  let lists ← collect services
  let wg ← wgSettings env
  return ruleset ⟨fipsIf, .v6 exit, captivePort⟩ lists (ungatedPorts lists env.guardPorts)
    env.maxConnsPerSrc wg

/-- The shipped catalog with the tunnel's line, and the guarded ports of `up.sh`. -/
example : (collect (utf8 "# egress\nclearnet 1080\nwg 51820 udp\n")).map (fun lists =>
    (lists, ungatedPorts lists [utf8 "1080", utf8 "1081", utf8 "51820"])) =
      .ok (⟨utf8 "1080", utf8 "51820"⟩, utf8 "1081") := by
  decide +kernel

end FipsExitGate.Gate
