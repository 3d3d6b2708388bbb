import FipsExitGate.Fipsaddr.Strings
import FipsExitGate.Lib.Inet
import FipsExitGate.Lib.Program

/-!
# SOCKS forwarding

`socks.go`, `route.go` and `handle` of the dispatcher.  The dispatcher reads a SOCKS5 greeting and
a CONNECT request from the client, picks an upstream by the name that is asked for, and issues the
same request there.  It holds the target as a text in between, for an IP address too, and passes
the upstream's reply on as bytes.

A connection is the bytes that are still to be read and those that have been written; a read of a
fixed number of bytes takes exactly these, or fails at the end of the stream.  So what a message
leaves unread is what follows it, and this is what the relay passes on.

## Main results

* `exec_negotiate`, `exec_readConnect` — the handshake takes the client's messages and no more
* `connectRequest_host` — the text of a target stands for the target
* `exec_readReply` — a reply is returned as it came
* `socks_forwarding_verbatim` — and so a whole session
-/

namespace FipsExitGate.Dispatch

open Program Inet

/-! ## Connections -/

/-- A connection. -/
structure Conn where
  unread : Bytes
  written : Bytes
  /-- The other side takes what is written. -/
  accepts : Bool
  deriving DecidableEq

/-- What a handshake may end in. -/
inductive SocksErr where
  | readGreeting
  | notSocks5
  | readMethods
  | noNoAuth
  | readRequest
  | badVersion
  | readAddress
  | readPort
  | unsupported
  | upstreamMethod
  | upstreamRefused
  | badLiteral
  | readReply
  | badReplyAtyp
  | write
  deriving DecidableEq, Repr

/-- A step on a connection. -/
abbrev ConnM (α : Type) := Prog Conn SocksErr α

/-- `io.ReadFull`. -/
def readFull (n : Nat) (failure : SocksErr) : ConnM Bytes := do
  let c ← get
  if n ≤ c.unread.length then
    modify fun c => { c with unread := c.unread.drop n }
    return c.unread.take n
  else
    modify fun c => { c with unread := [] }
    throw failure

/-- `Write` where the error does not matter. -/
def Conn.send (c : Conn) (bytes : Bytes) : Conn :=
  if c.accepts then { c with written := c.written ++ bytes } else c

/-- `Write`. -/
def write (bytes : Bytes) : ConnM PUnit := do
  let c ← get
  if c.accepts then modify (·.send bytes) else throw .write

theorem exec_readFull {n : Nat} {bytes : Bytes} (size : bytes.length = n) (failure : SocksErr)
    (rest written : Bytes) (accepts : Bool) :
    exec (readFull n failure) ⟨bytes ++ rest, written, accepts⟩ =
      (.ok bytes, ⟨rest, written, accepts⟩) := by
  subst size
  rw [readFull, exec_get_bind, if_pos (by simp)]
  show (Except.ok _, _) = _
  simp

/-- A program that reads `n` bytes first. -/
theorem exec_readFull_bind {α : Type} {n : Nat} (bytes : Bytes) (size : bytes.length = n)
    (failure : SocksErr) (rest written : Bytes) (accepts : Bool) (f : Bytes → ConnM α) :
    exec (readFull n failure >>= f) ⟨bytes ++ rest, written, accepts⟩ =
      exec (f bytes) ⟨rest, written, accepts⟩ :=
  exec_bind_ok (exec_readFull size failure rest written accepts)

theorem exec_write (bytes unread written : Bytes) :
    exec (write bytes) ⟨unread, written, true⟩ = (.ok ⟨⟩, ⟨unread, written ++ bytes, true⟩) := rfl

/-! ## The client's side -/

/-- The protocol version, the methods, and the command. -/
def ver : UInt8 := 0x05
def methNoAuth : UInt8 := 0x00
def methNoAccept : UInt8 := 0xff
def cmdConnect : UInt8 := 0x01

/-- The address types. -/
def atypIPv4 : UInt8 := 0x01
def atypDomain : UInt8 := 0x03
def atypIPv6 : UInt8 := 0x04

/-- The reply codes. -/
def repSucceeded : UInt8 := 0x00
def repNotAllowed : UInt8 := 0x02
def repHostUnreachable : UInt8 := 0x04
def repCmdNotSupported : UInt8 := 0x07
def repAtypNotSupported : UInt8 := 0x08

/-- What `writeReply` writes. -/
def failureReply (rep : UInt8) : Bytes := [ver, rep, 0x00, atypIPv4, 0, 0, 0, 0, 0, 0]

/-- `negotiate`. -/
def negotiate : ConnM PUnit := do
  let hdr ← readFull 2 .readGreeting
  if hdr.getD 0 0 ≠ ver then throw .notSocks5
  else
    let methods ← readFull (hdr.getD 1 0).toNat .readMethods
    if methNoAuth ∈ methods then write [ver, methNoAuth]
    else
      modify (·.send [ver, methNoAccept])
      throw .noNoAuth

/-- The host of a request, as a text; the address type says how it is given. -/
def readHost (atyp : UInt8) : ConnM Bytes :=
  if atyp = atypIPv4 then do
    let ip ← readFull 4 .readAddress
    return ipString ip
  else if atyp = atypIPv6 then do
    let ip ← readFull 16 .readAddress
    return ipString ip
  else if atyp = atypDomain then do
    let length ← readFull 1 .readAddress
    readFull (length.getD 0 0).toNat .readAddress
  else do
    modify (·.send (failureReply repAtypNotSupported))
    throw .unsupported

/-- `readConnect`. -/
def readConnect : ConnM (UInt8 × Bytes × Nat) := do
  let h ← readFull 4 .readRequest
  if h.getD 0 0 ≠ ver then throw .badVersion
  else
    let atyp := h.getD 3 0
    let host ← readHost atyp
    let pb ← readFull 2 .readPort
    let port := (pb.getD 0 0).toNat * 256 + (pb.getD 1 0).toNat
    if h.getD 1 0 ≠ cmdConnect then
      -- a CONNECT-only exit
      modify (·.send (failureReply repCmdNotSupported))
      throw .unsupported
    else return (atyp, host, port)

/-! ## The upstream's side -/

/-- The request that `dialThrough` builds. -/
def connectRequest (atyp : UInt8) (host : Bytes) (port : Nat) : Except SocksErr Bytes :=
  let portBytes := [UInt8.ofNat (port / 256), UInt8.ofNat port]
  let req := [ver, cmdConnect, 0x00, atyp]
  if atyp = atypDomain then .ok (req ++ UInt8.ofNat host.length :: host ++ portBytes)
  else if atyp = atypIPv4 then
    match (parseIP host).bind to4 with
    | none => .error .badLiteral
    | some q => .ok (req ++ q.bytes ++ portBytes)
  else if atyp = atypIPv6 then
    match parseIP host with
    | none => .error .badLiteral
    | some ip => .ok (req ++ ip ++ portBytes)
  else .ok (req ++ portBytes)

/-- `readReply`. -/
def readReply : ConnM Bytes := do
  let h ← readFull 4 .readReply
  let atyp := h.getD 3 0
  if atyp = atypIPv4 then do
    let rest ← readFull (4 + 2) .readReply
    return h ++ rest
  else if atyp = atypIPv6 then do
    let rest ← readFull (16 + 2) .readReply
    return h ++ rest
  else if atyp = atypDomain then do
    let length ← readFull 1 .readReply
    let rest ← readFull ((length.getD 0 0).toNat + 2) .readReply
    return h ++ length ++ rest
  else throw .badReplyAtyp

/-- `dialThrough`, on the connection to the upstream. -/
def dialThrough (atyp : UInt8) (host : Bytes) (port : Nat) : ConnM Bytes := do
  write [ver, 1, methNoAuth]
  let sel ← readFull 2 .upstreamMethod
  if sel.getD 0 0 ≠ ver ∨ sel.getD 1 0 ≠ methNoAuth then throw .upstreamRefused
  else
    match connectRequest atyp host port with
    | .error e => throw e
    | .ok req =>
        write req
        readReply

/-! ## A session -/

/-- `config`, as far as a session reads it. -/
structure Config where
  clearnetUpstream : Bytes
  torUpstream : Bytes
  onionSuffix : Bytes

/-- `isOnion`. -/
def isOnion (unicode : CaseTables) (host suffix : Bytes) : Bool :=
  let host := if [0x2e] <:+ host then host.dropLast else host
  decide (suffix <:+ unicode.lower host)

/-- `pickUpstream`. -/
def pickUpstream (unicode : CaseTables) (host : Bytes) (isDomain : Bool) (cfg : Config) :
    Bytes × UInt8 :=
  if isDomain && isOnion unicode host cfg.onionSuffix then
    if cfg.torUpstream = [] then ([], repNotAllowed) else (cfg.torUpstream, repSucceeded)
  else (cfg.clearnetUpstream, repSucceeded)

/-- What a session leaves: both connections, and whether the relay starts. -/
structure Session where
  client : Conn
  upstream : Option Conn
  relays : Bool
  deriving DecidableEq

/-- `handle`, up to the relay.  `dial` is the connection to an upstream, if it can be made. -/
def handle (unicode : CaseTables) (cfg : Config) (dial : Bytes → Option Conn) (client : Conn) :
    Session :=
  match exec (negotiate >>= fun _ => readConnect) client with
  | (.error _, client) => ⟨client, none, false⟩
  | (.ok (atyp, host, port), client) =>
      let (upstream, rep) := pickUpstream unicode host (decide (atyp = atypDomain)) cfg
      if rep ≠ repSucceeded then ⟨client.send (failureReply rep), none, false⟩
      else
        match dial upstream with
        | none => ⟨client.send (failureReply repHostUnreachable), none, false⟩
        | some up =>
            match exec (dialThrough atyp host port) up with
            | (.error _, up) => ⟨client.send (failureReply repHostUnreachable), some up, false⟩
            | (.ok reply, up) =>
                ⟨client.send reply, some up,
                  client.accepts && decide (reply.getD 1 0 = repSucceeded)⟩

/-! ## Messages -/

/-- The target of a request, or the bound address of a reply. -/
inductive Target where
  | ipv4 (q : Octets)
  | ipv6 (ip : Bytes) (size : ip.length = 16)
  | domain (name : Bytes) (size : name.length ≤ 255)

/-- The address type. -/
def Target.atyp : Target → UInt8
  | .ipv4 _ => atypIPv4
  | .ipv6 _ _ => atypIPv6
  | .domain _ _ => atypDomain

/-- The bytes of the address, with the length of a name. -/
def Target.address : Target → Bytes
  | .ipv4 q => q.bytes
  | .ipv6 ip _ => ip
  | .domain name _ => UInt8.ofNat name.length :: name

/-- The text the dispatcher holds. -/
def Target.host : Target → Bytes
  | .ipv4 q => ipString q.bytes
  | .ipv6 ip _ => ipString ip
  | .domain name _ => name

/-- A port in network order. -/
def portBytes (port : BitVec 16) : Bytes :=
  [UInt8.ofNat (port.toNat / 256), UInt8.ofNat port.toNat]

/-- The greeting of a client that offers `methods`. -/
def greeting (methods : Bytes) : Bytes := ver :: UInt8.ofNat methods.length :: methods

/-- A well-formed CONNECT request. -/
def request (t : Target) (port : BitVec 16) : Bytes :=
  [ver, cmdConnect, 0x00, t.atyp] ++ t.address ++ portBytes port

/-- A reply, with any version, code and reserved byte. -/
def reply (version rep reserved : UInt8) (bound : Target) (port : BitVec 16) : Bytes :=
  [version, rep, reserved, bound.atyp] ++ bound.address ++ portBytes port

theorem toNat_ofNat_length {bytes : Bytes} (size : bytes.length ≤ 255) :
    (UInt8.ofNat bytes.length).toNat = bytes.length :=
  UInt8.toNat_ofNat_of_lt' (Nat.lt_of_le_of_lt size (by decide))

theorem toNat_portBytes (port : BitVec 16) :
    ((portBytes port).getD 0 0).toNat * 256 + ((portBytes port).getD 1 0).toNat = port.toNat := by
  have small := port.isLt
  simp only [portBytes, List.getD_cons_zero, List.getD_cons_succ, UInt8.toNat_ofNat']
  omega

/-! ## Reading messages -/

section Messages

variable (rest written : Bytes) (accepts : Bool)

/-- **The greeting is taken, and answered.** -/
theorem exec_negotiate {methods : Bytes} (size : methods.length ≤ 255)
    (offered : methNoAuth ∈ methods) :
    exec negotiate ⟨greeting methods ++ rest, written, true⟩ =
      (.ok ⟨⟩, ⟨rest, written ++ [ver, methNoAuth], true⟩) := by
  have header : greeting methods ++ rest =
      [ver, UInt8.ofNat methods.length] ++ (methods ++ rest) := rfl
  rw [negotiate, header, exec_readFull_bind (n := 2) [ver, UInt8.ofNat methods.length] rfl]
  show exec (readFull (UInt8.ofNat methods.length).toNat _ >>= _) _ = _
  rw [exec_readFull_bind methods (toNat_ofNat_length size).symm, if_pos offered]
  rfl

/-- The host of a target is read from its address. -/
theorem exec_readHost (t : Target) :
    exec (readHost t.atyp) ⟨t.address ++ rest, written, accepts⟩ =
      (.ok t.host, ⟨rest, written, accepts⟩) := by
  cases t with
  | ipv4 q =>
      show exec (readFull 4 _ >>= _) _ = _
      rw [exec_readFull_bind (n := 4) (Target.address (.ipv4 q)) rfl]
      rfl
  | ipv6 ip size =>
      show exec (readFull 16 _ >>= _) _ = _
      rw [exec_readFull_bind (Target.address (.ipv6 ip size)) size]
      rfl
  | domain name size =>
      have address : Target.address (.domain name size) ++ rest =
          [UInt8.ofNat name.length] ++ (name ++ rest) := rfl
      show exec (readFull 1 _ >>= _) _ = _
      rw [address, exec_readFull_bind (n := 1) [UInt8.ofNat name.length] rfl]
      exact exec_readFull (toNat_ofNat_length size).symm ..

/-- **The request is taken, and no more.** -/
theorem exec_readConnect (t : Target) (port : BitVec 16) :
    exec readConnect ⟨request t port ++ rest, written, accepts⟩ =
      (.ok (t.atyp, t.host, port.toNat), ⟨rest, written, accepts⟩) := by
  have header : request t port ++ rest =
      [ver, cmdConnect, 0x00, t.atyp] ++ (t.address ++ (portBytes port ++ rest)) := by
    simp [request]
  rw [readConnect, header, exec_readFull_bind (n := 4) [ver, cmdConnect, 0x00, t.atyp] rfl]
  show exec (readHost t.atyp >>= _) _ = _
  rw [exec_bind_ok (exec_readHost _ _ _ t), exec_readFull_bind (n := 2) (portBytes port) rfl,
    ← toNat_portBytes]
  rfl

/-- **A reply is returned as it came.** -/
theorem exec_readReply (version rep reserved : UInt8) (bound : Target) (port : BitVec 16) :
    exec readReply ⟨reply version rep reserved bound port ++ rest, written, accepts⟩ =
      (.ok (reply version rep reserved bound port), ⟨rest, written, accepts⟩) := by
  have header : reply version rep reserved bound port ++ rest =
      [version, rep, reserved, bound.atyp] ++ (bound.address ++ portBytes port ++ rest) := by
    simp [reply]
  rw [readReply, header, exec_readFull_bind (n := 4) [version, rep, reserved, bound.atyp] rfl]
  cases bound with
  | ipv4 q =>
      show exec (readFull (4 + 2) _ >>= _) _ = _
      rw [exec_readFull_bind (n := 4 + 2) (Target.address (.ipv4 q) ++ portBytes port) rfl]
      rfl
  | ipv6 ip size =>
      have both : (Target.address (.ipv6 ip size) ++ portBytes port).length = 16 + 2 := by
        rw [List.length_append]
        exact congrArg (· + 2) size
      show exec (readFull (16 + 2) _ >>= _) _ = _
      rw [exec_readFull_bind _ both]
      rfl
  | domain name size =>
      have both : (name ++ portBytes port).length = (UInt8.ofNat name.length).toNat + 2 := by
        rw [List.length_append, toNat_ofNat_length size]
        rfl
      have address : Target.address (.domain name size) ++ portBytes port ++ rest =
          [UInt8.ofNat name.length] ++ (name ++ portBytes port ++ rest) := rfl
      show exec (readFull 1 _ >>= _) _ = _
      rw [address, exec_readFull_bind (n := 1) [UInt8.ofNat name.length] rfl]
      show exec (readFull ((UInt8.ofNat name.length).toNat + 2) _ >>= _) _ = _
      rw [exec_readFull_bind _ both]
      rfl

/-- Reading a reply writes nothing. -/
theorem written_exec_readReply (c : Conn) : (exec readReply c).2.written = c.written := by
  let Kept (c' : Conn) : Prop := c'.written = c.written
  have reads (n : Nat) (failure : SocksErr) : Keeps Kept (readFull n failure) := by
    refine Keeps.get_bind fun _ => Keeps.ite ?_ ?_
    · exact Keeps.bind (Keeps.modify fun _ same => same) fun _ => Keeps.pure _
    · exact Keeps.bind (Keeps.modify fun _ same => same) fun _ => Keeps.throw _
  have whole : Keeps Kept readReply := by
    refine Keeps.bind (reads ..) fun h => Keeps.ite ?_ (Keeps.ite ?_ (Keeps.ite ?_ (Keeps.throw _)))
    · exact Keeps.bind (reads ..) fun _ => Keeps.pure _
    · exact Keeps.bind (reads ..) fun _ => Keeps.pure _
    · exact Keeps.bind (reads ..) fun _ => Keeps.bind (reads ..) fun _ => Keeps.pure _
  exact whole.exec rfl

/-- **The text of a target stands for the target**: the request that is built from it is the
client's. -/
theorem connectRequest_host (t : Target) (port : BitVec 16) :
    connectRequest t.atyp t.host port.toNat = .ok (request t port) := by
  cases t with
  | ipv4 q =>
      have read : (parseIP (Target.host (.ipv4 q))).bind to4 = some q := by
        rw [Target.host, parseIP_ipString_bytes, Option.bind_some, to4_v4InV6]
      show (match (parseIP (Target.host (.ipv4 q))).bind to4 with
        | none => Except.error SocksErr.badLiteral
        | some q => .ok _) = _
      rw [read]
      rfl
  | ipv6 ip size =>
      show (match parseIP (ipString ip) with
        | none => Except.error SocksErr.badLiteral
        | some ip => .ok _) = _
      rw [parseIP_ipString size]
      rfl
  | domain name size =>
      show Except.ok _ = _
      simp [request, portBytes, Target.host, Target.address]

/-- What is written to an upstream that takes the greeting, whatever it replies. -/
theorem exec_dialThrough (t : Target) (port : BitVec 16) :
    exec (dialThrough t.atyp t.host port.toNat) ⟨[ver, methNoAuth] ++ rest, written, true⟩ =
      exec readReply ⟨rest, written ++ [ver, 1, methNoAuth] ++ request t port, true⟩ := by
  rw [dialThrough, exec_bind_ok (exec_write ..),
    exec_readFull_bind (n := 2) [ver, methNoAuth] rfl, connectRequest_host, if_neg (by decide)]
  exact exec_bind_ok (exec_write ..)

end Messages

/-- **SOCKS forwarding is verbatim.**  For every client that offers to go without
authentication and asks for any target and port, and whatever it sends behind that:

* the handshake takes exactly the greeting and the request;
* an upstream that takes the greeting is sent the client's request;
* every reply of the upstream is returned as it came, and what follows it is left unread;
* so, in a session, the client gets the method and the reply, the upstream the greeting and the
  request, and both what else they send through the relay, which starts if the upstream reports
  success. -/
theorem socks_forwarding_verbatim (methods : Bytes) (size : methods.length ≤ 255)
    (offered : methNoAuth ∈ methods) (t : Target) (port : BitVec 16) (rest written : Bytes) :
    exec (negotiate >>= fun _ => readConnect)
        ⟨greeting methods ++ request t port ++ rest, written, true⟩ =
      (.ok (t.atyp, t.host, port.toNat), ⟨rest, written ++ [ver, methNoAuth], true⟩) ∧
    (∀ more sent, (exec (dialThrough t.atyp t.host port.toNat)
        ⟨[ver, methNoAuth] ++ more, sent, true⟩).2.written =
      sent ++ [ver, 1, methNoAuth] ++ request t port) ∧
    (∀ version rep reserved bound boundPort more sent accepts,
      exec readReply ⟨reply version rep reserved bound boundPort ++ more, sent, accepts⟩ =
        (.ok (reply version rep reserved bound boundPort), ⟨more, sent, accepts⟩)) ∧
    ∀ unicode cfg dial upstream version rep reserved bound boundPort more sent,
      pickUpstream unicode t.host (decide (t.atyp = atypDomain)) cfg = (upstream, repSucceeded) →
      dial upstream =
        some ⟨[ver, methNoAuth] ++ (reply version rep reserved bound boundPort ++ more),
          sent, true⟩ →
      handle unicode cfg dial ⟨greeting methods ++ request t port ++ rest, written, true⟩ =
        ⟨⟨rest, written ++ [ver, methNoAuth] ++ reply version rep reserved bound boundPort, true⟩,
          some ⟨more, sent ++ [ver, 1, methNoAuth] ++ request t port, true⟩,
          decide (rep = repSucceeded)⟩ := by
  have client : exec (negotiate >>= fun _ => readConnect)
      ⟨greeting methods ++ request t port ++ rest, written, true⟩ =
        (.ok (t.atyp, t.host, port.toNat), ⟨rest, written ++ [ver, methNoAuth], true⟩) := by
    rw [List.append_assoc, exec_bind_ok (exec_negotiate _ _ size offered), exec_readConnect]
  refine ⟨client, fun more sent => ?_, fun version rep reserved bound boundPort more sent accepts =>
    exec_readReply more sent accepts version rep reserved bound boundPort, ?_⟩
  · rw [exec_dialThrough]
    exact written_exec_readReply _
  · intro unicode cfg dial upstream version rep reserved bound boundPort more sent picked dialled
    rw [handle, client]
    simp only [picked, ne_eq, not_true_eq_false, if_false, dialled, exec_dialThrough,
      exec_readReply]
    rfl

/-- A client that offers two methods and asks for ::ffff:1.2.3.4, an IPv4 address in the form of
an IPv6 one: the text is that of the IPv4 address, and the upstream is sent the 16 bytes. -/
theorem socks_forwarding_verbatim_mapped :
    (exec (dialThrough atypIPv6 (utf8 "1.2.3.4") 443) ⟨[ver, methNoAuth], [], true⟩).2.written =
      [5, 1, 0, 5, 1, 0, 4, 0, 0, 0, 0, 0, 0, 0, 0, 0, 0, 0xff, 0xff, 1, 2, 3, 4, 1, 0xbb] :=
  (socks_forwarding_verbatim [2, 0] (by decide) (by decide)
    (.ipv6 [0, 0, 0, 0, 0, 0, 0, 0, 0, 0, 0xff, 0xff, 1, 2, 3, 4] rfl) 443#16 [] []).2.1 [] []

end FipsExitGate.Dispatch
