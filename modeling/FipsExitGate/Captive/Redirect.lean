import FipsExitGate.Lib.QueryEscape
import FipsExitGate.Portal.CaptiveToken

/-!
# The captive redirect

`redirect.go` of the captive daemon, which answers a plain HTTP request of a customer without access
by sending the browser to the portal, and the portal's end of it, the query that `captive` reads.

The address of the customer travels in a signed token, the host that was asked for in another
field of the query.  The host is whatever the browser, or anyone else, has put into the request, so
two things have to hold for every request: the answer has just the header lines of the daemon, and
the portal reads from its query the very token and host that were put there.  Both rest on the
escaping of the query, which lets no separator and no line break through.

## Design notes

* `sent` is what the other side sends until it stops or the time is over.  The lines are taken
  without their ends; none of the methods has a line break in it.
* `strings.TrimSpace` and `strings.EqualFold` are parameters: nothing depends on what they do.
* `ParseQuery` is what `URL.Query` calls, without the error it drops.

## Main results

* `redirect_identifies` — the portal gets the address and the host, whatever was sent
-/

namespace FipsExitGate.Captive

open QueryEscape

/-! ## The query -/

/-- `strings.Cut` at a byte. -/
def cut (sep : UInt8) (s : Bytes) : Option (Bytes × Bytes) :=
  if sep ∈ s then some (s.takeWhile (· ≠ sep), (s.dropWhile (· ≠ sep)).drop 1) else none

theorem cut_append {sep : UInt8} {before : Bytes} (absent : sep ∉ before) (after : Bytes) :
    cut sep (before ++ sep :: after) = some (before, after) := by
  have other : ∀ b ∈ before, decide (b ≠ sep) = true := fun b member =>
    decide_eq_true fun same => absent (same ▸ member)
  rw [cut, if_pos (by simp), List.takeWhile_append_of_pos other, List.dropWhile_append_of_pos other]
  simp

/-- A key and its value. -/
def pair (kv : Bytes × Bytes) : Bytes := escape kv.1 ++ 0x3d :: escape kv.2

/-- `Values.Encode`, of values that are in the order of their keys. -/
def encodeValues (kvs : List (Bytes × Bytes)) : Bytes := joinByte 0x26 (kvs.map pair)

/-- One field of a query, which `ParseQuery` may skip. -/
def parseField (field : Bytes) : Option (Bytes × Bytes) :=
  if 0x3b ∈ field ∨ field = [] then none
  else
    let (key, value) := (cut 0x3d field).getD (field, [])
    match unescape key, unescape value with
    | some key, some value => some (key, value)
    | _, _ => none

/-- `ParseQuery`. -/
def parseQuery (query : Bytes) : List (Bytes × Bytes) := (splitByte 0x26 query).filterMap parseField

/-- `Values.Get`. -/
def get (kvs : List (Bytes × Bytes)) (key : Bytes) : Bytes := (kvs.lookup key).getD []

theorem not_mem_pair {b : UInt8} (reserved : isReserved b = true) (other : b ≠ 0x3d)
    (kv : Bytes × Bytes) : b ∉ pair kv := by
  intro member
  rcases List.mem_append.mp member with inKey | rest
  · exact not_mem_escape reserved _ inKey
  · rcases List.mem_cons.mp rest with isEq | inValue
    · exact other isEq
    · exact not_mem_escape reserved _ inValue

theorem parseField_pair (kv : Bytes × Bytes) : parseField (pair kv) = some kv := by
  have whole : cut 0x3d (pair kv) = some (escape kv.1, escape kv.2) :=
    cut_append (not_mem_escape rfl _) _
  have passes : ¬ (0x3b ∈ pair kv ∨ pair kv = []) := by
    rintro (semicolon | empty)
    · exact not_mem_pair rfl (by decide) kv semicolon
    · simp [pair] at empty
  rw [parseField, if_neg passes, whole]
  simp only [Option.getD_some, unescape_escape]

/-- **What is encoded is parsed.** -/
theorem parseQuery_encodeValues (kvs : List (Bytes × Bytes)) : parseQuery (encodeValues kvs) = kvs := by
  cases kvs with
  | nil => rfl
  | cons kv kvs =>
      have absent : ∀ s ∈ (kv :: kvs).map pair, 0x26 ∉ s := by
        intro s member
        obtain ⟨kv', -, rfl⟩ := List.mem_map.mp member
        exact not_mem_pair rfl (by decide) kv'
      rw [parseQuery, encodeValues, splitByte_joinByte (by simp) absent, List.filterMap_map]
      have each : parseField ∘ pair = some := funext parseField_pair
      rw [each, List.filterMap_some]

theorem parseQuery_append (query query' : Bytes) :
    parseQuery (query ++ 0x26 :: query') = parseQuery query ++ parseQuery query' := by
  rw [parseQuery, splitByte_append, List.filterMap_append]
  rfl

/-! ## The request -/

/-- What the daemon leaves to package `strings`. -/
structure TextOps where
  trimSpace : Bytes → Bytes
  equalFold : Bytes → Bytes → Bool

def maxRequestLine : Nat := 8 * 1024

def knownHTTPMethods : List Bytes :=
  [utf8 "GET ", utf8 "POST ", utf8 "HEAD ", utf8 "PUT ", utf8 "DELETE ", utf8 "OPTIONS ",
    utf8 "PATCH ", utf8 "TRACE ", utf8 "CONNECT "]

/-- `looksLikeHTTP`. -/
def looksLikeHTTP (line : Bytes) : Bool := knownHTTPMethods.any (·.isPrefixOf line)

/-- `hostFromHeaders`, of the lines that are ended. -/
def hostFromHeaders (ops : TextOps) : List Bytes → Bytes
  | [] => []
  | line :: lines =>
      let line := trimRightByte 0x0d line
      if line = [] then []
      else
        match cut 0x3a line with
        | some (k, v) =>
            if ops.equalFold (ops.trimSpace k) (utf8 "host") then ops.trimSpace v
            else hostFromHeaders ops lines
        | none => hostFromHeaders ops lines

/-- The fields of the redirect, in the order of their keys. -/
def fields (src : Addr) (origHost secret : Bytes) (expUnix : Int64) : List (Bytes × Bytes) :=
  (if origHost ≠ [] then [(utf8 "dest", origHost)] else []) ++
    [(utf8 "t", Captivetoken.sign secret src expUnix)]

/-- `buildPortalURL`. -/
def buildPortalURL (portalBase : Bytes) (src : Addr) (origHost secret : Bytes) (expUnix : Int64) :
    Bytes :=
  let sep := if 0x3f ∈ portalBase then 0x26 else 0x3f
  portalBase ++ sep :: encodeValues (fields src origHost secret expUnix)

def redirectBody : Bytes := utf8 "Redirecting to the fips-exit portal.\n"

/-- The header lines of the answer. -/
def redirectLines (location : Bytes) : List Bytes :=
  [utf8 "HTTP/1.1 302 Found", utf8 "Location: " ++ location, utf8 "Cache-Control: no-store",
    utf8 "Content-Type: text/plain; charset=utf-8",
    utf8 "Content-Length: " ++ Decimal.formatInt redirectBody.length, utf8 "Connection: close"]

/-- The lines, each with its end, a blank line, and the body. -/
def respond (lines : List Bytes) (body : Bytes) : Bytes :=
  lines.flatMap (· ++ [0x0d, 0x0a]) ++ [0x0d, 0x0a] ++ body

/-- The line and the header lines of a request. -/
def requestLines (sent : Bytes) : List Bytes := splitByte 0x0a (sent.take maxRequestLine)

/-- The host of a request.  The last line is not ended, and is not looked at. -/
def requestHost (ops : TextOps) (sent : Bytes) : Bytes :=
  hostFromHeaders ops (requestLines sent).tail.dropLast

/-- `serveRedirect`: what is written, if the request is HTTP. -/
def serveRedirect (ops : TextOps) (sent : Bytes) (src : Addr) (portalBase secret : Bytes)
    (expUnix : Int64) : Option Bytes :=
  if looksLikeHTTP ((requestLines sent).headD []) then
    some (respond (redirectLines (buildPortalURL portalBase src (requestHost ops sent) secret expUnix))
      redirectBody)
  else none

/-! ## The answer -/

/-- The header lines of an answer, as a browser takes them apart. -/
def headerLines (resp : Bytes) : List Bytes :=
  ((splitByte 0x0a resp).map (trimRightByte 0x0d)).takeWhile (· ≠ [])

theorem trimRightByte_end {s : Bytes} (absent : 0x0d ∉ s) : trimRightByte 0x0d (s ++ [0x0d]) = s := by
  rcases List.eq_nil_or_concat s with rfl | ⟨init, last, rfl⟩
  · rfl
  · rw [List.concat_eq_append] at absent ⊢
    exact trimRightByte_concat fun same => absent (by simp [same])

/-- **The lines of an answer are read as they were written**, if no line has an end in it. -/
theorem headerLines_respond {lines : List Bytes} (body : Bytes)
    (whole : ∀ s ∈ lines, s ≠ [] ∧ 0x0d ∉ s ∧ 0x0a ∉ s) :
    headerLines (respond lines body) = lines := by
  induction lines with
  | nil => rfl
  | cons s lines ih =>
      obtain ⟨nonempty, noReturn, noFeed⟩ := whole s List.mem_cons_self
      have rest := ih fun s' member => whole s' (List.mem_cons_of_mem s member)
      have ends : 0x0a ∉ s ++ [0x0d] := by simpa using noFeed
      have isFirst : respond (s :: lines) body = (s ++ [0x0d]) ++ 0x0a :: respond lines body := by
        simp [respond]
      rw [headerLines] at rest ⊢
      rw [isFirst, splitByte_append, splitByte_of_not_mem ends, List.singleton_append, List.map_cons,
        trimRightByte_end noReturn, List.takeWhile_cons_of_pos (by simpa using nonempty), rest]

/-! ## The portal -/

/-- The query of a URL: what is behind the first question mark and before a fragment. -/
def queryOf (url : Bytes) : Bytes :=
  let url := ((cut 0x23 url).map (·.1)).getD url
  ((cut 0x3f url).map (·.2)).getD []

/-- What `captive` of the portal reads from the query. -/
def portalQuery (url : Bytes) : List (Bytes × Bytes) := parseQuery (queryOf url)

theorem not_mem_encodeValues {b : UInt8} (reserved : isReserved b = true) (other : b ≠ 0x3d)
    (notSep : b ≠ 0x26) (kvs : List (Bytes × Bytes)) : b ∉ encodeValues kvs := by
  induction kvs with
  | nil => simp [encodeValues, joinByte]
  | cons kv kvs ih =>
      cases kvs with
      | nil => exact not_mem_pair reserved other kv
      | cons kv' kvs =>
          show b ∉ pair kv ++ 0x26 :: encodeValues (kv' :: kvs)
          rw [List.mem_append, List.mem_cons, not_or, not_or]
          exact ⟨not_mem_pair reserved other kv, notSep, ih⟩

theorem cut_eq_none {sep : UInt8} {s : Bytes} (absent : sep ∉ s) : cut sep s = none := if_neg absent

theorem queryOf_append {before query : Bytes} (noFragment : 0x23 ∉ before ++ 0x3f :: query)
    (first : 0x3f ∉ before) : queryOf (before ++ 0x3f :: query) = query := by
  unfold queryOf
  rw [cut_eq_none noFragment]
  show ((cut 0x3f (before ++ 0x3f :: query)).map (·.2)).getD [] = query
  rw [cut_append first]
  rfl

/-- The fields of the redirect come behind those that the portal's URL has itself. -/
theorem portalQuery_buildPortalURL {portalBase : Bytes} (noFragment : 0x23 ∉ portalBase) (src : Addr)
    (origHost secret : Bytes) (expUnix : Int64) :
    portalQuery (buildPortalURL portalBase src origHost secret expUnix) =
      portalQuery portalBase ++ fields src origHost secret expUnix := by
  have added := not_mem_encodeValues (b := 0x23) rfl (by decide) (by decide)
    (fields src origHost secret expUnix)
  unfold portalQuery
  by_cases hasQuery : 0x3f ∈ portalBase
  · obtain ⟨before, after, rfl, first⟩ := List.eq_append_cons_of_mem hasQuery
    have noFragment' : 0x23 ∉ before ++ 0x3f :: (after ++
        0x26 :: encodeValues (fields src origHost secret expUnix)) := by
      simp only [List.mem_append, List.mem_cons, not_or] at noFragment ⊢
      exact ⟨noFragment.1, noFragment.2.1, noFragment.2.2, by decide, added⟩
    rw [buildPortalURL, if_pos hasQuery, List.append_assoc, List.cons_append,
      queryOf_append noFragment' first, parseQuery_append, parseQuery_encodeValues,
      queryOf_append noFragment first]
  · have noFragment' : 0x23 ∉ portalBase ++ 0x3f :: encodeValues (fields src origHost secret expUnix) := by
      simp only [List.mem_append, List.mem_cons, not_or]
      exact ⟨noFragment, by decide, added⟩
    have noQuery : queryOf portalBase = [] := by
      simp [queryOf, cut_eq_none noFragment, cut_eq_none hasQuery]
    rw [buildPortalURL, if_neg hasQuery, queryOf_append noFragment' hasQuery, parseQuery_encodeValues,
      noQuery]
    rfl

/-- A field that the portal's URL does not have is that of the redirect. -/
theorem get_append {own kvs : List (Bytes × Bytes)} {key : Bytes} (unused : ∀ kv ∈ own, kv.1 ≠ key) :
    get (own ++ kvs) key = get kvs key := by
  have missing : own.lookup key = none := by
    rw [List.lookup_eq_none_iff]
    exact fun kv member => by simpa using (unused kv member).symm
  rw [get, List.lookup_append, missing, Option.none_or]
  rfl

theorem get_t_fields (src : Addr) (origHost secret : Bytes) (expUnix : Int64) :
    get (fields src origHost secret expUnix) (utf8 "t") = Captivetoken.sign secret src expUnix := by
  have differs : (utf8 "t" == utf8 "dest") = false := by decide +kernel
  unfold fields get
  split
  · simp [List.lookup_cons, differs]
  · simp

theorem get_dest_fields (src : Addr) (origHost secret : Bytes) (expUnix : Int64) :
    get (fields src origHost secret expUnix) (utf8 "dest") = origHost := by
  have differs : (utf8 "dest" == utf8 "t") = false := by decide +kernel
  unfold fields get
  split
  · simp
  · rename_i empty
    simp [differs, not_not.mp empty]

/-- No header line has an end in it, whatever host was asked for. -/
theorem redirectLines_whole {portalBase : Bytes} (noReturn : 0x0d ∉ portalBase)
    (noFeed : 0x0a ∉ portalBase) (src : Addr) (origHost secret : Bytes) (expUnix : Int64) :
    ∀ s ∈ redirectLines (buildPortalURL portalBase src origHost secret expUnix),
      s ≠ [] ∧ 0x0d ∉ s ∧ 0x0a ∉ s := by
  have location (b : UInt8) (isEnd : b = 0x0d ∨ b = 0x0a) (absent : b ∉ portalBase) :
      b ∉ utf8 "Location: " ++ buildPortalURL portalBase src origHost secret expUnix := by
    have facts : isReserved b = true ∧ b ≠ 0x3d ∧ b ≠ 0x26 ∧ b ≠ 0x3f ∧ b ∉ utf8 "Location: " := by
      rcases isEnd with rfl | rfl
      · decide +kernel
      · decide +kernel
    obtain ⟨reserved, other, notAmp, notMark, named⟩ := facts
    have notSep : b ≠ (if 0x3f ∈ portalBase then 0x26 else 0x3f) := by
      split
      · exact notAmp
      · exact notMark
    simp only [buildPortalURL, List.mem_append, List.mem_cons, not_or]
    exact ⟨named, absent, notSep, not_mem_encodeValues reserved other notAmp _⟩
  have constant : ∀ s ∈ [utf8 "HTTP/1.1 302 Found", utf8 "Cache-Control: no-store",
      utf8 "Content-Type: text/plain; charset=utf-8",
      utf8 "Content-Length: " ++ Decimal.formatInt redirectBody.length, utf8 "Connection: close"],
      s ≠ [] ∧ 0x0d ∉ s ∧ 0x0a ∉ s := by
    decide +kernel
  have filled : utf8 "Location: " ≠ [] := by decide +kernel
  intro s member
  rcases List.mem_cons.mp member with rfl | member
  · exact constant _ List.mem_cons_self
  rcases List.mem_cons.mp member with rfl | member
  · exact ⟨List.append_ne_nil_of_left_ne_nil filled _, location _ (.inl rfl) noReturn,
      location _ (.inr rfl) noFeed⟩
  · exact constant s (List.mem_cons_of_mem _ member)

/-- **The portal gets the address and the host, whatever was sent.**  For every request that the
daemon answers: the answer has the daemon's header lines and no others, and the portal that the
browser is sent to reads from the query the token of the source address, which it accepts as that
address up to the expiry, and the host of the request.  The portal's own URL must have no fragment,
no line break, and no field of these names. -/
theorem redirect_identifies (ops : TextOps) (sent : Bytes) (src : Addr) (portalBase secret : Bytes)
    (expUnix : Int64) {resp : Bytes}
    (answered : serveRedirect ops sent src portalBase secret expUnix = some resp)
    (plain : 0x23 ∉ portalBase ∧ 0x0d ∉ portalBase ∧ 0x0a ∉ portalBase)
    (unused : ∀ kv ∈ portalQuery portalBase, kv.1 ≠ utf8 "t" ∧ kv.1 ≠ utf8 "dest") :
    ∃ location, headerLines resp = redirectLines location ∧
      (∀ now, Captivetoken.verify secret (get (portalQuery location) (utf8 "t")) now =
        if now ≤ expUnix then .ok (Agent.netip src) else .error .expired) ∧
      get (portalQuery location) (utf8 "dest") = requestHost ops sent := by
  unfold serveRedirect at answered
  split at answered
  · cases answered
    refine ⟨_, headerLines_respond _ (redirectLines_whole plain.2.1 plain.2.2 _ _ _ _), ?_, ?_⟩
    · intro now
      rw [portalQuery_buildPortalURL plain.1, get_append (fun kv member => (unused kv member).1),
        get_t_fields, Captivetoken.verify_sign]
    · rw [portalQuery_buildPortalURL plain.1, get_append (fun kv member => (unused kv member).2),
        get_dest_fields]
  · cases answered

/-- A request whose host has a carriage return and a header in it. -/
def forgedRequest : Bytes := utf8 "GET / HTTP/1.1\nhost:a\rSet-Cookie: b\n\n"

/-- The header stays in the query, and the portal knows the customer. -/
theorem redirect_identifies_forged :
    ∃ resp location, serveRedirect ⟨id, fun a b => a == b⟩ forgedRequest firstAddr
        (utf8 "http://portal/captive?lang=de") (utf8 "secret") 1700000120 = some resp ∧
      headerLines resp = redirectLines location ∧
      Captivetoken.verify (utf8 "secret") (get (portalQuery location) (utf8 "t")) 1700000120 =
        .ok (Agent.netip firstAddr) ∧
      get (portalQuery location) (utf8 "dest") = utf8 "a\rSet-Cookie: b" := by
  have isHTTP : looksLikeHTTP ((requestLines forgedRequest).headD []) = true := by decide +kernel
  have host : requestHost ⟨id, fun a b => a == b⟩ forgedRequest = utf8 "a\rSet-Cookie: b" := by
    decide +kernel
  have answered : serveRedirect ⟨id, fun a b => a == b⟩ forgedRequest firstAddr
      (utf8 "http://portal/captive?lang=de") (utf8 "secret") 1700000120 = _ := if_pos isHTTP
  obtain ⟨location, lines, token, dest⟩ := redirect_identifies ⟨id, fun a b => a == b⟩ forgedRequest
    firstAddr (utf8 "http://portal/captive?lang=de") (utf8 "secret") 1700000120 answered
    (by decide +kernel) (by decide +kernel)
  exact ⟨_, location, answered, lines, (token _).trans (if_pos (by decide)), dest.trans host⟩

end FipsExitGate.Captive
