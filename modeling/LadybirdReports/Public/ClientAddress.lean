import LadybirdReports.Admin.Schema
import LadybirdReports.Lib.IpAddr

/-!
# The address of the client

Behind proxies, the peer of a connection is the nearest proxy. `resolve_client_address` walks the
`X-Forwarded-For` header from the right for as long as what it has come to is trusted, to the hop
that the outermost trusted proxy saw (`walk_eq`). It reads the first line of the header only: where
a proxy adds a line of its own instead of extending the one that the client sent, it is the client's
line that decides (`appended_line_is_ignored`).
-/

namespace LadybirdReports.Public

open Admin (AppError)
open Rust

/-! ## Trusted networks -/

/-- What `ipnet` does for the configuration: its networks, the one of a single address, and which
addresses are in a network. -/
structure NetworkLibrary where
  IpNet : Type
  ofAddress : IpAddr → IpNet
  contains : IpNet → IpAddr → Bool

/-- `TrustedProxy`. -/
inductive TrustedProxy (net : NetworkLibrary)
  | network (network : net.IpNet)
  | host (host : String)

/-- `resolve_trusted_networks`: the configured networks, and the addresses of the configured names
that have been resolved. -/
def resolveTrustedNetworks (net : NetworkLibrary) (trustedProxies : List (TrustedProxy net))
    (resolved : String → Option (List IpAddr)) : List net.IpNet :=
  trustedProxies.flatMap fun proxy =>
    match proxy with
    | .network network => [network]
    | .host host => ((resolved host).getD []).map net.ofAddress

/-- Some trusted network has the address. -/
def isTrusted (net : NetworkLibrary) (trustedNetworks : List net.IpNet) (address : IpAddr) : Bool :=
  trustedNetworks.any fun network => net.contains network address

/-! ## Headers -/

/-- The lines of a request's header in the order of their arrival, each with its lower-case name. -/
abbrev HeaderMap := List (String × List UInt8)

/-- `HeaderMap::get`: the first line of that name. -/
def HeaderMap.get (headers : HeaderMap) (name : String) : Option (List UInt8) :=
  (headers.find? (·.1 = name)).map Prod.snd

/-- `HeaderMap::get_all`. -/
def HeaderMap.getAll (headers : HeaderMap) (name : String) : List (List UInt8) :=
  (headers.filter (·.1 = name)).map Prod.snd

/-- `HeaderValue::to_str`: visible ASCII characters, blanks and tabs. -/
def toStr (value : List UInt8) : Option Str :=
  if value.all fun b => (32 ≤ b && b < 127) || b = 9 then
    some (value.map fun b => Char.ofNat b.toNat)
  else none

def forwardedFor : String := "x-forwarded-for"

/-! ## Resolving the client -/

def invalidForwarding : AppError := .invalidRequest "Invalid forwarding header"

/-- One hop of a line: what stands between two commas. -/
def parseHop (value : Str) : Option IpAddr := IpAddr.parse (trim value)

/-- The hops of a line, from the right, up to the first that is not trusted. -/
def walk (trusted : IpAddr → Bool) : IpAddr → List Str → Except AppError IpAddr
  | current, [] => .ok current
  | current, value :: values =>
    if !trusted current then .ok current
    else do
      let next ← okOr (parseHop value) invalidForwarding
      walk trusted next values

def resolveClientAddress (net : NetworkLibrary) (trustedNetworks : List net.IpNet) (peer : IpAddr)
    (headers : HeaderMap) : Except AppError IpAddr :=
  let trusted := isTrusted net trustedNetworks
  if !trusted peer then .ok peer
  else
    match headers.get forwardedFor with
    | none => .ok peer
    | some forwarded => do
      let forwarded ← okOr (toStr forwarded) invalidForwarding
      ensure (byteLen forwarded ≤ 2048) invalidForwarding
      walk trusted peer (split [','] forwarded).reverse

/-! ## The hops of all lines -/

/-- The hops of a line that is well formed. -/
def lineHops (value : List UInt8) : Option (List IpAddr) := do
  let text ← toStr value
  if byteLen text ≤ 2048 then (split [','] text).mapM parseHop else none

/-- The hops of each line, where all are well formed. -/
def forwardedLines (headers : HeaderMap) : Option (List (List IpAddr)) :=
  (headers.getAll forwardedFor).mapM lineHops

/-- The last hop that is not trusted. -/
def lastUntrusted (trusted : IpAddr → Bool) (hops : List IpAddr) : Option IpAddr :=
  hops.reverse.find? fun hop => !trusted hop

/-- The client of a request that came over these hops: the last that is not trusted, or the first
where all are. -/
def clientOf (trusted : IpAddr → Bool) (peer : IpAddr) (hops : List IpAddr) : IpAddr :=
  if !trusted peer then peer
  else (lastUntrusted trusted hops).getD (hops.head?.getD peer)

/-- The lines after the first do not matter: the peer is not trusted, or they have nobody who is not
trusted, or the same one last. -/
def FirstLineDecides (trusted : IpAddr → Bool) (peer : IpAddr) : List (List IpAddr) → Prop
  | [] => True
  | first :: later =>
    trusted peer = false ∨ lastUntrusted trusted later.flatten = none ∨
      lastUntrusted trusted later.flatten = lastUntrusted trusted first

section

variable {trusted : IpAddr → Bool} {peer current : IpAddr} {hops later : List IpAddr}

theorem lastUntrusted_append (trusted : IpAddr → Bool) (hops later : List IpAddr) :
    lastUntrusted trusted (hops ++ later)
      = (lastUntrusted trusted later).or (lastUntrusted trusted hops) := by
  unfold lastUntrusted
  rw [List.reverse_append, List.find?_append]

theorem lastUntrusted_eq_none_iff :
    lastUntrusted trusted hops = none ↔ ∀ hop ∈ hops, trusted hop = true := by
  unfold lastUntrusted
  simp

theorem not_trusted_of_lastUntrusted {hop : IpAddr} (h : lastUntrusted trusted hops = some hop) :
    trusted hop = false := by
  simpa using List.find?_some h

theorem clientOf_of_not_trusted (hpeer : trusted peer = false) (hops : List IpAddr) :
    clientOf trusted peer hops = peer :=
  if_pos (by rw [hpeer]; rfl)

theorem clientOf_of_trusted (hpeer : trusted peer = true) (hops : List IpAddr) :
    clientOf trusted peer hops = (lastUntrusted trusted hops).getD (hops.head?.getD peer) :=
  if_neg (by rw [hpeer]; exact Bool.false_ne_true)

/-- What comes before the last hop that is not trusted does not matter. -/
theorem clientOf_append (hlater : lastUntrusted trusted later ≠ none) (hops : List IpAddr) :
    clientOf trusted peer (hops ++ later) = clientOf trusted peer later := by
  obtain ⟨hop, hhop⟩ := Option.ne_none_iff_exists'.mp hlater
  unfold clientOf
  rw [lastUntrusted_append, hhop]
  rfl

theorem clientOf_concat (hcurrent : trusted current = true) (hop : IpAddr) (hops : List IpAddr) :
    clientOf trusted current (hops ++ [hop]) = clientOf trusted hop hops := by
  rw [clientOf_of_trusted hcurrent, lastUntrusted_append]
  cases hhop : trusted hop with
  | true =>
    have hlast : lastUntrusted trusted [hop] = none := by simp [lastUntrusted, hhop]
    rw [clientOf_of_trusted hhop, hlast, Option.none_or, List.head?_append]
    cases hops.head? <;> rfl
  | false =>
    have hlast : lastUntrusted trusted [hop] = some hop := by simp [lastUntrusted, hhop]
    rw [clientOf_of_not_trusted hhop, hlast]
    rfl

/-- The walk comes to the client of the hops it is given. -/
theorem walk_eq {values : List Str} {hops : List IpAddr}
    (h : List.Forall₂ (fun value hop => parseHop value = some hop) values hops) :
    walk trusted current values = .ok (clientOf trusted current hops.reverse) := by
  induction h generalizing current with
  | nil =>
    unfold walk clientOf
    simp [lastUntrusted]
  | @cons value hop values hops hvalue _ ih =>
    unfold walk
    cases hcurrent : trusted current with
    | true =>
      rw [if_neg (by simp), hvalue, List.reverse_cons, clientOf_concat hcurrent]
      exact ih
    | false => rw [if_pos (by rfl), clientOf_of_not_trusted hcurrent]

variable (trusted current) in
/-- A line that is well formed is read to the client of its hops. -/
theorem walk_line {value : List UInt8} (h : lineHops value = some hops) :
    ∃ text, toStr value = some text ∧ byteLen text ≤ 2048 ∧ hops ≠ [] ∧
      walk trusted current (split [','] text).reverse = .ok (clientOf trusted current hops) := by
  obtain ⟨text, htext, h⟩ := Option.bind_eq_some_iff.mp h
  split_ifs at h with hlen
  have hhops := forall₂_of_mapM h
  refine ⟨text, htext, hlen, ?_, ?_⟩
  · rintro rfl
    exact split_ne_nil [','] text (List.forall₂_nil_right_iff.mp hhops)
  · rw [walk_eq (List.rel_reverse hhops), List.reverse_reverse]

end

theorem HeaderMap.get_eq_head? (headers : HeaderMap) (name : String) :
    headers.get name = (headers.getAll name).head? := by
  unfold HeaderMap.get HeaderMap.getAll
  rw [List.head?_map, List.head?_filter]

section

variable {net : NetworkLibrary} {trustedNetworks : List net.IpNet} {peer : IpAddr}
  {headers : HeaderMap} {lines : List (List IpAddr)}

theorem resolveClientAddress_of_not_trusted (hpeer : isTrusted net trustedNetworks peer = false) :
    resolveClientAddress net trustedNetworks peer headers = .ok peer :=
  if_pos (by rw [hpeer]; rfl)

/-- What is resolved is the client of the first line. -/
theorem resolveClientAddress_eq (h : forwardedLines headers = some lines) :
    resolveClientAddress net trustedNetworks peer headers
      = .ok (clientOf (isTrusted net trustedNetworks) peer (lines.head?.getD [])) := by
  cases hpeer : isTrusted net trustedNetworks peer with
  | false => rw [resolveClientAddress_of_not_trusted hpeer, clientOf_of_not_trusted hpeer]
  | true =>
    simp only [resolveClientAddress]
    rw [if_neg (by simp [hpeer]), HeaderMap.get_eq_head?]
    have hlines := forall₂_of_mapM h
    generalize headers.getAll forwardedFor = values at hlines
    cases hlines with
    | nil => simp [clientOf, lastUntrusted]
    | @cons value hops values lines hvalue hlines =>
      obtain ⟨text, htext, hlen, -, hwalk⟩ :=
        walk_line (isTrusted net trustedNetworks) peer hvalue
      simp only [List.head?_cons, htext, okOr, ok_bind, ensure, decide_eq_true_eq, if_pos hlen]
      exact hwalk

theorem head_ne_nil (h : forwardedLines headers = some lines) : lines.head? ≠ some [] := by
  have hlines := forall₂_of_mapM h
  generalize headers.getAll forwardedFor = values at hlines
  cases hlines with
  | nil => simp
  | cons hvalue _ =>
    obtain ⟨_, -, -, hne, -⟩ := walk_line (fun _ => true) (.v4 0) hvalue
    simpa using hne

/-- Where the first line has hops, they decide exactly when the later lines do not matter. -/
theorem clientOf_first_iff {trusted : IpAddr → Bool} {first : List IpAddr}
    {later : List (List IpAddr)} (hfirst : first ≠ []) :
    clientOf trusted peer first = clientOf trusted peer (first ++ later.flatten) ↔
      FirstLineDecides trusted peer (first :: later) := by
  change _ ↔ trusted peer = false ∨ lastUntrusted trusted later.flatten = none ∨
    lastUntrusted trusted later.flatten = lastUntrusted trusted first
  cases hpeer : trusted peer with
  | false => simp [clientOf_of_not_trusted hpeer]
  | true =>
    rw [clientOf_of_trusted hpeer, clientOf_of_trusted hpeer, lastUntrusted_append,
      List.head?_append_of_ne_nil _ hfirst]
    cases hlater : lastUntrusted trusted later.flatten with
    | none => simp
    | some hop =>
      cases hhops : lastUntrusted trusted first with
      | some hop' => simp [eq_comm]
      | none =>
        obtain ⟨leftmost, rest, rfl⟩ := List.exists_cons_of_ne_nil hfirst
        have htrusted := lastUntrusted_eq_none_iff.mp hhops leftmost List.mem_cons_self
        have hhop := not_trusted_of_lastUntrusted hlater
        have hne : leftmost ≠ hop := by
          rintro rfl
          rw [htrusted] at hhop
          cases hhop
        simpa using hne

/-- Walking the lines in order comes to their client exactly when the later lines do not matter. -/
theorem resolveClientAddress_eq_client_iff (h : forwardedLines headers = some lines) :
    resolveClientAddress net trustedNetworks peer headers
        = .ok (clientOf (isTrusted net trustedNetworks) peer lines.flatten) ↔
      FirstLineDecides (isTrusted net trustedNetworks) peer lines := by
  rw [resolveClientAddress_eq h, Except.ok.injEq]
  have hne := head_ne_nil h
  cases lines with
  | nil => exact ⟨fun _ => trivial, fun _ => rfl⟩
  | cons first later =>
    rw [List.flatten_cons]
    exact clientOf_first_iff (by simpa using hne)

/-- Every request whose later lines do not matter resolves to the client of all its hops, no other
request does, and two such requests over the same hops from the client on resolve to one address,
whatever the client put in front. -/
theorem resolves_to_client (net : NetworkLibrary) (trustedNetworks : List net.IpNet)
    (peer : IpAddr) :
    (∀ headers lines, forwardedLines headers = some lines →
      (resolveClientAddress net trustedNetworks peer headers
          = .ok (clientOf (isTrusted net trustedNetworks) peer lines.flatten) ↔
        FirstLineDecides (isTrusted net trustedNetworks) peer lines)) ∧
    ∀ headers headers' lines lines' sent sent' appended,
      forwardedLines headers = some lines → forwardedLines headers' = some lines' →
      lines.flatten = sent ++ appended → lines'.flatten = sent' ++ appended →
      lastUntrusted (isTrusted net trustedNetworks) appended ≠ none →
      FirstLineDecides (isTrusted net trustedNetworks) peer lines →
      FirstLineDecides (isTrusted net trustedNetworks) peer lines' →
      resolveClientAddress net trustedNetworks peer headers
        = resolveClientAddress net trustedNetworks peer headers' := by
  refine ⟨fun headers lines h => resolveClientAddress_eq_client_iff h, ?_⟩
  intro headers headers' lines lines' sent sent' appended h h' hhops hhops' happended hfirst hfirst'
  rw [(resolveClientAddress_eq_client_iff h).mpr hfirst,
    (resolveClientAddress_eq_client_iff h').mpr hfirst', hhops, hhops',
    clientOf_append happended, clientOf_append happended]

end

/-! ## A proxy that adds a line -/

/-- Networks of one address each. -/
def singleAddresses : NetworkLibrary where
  IpNet := IpAddr
  ofAddress := id
  contains network address := decide (network = address)

/-- The proxy's own network. -/
def proxyNetwork : List singleAddresses.IpNet := [singleAddresses.ofAddress (.v4 0x0a000001)]

def forwardedLine (text : String) : String × List UInt8 := (forwardedFor, bytes text.toList)

theorem extended_line_resolves :
    resolveClientAddress singleAddresses proxyNetwork (.v4 0x0a000001)
        [forwardedLine "1.1.1.1, 8.8.8.8"]
      = resolveClientAddress singleAddresses proxyNetwork (.v4 0x0a000001)
        [forwardedLine "2.2.2.2, 8.8.8.8"] :=
  (resolves_to_client singleAddresses proxyNetwork (.v4 0x0a000001)).2 _ _
    [[.v4 0x01010101, .v4 0x08080808]] [[.v4 0x02020202, .v4 0x08080808]]
    [.v4 0x01010101] [.v4 0x02020202] [.v4 0x08080808]
    (by decide +kernel) (by decide +kernel) rfl rfl (by decide +kernel)
    (.inr (.inl (by decide +kernel))) (.inr (.inl (by decide +kernel)))

/-- The proxy adds a line for the client 8.8.8.8 after the line that the client sent, and the
request resolves to the address that the client named. -/
theorem appended_line_is_ignored :
    ∃ lines, forwardedLines [forwardedLine "1.1.1.1", forwardedLine "8.8.8.8"] = some lines ∧
      clientOf (isTrusted singleAddresses proxyNetwork) (.v4 0x0a000001) lines.flatten
        = .v4 0x08080808 ∧
      resolveClientAddress singleAddresses proxyNetwork (.v4 0x0a000001)
        [forwardedLine "1.1.1.1", forwardedLine "8.8.8.8"] = .ok (.v4 0x01010101) :=
  ⟨[[.v4 0x01010101], [.v4 0x08080808]], by decide +kernel, by decide +kernel, by decide +kernel⟩

end LadybirdReports.Public
