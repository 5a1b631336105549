import Rune.Models.Ingress.Controller

/-!
# The ingress listeners

A request is routed by its host and path, and is proxied when the peer and the connection satisfy
what the route asks for. Which client CAs a connection was verified against is decided before, in
its handshake, by the server name the client gave there and the pools that were registered then.
-/

namespace Rune.Ingress

open Rune.Core Rune.Services

/-- The listener that a request came in on. A TLS connection has the server name that was given in
its handshake, and was verified by the pools that were registered at that time. -/
inductive Listener (Pool : Type*) where
  | http
  | https (serverName : String) (clientCAs : ClientCARegistry Pool)

/-- A request as the handlers see it. -/
structure Request (Pool : Type*) where
  listener : Listener Pool
  host : String
  path : String := "/"
  remoteAddr : String

/-- The pool that the handshake of the connection required a client certificate of; none where
it asked for no certificate. -/
def Listener.configFor {Pool : Type*} (lower : Char → Char) : Listener Pool → Option Pool
  | .http => none
  | .https serverName clientCAs => clientCAs.pool lower serverName

/-- What the client gets: an answer of the ingress itself, or that of the upstream. -/
inductive Response where
  | text (status : ℕ) (body : String)
  | proxied (route : Route) (target : String)
  deriving DecidableEq

/-- The tables that a request is served by. -/
structure Server (Pool : Type*) where
  router : Router
  clientCAs : ClientCARegistry Pool
  challenges : String → Option String := fun _ => none
  resolve : String → String → ℤ → Option String

/-- The address of the peer; none where it cannot be read. -/
def peerIP (remoteAddr : String) : Option Bytes :=
  parseIP (((splitHostPort remoteAddr).map (·.1)).getD remoteAddr)

/-- The status with which a request is refused that comes without the client certificate the
route asks for. -/
def mtlsGate {Pool : Type*} (rt : Route) (listener : Listener Pool) (hasPool : Bool) : Option ℕ :=
  if rt.requireClientCert = false then none
  else match listener with
  | .http => some 403
  | .https _ _ => if hasPool then none else some 503

namespace Server

variable {Pool : Type*} (lower : Char → Char) (sv : Server Pool)

/-- Send the request on, if the service has an address. -/
def forward (rt : Route) : Response :=
  match sv.resolve rt.ns rt.service rt.port with
  | none => .text 503 "service unavailable"
  | some target => if target = "" then .text 503 "service unavailable" else .proxied rt target

/-- Route the request and check what the route asks for. -/
def proxy (req : Request Pool) : Response :=
  match sv.router.findRoute lower req.host req.path with
  | none => .text 404 ("no route for host " ++ req.host)
  | some rt =>
    if rt.peerAllowed (peerIP req.remoteAddr) = false then .text 403 "forbidden"
    else match mtlsGate rt req.listener (sv.clientCAs.hasPool lower rt.host) with
    | some status => .text status "forbidden"
    | none => sv.forward rt

/-- The token of a challenge that the path asks for. -/
def challengeToken (path : String) : Option String :=
  let front := "/.well-known/acme-challenge/".toList
  if front <+: path.toList then some (String.ofList (path.toList.drop front.length)) else none

/-- The plain listener, which also answers the challenges. -/
def serveHTTP (req : Request Pool) : Response :=
  match challengeToken req.path with
  | some token =>
    match sv.challenges token with
    | some text => .text 200 text
    | none => .text 404 "404 page not found\n"
  | none => sv.proxy lower req

/-- The handler of the listener. -/
def serve (req : Request Pool) : Response :=
  match req.listener with
  | .http => sv.serveHTTP lower req
  | .https _ _ => sv.proxy lower req

variable {lower} {sv}

/-- What is served is proxied. -/
theorem proxy_of_serve {req : Request Pool} {rt : Route} {target : String}
    (h : sv.serve lower req = .proxied rt target) : sv.proxy lower req = .proxied rt target := by
  unfold serve serveHTTP at h
  repeat' split at h
  all_goals first
    | exact h
    | cases h

theorem eq_of_forward {rt route : Route} {target : String}
    (h : sv.forward rt = .proxied route target) : rt = route := by
  revert h
  fun_cases sv.forward rt <;> rintro ⟨⟩
  rfl

/-- A request that is proxied has passed both checks of its route. -/
theorem checks_of_proxy {req : Request Pool} {rt : Route} {target : String}
    (h : sv.proxy lower req = .proxied rt target) :
    sv.router.findRoute lower req.host req.path = some rt ∧
      rt.peerAllowed (peerIP req.remoteAddr) = true ∧
        mtlsGate rt req.listener (sv.clientCAs.hasPool lower rt.host) = none := by
  revert h
  fun_cases sv.proxy lower req <;> intro h <;> try cases h
  rename_i hpeer hgate
  obtain rfl := eq_of_forward h
  exact ⟨‹_›, by simpa using hpeer, hgate⟩

end Server

/-- What lets a request for an origin with client certificates through. -/
theorem https_of_mtlsGate {Pool : Type*} {rt : Route} {listener : Listener Pool} {hasPool : Bool}
    (h : mtlsGate rt listener hasPool = none) (hrt : rt.requireClientCert = true) :
    (∃ serverName clientCAs, listener = .https serverName clientCAs) ∧ hasPool = true := by
  cases listener with
  | http => simp [mtlsGate, hrt] at h
  | https serverName clientCAs =>
    exact ⟨⟨serverName, clientCAs, rfl⟩, by simpa [mtlsGate, hrt] using h⟩

/-- A route comes from an exposed port. -/
theorem routeOf_eq_some {s : Service} {rt : Route} (h : routeOf s = some rt) :
    ∃ e ∈ s.spec.expose, rt =
      { host := e.host, ns := s.ns, service := s.name, port := primaryServicePort s
        path := e.path, allowCIDRs := parseAllowCIDRs e.allowCIDRs
        requireClientCert := requiresClientCert e } := by
  obtain ⟨e, he, rfl⟩ := Option.map_eq_some_iff.1 h
  exact ⟨e, (Option.filter_eq_some_iff.1 he).1, rfl⟩

theorem mem_parseAllowCIDRs {cidrs : List String} {n : IPNet} :
    n ∈ parseAllowCIDRs cidrs ↔ ∃ c ∈ cidrs, parseCIDR c = some n := List.mem_filterMap

/-- What a pass leaves in the router. -/
theorem State.router_reconcile {Pool : Type*} (cfg : Config Pool) {s : State Pool} {calls : Calls}
    (h : calls.listAll = true) :
    (s.reconcile cfg calls).router.Holds cfg.lower (s.services.filterMap routeOf) := by
  rw [reconcile, if_pos h]
  exact Router.apply_holds _

section Restrictions

variable {Pool : Type*} {lower : Char → Char} {sv : Server Pool} {req : Request Pool}
  {e : ServiceExpose}

/-- The request satisfies what the service declares: its peer is in a network of the allowlist, and
its handshake required a client certificate of the pool that is registered for the host. -/
structure Satisfies (lower : Char → Char) (sv : Server Pool) (req : Request Pool)
    (e : ServiceExpose) : Prop where
  peer : e.allowCIDRs ≠ [] → ∃ c ∈ e.allowCIDRs, ∃ n ∈ parseCIDR c,
    ∃ ip ∈ peerIP req.remoteAddr, n.contains ip = true
  cert : e.clientCert.isSome → ∃ pool, sv.clientCAs.pool lower e.host = some pool ∧
    req.listener.configFor lower = some pool

/-- An allowlist has an entry that can be read. -/
def ReadableEntry (e : ServiceExpose) : Prop :=
  e.allowCIDRs ≠ [] → ∃ c ∈ e.allowCIDRs, (parseCIDR c).isSome

/-- Where client certificates are declared, the pool that was registered under the server name at
the time of the handshake is the one of the host. -/
def PoolAtHandshake (lower : Char → Char) (sv : Server Pool) (req : Request Pool)
    (e : ServiceExpose) : Prop :=
  e.clientCert.isSome → ∃ serverName clientCAs pool, req.listener = .https serverName clientCAs ∧
    clientCAs (normalizeHost lower serverName) = some pool ∧
    sv.clientCAs (normalizeHost lower e.host) = some pool

/-- A peer that the route of the service lets in satisfies its allowlist exactly if an entry of
it can be read. -/
theorem peer_iff_readableEntry {rt : Route} (hrt : rt.allowCIDRs = parseAllowCIDRs e.allowCIDRs)
    (hpeer : rt.peerAllowed (peerIP req.remoteAddr) = true) :
    (e.allowCIDRs ≠ [] → ∃ c ∈ e.allowCIDRs, ∃ n ∈ parseCIDR c,
      ∃ ip ∈ peerIP req.remoteAddr, n.contains ip = true) ↔ ReadableEntry e := by
  refine forall_congr' fun _ => ⟨?_, ?_⟩
  · rintro ⟨c, hc, n, hn, -⟩
    exact ⟨c, hc, Option.isSome_iff_exists.mpr ⟨n, hn⟩⟩
  · rintro ⟨c, hc, hsome⟩
    obtain ⟨net, hnet⟩ := Option.isSome_iff_exists.1 hsome
    have hnets : rt.allowCIDRs ≠ [] :=
      List.ne_nil_of_mem (hrt ▸ mem_parseAllowCIDRs.2 ⟨c, hc, hnet⟩)
    obtain ⟨n, hn, ip, hip, hcontains⟩ := Route.exists_contains_of_peerAllowed hpeer hnets
    obtain ⟨c, hc, hcn⟩ := mem_parseAllowCIDRs.1 (hrt ▸ hn)
    exact ⟨c, hc, n, hcn, ip, hip, hcontains⟩

/-- The condition, on the handshake. -/
theorem cert_iff_poolAtHandshake :
    (e.clientCert.isSome → ∃ pool, sv.clientCAs.pool lower e.host = some pool ∧
      req.listener.configFor lower = some pool) ↔ PoolAtHandshake lower sv req e := by
  refine forall_congr' fun _ => ⟨?_, ?_⟩
  · rintro ⟨pool, hpool, hconfig⟩
    cases hl : req.listener with
    | http => simp [hl, Listener.configFor] at hconfig
    | https serverName clientCAs =>
      rw [hl] at hconfig
      exact ⟨serverName, clientCAs, pool, rfl, hconfig, hpool⟩
  · rintro ⟨serverName, clientCAs, pool, hl, hconfig, hpool⟩
    exact ⟨pool, hpool, by rw [hl]; exact hconfig⟩

/-- A request that is proxied satisfies what the service behind the route declares exactly if the
allowlist has an entry that can be read and the handshake was made with the pool of the host. This
is so for a request on a connection that named the host, after the pool was registered, as long as
normalizing the host once more does not change it and the service names the secret of the pool. -/
theorem proxied_satisfies_restrictions {services : List Service}
    (hrouter : sv.router.Holds lower (services.filterMap routeOf))
    {rt : Route} {target : String} (h : sv.serve lower req = .proxied rt target) :
    ∃ s ∈ services, ∃ e ∈ s.spec.expose, rt.ns = s.ns ∧ rt.service = s.name ∧
      normalizeHost lower e.host = normalizeHost lower req.host ∧
      (Satisfies lower sv req e ↔ ReadableEntry e ∧ PoolAtHandshake lower sv req e) ∧
      ((∀ c ∈ e.clientCert, c.caSecret ≠ "") →
        normalizeHost lower (normalizeHost lower req.host) = normalizeHost lower req.host →
        (∀ serverName clientCAs, req.listener = .https serverName clientCAs →
          normalizeHost lower serverName = normalizeHost lower req.host ∧
            clientCAs (normalizeHost lower req.host) =
              sv.clientCAs (normalizeHost lower req.host)) →
        PoolAtHandshake lower sv req e) := by
  obtain ⟨hfind, hpeer, hgate⟩ := Server.checks_of_proxy (Server.proxy_of_serve h)
  obtain ⟨orig, horig, hnorm, rfl, -⟩ := hrouter.exists_of_findRoute hfind
  obtain ⟨s, hs, hroute⟩ := List.mem_filterMap.1 horig
  obtain ⟨e, he, rfl⟩ := routeOf_eq_some hroute
  refine ⟨s, hs, e, he, rfl, rfl, hnorm, ?_, ?_⟩
  · rw [← peer_iff_readableEntry rfl hpeer, ← cert_iff_poolAtHandshake]
    exact ⟨fun hsat => ⟨hsat.peer, hsat.cert⟩, fun hsat => ⟨hsat.1, hsat.2⟩⟩
  · intro hsecret hhost hname hcert
    obtain ⟨cert, hcert⟩ := Option.isSome_iff_exists.1 hcert
    have hrequired : requiresClientCert e = true := by
      rw [requiresClientCert, hcert]
      simpa using hsecret cert hcert
    obtain ⟨⟨serverName, clientCAs, hlistener⟩, hpool⟩ := https_of_mtlsGate hgate hrequired
    obtain ⟨pool, hpool⟩ := Option.isSome_iff_exists.1 hpool
    have hkey : sv.clientCAs (normalizeHost lower req.host) = some pool := by
      rw [← hhost]
      exact hpool
    obtain ⟨hsame, hthen⟩ := hname serverName clientCAs hlistener
    exact ⟨serverName, clientCAs, pool, hlistener, by rw [hsame, hthen, hkey], by rw [hnorm, hkey]⟩

end Restrictions

/-- ASCII letters are lowered, a pool is the text it was made from. -/
def plainConfig : Config String where
  lower := Char.toLower
  rules := { parseURI := fun _ => .error "", pathUnescape := id, printable := Printable.ofAscii }
  newPool := some
  certNameFor := fun host => String.ofList (host.toList.map Char.toLower)

/-- A service with one port. -/
def exposedService (name : String) (e : ServiceExpose) : Service :=
  { id := name, ns := "default", name, spec :=
    { ports := [{ name := "http", port := 80 }], expose := some e } }

/-- The services after a pass, in front of which every service is reachable. -/
def reconciled (services : List Service) : Server String :=
  let s : State String :=
    { services, certs := fun _ => none
      secrets := fun _ name => if name = "ca" then some ⟨[("ca.crt", "CA")], 1⟩ else none }
  let t := s.reconcile plainConfig {}
  { router := t.router, clientCAs := t.clientCAs, resolve := fun _ _ _ => some "10.96.0.7:80" }

/-- A service with both restrictions. -/
def bank : Service :=
  exposedService "bank"
    { port := "http", host := "Bank.test", allowCIDRs := ["intranet", "10.0.0.0/8"]
      clientCert := some { caSecret := "ca" } }

/-- A service without restrictions. -/
def shop : Service := exposedService "shop" { port := "http", host := "shop.test" }

/-- A request for `bank` from the intranet, on a connection that was opened when these pools were
registered. -/
def bankRequest (serverName : String) (clientCAs : ClientCARegistry String) : Request String :=
  { listener := .https serverName clientCAs, host := "bank.test:443"
    remoteAddr := "10.1.2.3:40000" }

/-- The route of the restricted service. -/
def bankRoute : Route :=
  { host := "bank.test", ns := "default", service := "bank", port := 80
    allowCIDRs := parseAllowCIDRs ["intranet", "10.0.0.0/8"], requireClientCert := true }

/-- A connection that named the host after the pass satisfies what `bank` declares. -/
theorem bankRequest_satisfies :
    let sv := reconciled [shop, bank]
    let req := bankRequest "bank.test" sv.clientCAs
    sv.serve Char.toLower req = .proxied bankRoute "10.96.0.7:80" ∧
      ∃ s ∈ [shop, bank], ∃ e ∈ s.spec.expose, bankRoute.service = s.name ∧
        Satisfies Char.toLower sv req e := by
  intro sv req
  have hserve : sv.serve Char.toLower req = .proxied bankRoute "10.96.0.7:80" := by decide +kernel
  have hhost : normalizeHost Char.toLower (normalizeHost Char.toLower req.host) =
      normalizeHost Char.toLower req.host := by decide +kernel
  have hsame : normalizeHost Char.toLower "bank.test" = normalizeHost Char.toLower req.host := by
    decide +kernel
  have hsecret : ∀ s ∈ [shop, bank], ∀ e ∈ s.spec.expose, ∀ c ∈ e.clientCert,
      c.caSecret ≠ "" := by decide +kernel
  have hreadable : ∀ s ∈ [shop, bank], ∀ e ∈ s.spec.expose, e.allowCIDRs ≠ [] →
      ∃ c ∈ e.allowCIDRs, (parseCIDR c).isSome := by decide +kernel
  obtain ⟨s, hs, e, he, -, hname, -, hiff, hpool⟩ :=
    proxied_satisfies_restrictions (State.router_reconcile plainConfig rfl) hserve
  refine ⟨hserve, s, hs, e, he, hname, hiff.mpr ⟨hreadable s hs e he, ?_⟩⟩
  refine hpool (hsecret s hs e he) hhost ?_
  rintro _ _ ⟨⟩
  exact ⟨hsame, rfl⟩

/-- A service whose allowlist has an address without a mask. -/
def vault : Service :=
  exposedService "vault" { port := "http", host := "vault.test", allowCIDRs := ["10.0.0.0"] }

/-- A connection that named another host in its handshake reaches the origin without a client
certificate, and so does one that was opened before the pool was registered. An allowlist without a
readable entry lets every peer in. -/
theorem restrictions_bypassed :
    (reconciled [shop, bank]).clientCAs.pool Char.toLower "Bank.test" = some "CA" ∧
    (∀ req ∈ [bankRequest "shop.test" (reconciled [shop, bank]).clientCAs,
        bankRequest "bank.test" (reconciled [shop]).clientCAs],
      (reconciled [shop, bank]).serve Char.toLower req = .proxied bankRoute "10.96.0.7:80" ∧
        req.listener.configFor Char.toLower = none) ∧
    (reconciled [vault]).serve Char.toLower
        { listener := .http, host := "vault.test", remoteAddr := "203.0.113.9:40000" } =
      .proxied { host := "vault.test", ns := "default", service := "vault", port := 80 }
        "10.96.0.7:80" := by
  decide +kernel

end Rune.Ingress
