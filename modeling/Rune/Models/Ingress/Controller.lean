import Rune.Models.Ingress.Router
import Rune.Models.Refs.ResourceRef
import Rune.Models.Services.Record

/-!
# The ingress controller

A pass reads the stored services and makes the routes, the certificates of manual TLS and the
client CAs follow them. What has been pushed is remembered as the version of the secret it came
from, for each host as the service spells it; the certificates are kept under a name made from the
host, the client CAs under the normalized host.
-/

namespace Rune.Ingress

open Rune.Core Rune.Refs Rune.Services

/-- The key pair or the CA of a host, under the names it has in the data. -/
structure Secret where
  data : Entries
  version : ℕ

/-- A key that is missing reads as empty. -/
def Secret.get (s : Secret) (key : String) : String := (s.data.lookup key).getD ""

/-- What the controller is given, and what it takes from the libraries. -/
structure Config (Pool : Type*) where
  lower : Char → Char
  rules : TextRules
  /-- The pool of the certificates in a PEM text that has one. -/
  newPool : String → Option Pool
  /-- The name under which the certificate of a host is stored. -/
  certNameFor : String → String
  /-- There is an ACME orchestrator. -/
  acme : Bool := true

/-- The store, and what the controller has made of it. -/
structure State (Pool : Type*) where
  services : List Service
  /-- The stored secrets, by namespace and name. -/
  secrets : String → String → Option Secret
  /-- The stored certificates with their keys. -/
  certs : String → Option (String × String)
  /-- The hosts submitted to the ACME orchestrator. -/
  submitted : List String := []
  router : Router := fun _ => []
  clientCAs : ClientCARegistry Pool := fun _ => none
  manualPushed : String → Option ℕ := fun _ => none
  clientCAPushed : String → Option ℕ := fun _ => none
  clientCAHosts : List String := []

/-- Which of the calls of a pass succeed. -/
structure Calls where
  listAll : Bool := true
  get : String → String → Bool := fun _ _ => true
  set : String → Bool := fun _ => true

/-- The target of the first port. -/
def primaryServicePort (s : Service) : ℤ :=
  match s.spec.ports with
  | [] => 0
  | p :: _ => if p.targetPort ≠ 0 then p.targetPort else p.port

/-- Entries that cannot be read are skipped. -/
def parseAllowCIDRs (cidrs : List String) : List IPNet := cidrs.filterMap parseCIDR

/-- The certificate is to be obtained. -/
def isACME (tls : Option ExposeServiceTLS) : Bool :=
  tls.any fun t => t.mode = "acme" ∨ t.mode = "auto" ∨ t.auto = true ∧ t.mode = ""

/-- The block of an exposed service that the controller takes up. -/
def exposed (s : Service) : Option ServiceExpose :=
  s.spec.expose.filter fun e => e.host ≠ "" ∧ primaryServicePort s ≠ 0

/-- The service names a CA for its clients. -/
def requiresClientCert (e : ServiceExpose) : Bool := e.clientCert.any fun c => c.caSecret ≠ ""

/-- The route of an exposed service. -/
def routeOf (s : Service) : Option Route :=
  (exposed s).map fun e =>
    { host := e.host, ns := s.ns, service := s.name, port := primaryServicePort s, path := e.path
      allowCIDRs := parseAllowCIDRs e.allowCIDRs, requireClientCert := requiresClientCert e }

/-- The hosts for which client certificates are required. -/
def clientCAHostsOf (services : List Service) : List String :=
  services.filterMap fun s => ((exposed s).filter (requiresClientCert ·)).map (·.host)

/-- The reference of the secret that holds the key pair of a service, where it is the controller
that has to load it. -/
def manualSecret {Pool : Type*} (cfg : Config Pool) (e : ServiceExpose) : Option String :=
  if cfg.acme = true ∧ isACME e.tls = true then none
  else (e.tls.filter fun t => t.mode = "manual" ∧ t.secret ≠ "").map (·.secret)

/-- The reference of the secret that holds the client CAs of a service. -/
def caSecret (e : ServiceExpose) : Option String :=
  (e.clientCert.filter fun c => c.caSecret ≠ "").map (·.caSecret)

/-- The secret that a reference in a service of the namespace names, with where it is stored. -/
def Config.named {Pool : Type*} (cfg : Config Pool) (secrets : String → String → Option Secret)
    (ns text : String) : Option (ResourceRef × Secret) :=
  match parseResourceRefWithDefaults cfg.rules text .secret ns with
  | .error _ => none
  | .ok ref =>
    if ref.type ≠ .secret then none else (secrets ref.ns ref.name).map fun secret => (ref, secret)

namespace State

variable {Pool : Type*} (cfg : Config Pool)

/-- The secret as the pass reads it. -/
def read (s : State Pool) (calls : Calls) (ns text : String) : Option Secret :=
  ((cfg.named s.secrets ns text).filter fun p => calls.get p.1.ns p.1.name).map (·.2)

/-- Store the key pair of the host, unless its version has been stored before. -/
def pushCert (s : State Pool) (calls : Calls) (host : String) (secret : Secret) : State Pool :=
  if s.manualPushed host = some secret.version then s
  else if calls.set host then
    { s with
      certs := Function.update s.certs (cfg.certNameFor host)
        (some (secret.get "tls.crt", secret.get "tls.key"))
      manualPushed := Function.update s.manualPushed host (some secret.version) }
  else { s with manualPushed := Function.update s.manualPushed host none }

/-- Take the certificate over from its secret. -/
def applyManualTLS (s : State Pool) (calls : Calls) (ns : String) (e : ServiceExpose) :
    State Pool :=
  match (manualSecret cfg e).bind (s.read cfg calls ns) with
  | none => s
  | some secret =>
    if secret.get "tls.crt" = "" ∨ secret.get "tls.key" = "" then s
    else s.pushCert cfg calls e.host secret

/-- Register the client CAs of the host, unless their version has been registered before. -/
def pushClientCA (s : State Pool) (host : String) (secret : Secret) : State Pool :=
  if s.clientCAPushed host = some secret.version then s
  else match cfg.newPool (secret.get "ca.crt") with
  | none => s
  | some pool =>
    { s with
      clientCAs := s.clientCAs.set cfg.lower host pool
      clientCAPushed := Function.update s.clientCAPushed host (some secret.version) }

/-- Take the CA over from its secret. -/
def applyClientCert (s : State Pool) (calls : Calls) (ns : String) (e : ServiceExpose) :
    State Pool :=
  match (caSecret e).bind (s.read cfg calls ns) with
  | none => s
  | some secret =>
    if secret.get "ca.crt" = "" then s else s.pushClientCA cfg e.host secret

/-- Ask for a certificate. -/
def submit (s : State Pool) (e : ServiceExpose) : State Pool :=
  if cfg.acme = true ∧ isACME e.tls = true then { s with submitted := e.host :: s.submitted } else s

/-- What a pass does for a service. -/
def applyService (calls : Calls) (s : State Pool) (svc : Service) : State Pool :=
  match exposed svc with
  | none => s
  | some e =>
    ((s.submit cfg e).applyManualTLS cfg calls svc.ns e).applyClientCert cfg calls svc.ns e

/-- Forget the client CAs of the hosts that no longer ask for client certificates. -/
def pruneClientCAs (s : State Pool) (current : List String) : State Pool :=
  let dropped := s.clientCAHosts.filter (· ∉ current)
  { s with
    clientCAs := dropped.foldl (fun r h => r.forget cfg.lower h) s.clientCAs
    clientCAPushed := fun h => if h ∈ dropped then none else s.clientCAPushed h
    clientCAHosts := current }

/-- A pass over all services. -/
def reconcile (s : State Pool) (calls : Calls) : State Pool :=
  if calls.listAll then
    let t := s.services.foldl (applyService cfg calls) s
    { t.pruneClientCAs cfg (clientCAHostsOf s.services) with
      router := Router.apply cfg.lower (s.services.filterMap routeOf) }
  else s

end State

end Rune.Ingress
