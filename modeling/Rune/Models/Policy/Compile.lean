import Mathlib.Data.List.AList
import Rune.Models.Services.Record

/-!
# Compiled network policies

The policy of a service is compiled from its spec alone. A peer or a port that cannot
be read is dropped and its rule stays, so a spec with a mistake in it denies more and
never less. A service without rules compiles to nothing, which is not the same as a
policy that allows nothing.
-/

namespace Rune.Policy

open Rune.Services

/-- The white space of the language. -/
def isSpace (c : Char) : Bool :=
  (0x9 ≤ c.toNat && c.toNat ≤ 0xd) || (0x2000 ≤ c.toNat && c.toNat ≤ 0x200a) ||
    c.toNat ∈ [0x20, 0x85, 0xa0, 0x1680, 0x2028, 0x2029, 0x202f, 0x205f, 0x3000]

/-- Without blanks at the ends. -/
def trimSpace (s : List Char) : List Char :=
  ((s.dropWhile isSpace).reverse.dropWhile isSpace).reverse

/-- A decimal number without a sign. -/
def digits (s : List Char) : Option ℕ :=
  if s ≠ [] ∧ s.all Char.isDigit then some (Nat.ofDigitChars 10 s 0) else none

/-- A decimal number that fits in 64 bits, with an optional sign. -/
def atoi (s : List Char) : Option ℤ :=
  let value : Option ℤ := match s with
    | '-' :: rest => (digits rest).map fun n => -(n : ℤ)
    | '+' :: rest => (digits rest).map fun n => (n : ℤ)
    | s => (digits s).map fun n => (n : ℤ)
  value.filter fun n => -maxInt64 - 1 ≤ n ∧ n ≤ maxInt64

/-- `proto` is empty for any protocol; `port` is 0 where the rule names a port. -/
structure PortRule where
  proto : String
  port : ℤ := 0
  name : String := ""
  deriving DecidableEq

/-- All ports, or some. -/
structure PortSet where
  all : Bool := false
  ports : List PortRule := []
  deriving DecidableEq

/-- The port of a rule without its protocol. -/
def parseNumber (proto : String) (s : List Char) : Option PortRule :=
  match atoi s with
  | none => some { proto, name := String.ofList s }
  | some p => if p ≤ 0 ∨ 65535 < p then none else some { proto, port := p }

/-- A port with its protocol. -/
def parsePort (raw : String) : Option PortRule :=
  let s := trimSpace raw.toList
  if s = [] then none
  else match s.span (· ≠ '/') with
    | (port@(_ :: _), _ :: rest) =>
      let proto := String.ofList ((trimSpace rest).map Char.toLower)
      if proto ≠ "tcp" ∧ proto ≠ "udp" then none else parseNumber proto port
    | _ => parseNumber "" s

/-- No ports mean all of them. -/
def compilePortSet (raw : List String) : PortSet :=
  if raw = [] then { all := true } else { ports := raw.filterMap parsePort }

example : parsePort " 80/TCP" = some { proto := "tcp", port := 80 } := by decide

example : compilePortSet ["http", "70000", "53/sctp"] =
    { ports := [{ proto := "", name := "http" }] } := by decide

/-- The names that a spec gives to each of its ports. -/
def portNames (ports : List ServicePort) : AList fun _ : ℤ => List String :=
  ports.foldl
    (fun m p =>
      if p.name = "" ∨ p.port ≤ 0 then m
      else m.insert p.port ((m.lookup p.port).getD [] ++ [p.name]))
    ∅

/-- A peer as the evaluator reads it. `Net` stands for the address ranges. -/
inductive PeerMatcher (Net : Type) where
  | cidr (net : Net)
  | selector (labels : Entries)
  | service (service ns : String)
  | inNamespace (ns : String)
  deriving DecidableEq

/-- Peers and ports. -/
structure Rule (Net : Type) where
  peers : List (PeerMatcher Net)
  ports : PortSet
  deriving DecidableEq

/-- A compiled policy. -/
structure Compiled (Net : Type) where
  serviceID : String
  ns : String
  serviceName : String
  policyName : String
  portNames : AList fun _ : ℤ => List String
  hasIngress : Bool
  hasEgress : Bool
  ingress : List (Rule Net)
  egress : List (Rule Net)
  deriving DecidableEq

section Compile

variable {Net : Type} (parseCIDR : String → Option Net)

/-- The first field that is set decides what a peer means. -/
def compilePeer (p : NetworkPolicyPeer) : Option (PeerMatcher Net) :=
  if p.cidr ≠ "" then (parseCIDR p.cidr).map .cidr
  else if p.serviceSelector ≠ [] then some (.selector p.serviceSelector)
  else if p.service ≠ "" then some (.service p.service p.ns)
  else if p.ns ≠ "" then some (.inNamespace p.ns)
  else none

/-- The peers that can be told. -/
def compilePeers (peers : List NetworkPolicyPeer) : List (PeerMatcher Net) :=
  peers.filterMap (compilePeer parseCIDR)

/-- Compile a rule. -/
def compileRule (r : NetworkRule) : Rule Net :=
  { peers := compilePeers parseCIDR r.peers, ports := compilePortSet r.ports }

/-- The name by which rules speak of a service. -/
def nameOf (svc : Service) : String := if svc.name = "" then svc.id else svc.name

/-- The policy of a service, if it has rules. -/
def compile (svc : Service) : Option (Compiled Net) :=
  match svc.spec.networkPolicy with
  | none => none
  | some pol =>
    if pol.ingress = [] ∧ pol.egress = [] then none
    else some
      { serviceID := svc.id
        ns := svc.ns
        serviceName := nameOf svc
        policyName := svc.id
        portNames := portNames svc.spec.ports
        hasIngress := pol.ingress ≠ []
        hasEgress := pol.egress ≠ []
        ingress := pol.ingress.map (compileRule parseCIDR)
        egress := pol.egress.map (compileRule parseCIDR) }

/-- The rules for the connections that a service opens. -/
def egressRules (svc : Service) : List NetworkRule :=
  (svc.spec.networkPolicy.map ServiceNetworkPolicy.egress).getD []

variable {parseCIDR}

/-- The address of a service does not enter its policy. -/
theorem compile_discovery (svc : Service) (d : Option ServiceDiscovery) :
    compile parseCIDR { svc with discovery := d } = compile parseCIDR svc := rfl

/-- A service with rules for its own connections compiles to a policy that denies what
they do not allow. -/
theorem compile_of_egressRules {svc : Service} (h : egressRules svc ≠ []) :
    ∃ c, compile parseCIDR svc = some c ∧ c.hasEgress := by
  unfold egressRules at h
  unfold compile
  cases hpol : svc.spec.networkPolicy with
  | none => simp [hpol] at h
  | some pol =>
    have hegress : pol.egress ≠ [] := by simpa [hpol] using h
    simp [hegress]

end Compile

end Rune.Policy
