import Mathlib.Data.Char
import Mathlib.Data.List.Lex
import Mathlib.Data.List.SplitOn
import Mathlib.Data.List.Sort
import MsgServer.Core.Models

/-!
Network policies of security/network.py. What the standard library makes of a host and of a
URL is a parameter: `lower`, `ip_address`, the IDNA codec and `urlsplit`. Frozen sets are
lists read only through membership.
-/

namespace MsgServer.Network

open Library Library.Members

abbrev Text := List Char

/-- What `urlsplit` gives; reading `port` raises `ValueError` where it is `none`. -/
structure Parsed where
  scheme : Text
  hostname : Option Text
  username : Option Text
  password : Option Text
  fragment : Text
  port : Option (Option Int)
  deriving DecidableEq

structure Python where
  lower : Text → Text
  /-- `str(ip_address(host))` -/
  ipAddress : Text → Option Text
  idna : Text → Option Text
  urlsplit : Text → Option Parsed

variable (python : Python)

/-- `host.rstrip('.')`. -/
def stripDots (host : Text) : Text := (host.reverse.dropWhile fun char => char = '.').reverse

def isLabelEnd (char : Char) : Bool := ('a' ≤ char && char ≤ 'z') || ('0' ≤ char && char ≤ '9')

/-- `[a-z0-9](?:[a-z0-9-]{0,61}[a-z0-9])?` -/
def isLabel (part : Text) : Bool :=
  part.length ≤ 63 && part.all (fun char => isLabelEnd char || char = '-') &&
    match part.head?, part.getLast? with
    | some first, some last => isLabelEnd first && isLabelEnd last
    | _, _ => false

def PlainChar (char : Char) : Prop := 32 < char.toNat ∧ char.toNat ≠ 127

instance (char : Char) : Decidable (PlainChar char) := inferInstanceAs (Decidable (_ ∧ _))

def normalizedHost (host : Text) : Except Failure Text := do
  require (host ≠ [] ∧ host.length ≤ 253 ∧ '%' ∉ host ∧ ∀ char ∈ host, PlainChar char)
    "invalid_host"
  let host := python.lower (stripDots host)
  match python.ipAddress host with
  | some address => return address
  | none =>
      let value ← requireRow (python.idna host) "invalid_host"
      require ((value.splitOn '.').all isLabel) "invalid_host"
      return value

structure NetworkPolicy where
  schemes : List Text
  hosts : List Text
  ports : List Int
  methods : List Text
  allowPrivate : Bool
  timeoutMs : Int
  maxResponseBytes : Int
  maxRedirects : Int
  deriving DecidableEq

def http : Text := "http".toList

def https : Text := "https".toList

def normalizedHosts : List Text → Except Failure (List Text)
  | [] => .ok []
  | host :: rest => do
      let value ← normalizedHost python host
      let values ← normalizedHosts rest
      return value :: values

/-- `not policy.hosts or host in {normalized_host(h) for h in policy.hosts}`. -/
def checkHost (policy : NetworkPolicy) (host : Text) : Except Failure Unit :=
  if policy.hosts = [] then .ok ()
  else do
    let known ← normalizedHosts python policy.hosts
    require (host ∈ known) "network_host_forbidden"

def validateUrl (url method : Text) (policy : NetworkPolicy) : Except Failure Parsed := do
  require (0 < url.length ∧ url.length ≤ 8192 ∧ '\\' ∉ url ∧ ∀ char ∈ url, PlainChar char)
    "invalid_network_url"
  let parsed ← requireRow (python.urlsplit url) "invalid_network_url"
  require (parsed.scheme ∈ policy.schemes ∧ parsed.scheme ∈ [http, https])
    "network_scheme_forbidden"
  require (parsed.username = none ∧ parsed.password = none ∧ parsed.fragment = [])
    "invalid_network_url"
  let hostname ← requireRow parsed.hostname "invalid_network_url"
  let host ← normalizedHost python hostname
  let read ← requireRow parsed.port "invalid_network_url"
  let port := read.getD (if parsed.scheme = https then 443 else 80)
  require (port ∈ policy.ports) "network_port_forbidden"
  require (method ∈ policy.methods) "network_method_forbidden"
  checkHost python policy host
  return parsed

/-! Constraints -/

/-- A limit of a constraint, which may be no integer at all. -/
inductive Limit where
  | int (value : Int)
  | other
  deriving DecidableEq

structure Constraints where
  hosts : Option (List Text)
  schemes : Option (List Text)
  ports : Option (List Int)
  methods : Option (List Text)
  timeoutMs : Option Limit
  maxResponseBytes : Option Limit
  maxRedirects : Option Limit
  /-- The keys beside these. -/
  others : List Text
  deriving DecidableEq

/-- One field of a policy against a constraint. -/
def narrow {β : Type} [DecidableEq β] (current : List β) :
    Option (List β) → Except Failure (List β)
  | none => .ok current
  | some supplied => do
      let narrowed := current.filter fun value => value ∈ supplied
      require (narrowed ≠ []) "network_policy_empty"
      return narrowed

/-- `tuple(sorted(narrowed))` of a set. -/
def sortedSet (hosts : List Text) : List Text := hosts.dedup.insertionSort (· ≤ ·)

/-- The hosts, which a policy without any leaves to the constraint. -/
def narrowHosts (current : List Text) : Option (List Text) → Except Failure (List Text)
  | none => .ok current
  | some supplied => do
      let supplied ← normalizedHosts python supplied
      let narrowed := if current = [] then supplied else current.filter fun host => host ∈ supplied
      require (narrowed ≠ []) "network_policy_empty"
      return sortedSet narrowed

def narrowLimit (minimum current : Int) : Option Limit → Except Failure Int
  | none => .ok current
  | some (.int value) => do
      require (minimum ≤ value) "invalid_network_limit"
      return min value current
  | some .other => .error { code := "invalid_network_limit" }

def intersectPolicy (policy : NetworkPolicy) (constraints : Constraints) :
    Except Failure NetworkPolicy := do
  require (constraints.others = []) "unknown_network_constraint"
  let hosts ← narrowHosts python policy.hosts constraints.hosts
  let schemes ← narrow policy.schemes constraints.schemes
  let ports ← narrow policy.ports constraints.ports
  let methods ← narrow policy.methods constraints.methods
  let timeoutMs ← narrowLimit 1 policy.timeoutMs constraints.timeoutMs
  let maxResponseBytes ← narrowLimit 1 policy.maxResponseBytes constraints.maxResponseBytes
  let maxRedirects ← narrowLimit 0 policy.maxRedirects constraints.maxRedirects
  return { policy with
    hosts := hosts, schemes := schemes, ports := ports, methods := methods,
    timeoutMs := timeoutMs, maxResponseBytes := maxResponseBytes, maxRedirects := maxRedirects }

/-- Constraints of several grants, one after the other. -/
def intersectAll (policy : NetworkPolicy) : List Constraints → Except Failure NetworkPolicy
  | [] => .ok policy
  | first :: rest => do
      let narrowed ← intersectPolicy python policy first
      intersectAll narrowed rest

end MsgServer.Network
