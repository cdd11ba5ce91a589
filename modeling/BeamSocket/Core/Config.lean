import BeamSocket.Core.Mailbox
import BeamSocket.Mesh.Handshake

/-!
# Server configuration

Model of `crates/core/src/config.rs` and of `ClientIpResolver::from_trust_proxy`
(`crates/core/src/limits.rs`, lines 61–77), with the link configuration a
cluster block leads to (`Cluster::start`, `crates/core/src/cluster.rs`, lines
107–110, and `link_cfg`, `crates/mesh/src/node.rs`, lines 145–152). Durations
are in nanoseconds; parsing a CIDR is a parameter. The addresses of the cluster
block and the sampler interval are read by nothing modelled here.

* `Config.validate_eq_ok_iff`: what an accepted configuration satisfies.
* `Config.validate_default`: the defaults are accepted.
* `Config.validate_cluster`: nothing but the secret is checked of a cluster
  block; in particular the cluster name and the sizes that the mesh bounds on
  its own are not.
-/

namespace BeamSocket.Core

open BeamSocket.Lib BeamSocket.Mesh

/-- `Duration::from_millis`. -/
def fromMillis (n : ℕ) : ℕ := n * 1000000

/-- `struct Limits` (lines 9–13), with its `Default`; the connections for one
    address are bounded by a parameter of the admission model. -/
structure Limits where
  maxPayloadBytes : ℕ := 1 <<< 20
  maxRoomsPerConnection : UInt32 := 100
  deriving DecidableEq

/-- `struct Backpressure` (lines 33–37), with its `Default`. -/
structure Backpressure where
  highWaterMark : ℕ := 64 * 1024
  policy : BackpressurePolicy := .disconnect
  deriving DecidableEq

/-- `struct Keepalive` (lines 54–58), with its `Default`. -/
structure Keepalive where
  pingInterval : ℕ := fromMillis 30000
  pongTimeout : ℕ := fromMillis 10000
  deriving DecidableEq

/-- `enum TrustProxy` (lines 70–76). -/
inductive TrustProxy
  | never
  | always
  | cidrs (cidrs : List String)
  deriving DecidableEq

/-- `struct Authorize` (lines 82–91), with its `Default`. -/
structure Authorize where
  timeout : ℕ := fromMillis 10000
  maxPending : ℕ := 8192
  deriving DecidableEq

/-- `struct ClusterConfig` (lines 121–134). -/
structure ClusterConfig where
  nodeId : UInt16
  secret : Bytes
  clusterName : String
  deriving DecidableEq

/-- `struct Config` (lines 136–146), with its `Default`. -/
structure Config where
  limits : Limits := {}
  backpressure : Backpressure := {}
  keepalive : Keepalive := {}
  trustProxy : TrustProxy := .never
  authorize : Authorize := {}
  cluster : Option ClusterConfig := none
  deriving DecidableEq

/-- `struct ConfigError(pub String)`. -/
structure ConfigError where
  message : String
  deriving DecidableEq

/-- `enum ClientIpResolver` (`limits.rs`, lines 42–55) over the networks `ν`. -/
inductive ClientIpResolver (ν : Type)
  | peerOnly
  | rightmostForwarded
  | trustedProxies (nets : List ν)

section

variable {ν : Type} (parseCidr : String → Except String ν)

/-- The loop over the list; `parse_cidr` is `c.trim().parse()` with the text of
    its error. -/
def parseCidrs : List String → Except ConfigError (List ν)
  | [] => .ok []
  | c :: cidrs =>
    match parseCidr c with
    | .error e => .error ⟨"invalid trustProxy CIDR " ++ c.quote ++ ": " ++ e⟩
    | .ok net => (parseCidrs cidrs).map (net :: ·)

/-- `ClientIpResolver::from_trust_proxy` (`limits.rs`, lines 61–77). -/
def ClientIpResolver.fromTrustProxy : TrustProxy → Except ConfigError (ClientIpResolver ν)
  | .never => .ok .peerOnly
  | .always => .ok .rightmostForwarded
  | .cidrs cidrs => (parseCidrs parseCidr cidrs).map .trustedProxies

/-- The check of the cluster block in `validate` (lines 189–198). -/
def validateCluster : Option ClusterConfig → Except ConfigError Unit
  | none => .ok ()
  | some c =>
    if c.secret.isEmpty then
      .error ⟨"cluster.secret must not be empty — a mesh with no shared secret cannot " ++
        "authenticate its peers (RFC 0004 §4.7)"⟩
    else .ok ()

/-- `Config::validate` (lines 161–200). -/
def Config.validate (c : Config) : Except ConfigError Unit :=
  if c.limits.maxPayloadBytes = 0 then .error ⟨"limits.maxPayloadBytes must be > 0"⟩
  else if c.backpressure.highWaterMark = 0 then
    .error ⟨"backpressure.highWaterMark must be > 0"⟩
  else if c.keepalive.pingInterval < fromMillis 1 then
    .error ⟨"keepalive.pingIntervalMs must be >= 1"⟩
  else if c.keepalive.pongTimeout < fromMillis 1 then
    .error ⟨"keepalive.pongTimeoutMs must be >= 1"⟩
  else if c.authorize.timeout < fromMillis 1 then
    .error ⟨"authorize.timeoutMs must be >= 1"⟩
  else if c.authorize.maxPending = 0 then
    .error ⟨"authorize.maxPending must be > 0 (the pending-upgrade table is bounded)"⟩
  else
    match ClientIpResolver.fromTrustProxy parseCidr c.trustProxy with
    | .error e => .error e
    | .ok _ => validateCluster c.cluster

variable {parseCidr}

/-- What an accepted configuration satisfies. -/
theorem Config.validate_eq_ok_iff {c : Config} :
    c.validate parseCidr = .ok () ↔ 0 < c.limits.maxPayloadBytes ∧
      0 < c.backpressure.highWaterMark ∧ fromMillis 1 ≤ c.keepalive.pingInterval ∧
      fromMillis 1 ≤ c.keepalive.pongTimeout ∧ fromMillis 1 ≤ c.authorize.timeout ∧
      0 < c.authorize.maxPending ∧
      (∃ resolver, ClientIpResolver.fromTrustProxy parseCidr c.trustProxy = .ok resolver) ∧
      ∀ cluster, c.cluster = some cluster → cluster.secret ≠ [] := by
  have hcluster : validateCluster c.cluster = .ok () ↔
      ∀ cluster, c.cluster = some cluster → cluster.secret ≠ [] := by
    unfold validateCluster
    cases c.cluster with
    | none => simp
    | some cluster => cases hs : cluster.secret <;> simp [hs]
  unfold Config.validate
  split_ifs with h1 h2 h3 h4 h5 h6
  · simp [h1]
  · simp [h2]
  · simp; omega
  · simp; omega
  · simp; omega
  · simp [h6]
  · cases ClientIpResolver.fromTrustProxy parseCidr c.trustProxy with
    | error e => simp
    | ok resolver =>
      show validateCluster c.cluster = .ok () ↔ _
      rw [hcluster]
      constructor
      · intro hsecret
        exact ⟨by omega, by omega, by omega, by omega, by omega, by omega, ⟨resolver, rfl⟩, hsecret⟩
      · rintro ⟨-, -, -, -, -, -, -, hsecret⟩
        exact hsecret

/-- The defaults pass their own check. -/
theorem Config.validate_default : ({} : Config).validate parseCidr = .ok () := rfl

/-- Of a cluster block only the secret is checked. -/
theorem Config.validate_cluster {c : Config} (hc : c.validate parseCidr = .ok ())
    {cluster : ClusterConfig} (hsecret : cluster.secret ≠ []) :
    ({ c with cluster := some cluster } : Config).validate parseCidr = .ok () := by
  rw [Config.validate_eq_ok_iff] at hc ⊢
  obtain ⟨h1, h2, h3, h4, h5, h6, h7, -⟩ := hc
  refine ⟨h1, h2, h3, h4, h5, h6, h7, ?_⟩
  intro cluster' h
  cases h
  exact hsecret

end

/-- The configuration of the links of a node that is started with a cluster
    block: `link_cfg` on the `MeshConfig` that `Cluster::start` builds. -/
def ClusterConfig.linkCfg (c : ClusterConfig) : LinkConfig :=
  { LinkConfig.new c.nodeId c.clusterName c.secret with
    features := featureInterestRouting ||| featureRelay }

end BeamSocket.Core
