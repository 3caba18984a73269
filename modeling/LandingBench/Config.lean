import LandingBench.Data.Quantity
import Mathlib.Tactic.Common

/-!
# The configuration and its validator
-/

namespace LandingBench

open Data

inductive ArgsCommitment where
  | processed
  | confirmed
  | finalized
  deriving DecidableEq, Repr

inductive EndpointKind where
  | rpc
  | custom
  | soyas
  deriving DecidableEq, Repr

inductive GrpcKind where
  | yellowstone
  deriving DecidableEq, Repr

/-- The name that `{:?}` prints. -/
def EndpointKind.debug : EndpointKind → String
  | rpc => "Rpc"
  | custom => "Custom"
  | soyas => "Soyas"

structure Config where
  utilityRpc : String
  /-- The number of rounds. -/
  transactions : ℕ
  delayMs : ℕ
  commitment : ArgsCommitment
  nonceAccount : String
  landingGraceMs : ℕ
  prioFee : F64
  computeUnitLimit : UInt32
  deriving DecidableEq

structure GrpcEndpoint where
  name : String
  url : String
  xToken : Option String
  kind : GrpcKind
  deriving DecidableEq, Repr

structure Endpoint where
  name : String
  url : String
  kind : EndpointKind
  tipLamports : Option UInt64
  tipWallet : Option String
  apiKey : Option String
  deriving DecidableEq, Repr

structure ConfigToml where
  config : Config
  grpc : GrpcEndpoint
  endpoint : List Endpoint
  deriving DecidableEq

/-- One turn of the loop over the endpoints. -/
def validateEndpoint (endpoint : Endpoint) : Except String Unit :=
  match endpoint.kind with
  | .rpc => .ok ()
  | .custom =>
      if endpoint.tipLamports.getD 0 = 0 then
        .error s!"Custom endpoint {endpoint.name} must set tip_lamports > 0"
      else if endpoint.tipWallet.isNone then
        .error s!"Custom endpoint {endpoint.name} must set tip_wallet"
      else .ok ()
  | .soyas =>
      if endpoint.apiKey.isNone then
        .error s!"Soyas endpoint {endpoint.name} must set api_key"
      else if endpoint.tipLamports.getD 0 = 0 then
        .error s!"Soyas endpoint {endpoint.name} must set tip_lamports > 0"
      else if endpoint.tipWallet.isNone then
        .error s!"Soyas endpoint {endpoint.name} must set tip_wallet"
      else .ok ()

def validateEndpoints : List Endpoint → Except String Unit
  | [] => .ok ()
  | endpoint :: rest =>
      match validateEndpoint endpoint with
      | .error err => .error err
      | .ok () => validateEndpoints rest

def validateConfig (config : ConfigToml) : Except String Unit :=
  if config.endpoint.isEmpty then .error "At least one RPC endpoint is required"
  else if config.grpc.kind ≠ .yellowstone then
    .error "Only a single Yellowstone gRPC listener is supported for now"
  else validateEndpoints config.endpoint

theorem validateEndpoints_ok_iff (endpoints : List Endpoint) :
    validateEndpoints endpoints = .ok () ↔
      ∀ endpoint ∈ endpoints, validateEndpoint endpoint = .ok () := by
  induction endpoints with
  | nil => simp [validateEndpoints]
  | cons endpoint rest ih =>
      cases h : validateEndpoint endpoint with
      | error err => simp [validateEndpoints, h]
      | ok u => simp [validateEndpoints, h, ih]

theorem validateConfig_ok_iff (config : ConfigToml) :
    validateConfig config = .ok () ↔
      config.endpoint ≠ [] ∧
        ∀ endpoint ∈ config.endpoint, validateEndpoint endpoint = .ok () := by
  have hkind : config.grpc.kind = .yellowstone := by cases config.grpc.kind; rfl
  rw [← validateEndpoints_ok_iff]
  by_cases hempty : config.endpoint = []
  · simp [validateConfig, hempty]
  · simp [validateConfig, hempty, hkind]

end LandingBench
