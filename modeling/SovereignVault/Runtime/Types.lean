/-
`sv-runtime`: the errors and the lattices the runtime joins on.

Exposure and consent are chains, ordered toward the more restrictive
class and the stronger requirement; `join` is the maximum. A rule asks
for an exposure in words of its own (`RuleExposure`), which `class_`
projects onto the chain.
-/
import SovereignVault.Crypto
import Mathlib.Order.MinMax
import Mathlib.Order.Nat

namespace SovereignVault.Runtime

inductive RuntimeError where
  | authRequired | authInvalid | principalRevoked | scopeDenied
  | policyDenied | policyUnavailable | unsupportedContent
  | invalidStructure | limitExceeded | referenceInvalid | referenceExpired
  | referenceAudienceDenied | consentRequired | consentDenied
  | consentExpired | consentBindingMismatch | auditUnavailable
  | routeDenied | profileDenied | destinationDenied | upstreamTimeout
  | upstreamProtocolError | executedAuditIncomplete
  deriving DecidableEq

inductive PrincipalKind where
  | client | adapter | mcpServer | processProfile

inductive TransportKind where
  | stdio | http | webSocket | inProcess

inductive OperationKind where
  | read | write | transform | execute | resolve
  deriving DecidableEq

structure PolicyVersion where
  value : Nat

-- ==== exposure

/-- `ExposureClass`, from what may leave to what may not. -/
inductive ExposureClass where
  | raw | transformed | referenceOnly | executeOnly | nonExportable
  deriving DecidableEq

namespace ExposureClass

def rank : ExposureClass → Nat
  | raw => 0
  | transformed => 1
  | referenceOnly => 2
  | executeOnly => 3
  | nonExportable => 4

theorem rank_injective : Function.Injective rank := by
  intro a b h
  cases a <;> cases b <;> first | rfl | cases h

instance : LinearOrder ExposureClass :=
  LinearOrder.lift' rank rank_injective

def join (self other : ExposureClass) : ExposureClass := max self other

theorem join_le {a b c : ExposureClass} : a.join b ≤ c ↔ a ≤ c ∧ b ≤ c := max_le_iff

end ExposureClass

inductive RuleExposure where
  | raw | redact | pseudonymize | omit | referenceOnly | executeOnly
  deriving DecidableEq

def RuleExposure.class_ : RuleExposure → ExposureClass
  | .raw => .raw
  | .redact | .pseudonymize | .omit => .transformed
  | .referenceOnly => .referenceOnly
  | .executeOnly => .executeOnly

-- ==== consent

/-- `ConsentMode`, from the weaker to the stronger requirement. -/
inductive ConsentMode where
  | none | approval | otp | denyIfUnavailable
  deriving DecidableEq

namespace ConsentMode

def rank : ConsentMode → Nat
  | none => 0
  | approval => 1
  | otp => 2
  | denyIfUnavailable => 3

theorem rank_injective : Function.Injective rank := by
  intro a b h
  cases a <;> cases b <;> first | rfl | cases h

instance : LinearOrder ConsentMode :=
  LinearOrder.lift' rank rank_injective

def join (self other : ConsentMode) : ConsentMode := max self other

theorem join_le {a b c : ConsentMode} : a.join b ≤ c ↔ a ≤ c ∧ b ≤ c := max_le_iff

theorem none_le (c : ConsentMode) : none ≤ c := Nat.zero_le _

end ConsentMode

structure EffectiveLimits where
  requestBytes : Nat
  fragmentBytes : Nat
  responseBytes : Nat
  concurrentRequestsPerPrincipal : Nat
  requestTimeoutMs : Nat
  consentTimeoutMs : Nat
  streamBoundaryBytes : Nat
  deriving DecidableEq

end SovereignVault.Runtime
