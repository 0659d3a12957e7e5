/-
`policy::document`: the version 1 policy document.

Every field of a selector is optional, and an absent one matches anything.
The parser rejects unknown keys and spellings, so a document is a value of
these types.
-/
import SovereignVault.Runtime.Types

namespace SovereignVault.Runtime

structure LimitsDocument where
  requestBytes : Nat
  fragmentBytes : Nat
  responseBytes : Nat
  concurrentRequestsPerPrincipal : Nat
  requestTimeoutMs : Nat
  consentTimeoutMs : Nat
  streamBoundaryBytes : Nat
  deriving DecidableEq

structure TimeWindowDocument where
  start : String
  end_ : String
  days : List String := []
  deriving DecidableEq

structure RuleMatch where
  (principalIds principalKinds adapterIds transports operations originKinds
    destinationKinds destinationIds hostGlobs pathPrefixes methods providerIds
    modelGlobs mcpServerIds mcpToolGlobs processProfileIds containerGlobs
    resourceKinds exposureClasses mediaTypes fragmentRoles labelsAll labelsAny
    labelsNone classificationStates : Option (List String) := none)
  minAuthStrength : Option String := none
  sessionMaxAgeSeconds : Option Nat := none
  timeWindow : Option TimeWindowDocument := none
  deriving DecidableEq

inductive AccessEffect where
  | allow | deny
  deriving DecidableEq

inductive AuditRequirement where
  | required
  deriving DecidableEq

structure RuleEffect where
  access : AccessEffect
  exposure : Option RuleExposure := none
  consent : Option ConsentMode := none
  audit : AuditRequirement := .required
  route : Option String := none
  maxUses : Option Nat := none
  ttlSeconds : Option Nat := none
  deriving DecidableEq

structure RuleDocument where
  id : String
  priority : Int
  match_ : RuleMatch
  effect : RuleEffect
  deriving DecidableEq

structure ReferenceClassDocument where
  id : String
  exposure : ExposureClass
  allowedOperations : List String
  defaultTtlSeconds : Nat
  maxTtlSeconds : Option Nat
  maxUses : Option Nat
  durable : Bool
  deriving DecidableEq

structure ProviderRouteDocument where
  id : String
  protocol : String
  baseUrl : String
  credentialRef : String
  allowedModels : List String
  allowedMethods : List String
  allowedPathPrefixes : List String
  followRedirects : Bool
  requestTimeoutMs : Nat
  maxResponseBytes : Nat
  deriving DecidableEq

structure McpServerDocument where
  id : String
  transport : String
  command : Option String
  args : Option (List String)
  allowedTools : List String
  deniedTools : List String
  environmentAllowlist : List String
  resultPolicy : String
  requireSchemaApproval : Bool
  deriving DecidableEq

structure ProcessSecretDocument where
  parameter : String
  vaultRef : String
  injection : String
  field : Option String
  deriving DecidableEq

structure ProcessProfileDocument where
  id : String
  executable : String
  executableSha256 : Option String
  workingDirectoryRoots : List String
  argumentSchema : Option String
  fixedArgs : List String
  networkHosts : List String
  allowChildren : Bool
  timeoutMs : Nat
  maxStdoutBytes : Nat
  maxStderrBytes : Nat
  secret : List ProcessSecretDocument
  deriving DecidableEq

structure PolicyDocument where
  schema : Nat := 1
  defaultEffect : String := "deny"
  policyId : String
  limits : LimitsDocument
  rule : List RuleDocument := []
  referenceClass : List ReferenceClassDocument := []
  providerRoute : List ProviderRouteDocument := []
  mcpServer : List McpServerDocument := []
  processProfile : List ProcessProfileDocument := []
  deriving DecidableEq

end SovereignVault.Runtime
