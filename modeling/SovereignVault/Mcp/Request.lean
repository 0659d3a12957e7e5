/-
`sv-mcp`, the requests: tool arguments, agent scopes, and the access
request one tool call is turned into.

Arguments are `serde_json` values; an object is an association list. What
`serde`, `base64` and `sha2` compute is a parameter, `Crates`, and so is
`sv_privacy::redact`. Names in messages are quoted with `String.quote`
where the source prints them with `{:?}`.
-/
import Mathlib.Data.List.Sort
import Mathlib.Data.String.Basic
import SovereignVault.Storage
import SovereignVault.Audit.Record

namespace SovereignVault

namespace SecurityMode

def asStr : SecurityMode → String
  | .direct => "DIRECT"
  | .approval => "APPROVAL"
  | .otp => "OTP"
  | .anonymized => "ANONYMIZED"
  | .zkp => "ZKP"
  | .native => "NATIVE"

def parse (s : String) : Except String SecurityMode :=
  match s.map Char.toUpper with
  | "DIRECT" => .ok .direct
  | "APPROVAL" => .ok .approval
  | "OTP" => .ok .otp
  | "ANONYMIZED" => .ok .anonymized
  | "ZKP" => .ok .zkp
  | "NATIVE" => .ok .native
  | other => .error s!"Manifest: unknown security mode: {other}"

end SecurityMode

namespace Mcp

-- ==== JSON

inductive Number where
  | unsigned (n : Nat)
  | negative (n : Int)
  | float (bits : UInt64)

inductive Value where
  | null
  | bool (b : Bool)
  | number (n : Number)
  | string (s : String)
  | array (items : List Value)
  | object (fields : List (String × Value))

namespace Value

def get (v : Value) (key : String) : Option Value :=
  match v with
  | .object fields => fields.lookup key
  | _ => none

def asStr : Value → Option String
  | .string s => some s
  | _ => none

def getStr (v : Value) (key : String) : Option String :=
  (v.get key).bind asStr

def nat (n : Nat) : Value := .number (.unsigned n)

def optional : Option String → Value
  | some s => .string s
  | none => .null

def insertField (key : String) (value : Value) : List (String × Value) → List (String × Value)
  | [] => [(key, value)]
  | (k, v) :: rest =>
    if k = key then (key, value) :: rest
    else (k, v) :: insertField key value rest

mutual

def canonicalizeJson : Value → Value
  | .object fields => .object ((canonicalizeFields fields).insertionSort fun a b => a.1 ≤ b.1)
  | .array items => .array (canonicalizeItems items)
  | v => v

def canonicalizeFields : List (String × Value) → List (String × Value)
  | [] => []
  | (key, v) :: rest => (key, canonicalizeJson v) :: canonicalizeFields rest

def canonicalizeItems : List Value → List Value
  | [] => []
  | v :: rest => canonicalizeJson v :: canonicalizeItems rest

end

end Value

-- ==== agents

structure AgentScope where
  containerGlob : String
  actions : List String
  modeCeiling : Option String
  deriving DecidableEq

structure AgentInfo where
  agentId : String
  name : String
  scopes : List AgentScope
  createdAt : String
  expiresAt : Option String
  revoked : Bool

structure AgentImportEnvelopeEntry where
  name : String
  scopes : List AgentScope
  expiresAt : Option String
  revoked : Bool

structure AgentImportEnvelope where
  version : Nat
  exportedAtUnix : Nat
  agentCount : Nat
  agents : List AgentImportEnvelopeEntry

structure ImportApprovalAgent where
  name : String
  scopes : List AgentScope
  deriving DecidableEq

structure ImportApprovalSummary where
  mode : String
  agentCount : Nat
  agents : List ImportApprovalAgent
  deriving DecidableEq

structure AgentImportEntry where
  name : String
  scopes : List AgentScope
  deriving DecidableEq

structure ValidatedAgentImport where
  summary : ImportApprovalSummary
  entries : List AgentImportEntry
  replaceExisting : Bool

structure ImportedAgent where
  name : String
  agentId : String
  oneTimeToken : String

structure AgentImportResult where
  imported : List ImportedAgent
  skipped : List String
  revoked : List String

-- ==== broker secrets

structure BrokerOutcome where
  status : Nat
  headers : List (String × String)
  body : String
  host : String
  method : String

structure TransitKeyInfo where
  name : String
  version : Nat

structure SigningKeyInfo where
  name : String
  version : Nat
  publicKeyB64 : String

-- ==== the crates around it

/-- `sv_privacy::Redaction`: the masked text and the number of spans. -/
structure Redaction where
  output : String
  count : Nat

structure Crates where
  b64Encode : Bytes → String
  b64Decode : String → Except String Bytes
  sha256Hex : Bytes → String
  toVec : Value → Except String Bytes
  toText : Value → Except String String
  fromStr : String → Except String Value
  /-- `serde_json::from_value` at the types that are read. -/
  envelope : Value → Except String AgentImportEnvelope
  brokerAllow : Value → Except String (List BrokerAllow)
  brokerInjection : Value → Except String BrokerInjection
  headers : Value → Except String (List (String × String))
  redact : String → Redaction
  ed25519Verify : Bytes → Bytes → Bytes → Except String Bool
  version : String
  toolDescriptors : Bool → Value

def asBytes (s : String) : Bytes := s.toUTF8.toList

def fromUtf8 (raw : Bytes) : Option String :=
  String.fromUTF8? (ByteArray.mk raw.toArray)

-- ==== actions

inductive AccessTransport where
  | mcpStdio | mcpWs
  deriving DecidableEq

def AccessTransport.asStr : AccessTransport → String
  | .mcpStdio => "mcp-stdio"
  | .mcpWs => "mcp-ws"

inductive AccessAction where
  | listContainers | listFiles | readFile | writeFile | deleteFile
  | createContainer
  | createTransitKey | listTransitKeys | encrypt | decrypt
  | createSigningKey | listSigningKeys | sign | verify
  | createBrokerSecret | listBrokerSecrets | broker
  | destroyContainer | vaultInfo | exportAgents | importAgents
  deriving DecidableEq

namespace AccessAction

def debug : AccessAction → String
  | .listContainers => "ListContainers"
  | .listFiles => "ListFiles"
  | .readFile => "ReadFile"
  | .writeFile => "WriteFile"
  | .deleteFile => "DeleteFile"
  | .createContainer => "CreateContainer"
  | .createTransitKey => "CreateTransitKey"
  | .listTransitKeys => "ListTransitKeys"
  | .encrypt => "Encrypt"
  | .decrypt => "Decrypt"
  | .createSigningKey => "CreateSigningKey"
  | .listSigningKeys => "ListSigningKeys"
  | .sign => "Sign"
  | .verify => "Verify"
  | .createBrokerSecret => "CreateBrokerSecret"
  | .listBrokerSecrets => "ListBrokerSecrets"
  | .broker => "Broker"
  | .destroyContainer => "DestroyContainer"
  | .vaultInfo => "VaultInfo"
  | .exportAgents => "ExportAgents"
  | .importAgents => "ImportAgents"

def parseScopeAction : String → Except String AccessAction
  | "list" | "list_containers" => .ok .listContainers
  | "list_files" => .ok .listFiles
  | "read" | "read_file" => .ok .readFile
  | "write" | "write_file" => .ok .writeFile
  | "delete" | "delete_file" => .ok .deleteFile
  | "create_container" => .ok .createContainer
  | "destroy" | "destroy_container" => .ok .destroyContainer
  | "create_transit_key" => .ok .createTransitKey
  | "list_transit_keys" => .ok .listTransitKeys
  | "encrypt" => .ok .encrypt
  | "decrypt" => .ok .decrypt
  | "create_signing_key" => .ok .createSigningKey
  | "list_signing_keys" => .ok .listSigningKeys
  | "sign" => .ok .sign
  | "verify" => .ok .verify
  | "create_broker_secret" => .ok .createBrokerSecret
  | "list_broker_secrets" => .ok .listBrokerSecrets
  | "broker" | "broker_request" => .ok .broker
  | "vault_info" | "info" => .ok .vaultInfo
  | "export_agents" => .ok .exportAgents
  | "import_agents" => .ok .importAgents
  | action => .error s!"unknown agent scope action: {action}"

def auditAction : AccessAction → Audit.AuditAction
  | .listContainers => .listContainers
  | .listFiles => .listFiles
  | .readFile => .readFile
  | .writeFile => .writeFile
  | .deleteFile => .deleteFile
  | .createContainer => .createContainer
  | .createTransitKey => .createTransitKey
  | .listTransitKeys => .listTransitKeys
  | .encrypt => .encrypt
  | .decrypt => .decrypt
  | .createSigningKey => .createSigningKey
  | .listSigningKeys => .listSigningKeys
  | .sign => .sign
  | .verify => .verify
  | .createBrokerSecret => .createBrokerSecret
  | .listBrokerSecrets => .listBrokerSecrets
  | .broker => .broker
  | .destroyContainer => .deleteContainer
  | .vaultInfo => .vaultInfo
  | .exportAgents => .agentExport
  | .importAgents => .agentImport

end AccessAction

-- ==== requests

structure AccessRequest where
  transport : AccessTransport
  action : AccessAction
  container : Option String
  fileName : Option String
  mode : Option SecurityMode
  byteSize : Option Nat
  agentId : Option String
  otp : Option String
  authorizationContext : String
  importSummary : Option ImportApprovalSummary
  deriving DecidableEq

def buildAuthorizationContext (crates : Crates) (name : String) (args : Value) : String :=
  let stripped : Value := match args with
    | .object fields => .object (fields.filter fun f => f.1 ≠ "otp")
    | other => other
  let canonical := match crates.toVec stripped.canonicalizeJson with
    | .ok raw => raw
    | .error _ => []
  crates.sha256Hex (asBytes "sovereign-vault/access-request/v1" ++ [0]
    ++ asBytes name ++ [0] ++ canonical)

def simpleRequest (transport : AccessTransport) (action : AccessAction)
    (authorizationContext : String) : AccessRequest where
  transport := transport
  action := action
  container := none
  fileName := none
  mode := none
  byteSize := none
  agentId := none
  otp := none
  authorizationContext := authorizationContext
  importSummary := none

def containerRequest (transport : AccessTransport) (action : AccessAction)
    (container : String) (fileName : Option String) (mode : SecurityMode)
    (byteSize : Option Nat) (otp : Option String)
    (authorizationContext : String) : AccessRequest where
  transport := transport
  action := action
  container := some container
  fileName := fileName
  mode := some mode
  byteSize := byteSize
  agentId := none
  otp := otp
  authorizationContext := authorizationContext
  importSummary := none

def requiredStr (value : Value) (key : String) : Except String String :=
  match value.getStr key with
  | some s => .ok s
  | none => .error s!"missing required string field: {key}"

def requiredBrokerAllow (crates : Crates) (value : Value) : Except String (List BrokerAllow) :=
  match value.get "allow" with
  | none => .error "missing required array field: allow"
  | some raw =>
    match crates.brokerAllow raw with
    | .ok allow => .ok allow
    | .error e => .error s!"invalid allow list: {e}"

def parseBrokerInjection (crates : Crates) (value : Value) : Except String BrokerInjection :=
  match value.get "injection" with
  | some raw =>
    match crates.brokerInjection raw with
    | .ok injection => .ok injection
    | .error e => .error s!"invalid injection: {e}"
  | none => .ok .bearerAuth

def decodeB64 (crates : Crates) (text : String) : Except String Bytes :=
  match crates.b64Decode text with
  | .ok raw => .ok raw
  | .error e => .error s!"invalid base64: {e}"

-- ==== globs

/-- Where a star can stop: nothing taken, or one more character, which a
single star does not let be a slash. -/
def starStops (double : Bool) : List Char → List (List Char)
  | [] => [[]]
  | c :: v =>
    if !double && c == '/' then [c :: v]
    else (c :: v) :: starStops double v

def globInner : List Char → List Char → Bool
  | [], v => v.isEmpty
  | '*' :: '*' :: rest, v => (starStops true v).any fun v' => globInner rest v'
  | '*' :: rest, v => (starStops false v).any fun v' => globInner rest v'
  | c :: p, v =>
    match v with
    | [] => false
    | d :: v => c == d && globInner p v

def globMatch (pattern value : String) : Bool :=
  globInner pattern.toList value.toList

-- ==== scopes

structure ResolvedScope where
  containerGlob : String
  actions : List AccessAction
  modeCeiling : Option SecurityMode
  deriving DecidableEq

structure ResolvedAgent where
  agentId : String
  scopes : List ResolvedScope
  deriving DecidableEq

def modeRank : SecurityMode → Nat
  | .direct => 0
  | .approval => 1
  | .otp => 2
  | .anonymized => 3
  | .zkp => 4
  | .native => 5

/-- The loop of `enforce_scopes`: the first scope that matches container
and action decides. -/
def enforceContainerScopes (agent : ResolvedAgent)
    (request : AccessRequest) (container : String) : List ResolvedScope → Except String Unit
  | [] => .error (s!"agent {agent.agentId} is not scoped for "
      ++ s!"{request.action.debug} on container {container}")
  | scope :: rest =>
    if !globMatch scope.containerGlob container then
      enforceContainerScopes agent request container rest
    else if !scope.actions.contains request.action then
      enforceContainerScopes agent request container rest
    else
      match scope.modeCeiling, request.mode with
      | some ceiling, some mode =>
        if modeRank mode > modeRank ceiling then
          .error (s!"agent scope mode_ceiling {ceiling.asStr} "
            ++ s!"cannot widen container mode {mode.asStr}")
        else .ok ()
      | _, _ => .ok ()

def enforceScopes (agent : ResolvedAgent) (request : AccessRequest) : Except String Unit :=
  if agent.scopes.isEmpty then .ok ()
  else
    match request.container with
    | some container => enforceContainerScopes agent request container agent.scopes
    | none =>
      match request.action with
      | .listContainers => .error s!"agent {agent.agentId} may not enumerate all containers"
      | .verify | .createTransitKey | .listTransitKeys | .encrypt
      | .decrypt | .createSigningKey | .listSigningKeys | .sign
      | .createBrokerSecret | .listBrokerSecrets | .broker =>
        if agent.scopes.any fun scope => scope.actions.contains request.action then .ok ()
        else .error (s!"agent {agent.agentId} is not scoped for "
          ++ s!"{request.action.debug}")
      | _ => .error (s!"agent {agent.agentId} is not scoped for "
          ++ s!"{request.action.debug}")

-- ==== agent imports

def validateScopeGlob (glob : String) : Except String Unit :=
  if glob.isEmpty then
    .error "agent scope.container_glob must not be empty"
  else if glob.utf8ByteSize > 128 || glob.startsWith "/"
      || glob.endsWith "/" || (glob.splitOn "/").any String.isEmpty
      || !glob.toList.all (fun c =>
        c.isAlphanum || c == '-' || c == '_' || c == '*' || c == '/') then
    .error s!"invalid agent scope.container_glob: {glob.quote}"
  else .ok ()

def validateScopeActions : List String → Except String Unit
  | [] => .ok ()
  | action :: rest => do
    let _ ← AccessAction.parseScopeAction action
    validateScopeActions rest

def validateModeCeiling : Option String → Except String Unit
  | none => .ok ()
  | some mode =>
    match SecurityMode.parse mode with
    | .ok _ => .ok ()
    | .error e => .error s!"invalid agent scope mode_ceiling {mode.quote}: {e}"

def validateAgentScope (scope : AgentScope) : Except String Unit := do
  validateScopeGlob scope.containerGlob
  if scope.actions.isEmpty then
    .error "agent scope.actions must contain at least one action"
  else do
    validateScopeActions scope.actions
    validateModeCeiling scope.modeCeiling

def validateAgentScopes : List AgentScope → Except String Unit
  | [] => .ok ()
  | scope :: rest => do
    validateAgentScope scope
    validateAgentScopes rest

def validateImportEntry (names : List String)
    (entry : AgentImportEnvelopeEntry) : Except String Unit :=
  if entry.name.isEmpty then .error "agent.name must not be empty"
  else if names.contains entry.name then
    .error s!"agent import contains duplicate name: {entry.name}"
  else if entry.revoked then
    .error (s!"cannot import revoked agent {entry.name}; "
      ++ "revoke it in the destination instead")
  else if entry.expiresAt.isSome then
    .error (s!"cannot import expiring agent {entry.name}; "
      ++ "expiry preservation is unsupported")
  else if entry.scopes.isEmpty then
    .error (s!"cannot import unscoped agent {entry.name}; "
      ++ "at least one concrete scope is required")
  else validateAgentScopes entry.scopes

def validateImportEntries (names : List String) : List AgentImportEnvelopeEntry → Except String Unit
  | [] => .ok ()
  | entry :: rest => do
    validateImportEntry names entry
    validateImportEntries (entry.name :: names) rest

def importMode (args : Value) : Except String (String × Bool) :=
  match (args.getStr "mode").getD "create_only" with
  | "create_only" => .ok ("create_only", false)
  | "create_or_replace" => .ok ("create_or_replace", true)
  | other => .error s!"unsupported import mode: {other}"

def importEnvelope (crates : Crates) (args : Value) : Except String AgentImportEnvelope :=
  match args.get "envelope" with
  | none => .error "envelope is required"
  | some raw =>
    match crates.envelope raw with
    | .ok envelope => .ok envelope
    | .error e => .error s!"invalid agent import envelope: {e}"

def validateAgentImport (crates : Crates) (args : Value) : Except String ValidatedAgentImport := do
  let envelope ← importEnvelope crates args
  if envelope.version ≠ 1 then
    .error s!"unsupported envelope version: {envelope.version}"
  else if envelope.agentCount ≠ envelope.agents.length then
    .error "envelope.agent_count does not match agents length"
  else do
    let (mode, replaceExisting) ← importMode args
    validateImportEntries [] envelope.agents
    let agents := envelope.agents.map fun entry =>
      (⟨entry.name, entry.scopes⟩ : ImportApprovalAgent)
    pure
      { summary :=
          { mode := mode, agentCount := agents.length, agents := agents }
        entries := envelope.agents.map fun entry => ⟨entry.name, entry.scopes⟩
        replaceExisting := replaceExisting }

end Mcp

end SovereignVault
