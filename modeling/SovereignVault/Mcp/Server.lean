/-
`sv-mcp`, the tool calls: `build_access_request`, `execute_tool`,
`execute_broker`, the privacy filter, the audit records, `call_tool`.

A tool call is a `Talk`: it asks the vault facade, the access controller,
the audit sink, the rate limiter and the clock, and it takes and gives
back the lock on the shared handle, twice; the vault may be another one,
or none, by the second time. `Server` says which of the controller, the
sink and the limiter are installed. The timing sink is left out.
-/
import SovereignVault.Dialogue.Talk
import SovereignVault.Mcp.Request

namespace SovereignVault.Mcp

open Dialogue Talk

-- ==== the facade

inductive FacadeOp where
  | listContainers
  | listFiles (container : String)
  | readFile (container fileName : String)
  | writeFile (container fileName : String) (plaintext : Bytes)
  | deleteFile (container fileName : String)
  | createContainer (name mode : String) (description : Option String)
  | containerMode (container : String)
  | destroyContainer (name : String)
  | listAgents
  | importAgentsAtomically (entries : List AgentImportEntry) (replaceExisting : Bool)
  | transitCreateKey (name : String)
  | transitList
  | transitEncrypt (keyRef : String) (plaintext : Bytes)
  | transitDecrypt (keyRef ciphertextB64 : String)
  | sign (keyRef : String) (payload : Bytes)
  | signingPublicKey (keyRef : String)
  | signingCreateKey (name : String)
  | signingList
  | brokerCreate (name secret : String) (allow : List BrokerAllow) (injection : BrokerInjection)
  | brokerList
  | brokerEnabled
  | custodyModeLabel
  | brokerRequest (secretRef method url : String)
      (headers : List (String × String)) (body : Option String)

@[reducible] def FacadeOp.Ans : FacadeOp → Type
  | .listContainers => Except String (List Storage.ContainerInfo)
  | .listFiles _ => Except String (List Storage.FileInfo)
  | .readFile _ _ => Except String Bytes
  | .writeFile _ _ _ => Except String Unit
  | .deleteFile _ _ => Except String Unit
  | .createContainer _ _ _ => Except String Unit
  | .containerMode _ => Except String SecurityMode
  | .destroyContainer _ => Except String Unit
  | .listAgents => Except String (List AgentInfo)
  | .importAgentsAtomically _ _ => Except String AgentImportResult
  | .transitCreateKey _ => Except String TransitKeyInfo
  | .transitList => Except String (List TransitKeyInfo)
  | .transitEncrypt _ _ => Except String String
  | .transitDecrypt _ _ => Except String Bytes
  | .sign _ _ => Except String String
  | .signingPublicKey _ => Except String String
  | .signingCreateKey _ => Except String SigningKeyInfo
  | .signingList => Except String (List SigningKeyInfo)
  | .brokerCreate _ _ _ _ => Except String BrokerSecretInfo
  | .brokerList => Except String (List BrokerSecretInfo)
  | .brokerEnabled => Bool
  | .custodyModeLabel => String
  | .brokerRequest _ _ _ _ _ => Except String BrokerOutcome

inductive McpOp where
  | checkRate (key : String)
  | lockHandle
  | unlockHandle
  | facade (op : FacadeOp)
  | authenticate (agentId : Option String) (token : String)
  | authorize (request : AccessRequest)
  | record (event : Audit.AuditEvent)
  | clock

@[reducible] def McpOp.Ans : McpOp → Type
  | .checkRate _ => Except String Unit
  | .lockHandle => Bool
  | .unlockHandle => Unit
  | .facade op => op.Ans
  | .authenticate _ _ => Except String ResolvedAgent
  | .authorize _ => Except String Unit
  | .record _ => Except String Unit
  | .clock => Nat

@[reducible] def mcpInterface : Interface where
  Op := McpOp
  Ans := McpOp.Ans

abbrev McpM (α : Type) := Talk mcpInterface String α

abbrev McpExchange := Exchange mcpInterface

def ask (o : McpOp) : McpM o.Ans := query (I := mcpInterface) o

def facade (op : FacadeOp) : McpM op.Ans := ask (.facade op)

def tryFacade {α : Type} (op : FacadeOp) (h : op.Ans = Except String α) : McpM α := do
  let r ← facade op
  ret (cast h r)

structure Server where
  pairingSecret : String
  accessController : Bool
  auditSink : Bool
  agentAuthenticator : Bool
  rateLimiter : Bool

/-- The shared handle locked around `body`, which is not run when the
vault is locked. -/
def withHandle {α : Type} (body : McpM α) : McpM α := do
  let unlocked ← ask .lockHandle
  match unlocked with
  | true => do
    let r ← body.attempt
    ask .unlockHandle
    ret r
  | false => do
    ask .unlockHandle
    throw "vault is locked"

inductive Tool where
  | list | read | write | delete | createContainer | destroy
  | info | exportAgents | importAgents
  | createTransitKey | listTransitKeys | encrypt | decrypt
  | sign | createSigningKey | listSigningKeys | verify
  | createBrokerSecret | listBrokerSecrets | brokerRequest
  deriving DecidableEq

def Tool.parse : String → Option Tool
  | "vault.list" => some .list
  | "vault.read" => some .read
  | "vault.write" => some .write
  | "vault.delete" => some .delete
  | "vault.create_container" => some .createContainer
  | "vault.destroy" => some .destroy
  | "vault.info" => some .info
  | "vault.export_agents" => some .exportAgents
  | "vault.import_agents" => some .importAgents
  | "vault.create_transit_key" => some .createTransitKey
  | "vault.list_transit_keys" => some .listTransitKeys
  | "vault.encrypt" => some .encrypt
  | "vault.decrypt" => some .decrypt
  | "vault.sign" => some .sign
  | "vault.create_signing_key" => some .createSigningKey
  | "vault.list_signing_keys" => some .listSigningKeys
  | "vault.verify" => some .verify
  | "vault.create_broker_secret" => some .createBrokerSecret
  | "vault.list_broker_secrets" => some .listBrokerSecrets
  | "vault.broker_request" => some .brokerRequest
  | _ => none

section

variable (crates : Crates)

/-- `required_str(..)?`. -/
def required (args : Value) (key : String) : McpM String := ret (requiredStr args key)

def fileRequest (name : String) (args : Value) (transport : AccessTransport) (action : AccessAction)
    (container fileName : String) (byteSize : Option Nat) : McpM AccessRequest := do
  let mode ← tryFacade (.containerMode container) rfl
  pure (containerRequest transport action container (some fileName) mode
    byteSize (args.getStr "otp") (buildAuthorizationContext crates name args))

def buildAccessRequest (name : String) (args : Value)
    (transport : AccessTransport) : McpM AccessRequest :=
  let simple (action : AccessAction) : McpM AccessRequest :=
    pure (simpleRequest transport action (buildAuthorizationContext crates name args))
  match Tool.parse name with
  | some .list =>
    match args.getStr "container" with
    | some container => do
      let mode ← tryFacade (.containerMode container) rfl
      pure (containerRequest transport .listFiles container none mode
        none (args.getStr "otp")
        (buildAuthorizationContext crates name args))
    | none =>
      pure { simpleRequest transport .listContainers
          (buildAuthorizationContext crates name args) with
        otp := args.getStr "otp" }
  | some .read => do
    let container ← required args "container"
    let fileName ← required args "file_name"
    fileRequest crates name args transport .readFile container fileName none
  | some .write => do
    let container ← required args "container"
    let fileName ← required args "file_name"
    let content ← required args "content_b64"
    let bytes ← ret (decodeB64 crates content)
    fileRequest crates name args transport .writeFile container fileName (some bytes.length)
  | some .delete => do
    let container ← required args "container"
    let fileName ← required args "file_name"
    fileRequest crates name args transport .deleteFile container fileName none
  | some .createContainer => do
    -- the container's name shadows the tool's in the context
    let name ← required args "name"
    let mode ← ret
      (SecurityMode.parse ((args.getStr "mode").getD "DIRECT"))
    pure (containerRequest transport .createContainer name none mode none
      (args.getStr "otp") (buildAuthorizationContext crates name args))
  | some .destroy => do
    let name ← required args "name"
    let mode ← tryFacade (.containerMode name) rfl
    pure (containerRequest transport .destroyContainer name none mode none
      (args.getStr "otp") (buildAuthorizationContext crates name args))
  | some .info => simple .vaultInfo
  | some .exportAgents => simple .exportAgents
  | some .importAgents => do
    let validated ← ret (validateAgentImport crates args)
    let request ← simple .importAgents
    pure { request with importSummary := some validated.summary }
  | some .createTransitKey => do
    let _ ← required args "name"
    simple .createTransitKey
  | some .listTransitKeys => simple .listTransitKeys
  | some .encrypt => do
    let _ ← required args "key_ref"
    let _ ← required args "plaintext_b64"
    simple .encrypt
  | some .decrypt => do
    let _ ← required args "key_ref"
    let _ ← required args "ciphertext_b64"
    simple .decrypt
  | some .sign => do
    let _ ← required args "key_ref"
    let _ ← required args "payload_b64"
    simple .sign
  | some .createSigningKey => do
    let _ ← required args "name"
    simple .createSigningKey
  | some .listSigningKeys => simple .listSigningKeys
  | some .verify => do
    let _ ← required args "public_key_b64"
    let _ ← required args "payload_b64"
    let _ ← required args "signature_b64"
    simple .verify
  | some .createBrokerSecret => do
    let _ ← required args "name"
    let _ ← required args "secret"
    let _ ← ret (requiredBrokerAllow crates args)
    let _ ← ret (parseBrokerInjection crates args)
    simple .createBrokerSecret
  | some .listBrokerSecrets => simple .listBrokerSecrets
  | some .brokerRequest => do
    let _ ← required args "secret_ref"
    let _ ← required args "method"
    let _ ← required args "url"
    simple .broker
  | none => throw s!"unknown tool: {name}"

-- ==== execute_tool

def MAX_WS_MESSAGE_BYTES : Nat := 8 * 1024 * 1024

def MAX_WS_FILE_BYTES : Nat := 4 * 1024 * 1024

def TransitKeyInfo.toValue (info : TransitKeyInfo) : Value :=
  .object [("name", .string info.name), ("version", .nat info.version)]

def SigningKeyInfo.toValue (info : SigningKeyInfo) : Value :=
  .object [("name", .string info.name), ("version", .nat info.version),
    ("public_key_b64", .string info.publicKeyB64)]

def BrokerAllow.toValue (allow : BrokerAllow) : Value :=
  .object [("host", .string allow.host),
    ("path_prefix", .string allow.pathPrefix),
    ("methods", .array (allow.methods.map .string)),
    ("allow_private_ip", .bool allow.allowPrivateIp)]

def BrokerInjection.toValue : BrokerInjection → Value
  | .bearerAuth => .object [("type", .string "bearer_auth")]
  | .header name => .object [("type", .string "header"), ("name", .string name)]

def BrokerSecretInfo.toValue (info : BrokerSecretInfo) : Value :=
  .object [("name", .string info.name),
    ("allow", .array (info.allow.map BrokerAllow.toValue)),
    ("injection", BrokerInjection.toValue info.injection)]

def AgentScope.toValue (scope : AgentScope) : Value :=
  .object ([("container_glob", .string scope.containerGlob),
      ("actions", .array (scope.actions.map .string))]
    ++ match scope.modeCeiling with
      | some mode => [("mode_ceiling", .string mode)]
      | none => [])

def exportedAgent (agent : AgentInfo) : Value :=
  .object [("name", .string agent.name),
    ("scopes", .array (agent.scopes.map AgentScope.toValue)),
    ("expires_at", .optional agent.expiresAt),
    ("revoked", .bool agent.revoked)]

def importedAgent (agent : ImportedAgent) : Value :=
  .object [("name", .string agent.name), ("agent_id", .string agent.agentId),
    ("one_time_token", .string agent.oneTimeToken)]

def brokerManagementDisabled : String :=
  "broker disabled: set SV_ENABLE_BROKER to enable broker secret management"

def readResult (container fileName : String) (bytes : Bytes) : Value :=
  .object [("container", .string container), ("file_name", .string fileName),
    ("content_b64", .string (crates.b64Encode bytes)),
    ("byte_size", .nat bytes.length)]

def executeTool (name : String) (args : Value) (transport : AccessTransport) : McpM Value :=
  match Tool.parse name with
  | some .list =>
    match args.getStr "container" with
    | some container => do
      let files ← tryFacade (.listFiles container) rfl
      pure (.array (files.map fun f =>
        .object [("name", .string f.name), ("mode", .string f.mode.asStr)]))
    | none => do
      let containers ← tryFacade .listContainers rfl
      pure (.array (containers.map fun c =>
        .object [("name", .string c.name), ("mode", .string c.mode.asStr),
          ("description", .optional c.description)]))
  | some .read => do
    let container ← required args "container"
    let fileName ← required args "file_name"
    let bytes ← tryFacade (.readFile container fileName) rfl
    if transport = .mcpWs ∧ bytes.length > MAX_WS_FILE_BYTES then
      throw (s!"file exceeds WebSocket read limit of "
        ++ s!"{MAX_WS_FILE_BYTES} bytes; use the local stdio transport")
    else pure (readResult crates container fileName bytes)
  | some .write => do
    let container ← required args "container"
    let fileName ← required args "file_name"
    let content ← required args "content_b64"
    let bytes ← ret (decodeB64 crates content)
    tryFacade (.writeFile container fileName bytes) rfl
    pure (.object [("ok", .bool true), ("byte_size", .nat bytes.length)])
  | some .delete => do
    let container ← required args "container"
    let fileName ← required args "file_name"
    tryFacade (.deleteFile container fileName) rfl
    pure (.object [("ok", .bool true)])
  | some .createContainer => do
    let name ← required args "name"
    let mode := (args.getStr "mode").getD "DIRECT"
    tryFacade (.createContainer name mode (args.getStr "description")) rfl
    pure (.object [("ok", .bool true), ("name", .string name),
      ("mode", .string mode)])
  | some .destroy => do
    let name ← required args "name"
    tryFacade (.destroyContainer name) rfl
    pure (.object [("ok", .bool true), ("name", .string name)])
  | some .info => do
    let containers ← tryFacade .listContainers rfl
    let label ← facade .custodyModeLabel
    pure (.object [("version", .string crates.version),
      ("custody_mode", .string label),
      ("containers", .nat containers.length)])
  | some .exportAgents => do
    let agents ← tryFacade .listAgents rfl
    let now ← ask .clock
    pure (.object [("version", .nat 1),
      ("exported_at_unix", .nat (now / 1000000000)),
      ("agent_count", .nat agents.length),
      ("agents", .array (agents.map exportedAgent))])
  | some .importAgents => do
    let validated ← ret (validateAgentImport crates args)
    let result ← tryFacade (.importAgentsAtomically validated.entries validated.replaceExisting) rfl
    pure (.object [("imported_count", .nat result.imported.length),
      ("skipped_count", .nat result.skipped.length),
      ("revoked_count", .nat result.revoked.length),
      ("imported", .array (result.imported.map importedAgent)),
      ("skipped", .array (result.skipped.map .string)),
      ("revoked", .array (result.revoked.map .string))])
  | some .createTransitKey => do
    let name ← required args "name"
    let info ← tryFacade (.transitCreateKey name) rfl
    pure info.toValue
  | some .listTransitKeys => do
    let info ← tryFacade .transitList rfl
    pure (.array (info.map TransitKeyInfo.toValue))
  | some .encrypt => do
    let keyRef ← required args "key_ref"
    let text ← required args "plaintext_b64"
    let plaintext ← ret (decodeB64 crates text)
    let ciphertext ← tryFacade (.transitEncrypt keyRef plaintext) rfl
    pure (.object [("key_ref", .string keyRef),
      ("ciphertext_b64", .string ciphertext)])
  | some .decrypt => do
    let keyRef ← required args "key_ref"
    let ciphertext ← required args "ciphertext_b64"
    let plaintext ← tryFacade (.transitDecrypt keyRef ciphertext) rfl
    pure (.object [("key_ref", .string keyRef),
      ("plaintext_b64", .string (crates.b64Encode plaintext))])
  | some .sign => do
    let keyRef ← required args "key_ref"
    let text ← required args "payload_b64"
    let payload ← ret (decodeB64 crates text)
    let signature ← tryFacade (.sign keyRef payload) rfl
    let publicKey ← tryFacade (.signingPublicKey keyRef) rfl
    pure (.object [("key_ref", .string keyRef),
      ("signature_b64", .string signature),
      ("public_key_b64", .string publicKey)])
  | some .createSigningKey => do
    let name ← required args "name"
    let info ← tryFacade (.signingCreateKey name) rfl
    pure info.toValue
  | some .listSigningKeys => do
    let info ← tryFacade .signingList rfl
    pure (.array (info.map SigningKeyInfo.toValue))
  | some .verify => do
    let publicText ← required args "public_key_b64"
    let payloadText ← required args "payload_b64"
    let payload ← ret (decodeB64 crates payloadText)
    let signatureText ← required args "signature_b64"
    let signature ← ret (decodeB64 crates signatureText)
    let publicKey ← ret (decodeB64 crates publicText)
    let valid ← ret (crates.ed25519Verify publicKey payload signature)
    pure (.object [("valid", .bool valid)])
  | some .createBrokerSecret => do
    let enabled ← facade .brokerEnabled
    match enabled with
    | false => throw brokerManagementDisabled
    | true => do
      let name ← required args "name"
      let secret ← required args "secret"
      let allow ← ret (requiredBrokerAllow crates args)
      let injection ← ret (parseBrokerInjection crates args)
      let info ← tryFacade (.brokerCreate name secret allow injection) rfl
      pure (BrokerSecretInfo.toValue info)
  | some .listBrokerSecrets => do
    let enabled ← facade .brokerEnabled
    match enabled with
    | false => throw brokerManagementDisabled
    | true => do
      let info ← tryFacade .brokerList rfl
      pure (.array (info.map BrokerSecretInfo.toValue))
  | some .brokerRequest => throw s!"unknown tool: {name}"
  | none => throw s!"unknown tool: {name}"

-- ==== execute_broker

def brokerHeaders (args : Value) : List (String × String) :=
  match args.get "headers" with
  | none => []
  | some raw =>
    match crates.headers raw with
    | .ok headers => headers
    | .error _ => []

def sendBrokered (args : Value) (secretRef method url : String) : McpM BrokerOutcome :=
  withHandle do
    let enabled ← facade .brokerEnabled
    match enabled with
    | false => throw "broker disabled: set SV_ENABLE_BROKER to enable vault.broker_request"
    | true =>
      tryFacade (.brokerRequest secretRef method url
        (brokerHeaders crates args) (args.getStr "body")) rfl

def brokerCall (args : Value) : McpM BrokerOutcome := do
  let secretRef ← required args "secret_ref"
  let method ← required args "method"
  let url ← required args "url"
  sendBrokered crates args secretRef method url

def BrokerOutcome.toValue (outcome : BrokerOutcome) : Value :=
  .object [("status", .nat outcome.status),
    ("headers", .object (outcome.headers.map fun h => (h.1, .string h.2))),
    ("body", .string outcome.body)]

def executeBroker (args : Value) : McpM (Except String Value × Option String) := do
  let outcome ← (brokerCall crates args).attempt
  match outcome with
  | .ok o => pure (.ok o.toValue, some s!"broker {o.method} {o.host} -> {o.status}")
  | .error e => pure (.error e, none)

-- ==== filters

def maskFields (redaction : Redaction) (fields : List (String × Value)) : List (String × Value) :=
  let encoded := crates.b64Encode (asBytes redaction.output)
  Value.insertField "pii_redactions" (.nat redaction.count)
    (Value.insertField "anonymized" (.bool true) (Value.insertField "byte_size"
        (.nat redaction.output.utf8ByteSize)
        (Value.insertField "content_b64" (.string encoded) fields)))

def readText (value : Value) : Except String String :=
  match value.getStr "content_b64" with
  | none => .error "anonymized read response is missing encoded content"
  | some content =>
    match crates.b64Decode content with
    | .error _ => .error "anonymized read response contains invalid base64"
    | .ok bytes =>
      match fromUtf8 bytes with
      | none => .error ("anonymized egress denied: content is not "
          ++ "valid UTF-8 and cannot be safely redacted")
      | some text => .ok text

/-- `apply_privacy_filter`: the value to return and the audit detail. -/
def applyPrivacyFilter (access : AccessRequest) (value : Value) :
    Except String (Value × Option String) :=
  if access.action ≠ .readFile ∨ access.mode ≠ some .anonymized then
    .ok (value, none)
  else
    match readText crates value with
    | .error e => .error e
    | .ok text =>
      let redaction := crates.redact text
      let masked : Value := match value with
        | .object fields => .object (maskFields crates redaction fields)
        | other => other
      .ok (masked, some s!"anonymized: {redaction.count} pii span(s) masked")

def limitResponse (transport : AccessTransport) (value : Value) : Except String Value :=
  if transport = .mcpWs then
    match crates.toVec value with
    | .error e => .error s!"failed to size response: {e}"
    | .ok raw =>
      if raw.length > MAX_WS_MESSAGE_BYTES then
        .error (s!"response exceeds WebSocket limit of "
          ++ s!"{MAX_WS_MESSAGE_BYTES} bytes; "
          ++ "use the local stdio transport")
      else .ok value
  else .ok value

def filterResult (access : AccessRequest) (transport : AccessTransport)
    (result : Except String Value) : Except String Value × Option String :=
  match result with
  | .error e => (.error e, none)
  | .ok value =>
    match applyPrivacyFilter crates access value with
    | .error e => (.error e, none)
    | .ok (filtered, detail) =>
      match limitResponse crates transport filtered with
      | .error e => (.error e, none)
      | .ok value => (.ok value, detail)

end

-- ==== audit

section

variable (server : Server)

def auditEvent (timestamp : Nat) (request : AccessRequest)
    (decision : Audit.AuditDecision) (detail : Option String) : Audit.AuditEvent where
  timestamp := timestamp
  action := request.action.auditAction
  decision := decision
  transport := request.transport.asStr
  container := request.container
  fileName := request.fileName
  mode := request.mode.map SecurityMode.asStr
  byteSize := request.byteSize
  detail := detail
  error := match decision with
    | .denied => some "request denied"
    | .error => some "operation failed"
    | _ => none
  agentId := request.agentId
  presence := none

def recordAudit (request : AccessRequest) (decision : Audit.AuditDecision)
    (detail : Option String) : McpM Unit :=
  match server.auditSink with
  | false => pure ()
  | true => do
    let timestamp ← ask .clock
    let r ← ask (.record (auditEvent timestamp request decision detail))
    match r with
    | .ok () => pure ()
    | .error e => throw s!"authenticated audit log unavailable: {e}"

def combineDenialAndAudit (denial : String) : Except String Unit → String
  | .ok () => denial
  | .error auditError => s!"{denial}; {auditError}"

def combineResultAndAudit {α : Type} : Except String α → Except String Unit → Except String α
  | .ok value, .ok () => .ok value
  | .ok _, .error auditError =>
    .error ("operation completed, but its authenticated audit outcome "
      ++ s!"could not be recorded: {auditError}")
  | .error e, .ok () => .error e
  | .error e, .error auditError => .error s!"{e}; {auditError}"

-- ==== call_tool

def rateKey (transport : AccessTransport) : Option ResolvedAgent → String
  | some agent => agent.agentId
  | none => s!"__shared__:{transport.asStr}"

def limitRate (transport : AccessTransport) (agent : Option ResolvedAgent) : McpM Unit :=
  match server.rateLimiter with
  | false => pure ()
  | true => do
    let r ← ask (.checkRate (rateKey transport agent))
    ret r

def enforceBound (agent : Option ResolvedAgent) (access : AccessRequest) : Except String Unit :=
  match agent with
  | some agent => enforceScopes agent access
  | none => .ok ()

def authorizeAccess (access : AccessRequest) : McpM (Except String Unit) :=
  match server.accessController with
  | false => pure (.ok ())
  | true => ask (.authorize access)

def deny {α : Type} (access : AccessRequest) (error : String) : McpM α := do
  let audit ← (recordAudit server access .denied none).attempt
  throw (combineDenialAndAudit error audit)

/-- The end of a call that was executed: the audit record of its outcome
and the result. -/
def conclude (access : AccessRequest) (result : Except String Value)
    (detail : Option String) : McpM Value := do
  let decision := match result with
    | .ok _ => Audit.AuditDecision.allowed
    | .error _ => Audit.AuditDecision.error
  let audit ← (recordAudit server access decision detail).attempt
  ret (combineResultAndAudit result audit)

variable (crates : Crates)

/-- The part of `call_tool` after the attempt was recorded. A vault that
is locked by now ends the call without an outcome record. -/
def runTool (name : String) (args : Value) (transport : AccessTransport)
    (access : AccessRequest) : McpM Value :=
  if name = "vault.broker_request" then do
    let outcome ← executeBroker crates args
    conclude server access outcome.1 outcome.2
  else do
    let result ← withHandle (executeTool crates name args transport).attempt
    let filtered := filterResult crates access transport result
    conclude server access filtered.1 filtered.2

def mediate (name : String) (args : Value) (transport : AccessTransport)
    (agent : Option ResolvedAgent) (access : AccessRequest) : McpM Value :=
  match enforceBound agent access with
  | .error error => deny server access error
  | .ok () => do
    let decision ← authorizeAccess server access
    match decision with
    | .error error => deny server access error
    | .ok () => do
      recordAudit server access .attempted none
      runTool server crates name args transport access

def callTool (name : String) (args : Value) (transport : AccessTransport)
    (agent : Option ResolvedAgent) : McpM Value := do
  limitRate server transport agent
  let request ← withHandle (buildAccessRequest crates name args transport)
  mediate server crates name args transport agent
    { request with agentId := agent.map ResolvedAgent.agentId }

end

-- ==== rules

section

open Talk

variable {G : List McpExchange → McpOp → Prop} {α β : Type}
  {h : List McpExchange} {Q : Except String α → List McpExchange → Prop}

theorem requiredStr_ok {args : Value} {key s : String}
    (hs : requiredStr args key = .ok s) : args.getStr key = some s := by
  unfold requiredStr at hs
  split at hs
  · next s' hget =>
    cases hs
    exact hget
  · cases hs

theorem wp_tryFacade {op : FacadeOp} {hop : op.Ans = Except String α} (hG : G h (.facade op))
    (hQ : ∀ a, Q (cast hop a) (⟨.facade op, a⟩ :: h)) : wp G (tryFacade op hop) Q h := ⟨hG, hQ⟩

theorem wp_withHandle {body : McpM α} (hlock : G h .lockHandle) (hunlock : ∀ h, G h .unlockHandle)
    (hbody : wp G body (fun r h' => Q r (⟨.unlockHandle, ()⟩ :: h'))
      (⟨.lockHandle, true⟩ :: h)) (hlocked : Q (.error "vault is locked")
      (⟨.unlockHandle, ()⟩ :: ⟨.lockHandle, false⟩ :: h)) : wp G (withHandle body) Q h := by
  refine ⟨hlock, fun unlocked => ?_⟩
  cases unlocked with
  | false => exact ⟨hunlock _, fun _ => hlocked⟩
  | true =>
    show wp G (body.attempt.bind _) Q _
    rw [wp_bind, wp_attempt]
    exact wp_mono hbody fun r h' hq => ⟨hunlock h', fun _ => hq⟩

theorem wp_recordAudit {server : Server} {request : AccessRequest} {decision : Audit.AuditDecision}
    {detail : Option String} {Q : Except String Unit → List McpExchange → Prop}
    (hG : ∀ h event, G h .clock ∧ G h (.record event))
    (hnone : server.auditSink = false → Q (.ok ()) h)
    (hok : server.auditSink = true → ∀ t, Q (.ok ())
      (⟨.record (auditEvent t request decision detail), .ok ()⟩ :: ⟨.clock, t⟩ :: h))
    (herror : ∀ t e, Q (.error s!"authenticated audit log unavailable: {e}")
      (⟨.record (auditEvent t request decision detail), .error e⟩ :: ⟨.clock, t⟩ :: h)) :
    wp G (recordAudit server request decision detail) Q h := by
  unfold recordAudit
  cases hsink : server.auditSink with
  | false => exact hnone hsink
  | true =>
    refine ⟨(hG h (auditEvent 0 request decision detail)).1, fun t => ?_⟩
    refine ⟨(hG _ _).2, fun r => ?_⟩
    cases r with
    | ok _ => exact hok hsink t
    | error e => exact herror t e

end

end SovereignVault.Mcp
