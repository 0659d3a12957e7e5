/-
`dispatch`: one JSON-RPC message of a connection.

A connection is paired once, by its first request, and keeps the agent it
was paired as. A message of an unpaired connection reaches the
authenticator or nothing; one of a paired connection reaches the vault as
that agent, and never the authenticator again.
-/
import SovereignVault.Mcp.Mediation

namespace SovereignVault.Mcp

open Dialogue Talk

-- ==== the messages

inductive PairState where
  | unpaired
  | alreadyPaired (agent : Option ResolvedAgent)
  | failed
  deriving DecidableEq

def PairState.agent : PairState → Option ResolvedAgent
  | .alreadyPaired agent => agent
  | _ => none

def PARSE_ERROR : Int := -32700

def METHOD_NOT_FOUND : Int := -32601

def UNPAIRED : Int := -32001

def okResponse (id result : Value) : Value :=
  .object [("id", id), ("jsonrpc", .string "2.0"), ("result", result)]

def errorResponse (id : Value) (code : Int) (message : String) : Value :=
  .object [("error", .object [("code", .number (.negative code)),
      ("message", .string message)]),
    ("id", id), ("jsonrpc", .string "2.0")]

def textContent (text : String) (isError : Bool) : Value :=
  .object [("content", .array [.object [("text", .string text),
      ("type", .string "text")]]),
    ("isError", .bool isError)]

section

variable (crates : Crates)

def toolResult : Except String Value → Value
  | .ok value =>
    textContent (match crates.toText value with
      | .ok text => text
      | .error _ => "") false
  | .error error => textContent error true

variable (server : Server)

def resolvePairing (agentId : Option String) (token : String) : McpM (Option ResolvedAgent) :=
  match server.agentAuthenticator with
  | true => do
    let r ← ask (.authenticate agentId token)
    let agent ← Talk.ret r
    pure (some agent)
  | false =>
    if agentId = none ∧ token = server.pairingSecret then pure none
    else throw "Unpaired connection"

def pairingToken (params : Value) : String :=
  ((params.getStr "token").orElse fun _ => params.getStr "secret").getD ""

def dispatchUnpaired (method : String) (params id : Value) : McpM (Option Value × PairState) :=
  let refused := (some (errorResponse id UNPAIRED "Unpaired connection"),
    PairState.failed)
  if method = "vault.pair" then do
    let r ← (resolvePairing server (params.getStr "agent_id")
      (pairingToken params)).attempt
    match r with
    | .ok agent =>
      pure (some (okResponse id (.object
        [("agent_id", .optional (agent.map ResolvedAgent.agentId)),
          ("paired", .bool true)])), .alreadyPaired agent)
    | .error _ => pure refused
  else pure refused

def listTools : McpM Bool := do
  let unlocked ← ask .lockHandle
  match unlocked with
  | true => do
    let enabled ← facade .brokerEnabled
    ask .unlockHandle
    pure enabled
  | false => do
    ask .unlockHandle
    pure false

def initializeResult : Value :=
  .object [("capabilities", .object [("tools", .object [])]),
    ("protocolVersion", .string "2024-11-05"),
    ("serverInfo", .object [("name", .string "sovereign-vault"),
      ("version", .string crates.version)])]

def dispatchPaired (method : String) (params id : Value)
    (agent : Option ResolvedAgent) (transport : AccessTransport) : McpM (Option Value) :=
  if method = "initialize" then
    pure (some (okResponse id (initializeResult crates)))
  else if method = "tools/list" then do
    let enabled ← listTools
    pure (some (okResponse id
      (.object [("tools", crates.toolDescriptors enabled)])))
  else if method = "tools/call" then do
    let result ← (callTool server crates ((params.getStr "name").getD "")
      ((params.get "arguments").getD .null) transport agent).attempt
    pure (some (okResponse id (toolResult crates result)))
  else if method = "vault.pair" then
    pure (some (okResponse id (.object [("paired", .bool true)])))
  else if method = "ping" then pure (some (okResponse id (.object [])))
  else pure (some (errorResponse id METHOD_NOT_FOUND
    s!"method not found: {method}"))

/-- `dispatch`: the response, if there is one, and the state of the
connection after it. -/
def dispatch (raw : String) (pair : PairState)
    (transport : AccessTransport) : McpM (Option Value × PairState) :=
  match crates.fromStr raw with
  | .error e => pure (some (errorResponse .null PARSE_ERROR e), pair)
  | .ok req =>
    let params := (req.get "params").getD .null
    match req.getStr "method", req.get "id" with
    | none, _ | _, none | _, some .null => pure (none, pair)
    | some method, some id =>
      match pair with
      | .unpaired => dispatchUnpaired server method params id
      | pair => do
        let response ← dispatchPaired crates server method params id pair.agent transport
        pure (response, pair)

end

-- ==== what it asks

/-- What a message of a connection may ask: the authenticator while it is
unpaired; the vault, under the lock, past that. -/
def Dispatched (server : Server) (pair : PairState) (h : List McpExchange) : McpOp → Prop
  | .facade op => pair ≠ .unpaired ∧ holding h = some true
      ∧ (op = .brokerEnabled ∧ Unasked h ∨ Mediated server pair.agent h (.facade op))
  | .authorize access => pair ≠ .unpaired ∧ Mediated server pair.agent h (.authorize access)
  | .authenticate _ _ => pair = .unpaired
  | _ => True

/-- A paired connection stays as it is; an unpaired one is bound to whom
the authenticator accepted. -/
def Keeps (server : Server) (pair pair' : PairState) (h : List McpExchange) : Prop :=
  match pair with
  | .unpaired => ∀ agent, pair'
      = .alreadyPaired agent → server.agentAuthenticator → ∃ bound agentId token, agent = some bound
        ∧ h = [⟨.authenticate agentId token, .ok bound⟩]
  | pair => pair' = pair

/-- What leaves the process after a file was read is the filtered
result. -/
def Releases (crates : Crates) (transport : AccessTransport)
    (response : Option Value) (h : List McpExchange) : Prop :=
  ∀ c f bytes, ⟨.facade (.readFile c f), .ok bytes⟩ ∈ h →
    ∃ id result, response = some (okResponse id (toolResult crates result))
      ∧ Filtered crates transport result h

def Responded (server : Server) (crates : Crates) (pair : PairState) (transport : AccessTransport)
    (r : Except String (Option Value × PairState)) (h : List McpExchange) : Prop :=
  ∃ response pair', r = .ok (response, pair')
    ∧ Keeps server pair pair' h ∧ Releases crates transport response h

variable {server : Server} {crates : Crates} {transport : AccessTransport}
  {pair : PairState} {h : List McpExchange} {method raw : String} {params id : Value}

theorem Responded.paired {agent : Option ResolvedAgent} {response : Option Value}
    {pair : PairState} (hresp : Responded server crates (.alreadyPaired agent) transport
      (.ok (response, pair)) h) : pair = .alreadyPaired agent := by
  obtain ⟨response', pair', heq, hkeeps, -⟩ := hresp
  cases heq
  exact hkeeps

theorem Quiet.releases (hq : Quiet h) (response : Option Value) :
    Releases crates transport response h := by
  intro c f bytes hmem
  cases hq _ hmem

theorem quiet_nil : Quiet [] := fun _ hmem => absurd hmem List.not_mem_nil

theorem unasked_nil : Unasked [] := fun _ hmem => absurd hmem List.not_mem_nil

theorem responded_failed (hq : Quiet h) (response : Option Value) :
    Responded server crates .unpaired transport (.ok (response, .failed)) h :=
  ⟨response, .failed, rfl, nofun, hq.releases response⟩

theorem dispatchUnpaired_responded :
    wp (Dispatched server .unpaired) (dispatchUnpaired server method params id)
      (Responded server crates .unpaired transport) [] := by
  unfold dispatchUnpaired
  by_cases hmethod : method = "vault.pair"
  · rw [if_pos hmethod, bind_eq, wp_bind, wp_attempt]
    unfold resolvePairing
    cases hauth : server.agentAuthenticator with
    | true =>
      refine wp_ask_then rfl fun r => ?_
      cases r with
      | error e => exact responded_failed (quiet_nil.cons rfl) _
      | ok bound =>
        refine ⟨_, _, rfl, ?_, (quiet_nil.cons rfl).releases _⟩
        intro agent hagent _
        cases hagent
        exact ⟨bound, _, _, rfl, rfl⟩
    | false =>
      dsimp only
      split
      · refine ⟨_, _, rfl, ?_, quiet_nil.releases _⟩
        intro agent _ hauth'
        rw [hauth] at hauth'
        cases hauth'
      · exact responded_failed quiet_nil _
  · rw [if_neg hmethod]
    exact responded_failed quiet_nil _

theorem Mediated.dispatched (hpair : pair ≠ .unpaired) (h : List McpExchange)
    (o : McpOp) (hm : Mediated server pair.agent h o) : Dispatched server pair h o := by
  cases o with
  | facade op => exact ⟨hpair, hm.1, .inr hm⟩
  | authorize access => exact ⟨hpair, hm⟩
  | authenticate agentId token => exact hm.elim
  | _ => trivial

theorem listTools_quiet (hpair : pair ≠ .unpaired) : wp (Dispatched server pair) listTools
      (fun r h => (∃ enabled, r = .ok enabled) ∧ Quiet h) [] := by
  refine wp_ask_then trivial fun unlocked => ?_
  cases unlocked with
  | true =>
    refine wp_ask_then ⟨hpair, rfl, .inl ⟨rfl, ?_⟩⟩ fun enabled => ?_
    · exact unasked_nil.cons rfl
    refine wp_ask_then trivial fun _ => ⟨⟨enabled, rfl⟩, ?_⟩
    exact ((quiet_nil.cons rfl).cons rfl).cons rfl
  | false =>
    refine wp_ask_then trivial fun _ => ⟨⟨false, rfl⟩, ?_⟩
    exact (quiet_nil.cons rfl).cons rfl

theorem dispatchPaired_releases (hpair : pair ≠ .unpaired) : wp (Dispatched server pair)
      (dispatchPaired crates server method params id pair.agent transport)
      (fun r h => ∃ response, r = .ok response
        ∧ Releases crates transport response h) [] := by
  unfold dispatchPaired
  split_ifs
  · exact ⟨_, rfl, quiet_nil.releases _⟩
  · rw [bind_eq, wp_bind]
    refine wp_mono (listTools_quiet hpair) ?_
    rintro r h ⟨⟨enabled, rfl⟩, hq⟩
    exact ⟨_, rfl, hq.releases _⟩
  · rw [bind_eq, wp_bind, wp_attempt]
    refine wp_mono (wp_weaken (callTool_wp quiet_nil unasked_nil) (Mediated.dispatched hpair)) ?_
    intro result h hanswered
    exact ⟨_, rfl, fun _ _ _ _ => ⟨id, result, rfl, hanswered.filtered⟩⟩
  · exact ⟨_, rfl, quiet_nil.releases _⟩
  · exact ⟨_, rfl, quiet_nil.releases _⟩
  · exact ⟨_, rfl, quiet_nil.releases _⟩

theorem dispatch_responded (server : Server) (crates : Crates)
    (raw : String) (pair : PairState) (transport : AccessTransport) :
    wp (Dispatched server pair) (dispatch crates server raw pair transport)
      (Responded server crates pair transport) [] := by
  -- no request to answer: the connection stays as it is
  have hkeeps : Keeps server pair pair [] := by
    cases pair with
    | unpaired => exact nofun
    | alreadyPaired agent | failed => rfl
  have hpaired : ∀ method params id, pair ≠ .unpaired →
      wp (Dispatched server pair) (do
        let response ← dispatchPaired crates server method params id pair.agent transport
        pure (response, pair))
        (Responded server crates pair transport) [] := by
    intro method params id hpair
    refine wp_seq (dispatchPaired_releases hpair) ?_
    rintro r h ⟨response, rfl, hreleases⟩
    refine ⟨response, pair, rfl, ?_, hreleases⟩
    cases pair with
    | unpaired => exact absurd rfl hpair
    | alreadyPaired agent | failed => rfl
  unfold dispatch
  split
  · exact ⟨_, _, rfl, hkeeps, quiet_nil.releases _⟩
  dsimp only
  split
  · exact ⟨_, _, rfl, hkeeps, quiet_nil.releases _⟩
  · exact ⟨_, _, rfl, hkeeps, quiet_nil.releases _⟩
  · exact ⟨_, _, rfl, hkeeps, quiet_nil.releases _⟩
  · cases pair with
    | unpaired => exact dispatchUnpaired_responded
    | alreadyPaired agent | failed => exact hpaired _ _ _ nofun

end SovereignVault.Mcp
