/-
`DesktopAccessController` and `DesktopAgentAuthenticator`: what the
desktop installs in the MCP server.

The server's questions to the two are programs of the desktop. Consent is
a question to the human between two readings of the session epoch; an
authentication reads the agent registry from disk, twice when the client
only knows the shared secret (`Expands`).
-/
import SovereignVault.Agents
import SovereignVault.Containers
import SovereignVault.Mcp.Dispatch

namespace SovereignVault.Desktop

open Dialogue Talk Mcp Agents List

-- ==== the interface

inductive DesktopOp where
  | mcp (o : McpOp)
  | epoch
  | request (request : AccessRequest)
  | registry

@[reducible] def DesktopOp.Ans : DesktopOp → Type
  | .mcp o => o.Ans
  | .epoch => Nat
  | .request _ => Except String Unit
  | .registry => Except CoreError Registry

@[reducible] def desktopInterface : Interface where
  Op := DesktopOp
  Ans := DesktopOp.Ans

abbrev DesktopM (α : Type) := Talk desktopInterface String α

abbrev DesktopExchange := Exchange desktopInterface

def ask (o : DesktopOp) : DesktopM o.Ans :=
  Talk.query (I := desktopInterface) o

-- ==== the controllers

def authorize (request : AccessRequest) : DesktopM (Except String Unit) := do
  let epoch ← ask .epoch
  let r ← ask (.request request)
  match r with
  | .error e => pure (.error e)
  | .ok () => do
    -- an approval granted in one unlock is never consumed in the next
    let epoch' ← ask .epoch
    if epoch' ≠ epoch then
      pure (.error "vault state changed during approval; resend the request")
    else pure (.ok ())

structure Listener where
  pairingSecret : String
  tokenKey : MasterKey

/-- The server of a listener: no rate limiter, everything else. -/
def Listener.server (l : Listener) : Server where
  pairingSecret := l.pairingSecret
  accessController := true
  auditSink := true
  agentAuthenticator := true
  rateLimiter := false

def resolve (scope : AgentScope) : Except String ResolvedScope := do
  validateAgentScope scope
  let actions ← scope.actions.mapM AccessAction.parseScopeAction
  let ceiling ← match scope.modeCeiling with
    | none => .ok none
    | some mode =>
      match SecurityMode.parse mode with
      | .ok mode => .ok (some mode)
      | .error e => .error s!"invalid agent scope mode_ceiling {mode.quote}: {e}"
  .ok ⟨scope.containerGlob, actions, ceiling⟩

section

variable (estr : CoreError → String) (l : Listener)

def readAgents : DesktopM (List AgentRecord) := do
  let r ← ask .registry
  Talk.ret ((r.bind (agentsOf l.tokenKey)).mapError estr)

def defaultAgent (token : String) : DesktopM String :=
  if token ≠ l.pairingSecret then throw "invalid shared secret"
  else do
    let agents ← readAgents estr l
    match agents.find? fun a => a.name = DEFAULT_AGENT_NAME ∧ !a.revoked with
    | some a => pure a.agentId
    | none => throw "no default agent"

def claimedAgent (agentId : Option String) (token : String) : DesktopM String :=
  match agentId with
  | some id => pure id
  | none => defaultAgent estr l token

def authenticate (agentId : Option String) (token : String) : DesktopM ResolvedAgent := do
  let agentId ← claimedAgent estr l agentId token
  let agents ← readAgents estr l
  let now ← ask (.mcp .clock)
  let record ← Talk.ret ((authenticateIn l.tokenKey agents agentId token now).mapError estr)
  let scopes ← Talk.ret (record.scopes.mapM resolve)
  pure ⟨record.agentId, scopes⟩

def handler : (o : McpOp) → DesktopM o.Ans
  | .authorize request => authorize request
  | .authenticate agentId token => (authenticate estr l agentId token).attempt
  | o => ask (.mcp o)

def serve (crates : Crates) (raw : String) (pair : PairState) :
    DesktopM (Option Value × PairState) :=
  interpret (handler estr l) (dispatch crates l.server raw pair .mcpWs)

end

-- ==== the histories

inductive Authorizes (request : AccessRequest) :
    Except String Unit → List DesktopExchange → Prop where
  | refused (e : String) (n : Nat) : Authorizes request (.error e)
      [⟨.request request, .error e⟩, ⟨.epoch, n⟩]
  | moved (e : String) (n n' : Nat) : Authorizes request (.error e)
      [⟨.epoch, n'⟩, ⟨.request request, .ok ()⟩, ⟨.epoch, n⟩]
  | granted (n : Nat) : Authorizes request (.ok ())
      [⟨.epoch, n⟩, ⟨.request request, .ok ()⟩, ⟨.epoch, n⟩]

def lookup (e : DesktopExchange) : Bool :=
  match e.op with
  | .registry | .mcp .clock => true
  | _ => false

/-- The exchanges of an authentication: whom it accepts was not revoked
in a registry it read. -/
structure Authenticates (r : Except String ResolvedAgent) (new : List DesktopExchange) : Prop where
  lookups : ∀ e ∈ new, lookup e = true
  accepted : ∀ agent, r = .ok agent → ∃ stored, ⟨.registry, .ok stored⟩ ∈ new
      ∧ ¬ Revoked stored agent.agentId

def plain : McpOp → Bool
  | .authorize _ | .authenticate _ _ => false
  | _ => true

inductive Expands : List McpExchange → List DesktopExchange → Prop where
  | nil : Expands [] []
  | mcp {h : List McpExchange} {hd : List DesktopExchange} {o : McpOp}
      {a : o.Ans} : Expands h hd → plain o = true → Expands (⟨o, a⟩ :: h) (⟨.mcp o, a⟩ :: hd)
  | authorize {h : List McpExchange}
      {hd new : List DesktopExchange} {request : AccessRequest} {r : Except String Unit} :
      Expands h hd → Authorizes request r new → Expands (⟨.authorize request, r⟩ :: h) (new ++ hd)
  | authenticate {h : List McpExchange} {hd new : List DesktopExchange}
      {agentId : Option String} {token : String} {r : Except String ResolvedAgent} : Expands
      h hd → Authenticates r new → Expands (⟨.authenticate agentId token, r⟩ :: h) (new ++ hd)

/-- What a task may ask: what its server may, the registry while the
connection is unpaired, and the human for what the scopes accept. -/
def Serving (l : Listener) (pair : PairState) (hd : List DesktopExchange) : DesktopOp → Prop
  | .mcp .clock => True
  | .mcp o => ∃ h, Expands h hd ∧ Dispatched l.server pair h o
  | .registry => pair = .unpaired
  | _ => True

/-- The answer to the latest lock of the handle, while it is held. -/
def held : List DesktopExchange → Option Bool
  | [] => none
  | ⟨.mcp .lockHandle, unlocked⟩ :: _ => some unlocked
  | ⟨.mcp .unlockHandle, _⟩ :: _ => none
  | _ :: hd => held hd

/-- The controller returned `Ok` in the epoch `n`, and the handle was not
given back since. -/
def Approved (access : AccessRequest) (n : Nat) (hd : List DesktopExchange) : Prop :=
  ∃ since before, hd = since ++ ⟨.epoch, n⟩ :: ⟨.request access, .ok ()⟩ :: ⟨.epoch, n⟩ :: before
    ∧ (⟨.mcp .unlockHandle, ()⟩ : DesktopExchange) ∉ since

/-- No exchange so far changed the vault, released plaintext, decrypted,
signed or sent. -/
def Still (hd : List DesktopExchange) : Prop :=
  ∀ op a, ⟨.mcp (.facade op), a⟩ ∈ hd → op.effect = false

section Histories

variable {h : List McpExchange} {hd new : List DesktopExchange} {op : FacadeOp}
  {request : AccessRequest} {r : Except String Unit}

theorem Authorizes.mem (hnew : Authorizes request r new) {e : DesktopExchange}
    (hmem : e ∈ new) : (∃ n, e = ⟨.epoch, n⟩) ∨ ∃ r, e = ⟨.request request, r⟩ := by
  cases hnew with
  | refused e' n =>
    rcases mem_cons.1 hmem with rfl | hmem
    · exact .inr ⟨_, rfl⟩
    · exact .inl ⟨n, mem_singleton.1 hmem⟩
  | moved e' n n' =>
    rcases mem_cons.1 hmem with rfl | hmem
    · exact .inl ⟨n', rfl⟩
    · rcases mem_cons.1 hmem with rfl | hmem
      · exact .inr ⟨_, rfl⟩
      · exact .inl ⟨n, mem_singleton.1 hmem⟩
  | granted n =>
    rcases mem_cons.1 hmem with rfl | hmem
    · exact .inl ⟨n, rfl⟩
    · rcases mem_cons.1 hmem with rfl | hmem
      · exact .inr ⟨_, rfl⟩
      · exact .inl ⟨n, mem_singleton.1 hmem⟩

def apart (e : DesktopExchange) : Bool :=
  match e.op with
  | .mcp .lockHandle | .mcp .unlockHandle | .mcp (.facade _) => false
  | _ => true

theorem Authorizes.apart (hnew : Authorizes request r new) : ∀ e ∈ new, apart e = true := by
  intro e hmem
  rcases hnew.mem hmem with ⟨n, rfl⟩ | ⟨r, rfl⟩
  · rfl
  · rfl

theorem Authenticates.apart {r : Except String ResolvedAgent}
    (hnew : Authenticates r new) : ∀ e ∈ new, apart e = true := by
  intro e hmem
  have hl := hnew.lookups e hmem
  obtain ⟨o, a⟩ := e
  cases o with
  | registry => rfl
  | mcp o =>
    cases o with
    | clock => rfl
    | _ => cases hl
  | _ => cases hl

theorem facade_notMem {a : op.Ans} {since before : List DesktopExchange}
    (hnew : ∀ e ∈ new, apart e = true) (heq : new ++ hd = since ++ ⟨.mcp (.facade op), a⟩ :: before)
    : ∃ since', hd = since' ++ ⟨.mcp (.facade op), a⟩ :: before := by
  rcases append_eq_append_iff.1 heq with
    ⟨mid, -, hmid⟩ | ⟨mid, hmid, hmid'⟩
  · exact ⟨mid, hmid⟩
  cases mid with
  | nil => exact ⟨[], hmid'.symm⟩
  | cons e mid =>
    cases hmid'
    have hbad := hnew ⟨.mcp (.facade op), a⟩ (hmid ▸ mem_append_right since mem_cons_self)
    cases hbad

theorem Expands.split {a : op.Ans} {since before : List DesktopExchange}
    (hexp : Expands h hd) (heq : hd = since ++ ⟨.mcp (.facade op), a⟩ :: before) :
    ∃ since' before', h = since' ++ ⟨.facade op, a⟩ :: before'
      ∧ Expands before' before := by
  induction hexp generalizing since with
  | nil => cases since <;> cases heq
  | @mcp h hd o a' hexp hplain ih =>
    cases since with
    | nil =>
      cases heq
      exact ⟨[], h, rfl, hexp⟩
    | cons e since =>
      cases heq
      obtain ⟨since', before', rfl, hbefore⟩ := ih rfl
      exact ⟨_ :: since', before', rfl, hbefore⟩
  | authorize hexp hnew ih | authenticate hexp hnew ih =>
    obtain ⟨since₀, heq₀⟩ := facade_notMem hnew.apart heq
    obtain ⟨since', before', rfl, hbefore⟩ := ih heq₀
    exact ⟨_ :: since', before', rfl, hbefore⟩

theorem Expands.mem {a : op.Ans} (hexp : Expands h hd) (hmem : ⟨.facade op, a⟩ ∈ h)
    : ⟨.mcp (.facade op), a⟩ ∈ hd := by
  induction hexp with
  | nil => cases hmem
  | @mcp h hd o a' _ _ ih =>
    rcases mem_cons.1 hmem with heq | hmem
    · cases heq
      exact mem_cons_self
    · exact mem_cons_of_mem _ (ih hmem)
  | authorize _ _ ih | authenticate _ _ ih =>
    rcases mem_cons.1 hmem with heq | hmem
    · cases heq
    · exact mem_append_right _ (ih hmem)

theorem Expands.still (hexp : Expands h hd) (hq : Quiet h) : Still hd := by
  intro op a hmem
  obtain ⟨since, before, heq⟩ := append_of_mem hmem
  obtain ⟨since', before', rfl, -⟩ := hexp.split heq
  exact hq ⟨.facade op, a⟩ (mem_append_right since' mem_cons_self)

theorem Expands.epoch_notMem (hexp : Expands h hd) (hu : Unasked h)
    (k : Nat) : (⟨.epoch, k⟩ : DesktopExchange) ∉ hd := by
  intro hmem
  induction hexp with
  | nil => cases hmem
  | @mcp h hd o a _ _ ih =>
    rcases mem_cons.1 hmem with heq | hmem
    · cases heq
    · exact ih (fun e he => hu e (mem_cons_of_mem _ he)) hmem
  | authorize _ _ _ => cases hu _ mem_cons_self
  | authenticate _ hnew ih =>
    rcases mem_append.1 hmem with hmem | hmem
    · cases hnew.lookups _ hmem
    · exact ih (fun e he => hu e (mem_cons_of_mem _ he)) hmem

theorem Expands.approved {access : AccessRequest}
    (hexp : Expands h hd) (hc : Consented access h) : ∃ n, Approved access n hd
      ∧ ∀ k, ⟨.epoch, k⟩ ∈ hd → k = n := by
  obtain ⟨since, before, rfl, hbefore, hsince⟩ := hc
  induction since generalizing hd with
  | nil =>
    cases hexp with
    | mcp _ hplain => cases hplain
    | @authorize h hd₀ new request r hexp hnew =>
      cases hnew with
      | granted n =>
        refine ⟨n, ⟨[], hd₀, rfl, not_mem_nil⟩, fun k hmem => ?_⟩
        rcases mem_append.1 hmem with hmem | hmem
        · simpa using hmem
        · exact absurd hmem (hexp.epoch_notMem hbefore k)
  | cons e since ih =>
    have hsince' := fun e hmem => hsince e (mem_cons_of_mem _ hmem)
    have he := hsince e mem_cons_self
    cases hexp with
    | @mcp h hd₀ o a hexp hplain =>
      obtain ⟨n, ⟨since', before', rfl, hrel⟩, hall⟩ := ih hexp hsince'
      refine ⟨n, ⟨_ :: since', before', rfl, fun hmem => ?_⟩, fun k hmem => ?_⟩
      · rcases mem_cons.1 hmem with heq | hmem
        · cases heq
          cases he
        · exact hrel hmem
      · rcases mem_cons.1 hmem with heq | hmem
        · cases heq
        · exact hall k hmem
    | authorize _ _ => cases he
    | @authenticate h hd₀ new agentId token r hexp hnew =>
      obtain ⟨n, ⟨since', before', rfl, hrel⟩, hall⟩ := ih hexp hsince'
      refine ⟨n,
        ⟨new ++ since', before', (append_assoc _ _ _).symm, fun hmem => ?_⟩, fun k hmem => ?_⟩
      · rcases mem_append.1 hmem with hmem | hmem
        · cases hnew.lookups _ hmem
        · exact hrel hmem
      · rcases mem_append.1 hmem with hmem | hmem
        · cases hnew.lookups _ hmem
        · exact hall k hmem

end Histories

section Rules

variable {estr : CoreError → String} {l : Listener} {pair : PairState}
  {h : List McpExchange} {hd : List DesktopExchange} {agentId : Option String} {token : String}

theorem authorize_authorizes (request : AccessRequest) : wp (Serving l pair) (authorize request)
      (fun r hd' => ∃ a new, r = .ok a ∧ hd' = new ++ hd
        ∧ Authorizes request a new) hd := by
  refine ⟨trivial, fun n => ⟨trivial, fun r => ?_⟩⟩
  cases r with
  | error e => exact ⟨_, _, rfl, rfl, .refused e n⟩
  | ok _ =>
    refine ⟨trivial, fun n' => ?_⟩
    show wp _ (if n' ≠ n then _ else _) _ _
    by_cases hn : n' = n
    · subst hn
      rw [if_neg (not_not.2 rfl)]
      exact ⟨_, _, rfl, rfl, .granted n'⟩
    · rw [if_pos hn]
      exact ⟨_, _, rfl, rfl, .moved _ n n'⟩

def LookedUp (hd hd' : List DesktopExchange) : Prop :=
  ∃ new, hd' = new ++ hd ∧ ∀ e ∈ new, lookup e = true

theorem LookedUp.refl (hd : List DesktopExchange) : LookedUp hd hd :=
  ⟨[], rfl, fun _ hmem => absurd hmem not_mem_nil⟩

theorem LookedUp.cons {hd' : List DesktopExchange} {e : DesktopExchange}
    (hl : LookedUp hd hd') (he : lookup e = true) : LookedUp hd (e :: hd') := by
  obtain ⟨new, rfl, hall⟩ := hl
  refine ⟨e :: new, rfl, fun e' hmem => ?_⟩
  rcases mem_cons.1 hmem with rfl | hmem
  · exact he
  · exact hall e' hmem

theorem readAgents_read : wp (Serving l .unpaired) (readAgents estr l)
      (fun r hd' => ∃ a, hd' = ⟨.registry, a⟩ :: hd
        ∧ ∀ agents, r = .ok agents → ∃ stored, a = .ok stored
          ∧ agentsOf l.tokenKey stored = .ok agents) hd := by
  refine ⟨rfl, fun a => ⟨a, rfl, fun agents hr => ?_⟩⟩
  cases a with
  | error e => cases hr
  | ok stored => exact ⟨stored, rfl, mapError_eq_ok hr⟩

theorem claimedAgent_lookedUp : wp (Serving l .unpaired) (claimedAgent estr l agentId token)
      (fun _ hd' => LookedUp hd hd') hd := by
  unfold claimedAgent
  split
  · exact .refl hd
  unfold defaultAgent
  split
  · exact .refl hd
  rw [bind_eq, wp_bind]
  refine wp_mono readAgents_read ?_
  rintro r hd' ⟨a, rfl, -⟩
  have hl : LookedUp hd (⟨.registry, a⟩ :: hd) := (LookedUp.refl hd).cons rfl
  cases r with
  | error e => exact hl
  | ok agents =>
    dsimp only [seqPost]
    split
    · exact hl
    · exact hl

theorem authenticate_authenticates : wp (Serving l .unpaired) (authenticate estr l agentId token)
      (fun r hd' => ∃ new, hd' = new ++ hd ∧ Authenticates r new) hd := by
  -- an error, whatever was looked up
  have herror : ∀ hd' e, LookedUp hd hd' → ∃ new, hd' = new ++ hd
      ∧ Authenticates (.error e) new := by
    rintro hd' e ⟨new, rfl, hall⟩
    exact ⟨new, rfl, hall, nofun⟩
  refine wp_seq claimedAgent_lookedUp ?_
  intro r hd' hl
  cases r with
  | error e => exact herror hd' e hl
  | ok id =>
    refine wp_seq readAgents_read ?_
    rintro r hd'' ⟨a, rfl, hread⟩
    have hl' : LookedUp hd (⟨.registry, a⟩ :: hd') := hl.cons rfl
    cases r with
    | error e => exact herror _ e hl'
    | ok agents =>
      obtain ⟨stored, rfl, hagents⟩ := hread agents rfl
      show wp _ (Talk.bind (ask (.mcp .clock)) _) _ _
      refine wp_ask_then trivial fun now => ?_
      have hl'' : LookedUp hd (⟨.mcp .clock, now⟩ :: ⟨.registry, .ok stored⟩ :: hd') := hl'.cons rfl
      refine wp_check (fun record hrecord => ?_) fun e _ => herror _ e hl''
      refine wp_check (fun scopes _ => ?_) fun e _ => herror _ e hl''
      have hauth := mapError_eq_ok hrecord
      obtain ⟨new, rfl, hall⟩ := hl
      refine ⟨⟨.mcp .clock, now⟩ :: ⟨.registry, .ok stored⟩ :: new,
        rfl, ?_, ?_⟩
      · intro e hmem
        rcases mem_cons.1 hmem with rfl | hmem
        · rfl
        · rcases mem_cons.1 hmem with rfl | hmem
          · rfl
          · exact hall e hmem
      · intro agent hagent
        cases hagent
        obtain ⟨hid', hrevoked⟩ := authenticateIn_revoked hagents hauth
        refine ⟨stored, mem_cons_of_mem _ mem_cons_self, ?_⟩
        rw [hid']
        exact hrevoked

theorem serve_serving (estr : CoreError → String) (l : Listener) (crates : Crates)
    (raw : String) (pair : PairState) : wp (Serving l pair) (serve estr l crates raw pair)
      (fun r hd => ∃ h, Expands h hd
        ∧ Responded l.server crates pair .mcpWs r h) [] := by
  have hop : ∀ h hd o, Expands h hd → Dispatched l.server pair h o →
      wp (Serving l pair) (handler estr l o)
        (fun r hd' => ∃ a, r = .ok a ∧ Expands (⟨o, a⟩ :: h) hd') hd := by
    intro h hd o hexp hG
    cases o with
    | authorize request =>
      refine wp_mono (authorize_authorizes request) ?_
      rintro r hd' ⟨a, new, rfl, rfl, hnew⟩
      exact ⟨a, rfl, .authorize hexp hnew⟩
    | authenticate agentId token =>
      have hpair : pair = .unpaired := hG
      subst hpair
      show wp _ (Talk.attempt _) _ _
      rw [wp_attempt]
      refine wp_mono authenticate_authenticates ?_
      rintro r hd' ⟨new, rfl, hnew⟩
      exact ⟨r, rfl, .authenticate hexp hnew⟩
    | clock => exact ⟨trivial, fun a => ⟨a, rfl, .mcp hexp rfl⟩⟩
    | _ => exact ⟨⟨h, hexp, hG⟩, fun a => ⟨a, rfl, .mcp hexp rfl⟩⟩
  exact wp_interpret hop (dispatch_responded l.server crates raw pair .mcpWs) .nil

end Rules

end SovereignVault.Desktop
