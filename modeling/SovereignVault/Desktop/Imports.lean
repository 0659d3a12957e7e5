/-
Agent imports: what the approver is shown and what the vault is given.

`validate_agent_import` reads the arguments twice, for the request and for
the execution. Whatever it lets through is `ImportSound`, and a call asks
the controller with the summary of what it let through and the vault with
the entries (`AsValidated`).
-/
import SovereignVault.AgentRevocation
import SovereignVault.Desktop.Controllers

namespace SovereignVault.Desktop

open Dialogue Talk Mcp Agents List

-- ==== what validation lets through

theorem of_bind_ok {ε α β : Type} {x : Except ε α} {f : α → Except ε β} {b : β}
    (h : (x >>= f) = .ok b) : ∃ a, x = .ok a ∧ f a = .ok b := by
  cases x with
  | error e => cases h
  | ok a => exact ⟨a, rfl, h⟩

theorem mapM_parseScopeAction {actions : List String} (h : validateScopeActions actions = .ok ()) :
    ∃ parsed, actions.mapM AccessAction.parseScopeAction = .ok parsed
      ∧ parsed.length = actions.length := by
  induction actions with
  | nil => exact ⟨[], rfl, rfl⟩
  | cons action rest ih =>
    obtain ⟨a, ha, hrest⟩ := of_bind_ok h
    obtain ⟨parsed, hparsed, hlen⟩ := ih hrest
    refine ⟨a :: parsed, ?_, congrArg (· + 1) hlen⟩
    rw [mapM_cons, ha]
    show (rest.mapM AccessAction.parseScopeAction >>= _) = _
    rw [hparsed]
    rfl

theorem resolve_of_validated {scope : AgentScope} (h : validateAgentScope scope = .ok ()) :
    ∃ resolved, resolve scope = .ok resolved ∧ resolved.actions ≠ [] := by
  obtain ⟨u, hglob, hrest⟩ := of_bind_ok h
  split at hrest
  · cases hrest
  next hsome =>
  obtain ⟨u', hactions, hmode⟩ := of_bind_ok hrest
  obtain ⟨parsed, hparsed, hlen⟩ := mapM_parseScopeAction hactions
  have hne : parsed ≠ [] := by
    rintro rfl
    exact hsome (List.isEmpty_iff.2 (length_eq_zero_iff.1 hlen.symm))
  unfold resolve
  rw [h]
  show ∃ resolved, (scope.actions.mapM AccessAction.parseScopeAction >>= _) = _ ∧ _
  rw [hparsed]
  unfold validateModeCeiling at hmode
  cases hceiling : scope.modeCeiling with
  | none => exact ⟨_, rfl, hne⟩
  | some mode =>
    rw [hceiling] at hmode
    dsimp only at hmode ⊢
    cases hm : SecurityMode.parse mode with
    | ok m => exact ⟨_, rfl, hne⟩
    | error e =>
      rw [hm] at hmode
      cases hmode

theorem validateAgentScopes_ok {scopes : List AgentScope}
    (h : validateAgentScopes scopes = .ok ()) :
    ∀ scope ∈ scopes, validateAgentScope scope = .ok () := by
  induction scopes with
  | nil => exact fun _ hmem => absurd hmem not_mem_nil
  | cons scope rest ih =>
    obtain ⟨u, hscope, hrest⟩ := of_bind_ok h
    exact forall_mem_cons.2 ⟨hscope, ih hrest⟩

structure Importable (name : String) (scopes : List AgentScope) : Prop where
  named : name ≠ ""
  concrete : scopes ≠ []
  resolves : ∀ scope ∈ scopes, ∃ resolved, resolve scope = .ok resolved ∧ resolved.actions ≠ []

theorem validateImportEntry_ok {names : List String} {entry : AgentImportEnvelopeEntry}
    (h : validateImportEntry names entry = .ok ()) :
    entry.name ∉ names ∧ Importable entry.name entry.scopes := by
  unfold validateImportEntry at h
  iterate 5
    split at h
    · cases h
  next hname hseen _ _ hscopes =>
  refine ⟨by simpa using hseen, by simpa using hname, by simpa using hscopes, ?_⟩
  exact fun scope hmem => resolve_of_validated (validateAgentScopes_ok h scope hmem)

theorem validateImportEntries_ok {names : List String} {entries : List AgentImportEnvelopeEntry}
    (h : validateImportEntries names entries = .ok ()) :
    (entries.map (·.name)).Nodup ∧ ∀ e ∈ entries, e.name ∉ names ∧ Importable e.name e.scopes := by
  induction entries generalizing names with
  | nil => exact ⟨nodup_nil, fun _ hmem => absurd hmem not_mem_nil⟩
  | cons entry rest ih =>
    obtain ⟨u, hentry, hrest⟩ := of_bind_ok h
    obtain ⟨hnodup, hall⟩ := ih hrest
    refine ⟨nodup_cons.2 ⟨?_, hnodup⟩, forall_mem_cons.2 ⟨validateImportEntry_ok hentry, ?_⟩⟩
    · intro hmem
      obtain ⟨e, he, heq⟩ := mem_map.1 hmem
      exact (hall e he).1 (heq ▸ mem_cons_self)
    · exact fun e he => ⟨fun hmem => (hall e he).1 (mem_cons_of_mem _ hmem), (hall e he).2⟩

/-- What the approver is shown is what goes to the registry. -/
structure ImportSound (v : ValidatedAgentImport) : Prop where
  shown : v.summary.agents.map (fun a => (a.name, a.scopes))
    = v.entries.map fun e => (e.name, e.scopes)
  counted : v.summary.agentCount = v.entries.length
  mode : v.summary.mode = if v.replaceExisting then "create_or_replace" else "create_only"
  unique : (v.entries.map (·.name)).Nodup
  importable : ∀ e ∈ v.entries, Importable e.name e.scopes

theorem validateAgentImport_sound {crates : Crates} {args : Value} {v : ValidatedAgentImport}
    (h : validateAgentImport crates args = .ok v) : ImportSound v := by
  obtain ⟨envelope, -, h⟩ := of_bind_ok h
  iterate 2
    split at h
    · cases h
  obtain ⟨⟨mode, replaceExisting⟩, hmode, h⟩ := of_bind_ok h
  obtain ⟨u, hentries, h⟩ := of_bind_ok h
  obtain ⟨hnodup, hall⟩ := validateImportEntries_ok hentries
  cases h
  refine ⟨by simp, by simp, ?_, by simpa [Function.comp_def] using hnodup, ?_⟩
  · unfold importMode at hmode
    split at hmode <;> cases hmode <;> rfl
  · simpa using fun e he => (hall e he).2

-- ==== what is asked

/-- The controller is asked with the summary of the validated import, and
the vault with its entries. -/
def AsValidated (crates : Crates) (args : Value) : McpOp → Prop
  | .authorize access =>
    ∃ v, validateAgentImport crates args = .ok v ∧ access.importSummary = some v.summary
  | .facade (.importAgentsAtomically entries replaceExisting) =>
    ∃ v, validateAgentImport crates args = .ok v ∧ v.entries = entries
      ∧ v.replaceExisting = replaceExisting
  | _ => True

variable {entries : List AgentImportEntry} {replaceExisting : Bool} {server : Server}
  {crates : Crates} {args : Value} {access : AccessRequest} {h : List McpExchange}
  {transport : AccessTransport} {agent : Option ResolvedAgent} {α β : Type}

theorem asks_recordAudit {decision : Audit.AuditDecision} {detail : Option String} :
    Asks (AsValidated crates args) (recordAudit server access decision detail) := by
  unfold recordAudit
  cases server.auditSink with
  | false => trivial
  | true =>
    refine ⟨trivial, fun _ => ⟨trivial, fun r => ?_⟩⟩
    cases r with
    | ok _ | error e => trivial

theorem asks_withHandle {body : McpM α} (hbody : Asks (AsValidated crates args) body) :
    Asks (AsValidated crates args) (withHandle body) := by
  refine ⟨trivial, fun unlocked => ?_⟩
  cases unlocked with
  | false => exact ⟨trivial, fun _ => trivial⟩
  | true => exact hbody.attempt.bind fun _ => ⟨trivial, fun _ => trivial⟩

theorem asks_deny {error : String} :
    Asks (AsValidated crates args) (deny server access error : McpM Value) :=
  asks_recordAudit.attempt.bind fun _ => trivial

theorem asks_runTool : Asks (AsValidated crates args)
    (runTool server crates "vault.import_agents" args transport access) := by
  have hexecute : Asks (AsValidated crates args)
      (executeTool crates "vault.import_agents" args transport) := by
    show Asks _ (Talk.bind (.ret (validateAgentImport crates args)) _)
    cases hv : validateAgentImport crates args with
    | error e => trivial
    | ok v =>
      refine ⟨⟨v, hv, rfl, rfl⟩, fun r => ?_⟩
      cases r with
      | ok result | error e => trivial
  unfold runTool
  rw [if_neg (by decide)]
  refine (asks_withHandle hexecute.attempt).bind fun _ => ?_
  exact asks_recordAudit.attempt.bind fun _ => trivial

theorem asks_mediate (hshown : AsValidated crates args (.authorize access)) :
    Asks (AsValidated crates args)
      (mediate server crates "vault.import_agents" args transport agent access) := by
  have hrun : Asks (AsValidated crates args) (do
      recordAudit server access .attempted none
      runTool server crates "vault.import_agents" args transport access) :=
    asks_recordAudit.bind fun _ => asks_runTool
  unfold mediate
  split
  · exact asks_deny
  unfold authorizeAccess
  cases server.accessController with
  | false => exact hrun
  | true =>
    refine ⟨hshown, fun decision => ?_⟩
    cases decision with
    | error error => exact asks_deny
    | ok _ => exact hrun

theorem buildAccessRequest_import : buildAccessRequest crates "vault.import_agents" args transport
    = .ret ((validateAgentImport crates args).map fun v => { simpleRequest transport .importAgents
        (buildAuthorizationContext crates "vault.import_agents" args) with
      importSummary := some v.summary }) := by
  show Talk.bind (.ret (validateAgentImport crates args)) _ = _
  cases validateAgentImport crates args with
  | error e | ok v => rfl

theorem asks_callTool : Asks (AsValidated crates args)
    (callTool server crates "vault.import_agents" args transport agent) := by
  unfold callTool
  rw [buildAccessRequest_import]
  refine Asks.bind ?_ fun _ => ⟨trivial, fun unlocked => ?_⟩
  · unfold limitRate
    cases server.rateLimiter with
    | false => trivial
    | true => exact ⟨trivial, fun _ => trivial⟩
  cases unlocked with
  | false => exact ⟨trivial, fun _ => trivial⟩
  | true =>
    refine ⟨trivial, fun _ => ?_⟩
    cases hv : validateAgentImport crates args with
    | error e => trivial
    | ok v => exact asks_mediate ⟨v, hv, rfl⟩

/-- An import that is executed is the one that was consented to, down to
each scope, and makes no agent without one. -/
theorem import_as_approved {k : Except String AgentImportResult → McpM Value}
    (hf : Follows (callTool server crates "vault.import_agents" args transport agent) h
      (.ask (.facade (.importAgentsAtomically entries replaceExisting)) k)) :
    (server.accessController → ∃ access summary, Consented access h
      ∧ access.importSummary = some summary
      ∧ summary.agents.map (fun a => (a.name, a.scopes)) = entries.map (fun e => (e.name, e.scopes))
      ∧ summary.agentCount = entries.length
      ∧ summary.mode = if replaceExisting then "create_or_replace" else "create_only")
    ∧ (entries.map (·.name)).Nodup ∧ (∀ e ∈ entries, Importable e.name e.scopes)
    ∧ ∀ F key fresh now stored stored', Crash.Prog.Reaches F
      (importAgentsAtomically key entries replaceExisting fresh now) stored stored' →
        NoneUnscoped key stored stored' := by
  obtain ⟨hsaid, ⟨v, hv, rfl, rfl⟩, -⟩ := asks_callTool.follows hf
  have hsound := validateAgentImport_sound hv
  refine ⟨fun hcontroller => ?_, hsound.unique, hsound.importable, ?_⟩
  · have hmediated : wp (Mediated server agent)
        (callTool server crates "vault.import_agents" args transport agent)
        (Answered server agent crates transport) [] :=
      callTool_wp (fun _ hmem => absurd hmem not_mem_nil) fun _ hmem => absurd hmem not_mem_nil
    obtain ⟨access, -, hready⟩ := (hmediated.asks hf).2.1 rfl
    obtain ⟨since, before, rfl, hrest⟩ := hready.consent hcontroller
    obtain ⟨v', hv', hsummary⟩ := hsaid _ (mem_append_right since mem_cons_self)
    cases hv.symm.trans hv'
    exact ⟨access, v.summary, ⟨since, before, rfl, hrest⟩, hsummary, hsound.shown, hsound.counted,
      hsound.mode⟩
  · exact fun F key fresh now stored stored' => Crash.Prog.wp.reaches
      (importAgentsAtomically_scoped fun e he => (hsound.importable e he).concrete)

-- ==== one agent

namespace Sample

def bot : AgentImportEnvelopeEntry := ⟨"bot", [⟨"a", ["read"], none⟩], none, false⟩

def importCrates : Crates :=
  { Mcp.Sample.plainCrates with envelope := fun _ => .ok ⟨1, 0, 1, [bot]⟩ }

def importArgs : Value := .object [("envelope", .null)]

def validated : ValidatedAgentImport :=
  ⟨⟨"create_only", 1, [⟨"bot", bot.scopes⟩]⟩, [⟨"bot", bot.scopes⟩], false⟩

theorem validateScopeGlob_a : validateScopeGlob "a" = .ok () := by
  have hsplit : "a".splitOn "/" = ["a"] := by
    unfold String.splitOn
    rw [if_neg (by decide)]
    unfold String.splitOnAux
    rw [if_neg (by decide), if_neg (by decide)]
    unfold String.splitOnAux
    rw [if_pos (by decide)]
    decide +kernel
  have hends : "a".endsWith "/" = false := by decide +kernel
  unfold validateScopeGlob
  rw [hsplit, hends]
  simp
  decide +kernel

theorem validateAgentImport_eq : validateAgentImport importCrates importArgs = .ok validated := by
  have hscope : validateAgentScope ⟨"a", ["read"], none⟩ = .ok () := by
    unfold validateAgentScope
    rw [validateScopeGlob_a]
    rfl
  show (((validateAgentScope ⟨"a", ["read"], none⟩ >>= fun _ => _)
    >>= fun _ => _) >>= fun _ => _) = _
  rw [hscope]
  rfl

theorem call_follows : ∃ h k, Follows
    (callTool Mcp.Sample.desktopServer importCrates "vault.import_agents" importArgs
      .mcpStdio none) h
      (.ask (.facade (.importAgentsAtomically validated.entries false)) k) := by
  obtain ⟨k, hexecute⟩ : ∃ k, executeTool importCrates "vault.import_agents" importArgs .mcpStdio
      = .ask (.facade (.importAgentsAtomically validated.entries false)) k := by
    show ∃ k, Talk.bind (.ret (validateAgentImport importCrates importArgs)) _ = _
    rw [validateAgentImport_eq]
    exact ⟨_, rfl⟩
  have hcall := converse_follows Mcp.Sample.consenting
    (callTool Mcp.Sample.desktopServer importCrates "vault.import_agents" importArgs
      .mcpStdio none) 6
  unfold callTool mediate runTool at hcall ⊢
  simp only [buildAccessRequest_import, validateAgentImport_eq, hexecute] at hcall ⊢
  exact ⟨_, _, hcall⟩

end Sample

theorem import_as_approved_one : ∃ h access summary, Consented access h
    ∧ access.importSummary = some summary
    ∧ summary.agents.map (fun a => (a.name, a.scopes)) = [("bot", Sample.bot.scopes)]
    ∧ summary.mode = "create_only" := by
  obtain ⟨h, k, hf⟩ := Sample.call_follows
  obtain ⟨access, summary, hconsented, hsummary, hshown, -, hmode⟩ := (import_as_approved hf).1 rfl
  exact ⟨h, access, summary, hconsented, hsummary, hshown, hmode⟩

end SovereignVault.Desktop
