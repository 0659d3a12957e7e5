/-
`sv-core/src/agents.rs`: the registry of agent identities.

The registry is one authenticated file, read as a whole and replaced as a
whole. Its integrity tag and the token hashes are ideal HMACs. Times count
nanoseconds. What the OS draws is passed in. The scope and import types of
`sv-core` and `sv-mcp` mirror each other; one type stands for both.
-/
import SovereignVault.State
import SovereignVault.Mcp.Request

namespace SovereignVault.Agents

open Crash Mcp

-- ==== the file

structure TokenHash where
  key : MasterKey
  token : String
  deriving DecidableEq

structure AgentRecord where
  agentId : String
  name : String
  tokenHash : TokenHash
  createdAt : Nat
  expiresAt : Option Nat
  revoked : Bool
  scopes : List AgentScope
  deriving DecidableEq

inductive Integrity where
  | missing
  | tag (key : MasterKey) (schema : Nat) (agents : List AgentRecord)
  | badHex
  | other
  deriving DecidableEq

structure AgentsFile where
  schema : Nat
  agents : List AgentRecord
  integrity : Integrity
  deriving DecidableEq

/-- `agents.json`: absent, unreadable as JSON, or a file. -/
abbrev Registry := Option (Except String AgentsFile)

abbrev AgentsM := Prog Registry CoreError

def AGENTS_SCHEMA : Nat := 2

def DEFAULT_AGENT_NAME : String := "Default"

def verifyIntegrity (key : MasterKey) (file : AgentsFile) : Except CoreError Unit :=
  match file.integrity with
  | .missing => .error (.misuse
      "agents.json: missing integrity tag; re-pair the agent registry")
  | .badHex => .error (.misuse "invalid hex integrity tag")
  | integrity =>
    if integrity = .tag key file.schema file.agents then .ok ()
    else .error (.misuse ("agents.json: integrity tag mismatch (file may "
      ++ "be corrupted or tampered; re-pair the agent registry)"))

def agentsOf (key : MasterKey) (stored : Registry) : Except CoreError (List AgentRecord) :=
  match stored with
  | none => .ok []
  | some (.error e) => .error (.misuse s!"agents.json: {e}")
  | some (.ok file) =>
    if file.schema = 1 then .error (.misuse ("agents.json: schema v1 is no "
      ++ "longer supported; re-pair the agent registry"))
    else if file.schema = 2 then
      match verifyIntegrity key file with
      | .ok () => .ok file.agents
      | .error e => .error e
    else .error (.misuse
      s!"agents.json: unsupported schema version {file.schema}")

def authenticatedFile (key : MasterKey) (agents : List AgentRecord) : Registry :=
  some (.ok { schema := AGENTS_SCHEMA, agents := agents,
              integrity := .tag key AGENTS_SCHEMA agents })

def readFile (key : MasterKey) : AgentsM (List AgentRecord) := do
  let stored ← Prog.get
  Prog.ret (agentsOf key stored)

def writeFile (key : MasterKey) (agents : List AgentRecord) : AgentsM Unit := do
  Prog.modify fun _ => authenticatedFile key agents
  Prog.sync

@[simp] theorem agentsOf_authenticatedFile (key : MasterKey)
    (agents : List AgentRecord) : agentsOf key (authenticatedFile key agents) = .ok agents := by
  unfold agentsOf authenticatedFile verifyIntegrity
  simp [AGENTS_SCHEMA]

-- ==== the operations

def freshRecord (key : MasterKey) (name : String)
    (scopes : List AgentScope) (agentId token : String) (now : Nat) : AgentRecord where
  agentId := agentId
  name := name
  tokenHash := ⟨key, token⟩
  createdAt := now
  expiresAt := none
  revoked := false
  scopes := scopes

def createAgent (key : MasterKey) (name : String)
    (scopes : List AgentScope) (agentId token : String) (now : Nat) :
    AgentsM (String × String) := do
  let agents ← readFile key
  writeFile key (agents ++ [freshRecord key name scopes agentId token now])
  pure (agentId, token)

def checkNames (seen : List String) : List AgentImportEntry → Except CoreError Unit
  | [] => .ok ()
  | entry :: rest =>
    if entry.name.isEmpty then
      .error (.misuse "agent.name must not be empty")
    else if seen.contains entry.name then
      .error (.misuse s!"agent import contains duplicate name: {entry.name}")
    else checkNames (entry.name :: seen) rest

def revokeNamed (name : String) (agents : List AgentRecord) : List AgentRecord :=
  agents.map fun a => if a.name = name then { a with revoked := true } else a

/-- The loop of an import. `fresh` gives the id and the token drawn for
the `n`-th imported agent. -/
def importLoop (key : MasterKey) (replaceExisting : Bool) (fresh : Nat → String × String)
    (now : Nat) : List AgentImportEntry → List AgentRecord → AgentImportResult →
      List AgentRecord × AgentImportResult
  | [], agents, result => (agents, result)
  | entry :: rest, agents, result =>
    let hasExisting := agents.any fun a => a.name = entry.name
    if hasExisting && !replaceExisting then
      importLoop key replaceExisting fresh now rest agents
        { result with skipped := result.skipped ++ [entry.name] }
    else
      let cleared :=
        if hasExisting then revokeNamed entry.name agents else agents
      let revoked := if hasExisting then
        result.revoked ++ [entry.name] else result.revoked
      let drawn := fresh result.imported.length
      importLoop key replaceExisting fresh now rest
        (cleared ++ [freshRecord key entry.name entry.scopes drawn.1 drawn.2 now])
        { result with
          revoked := revoked
          imported := result.imported ++ [⟨entry.name, drawn.1, drawn.2⟩] }

def importAgentsAtomically (key : MasterKey)
    (entries : List AgentImportEntry) (replaceExisting : Bool)
    (fresh : Nat → String × String) (now : Nat) : AgentsM AgentImportResult := do
  Prog.ret (checkNames [] entries)
  let agents ← readFile key
  let imported := importLoop key replaceExisting fresh now entries agents ⟨[], [], []⟩
  writeFile key imported.1
  pure imported.2

def updateFirst (p : AgentRecord → Bool) (f : AgentRecord → AgentRecord) :
    List AgentRecord → Option (List AgentRecord)
  | [] => none
  | a :: rest =>
    if p a then some (f a :: rest)
    else (updateFirst p f rest).map (a :: ·)

def ensureDefaultAgent (key : MasterKey) (pairingSecret agentId : String)
    (now : Nat) : AgentsM Unit := do
  let agents ← readFile key
  let refreshed := updateFirst (fun a => a.name = DEFAULT_AGENT_NAME) (fun a =>
      { a with tokenHash := ⟨key, pairingSecret⟩, revoked := false }) agents
  match refreshed with
  | some agents => writeFile key agents
  | none =>
    writeFile key (agents ++ [freshRecord key DEFAULT_AGENT_NAME [] agentId pairingSecret now])

def revokeAgent (key : MasterKey) (agentId : String) : AgentsM Unit := do
  let agents ← readFile key
  match updateFirst (fun a => a.agentId = agentId)
      (fun a => { a with revoked := true }) agents with
  | some agents => writeFile key agents
  | none => throw (.misuse s!"unknown agent: {agentId}")

def authenticateIn (key : MasterKey) (agents : List AgentRecord)
    (agentId token : String) (now : Nat) : Except CoreError AgentRecord :=
  match agents.find? fun a => a.agentId = agentId with
  | none => .error (.misuse "unknown agent")
  | some record =>
    if record.revoked then .error (.misuse "agent revoked")
    else if record.expiresAt.any (· ≤ now) then
      .error (.misuse "agent expired")
    else if record.tokenHash = ⟨key, token⟩ then .ok record
    else .error (.misuse "invalid token")

def authenticate (key : MasterKey) (agentId token : String) (now : Nat) : AgentsM AgentRecord := do
  let agents ← readFile key
  Prog.ret (authenticateIn key agents agentId token now)

-- ==== revocation

def Revoked (stored : Registry) (agentId : String) : Prop :=
  ∃ key agents record, agentsOf key stored = .ok agents
    ∧ agents.find? (fun a => a.agentId = agentId) = some record
    ∧ record.revoked = true

variable {stored : Registry}

theorem agentsOf_eq {key key' : MasterKey} {agents agents' : List AgentRecord}
    (h : agentsOf key stored = .ok agents)
    (h' : agentsOf key' stored = .ok agents') : agents = agents' := by
  have hfile :
      ∀ {key agents file}, agentsOf key (some (.ok file)) = .ok agents → agents = file.agents := by
    intro key agents file h
    unfold agentsOf at h
    dsimp only at h
    split_ifs at h
    split at h
    · cases h
      rfl
    · cases h
  cases stored with
  | none =>
    cases h
    cases h'
    rfl
  | some file =>
    cases file with
    | error e => cases h
    | ok file => rw [hfile h, hfile h']

theorem authenticateIn_revoked {key : MasterKey} {agents : List AgentRecord}
    {agentId token : String} {now : Nat} {record : AgentRecord}
    (hagents : agentsOf key stored = .ok agents)
    (hok : authenticateIn key agents agentId token now = .ok record) :
    record.agentId = agentId ∧ ¬ Revoked stored agentId := by
  unfold authenticateIn at hok
  cases hfind : agents.find? fun a => a.agentId = agentId with
  | none =>
    rw [hfind] at hok
    cases hok
  | some found =>
    rw [hfind] at hok
    dsimp only at hok
    have hid : found.agentId = agentId := by simpa using List.find?_some hfind
    by_cases hrev : found.revoked
    · rw [if_pos hrev] at hok
      cases hok
    rw [if_neg hrev] at hok
    split at hok
    · cases hok
    split at hok
    · cases hok
      refine ⟨hid, ?_⟩
      rintro ⟨key', agents', record', hagents', hfind', hrev'⟩
      rw [← agentsOf_eq hagents hagents', hfind] at hfind'
      cases hfind'
      exact hrev hrev'
    · cases hok

end SovereignVault.Agents
