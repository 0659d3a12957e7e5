/-
Revocation over whole histories of the agent registry.

The registry is used through its five calls, each with any arguments, any
key and any draws, under any faults, and stopped anywhere. No call moves a
record, renames it or removes it (`Evolves`).

A call takes a revocation back in one case: `ensure_default_agent` clears
the flag of the first record of the default name. Hence revocation is for
good exactly if the record of the id is not that one.
-/
import SovereignVault.Agents
import SovereignVault.Crash.Run

namespace SovereignVault.Agents

open Crash Crash.Prog Mcp List

variable {agentId : String} {stored : Registry}

-- ==== the calls

/-- A call on the registry, with what the OS draws for it. -/
inductive AgentCall where
  | createAgent (key : MasterKey) (name : String)
      (scopes : List AgentScope) (agentId token : String) (now : Nat)
  | importAgentsAtomically (key : MasterKey) (entries : List AgentImportEntry)
      (replaceExisting : Bool) (fresh : Nat → String × String) (now : Nat)
  | ensureDefaultAgent (key : MasterKey) (pairingSecret agentId : String) (now : Nat)
  | revokeAgent (key : MasterKey) (agentId : String)
  | authenticate (key : MasterKey) (agentId token : String) (now : Nat)

inductive AgentAnswer where
  | created (agentId token : String)
  | imported (result : AgentImportResult)
  | done
  | authenticated (record : AgentRecord)

def AgentCall.prog : AgentCall → AgentsM AgentAnswer
  | .createAgent key name scopes agentId token now => do
    let minted ← Agents.createAgent key name scopes agentId token now
    pure (.created minted.1 minted.2)
  | .importAgentsAtomically key entries replaceExisting fresh now => do
    let result ← Agents.importAgentsAtomically key entries replaceExisting fresh now
    pure (.imported result)
  | .ensureDefaultAgent key pairingSecret agentId now => do
    Agents.ensureDefaultAgent key pairingSecret agentId now
    pure .done
  | .revokeAgent key agentId => do
    Agents.revokeAgent key agentId
    pure .done
  | .authenticate key agentId token now => do
    let record ← Agents.authenticate key agentId token now
    pure (.authenticated record)

/-- The registry as a service. It is a file: a crash clears nothing. -/
def agentRegistry : Service Registry CoreError AgentCall AgentAnswer where
  prog _ call := some call.prog
  reset := id

-- ==== what becomes of records

def hasId (agentId : String) (a : AgentRecord) : Bool :=
  a.agentId = agentId

def isDefault (a : AgentRecord) : Bool := a.name = DEFAULT_AGENT_NAME

structure Carries (keeps : Prop) (a a' : AgentRecord) : Prop where
  agentId : a'.agentId = a.agentId
  name : a'.name = a.name
  revoked : keeps → a.revoked = true → a'.revoked = true

/-- Every record stays where it is, and stays revoked unless it stands at
the exempt position. -/
def Evolves (exempt : Nat) (agents agents' : List AgentRecord) : Prop :=
  ∀ i a, agents[i]? = some a → ∃ a', agents'[i]? = some a' ∧ Carries (i ≠ exempt) a a'

section Evolution

variable {keeps : Prop} {a b c : AgentRecord} {exempt : Nat}
  {agents agents' agents'' : List AgentRecord}

theorem Carries.refl (keeps : Prop) (a : AgentRecord) : Carries keeps a a :=
  ⟨rfl, rfl, fun _ h => h⟩

theorem Carries.trans (h : Carries keeps a b) (h' : Carries keeps b c) : Carries keeps a c :=
  ⟨h'.agentId.trans h.agentId, h'.name.trans h.name, fun hk ha => h'.revoked hk (h.revoked hk ha)⟩

theorem carries_revoke (keeps : Prop) (a : AgentRecord) :
    Carries keeps a { a with revoked := true } :=
  ⟨rfl, rfl, fun _ _ => rfl⟩

theorem Evolves.refl (exempt : Nat) (agents : List AgentRecord) : Evolves exempt agents agents :=
  fun _ a h => ⟨a, h, .refl _ a⟩

theorem Evolves.trans (h : Evolves exempt agents agents')
    (h' : Evolves exempt agents' agents'') : Evolves exempt agents agents'' := by
  intro i a ha
  obtain ⟨b, hb, hab⟩ := h i a ha
  obtain ⟨c, hc, hbc⟩ := h' i b hb
  exact ⟨c, hc, hab.trans hbc⟩

theorem evolves_append (exempt : Nat) (agents added : List AgentRecord) :
    Evolves exempt agents (agents ++ added) := by
  intro i a ha
  refine ⟨a, ?_, .refl _ a⟩
  obtain ⟨hlt, -⟩ := List.getElem?_eq_some_iff.1 ha
  rw [getElem?_append_left hlt]
  exact ha

variable {f : AgentRecord → AgentRecord} {p : AgentRecord → Bool}

theorem evolves_map (hf : ∀ keeps a, Carries keeps a (f a)) :
    Evolves exempt agents (agents.map f) := by
  intro i a ha
  refine ⟨f a, ?_, hf _ a⟩
  rw [getElem?_map, ha]
  rfl

theorem evolves_modify {i : Nat} (hf : ∀ a, Carries (i ≠ exempt) a (f a)) :
    Evolves exempt agents (agents.modify i f) := by
  intro j a ha
  rw [getElem?_modify, ha]
  refine ⟨_, rfl, ?_⟩
  split_ifs with hij
  · rw [← hij]
    exact hf a
  · exact .refl _ a

theorem updateFirst_eq_some (h : updateFirst p f agents = some agents') :
    agents.findIdx p < agents.length
      ∧ agents' = agents.modify (agents.findIdx p) f := by
  induction agents generalizing agents' with
  | nil => cases h
  | cons a rest ih =>
    rw [updateFirst] at h
    rw [findIdx_cons]
    cases hp : p a with
    | true =>
      rw [if_pos hp] at h
      cases h
      exact ⟨Nat.zero_lt_succ _, rfl⟩
    | false =>
      rw [if_neg (by rw [hp]; exact Bool.false_ne_true)] at h
      obtain ⟨rest', hrest, rfl⟩ := Option.map_eq_some_iff.1 h
      obtain ⟨hlt, rfl⟩ := ih hrest
      exact ⟨Nat.succ_lt_succ hlt, rfl⟩

theorem updateFirst_of_mem (ha : a ∈ agents) (hp : p a) :
    updateFirst p f agents = some (agents.modify (agents.findIdx p) f) := by
  cases h : updateFirst p f agents with
  | some agents' => rw [(updateFirst_eq_some h).2]
  | none =>
    exfalso
    induction agents with
    | nil => cases ha
    | cons b rest ih =>
      rw [updateFirst] at h
      split_ifs at h with hb
      rcases mem_cons.1 ha with rfl | ha
      · exact hb hp
      · exact ih ha (Option.map_eq_none_iff.1 h)

theorem evolves_cleared (exempt : Nat)
    (name : String) (existing : Bool) (agents : List AgentRecord) : Evolves exempt agents
      (if existing then revokeNamed name agents else agents) := by
  split_ifs
  · refine evolves_map fun keeps a => ?_
    split_ifs
    · exact carries_revoke keeps a
    · exact .refl keeps a
  · exact .refl _ _

theorem evolves_importLoop
    {key : MasterKey} {replaceExisting : Bool} {fresh : Nat → String × String} {now : Nat}
    {entries : List AgentImportEntry} {result : AgentImportResult} : Evolves exempt agents
      (importLoop key replaceExisting fresh now entries agents result).1 := by
  induction entries generalizing agents result with
  | nil => exact .refl _ _
  | cons entry rest ih =>
    rw [importLoop]
    split
    · exact ih
    · exact ((evolves_cleared _ _ _ _).trans (evolves_append _ _ _)).trans ih

-- ==== positions

def ReadsIdentity (p : AgentRecord → Bool) : Prop :=
  ∀ a a', a'.agentId = a.agentId → a'.name = a.name → p a' = p a

theorem readsIdentity_hasId (agentId : String) : ReadsIdentity (hasId agentId) := by
  intro a a' hid _
  unfold hasId
  rw [hid]

theorem readsIdentity_isDefault : ReadsIdentity isDefault := by
  intro a a' _ hname
  unfold isDefault
  rw [hname]

theorem Evolves.findIdx (hp : ReadsIdentity p) (h : Evolves exempt agents agents')
    (hlt : agents.findIdx p < agents.length) : agents'.findIdx p = agents.findIdx p := by
  have hcarried : ∀ i (hi : i < agents.length), ∃ hi' : i < agents'.length,
      p agents'[i] = p agents[i] := by
    intro i hi
    obtain ⟨a', ha', hc⟩ := h i _ (getElem?_eq_getElem hi)
    obtain ⟨hi', rfl⟩ := List.getElem?_eq_some_iff.1 ha'
    exact ⟨hi', hp _ _ hc.agentId hc.name⟩
  obtain ⟨hlt', heq⟩ := hcarried _ hlt
  rw [findIdx_eq hlt']
  refine ⟨heq.trans findIdx_getElem, fun j hj => ?_⟩
  obtain ⟨_, hsame⟩ := hcarried j (hj.trans hlt)
  rw [hsame]
  exact not_of_lt_findIdx hj

theorem getElem?_modify_findIdx (hp : ReadsIdentity p) (hf : ∀ a, Carries False a (f a))
    (ha : agents[agents.findIdx p]? = some a) : (agents.modify (agents.findIdx p) f)[
      (agents.modify (agents.findIdx p) f).findIdx p]? = some (f a) := by
  have hevolves : Evolves (agents.findIdx p) agents (agents.modify (agents.findIdx p) f) :=
    evolves_modify fun a => ⟨(hf a).agentId, (hf a).name, fun hne => absurd rfl hne⟩
  obtain ⟨hlt, -⟩ := List.getElem?_eq_some_iff.1 ha
  rw [hevolves.findIdx hp hlt, getElem?_modify, ha]
  exact congrArg some (if_pos rfl)

end Evolution

-- ==== what a call does

/-- The registry is as a call found it, or replaced by what became of its
agents. -/
def Advanced (stored stored' : Registry) : Prop :=
  stored' = stored ∨ ∃ key agents agents', agentsOf key stored = .ok agents
      ∧ Evolves (agents.findIdx isDefault) agents agents'
      ∧ stored' = authenticatedFile key agents'

section Calls

variable {F : Faults Registry CoreError} {stored : Registry}
  {key : MasterKey} {agents agents' : List AgentRecord}

theorem observes_readFile (key : MasterKey) : Observes (readFile key) (agentsOf key) :=
  observes_bind observes_get fun stored => observes_ret (agentsOf key stored)

theorem observes_authenticate (key : MasterKey) (agentId token : String)
    (now : Nat) : Observes (authenticate key agentId token now)
      fun stored => (agentsOf key stored).bind fun agents =>
        authenticateIn key agents agentId token now :=
  observes_bind (observes_readFile key) fun _ => observes_ret _

/-- Wherever the program stops, the registry has only advanced. -/
def Advances (F : Faults Registry CoreError) (stored : Registry) {α : Type}
    (p : AgentsM α) : Prop :=
  wp F (Advanced stored) p (fun _ => Advanced stored) stored

theorem advances_writeFile (hread : agentsOf key stored = .ok agents)
    (hevolves : Evolves (agents.findIdx isDefault) agents agents') :
    Advances F stored (writeFile key agents') := by
  have hwritten : Advanced stored (authenticatedFile key agents') :=
    .inr ⟨key, agents, agents', hread, hevolves, rfl⟩
  exact wp_modify_sync (.inl rfl) hwritten hwritten (fun _ _ => .inl rfl) fun _ _ => hwritten

theorem advances_rewrite {α : Type} {k : List AgentRecord → AgentsM α}
    (hk : ∀ agents, agentsOf key stored = .ok agents → Advances F stored (k agents)) :
    Advances F stored ((readFile key).bind k) :=
  (observes_readFile key).wp_seq (.inl rfl) (fun _ => .inl rfl) hk

theorem Advances.answer {α β : Type} {p : AgentsM α} {f : α → β} (hp : Advances F stored p) :
    Advances F stored (p.bind fun a => pure (f a)) := by
  rw [Advances, wp_bind]
  refine hp.post fun r stored' _ hr => ?_
  cases r with
  | ok a => exact ⟨hr, hr⟩
  | error e => exact hr

theorem advances_importAgentsAtomically (entries : List AgentImportEntry)
    (replaceExisting : Bool) (fresh : Nat → String × String) (now : Nat) :
    Advances F stored (importAgentsAtomically key entries replaceExisting fresh now) := by
  refine (observes_ret (checkNames [] entries)).wp_seq (.inl rfl)
    (fun _ => .inl rfl) fun _ _ => advances_rewrite fun _ hread => ?_
  exact (advances_writeFile hread evolves_importLoop).answer

theorem advances_ensureDefaultAgent (pairingSecret agentId : String) (now : Nat) :
    Advances F stored (ensureDefaultAgent key pairingSecret agentId now) := by
  refine advances_rewrite fun agents hread => ?_
  dsimp only
  split
  · rename_i refreshed hrefreshed
    refine advances_writeFile hread ?_
    rw [(updateFirst_eq_some hrefreshed).2]
    exact evolves_modify fun a => ⟨rfl, rfl, fun hne => absurd rfl hne⟩
  · exact advances_writeFile hread (evolves_append _ _ _)

theorem advances_revokeAgent (agentId : String) :
    Advances F stored (revokeAgent key agentId) := by
  refine advances_rewrite fun agents hread => ?_
  split
  · rename_i revoked hrevoked
    refine advances_writeFile hread ?_
    rw [(updateFirst_eq_some hrevoked).2]
    exact evolves_modify fun a => carries_revoke _ a
  · exact ⟨.inl rfl, .inl rfl⟩

theorem advances_agentCall (call : AgentCall) : Advances F stored call.prog := by
  cases call with
  | createAgent key name scopes agentId token now =>
    refine Advances.answer (advances_rewrite fun _ hread => ?_)
    exact (advances_writeFile hread (evolves_append _ _ _)).answer
  | importAgentsAtomically key entries replaceExisting fresh now =>
    exact (advances_importAgentsAtomically entries replaceExisting fresh now).answer
  | ensureDefaultAgent key pairingSecret agentId now =>
    exact (advances_ensureDefaultAgent pairingSecret agentId now).answer
  | revokeAgent key agentId => exact (advances_revokeAgent agentId).answer
  | authenticate key agentId token now =>
    refine Advances.answer ?_
    exact (observes_authenticate key agentId token now).stable F stored (.inl rfl)

end Calls

-- ==== the revoked

/-- The record of the id is revoked, and it is not the one that
`ensure_default_agent` refreshes. -/
def Barred (agentId : String) (stored : Registry) : Prop :=
  ∃ key agents record, agentsOf key stored = .ok agents
    ∧ agents[agents.findIdx (hasId agentId)]? = some record
    ∧ record.revoked = true
    ∧ agents.findIdx (hasId agentId) ≠ agents.findIdx isDefault

/-- The agent of the id is the one `ensure_default_agent` refreshes. -/
def DefaultAgent (agentId : String) (stored : Registry) : Prop :=
  ∃ key agents, agentsOf key stored = .ok agents
    ∧ agents.findIdx (hasId agentId) = agents.findIdx isDefault

theorem Barred.revoked (h : Barred agentId stored) : Revoked stored agentId := by
  obtain ⟨key, agents, record, hread, hrecord, hrevoked, -⟩ := h
  refine ⟨key, agents, record, hread, ?_, hrevoked⟩
  exact find?_eq_getElem?_findIdx.trans hrecord

theorem barred_of_revoked (h : Revoked stored agentId)
    (hother : ¬ DefaultAgent agentId stored) : Barred agentId stored := by
  obtain ⟨key, agents, record, hread, hfind, hrevoked⟩ := h
  refine ⟨key, agents, record, hread, ?_, hrevoked, fun heq => ?_⟩
  · exact find?_eq_getElem?_findIdx.symm.trans hfind
  · exact hother ⟨key, agents, hread, heq⟩

theorem Barred.advanced {stored' : Registry}
    (h : Barred agentId stored) (hadv : Advanced stored stored') : Barred agentId stored' := by
  obtain ⟨key₀, agents, record, hread, hrecord, hrevoked, hne⟩ := h
  rcases hadv with rfl | ⟨key, agents₁, agents', hread', hevolves, rfl⟩
  · exact ⟨key₀, agents, record, hread, hrecord, hrevoked, hne⟩
  cases agentsOf_eq hread hread'
  obtain ⟨record', hrecord', hcarries⟩ := hevolves _ _ hrecord
  obtain ⟨hlt, -⟩ := List.getElem?_eq_some_iff.1 hrecord
  have hid := hevolves.findIdx (readsIdentity_hasId agentId) hlt
  refine ⟨key, agents', record', agentsOf_authenticatedFile key agents', ?_,
    hcarries.revoked hne hrevoked, ?_⟩
  · rw [hid]
    exact hrecord'
  rw [hid]
  intro heq
  -- the record at the position already had the default name before
  have hdefault : isDefault record = true := by
    rw [heq] at hrecord'
    obtain ⟨hlt', hat⟩ := List.getElem?_eq_some_iff.1 hrecord'
    rw [← readsIdentity_isDefault _ _ hcarries.agentId hcarries.name, ← hat]
    exact findIdx_getElem
  have htaken : agents.findIdx isDefault < agents.length :=
    findIdx_lt_length_of_exists ⟨record, mem_of_getElem? hrecord, hdefault⟩
  exact hne (heq.trans (hevolves.findIdx readsIdentity_isDefault htaken))

section Runs

variable {F : Faults Registry CoreError}
  {stored stored' : Registry} {h : List (Event Registry CoreError AgentCall AgentAnswer)}
  {agentId : String} {agents : List AgentRecord} {key : MasterKey} {record : AgentRecord}

theorem Barred.run (hbarred : Barred agentId stored)
    (hrun : agentRegistry.Run F (fun _ _ => True) stored h stored') : Barred agentId stored' := by
  refine hrun.invariant hbarred ?_ fun _ h => h
  intro s call p hs _ hp
  cases hp
  exact wp_mono (advances_agentCall call) (fun _ => hs.advanced) fun _ _ _ => hs.advanced

theorem not_revoked_of_authenticated {e : Event Registry CoreError AgentCall AgentAnswer}
    {token : String} {now : Nat} {answer : AgentAnswer}
    (hstep : agentRegistry.Step F e) (hcall : e.call = .authenticate key agentId token now)
    (hok : e.outcome = .returned (.ok answer)) : ¬ Revoked e.before agentId := by
  cases hstep with
  | crashed => cases hok
  | returned hp hr =>
    cases hok
    subst hcall
    cases hp
    have hobs := observes_bind (observes_authenticate key agentId token now)
      fun record => observes_ret (.ok (AgentAnswer.authenticated record))
    obtain ⟨-, hread⟩ := hobs.returns hr
    cases hagents : agentsOf key _ with
    | error e =>
      rw [hagents] at hread
      cases hread
    | ok agents =>
      rw [hagents] at hread
      cases hauth : authenticateIn key agents agentId token now with
      | error e =>
        simp only [Except.bind, hauth] at hread
        cases hread
      | ok record => exact (authenticateIn_revoked hagents hauth).2

-- ==== how one is revoked

theorem yields_writeFile (key : MasterKey) (agents : List AgentRecord) :
    Yields F (fun _ => True) (writeFile key agents)
      (fun _ s => s = authenticatedFile key agents) stored :=
  wp_modify_sync trivial trivial rfl (fun _ _ => trivial) fun _ _ => trivial

theorem revoked_of_position (hrecord : agents[agents.findIdx (hasId agentId)]? = some record)
    (hrevoked : record.revoked = true) : Revoked (authenticatedFile key agents) agentId :=
  ⟨key, agents, record, agentsOf_authenticatedFile key agents,
    find?_eq_getElem?_findIdx.trans hrecord, hrevoked⟩

theorem revokeAgent_revokes (key : MasterKey) (agentId : String) :
    Yields F (fun _ => True) (revokeAgent key agentId) (fun _ s => Revoked s agentId) stored := by
  refine (yields_bind _ _).2 ((observes_readFile key).yields trivial fun agents _ => ?_)
  split
  · rename_i agents' hupdate
    refine (yields_writeFile key agents').mono ?_
    rintro - s - rfl
    obtain ⟨hlt, rfl⟩ := updateFirst_eq_some hupdate
    refine revoked_of_position (getElem?_modify_findIdx
      (readsIdentity_hasId agentId) (carries_revoke False) (getElem?_eq_getElem hlt)) rfl
  · exact yields_error trivial

theorem importLoop_revokes {fresh : Nat → String × String}
    {now : Nat} {entries : List AgentImportEntry} {result : AgentImportResult}
    {i : Nat} {a : AgentRecord} (ha : agents[i]? = some a) (hname : a.name ∈ entries.map (·.name)) :
    ∃ a', (importLoop key true fresh now entries agents result).1[i]?
      = some a' ∧ a'.revoked = true := by
  induction entries generalizing agents result a with
  | nil => cases hname
  | cons entry rest ih =>
    rw [importLoop]
    rw [Bool.not_true, Bool.and_false, if_neg Bool.false_ne_true]
    by_cases hentry : a.name = entry.name
    · -- revoked here, and the rest of the loop keeps it so
      have hexisting : (agents.any fun a => a.name = entry.name) = true :=
        any_eq_true.2 ⟨a, mem_of_getElem? ha, decide_eq_true hentry⟩
      rw [hexisting, if_pos rfl]
      have hcleared : (revokeNamed entry.name agents)[i]?
          = some { a with revoked := true } := by
        rw [revokeNamed, getElem?_map, ha, Option.map_some, if_pos hentry]
      obtain ⟨a', ha', hcarries⟩ := Evolves.trans
        (evolves_append (i + 1) _ _) evolves_importLoop i _ hcleared
      exact ⟨a', ha', hcarries.revoked (Nat.ne_of_lt (Nat.lt_succ_self i))
        rfl⟩
    · have hrest : a.name ∈ rest.map (·.name) := (mem_cons.1 hname).resolve_left hentry
      obtain ⟨a', ha', hcarries⟩ := Evolves.trans
        (evolves_cleared 0 entry.name _ agents) (evolves_append _ _ _) i a ha
      rw [← hcarries.name] at hrest
      exact ih ha' hrest

theorem importAgentsAtomically_revokes
    (entries : List AgentImportEntry) (fresh : Nat → String × String) (now : Nat)
    (hread : agentsOf key stored = .ok agents) (hfind : agents.find? (hasId agentId) = some record)
    (hname : record.name ∈ entries.map (·.name)) :
    Yields F (fun _ => True) (importAgentsAtomically key entries true fresh now)
      (fun _ s => Revoked s agentId) stored := by
  refine (yields_bind _ _).2 ((observes_ret (checkNames [] entries)).yields
    trivial fun _ _ => ?_)
  refine (yields_bind _ _).2 ((observes_readFile key).yields trivial fun agents' hread' => ?_)
  cases hread.symm.trans hread'
  refine (yields_bind _ _).2 ((yields_writeFile key _).mono ?_)
  rintro - s - rfl
  have hrecord : agents[agents.findIdx (hasId agentId)]? = some record :=
    find?_eq_getElem?_findIdx.symm.trans hfind
  obtain ⟨hlt, -⟩ := List.getElem?_eq_some_iff.1 hrecord
  obtain ⟨record', hrecord', hrevoked⟩ := importLoop_revokes hrecord hname
  have hevolves : Evolves 0 agents (importLoop key true fresh now entries
      agents ⟨[], [], []⟩).1 := evolves_importLoop
  have hposition := hevolves.findIdx (readsIdentity_hasId agentId) hlt
  refine yields_ret trivial (revoked_of_position ?_ hrevoked)
  rw [hposition]
  exact hrecord'

-- ==== imported agents

section Imported

variable {key : MasterKey} {replaceExisting : Bool} {fresh : Nat → String × String} {now : Nat}
  {entries : List AgentImportEntry} {agents : List AgentRecord} {a : AgentRecord}

theorem mem_revokeNamed {name : String} (ha : a ∈ revokeNamed name agents) :
    ∃ b ∈ agents, a = { b with revoked := a.revoked } := by
  obtain ⟨b, hb, rfl⟩ := mem_map.1 ha
  refine ⟨b, hb, ?_⟩
  split <;> rfl

theorem mem_importLoop {result : AgentImportResult}
    (ha : a ∈ (importLoop key replaceExisting fresh now entries agents result).1) :
    (∃ b ∈ agents, a = { b with revoked := a.revoked }) ∨ ∃ e ∈ entries, a.scopes = e.scopes := by
  induction entries generalizing agents result with
  | nil => exact .inl ⟨a, ha, rfl⟩
  | cons entry rest ih =>
    unfold importLoop at ha
    dsimp only at ha
    split at ha
    · exact (ih ha).imp_right fun ⟨e, he, hs⟩ => ⟨e, mem_cons_of_mem _ he, hs⟩
    obtain ⟨b, hb, hab⟩ | ⟨e, he, hs⟩ := ih ha
    · obtain hb | hb := mem_append.1 hb
      · split at hb
        · obtain ⟨c, hc, hbc⟩ := mem_revokeNamed hb
          rw [hbc] at hab
          exact .inl ⟨c, hc, hab⟩
        · exact .inl ⟨b, hb, hab⟩
      · obtain rfl := mem_singleton.1 hb
        exact .inr ⟨entry, mem_cons_self, congrArg AgentRecord.scopes hab⟩
    · exact .inr ⟨e, mem_cons_of_mem _ he, hs⟩

def NoneUnscoped (key : MasterKey) (stored stored' : Registry) : Prop :=
  ∀ after, agentsOf key stored' = .ok after → ∀ a ∈ after, a.scopes = [] →
    ∃ before, agentsOf key stored = .ok before ∧ ∃ b ∈ before, a = { b with revoked := a.revoked }

theorem importAgentsAtomically_scoped (hentries : ∀ e ∈ entries, e.scopes ≠ []) :
    wp F (NoneUnscoped key stored) (importAgentsAtomically key entries replaceExisting fresh now)
      (fun _ => NoneUnscoped key stored) stored := by
  have hstart : NoneUnscoped key stored stored := fun after hread a ha _ =>
    ⟨after, hread, a, ha, rfl⟩
  refine (observes_ret (checkNames [] entries)).wp_seq hstart (fun _ => hstart)
    fun _ _ => (observes_readFile key).wp_seq hstart (fun _ => hstart) fun before hread => ?_
  have hwritten : NoneUnscoped key stored (authenticatedFile key
      (importLoop key replaceExisting fresh now entries before ⟨[], [], []⟩).1) := by
    intro after hafter a ha hscopes
    rw [agentsOf_authenticatedFile] at hafter
    cases hafter
    obtain hb | ⟨e, he, hs⟩ := mem_importLoop ha
    · exact ⟨before, hread, hb⟩
    · exact absurd (hs.symm.trans hscopes) (hentries e he)
  refine (wp_bind _ _ _ _).2 ?_
  exact wp_modify_sync hstart hwritten ⟨hwritten, hwritten⟩ (fun _ _ => hstart)
    fun _ _ => hwritten

end Imported

-- ==== the revocation

/-- Whatever is called from here on, and however it goes, no
authentication of the agent succeeds. -/
def RevocationFinal (agentId : String) (stored : Registry) : Prop :=
  ∀ F h stored', agentRegistry.Run F (fun _ _ => True) stored h stored' →
    ∀ e ∈ h, ∀ key token now, e.call = .authenticate key agentId token now →
      ∀ answer, e.outcome ≠ .returned (.ok answer)

theorem Barred.final (hbarred : Barred agentId stored) : RevocationFinal agentId stored := by
  intro F h stored' hrun e he key token now hcall answer hok
  obtain ⟨earlier, later, rfl⟩ := append_of_mem he
  obtain ⟨hbefore, -, hstep⟩ := hrun.split
  exact not_revoked_of_authenticated hstep hcall hok (hbarred.run hbefore).revoked

def Unexpired (now : Nat) (agentId : String) (stored : Registry) : Prop :=
  ∃ key agents record, agentsOf key stored = .ok agents
    ∧ agents.find? (fun a => a.agentId = agentId) = some record
    ∧ record.expiresAt.any (· ≤ now) = false

end Runs

section Refreshed

variable {key : MasterKey} {stored : Registry} {agents : List AgentRecord} {record : AgentRecord}

def refreshed (key : MasterKey) (pairingSecret : String) (a : AgentRecord) : AgentRecord :=
  { a with tokenHash := ⟨key, pairingSecret⟩, revoked := false }

theorem run_ensureDefaultAgent (hread : agentsOf key stored = .ok agents)
    (hmem : record ∈ agents) (hdefault : isDefault record) (pairingSecret agentId : String)
    (now : Nat) : (AgentCall.ensureDefaultAgent key pairingSecret agentId now).prog.run stored
      = (.ok .done, authenticatedFile key (agents.modify
          (agents.findIdx isDefault) (refreshed key pairingSecret))) := by
  have hagents : (readFile key).run stored = (.ok agents, stored) := by
    rw [(observes_readFile key).run, hread]
  have hupdate := updateFirst_of_mem hmem hdefault (f := refreshed key pairingSecret)
  have hensure : (ensureDefaultAgent key pairingSecret agentId now).run
      stored = (.ok (), authenticatedFile key (agents.modify
          (agents.findIdx isDefault) (refreshed key pairingSecret))) := by
    refine (run_bind_ok hagents).trans ?_
    dsimp only
    erw [hupdate]
    rfl
  exact run_bind_ok hensure

theorem run_authenticate_refreshed {agentId pairingSecret : String} {now : Nat}
    (hfind : agents.find? (hasId agentId) = some (refreshed key pairingSecret record))
    (hunexpired : record.expiresAt.any (· ≤ now) = false) :
    (AgentCall.authenticate key agentId pairingSecret now).prog.run (authenticatedFile key agents)
      = (.ok (.authenticated (refreshed key pairingSecret record)),
        authenticatedFile key agents) := by
  have hauth : authenticateIn key agents agentId pairingSecret now
      = .ok (refreshed key pairingSecret record) := by
    unfold authenticateIn
    erw [hfind]
    dsimp only [refreshed]
    rw [if_neg Bool.false_ne_true, hunexpired, if_neg Bool.false_ne_true, if_pos rfl]
  have hrun : (authenticate key agentId pairingSecret now).run (authenticatedFile key agents)
      = (.ok (refreshed key pairingSecret record), authenticatedFile key agents) := by
    rw [(observes_authenticate key agentId pairingSecret now).run, agentsOf_authenticatedFile]
    exact congrArg (Prod.mk · _) hauth
  exact run_bind_ok hrun

end Refreshed

/-- Revocation is for good exactly if the agent is not the default one. -/
theorem revocation_final_iff {agentId : String} {stored : Registry}
    (hrevoked : Revoked stored agentId) (hlive : ∃ now, Unexpired now agentId stored) :
    RevocationFinal agentId stored ↔ ¬ DefaultAgent agentId stored := by
  constructor
  · rintro hfinal ⟨key, agents, hread, hsame⟩
    obtain ⟨now, key', agents', record, hread', hfind, hunexpired⟩ := hlive
    cases agentsOf_eq hread hread'
    have hrecord : agents[agents.findIdx (hasId agentId)]? = some record :=
      find?_eq_getElem?_findIdx.symm.trans hfind
    have hdefault : isDefault record = true := by
      rw [hsame] at hrecord
      obtain ⟨hlt, rfl⟩ := List.getElem?_eq_some_iff.1 hrecord
      exact findIdx_getElem
    have hensured := run_ensureDefaultAgent hread
      (mem_of_getElem? hrecord) hdefault "secret" "" 0
    rw [← hsame] at hensured
    have hrefreshed := getElem?_modify_findIdx (f := refreshed key "secret")
      (readsIdentity_hasId agentId) (fun _ => ⟨rfl, rfl, False.elim⟩) hrecord
    have hauthenticated := run_authenticate_refreshed
      (find?_eq_getElem?_findIdx.trans hrefreshed) hunexpired
    -- the refresh, then the authentication with the secret
    refine hfinal Faults.none _ _ (.step (e := ⟨_, _, _, _⟩) (.step (e := ⟨_, _, _, _⟩) .nil trivial
        (.returned rfl (returns_none_iff.2 hensured))) trivial
        (.returned rfl (returns_none_iff.2 hauthenticated)))
      _ mem_cons_self key "secret" now rfl _ rfl
  · exact fun hother => (barred_of_revoked hrevoked hother).final

-- ==== retired agents

/-- The call revokes the agent: by its id, or by an import that replaces
the agents of its name. -/
def AgentCall.Retires (agentId : String) (stored : Registry) : AgentCall → Prop
  | .revokeAgent _ id => id = agentId
  | .importAgentsAtomically key entries replaceExisting _ _ => replaceExisting = true
    ∧ ∃ agents record, agentsOf key stored = .ok agents
      ∧ agents.find? (hasId agentId) = some record ∧ record.name ∈ entries.map (·.name)
  | _ => False

theorem AgentCall.Retires.revokes {F : Faults Registry CoreError} {call : AgentCall}
    (h : call.Retires agentId stored) :
    Yields F (fun _ => True) call.prog (fun _ s => Revoked s agentId) stored := by
  cases call with
  | revokeAgent key id =>
    obtain rfl : id = agentId := h
    refine (yields_bind _ _).2 ((revokeAgent_revokes key id).mono ?_)
    intro _ s _ hrevoked
    exact yields_ret trivial hrevoked
  | importAgentsAtomically key entries replaceExisting fresh now =>
    obtain ⟨rfl, agents, record, hread, hfind, hname⟩ := h
    refine (yields_bind _ _).2
      ((importAgentsAtomically_revokes entries fresh now hread hfind hname).mono ?_)
    intro _ s _ hrevoked
    exact yields_ret trivial hrevoked
  | _ => exact h.elim

/-- An agent that is revoked, or replaced by an import, is so for good,
whatever is called later and however it goes; the default agent apart. -/
theorem retirement_final {F : Faults Registry CoreError} {agentId : String}
    {e : Event Registry CoreError AgentCall AgentAnswer} {answer : AgentAnswer}
    (hstep : agentRegistry.Step F e) (hok : e.outcome = .returned (.ok answer))
    (hretires : e.call.Retires agentId e.before) (hother : ¬ DefaultAgent agentId e.after) :
    RevocationFinal agentId e.after := by
  have hrevoked : Revoked e.after agentId := by
    cases hstep with
    | crashed => cases hok
    | returned hp hr =>
      cases hp
      cases hok
      exact hretires.revokes.returns hr
  exact (barred_of_revoked hrevoked hother).final

namespace Sample

def key : MasterKey := .generate 0

def launched : Registry :=
  ((AgentCall.createAgent key "Editor" [] "agent-2" "token" 1).prog.run
    ((AgentCall.ensureDefaultAgent key "first" "agent-1" 0).prog.run none).2).2

def without (agentId : String) : Registry :=
  ((AgentCall.revokeAgent key agentId).prog.run launched).2

def replacing : AgentCall :=
  .importAgentsAtomically key [⟨"Editor", []⟩] true (fun _ => ("agent-3", "token-3")) 2

end Sample

/-- The default agent is revoked by its id. The refresh of the next launch
clears the flag, and the agent authenticates again. -/
theorem revoked_default_returns : agentRegistry.Step Faults.none ⟨Sample.launched,
        .revokeAgent Sample.key "agent-1", .returned (.ok .done), Sample.without "agent-1"⟩
      ∧ Revoked (Sample.without "agent-1") "agent-1"
      ∧ ¬ RevocationFinal "agent-1" (Sample.without "agent-1") := by
  refine ⟨.returned rfl (returns_none_iff.2 rfl),
    ⟨Sample.key, _, _, rfl, rfl, rfl⟩, fun hfinal => ?_⟩
  refine hfinal Faults.none _ _ (.step (e := ⟨_, _, _, _⟩)
    (.step (e := ⟨_, .ensureDefaultAgent Sample.key "second" "agent-3" 2,
        _, _⟩) .nil trivial (.returned rfl (returns_none_iff.2 rfl)))
    trivial (.returned rfl (returns_none_iff.2 rfl)))
    _ mem_cons_self Sample.key "second" 3 rfl _ rfl

theorem revocation_final_editor : RevocationFinal "agent-2" (Sample.without "agent-2") := by
  refine (revocation_final_iff ⟨Sample.key, _, _, rfl, rfl, rfl⟩
    ⟨0, Sample.key, _, _, rfl, rfl, rfl⟩).2 ?_
  rintro ⟨key, agents, hread, hsame⟩
  have hagents : agentsOf Sample.key (Sample.without "agent-2") = .ok _ := rfl
  cases agentsOf_eq hread hagents
  exact absurd hsame (by decide)

theorem retirement_final_replaced :
    RevocationFinal "agent-2" (Sample.replacing.prog.run Sample.launched).2 := by
  refine retirement_final (F := Faults.none)
    (e := ⟨_, Sample.replacing, _, (Sample.replacing.prog.run Sample.launched).2⟩)
    (.returned rfl (returns_none_iff.2 rfl)) rfl ⟨rfl, _, _, rfl, rfl, mem_cons_self⟩ ?_
  rintro ⟨key, agents, hread, hsame⟩
  have hagents : agentsOf Sample.key (Sample.replacing.prog.run Sample.launched).2 = .ok _ := rfl
  cases agentsOf_eq hread hagents
  exact absurd hsame (by decide)

end SovereignVault.Agents
