/-
The two tables of `sv-mcp`: `build_access_request` and `execute_tool`,
each dispatched on the tool's name.

What the two have to agree on is the target of a call: its action, its
container and its file. The request is built for the tool's target, from
at most one lookup of the container's mode. The execution asks the facade
for nothing but what serves the target, and for an effect only once.
-/
import SovereignVault.Mcp.Server

namespace SovereignVault.Mcp

open Dialogue Talk

variable {tool : Tool}

-- ==== what a call is about

def FacadeOp.mediated : FacadeOp → Bool
  | .containerMode _ => false
  | _ => true

/-- The operations that change the vault, release plaintext, decrypt,
sign or send. -/
def FacadeOp.effect : FacadeOp → Bool
  | .readFile _ _ | .writeFile _ _ _ | .deleteFile _ _
  | .createContainer _ _ _ | .destroyContainer _
  | .importAgentsAtomically _ _ | .transitCreateKey _
  | .transitDecrypt _ _ | .sign _ _ | .signingCreateKey _
  | .brokerCreate _ _ _ _ | .brokerRequest _ _ _ _ _ => true
  | _ => false

structure Target where
  action : AccessAction
  container : Option String
  fileName : Option String

def AccessRequest.target (access : AccessRequest) : Target :=
  ⟨access.action, access.container, access.fileName⟩

def toolTarget (tool : Tool) (args : Value) : Target :=
  let container := args.getStr "container"
  let fileName := args.getStr "file_name"
  let name := args.getStr "name"
  match tool with
  | .list =>
    match container with
    | some c => ⟨.listFiles, some c, none⟩
    | none => ⟨.listContainers, none, none⟩
  | .read => ⟨.readFile, container, fileName⟩
  | .write => ⟨.writeFile, container, fileName⟩
  | .delete => ⟨.deleteFile, container, fileName⟩
  | .createContainer => ⟨.createContainer, name, none⟩
  | .destroy => ⟨.destroyContainer, name, none⟩
  | .info => ⟨.vaultInfo, none, none⟩
  | .exportAgents => ⟨.exportAgents, none, none⟩
  | .importAgents => ⟨.importAgents, none, none⟩
  | .createTransitKey => ⟨.createTransitKey, none, none⟩
  | .listTransitKeys => ⟨.listTransitKeys, none, none⟩
  | .encrypt => ⟨.encrypt, none, none⟩
  | .decrypt => ⟨.decrypt, none, none⟩
  | .sign => ⟨.sign, none, none⟩
  | .createSigningKey => ⟨.createSigningKey, none, none⟩
  | .listSigningKeys => ⟨.listSigningKeys, none, none⟩
  | .verify => ⟨.verify, none, none⟩
  | .createBrokerSecret => ⟨.createBrokerSecret, none, none⟩
  | .listBrokerSecrets => ⟨.listBrokerSecrets, none, none⟩
  | .brokerRequest => ⟨.broker, none, none⟩

/-- The targets an operation serves. `vault.info` counts the containers,
so it lists them too. -/
def FacadeOp.Serves (op : FacadeOp) (target : Target) : Prop :=
  match op with
  | .listContainers => target = ⟨.listContainers, none, none⟩ ∨ target = ⟨.vaultInfo, none, none⟩
  | .listFiles c => target = ⟨.listFiles, some c, none⟩
  | .readFile c f => target = ⟨.readFile, some c, some f⟩
  | .writeFile c f _ => target = ⟨.writeFile, some c, some f⟩
  | .deleteFile c f => target = ⟨.deleteFile, some c, some f⟩
  | .createContainer c _ _ => target = ⟨.createContainer, some c, none⟩
  | .destroyContainer c => target = ⟨.destroyContainer, some c, none⟩
  | .containerMode c => target.container = some c
  | .listAgents => target = ⟨.exportAgents, none, none⟩
  | .importAgentsAtomically _ _ => target = ⟨.importAgents, none, none⟩
  | .transitCreateKey _ => target = ⟨.createTransitKey, none, none⟩
  | .transitList => target = ⟨.listTransitKeys, none, none⟩
  | .transitEncrypt _ _ => target = ⟨.encrypt, none, none⟩
  | .transitDecrypt _ _ => target = ⟨.decrypt, none, none⟩
  | .sign _ _ | .signingPublicKey _ => target = ⟨.sign, none, none⟩
  | .signingCreateKey _ => target = ⟨.createSigningKey, none, none⟩
  | .signingList => target = ⟨.listSigningKeys, none, none⟩
  | .brokerCreate _ _ _ _ => target = ⟨.createBrokerSecret, none, none⟩
  | .brokerList => target = ⟨.listBrokerSecrets, none, none⟩
  | .brokerRequest _ _ _ _ _ => target = ⟨.broker, none, none⟩
  | .custodyModeLabel => target = ⟨.vaultInfo, none, none⟩
  | .brokerEnabled => target = ⟨.createBrokerSecret, none, none⟩
      ∨ target = ⟨.listBrokerSecrets, none, none⟩
      ∨ target = ⟨.broker, none, none⟩

-- ==== histories

/-- An exchange that changed the vault, released plaintext, decrypted,
signed or sent. -/
def effectful (e : McpExchange) : Bool :=
  match e.op with
  | .facade op => op.effect
  | _ => false

/-- An exchange of an execution: with the facade, for the target, or with
the clock. -/
def InVault (target : Target) (e : McpExchange) : Prop :=
  match e.op with
  | .facade op => op.Serves target
  | .clock => True
  | _ => False

def Within (target : Target) (h h' : List McpExchange) : Prop :=
  ∃ new, h' = new ++ h ∧ ∀ e ∈ new, InVault target e

def Calm (target : Target) (h h' : List McpExchange) : Prop :=
  ∃ new, h' = new ++ h ∧ ∀ e ∈ new, InVault target e ∧ effectful e = false

variable {h h' : List McpExchange} {e : McpExchange} {target : Target}

theorem Calm.refl (target : Target) (h : List McpExchange) : Calm target h h :=
  ⟨[], rfl, fun _ hmem => absurd hmem List.not_mem_nil⟩

theorem Calm.cons (hc : Calm target h h') (hin : InVault target e)
    (heff : effectful e = false) : Calm target h (e :: h') := by
  obtain ⟨new, rfl, hall⟩ := hc
  refine ⟨e :: new, rfl, fun e' hmem => ?_⟩
  rcases List.mem_cons.1 hmem with rfl | hmem
  · exact ⟨hin, heff⟩
  · exact hall e' hmem

theorem Calm.within (hc : Calm target h h') : Within target h h' := by
  obtain ⟨new, rfl, hall⟩ := hc
  exact ⟨new, rfl, fun e hmem => (hall e hmem).1⟩

theorem Within.cons (hw : Within target h h') (hin : InVault target e) :
    Within target h (e :: h') := by
  obtain ⟨new, rfl, hall⟩ := hw
  refine ⟨e :: new, rfl, fun e' hmem => ?_⟩
  rcases List.mem_cons.1 hmem with rfl | hmem
  · exact hin
  · exact hall e' hmem

theorem Within.suffix (hw : Within target h h') : h <:+ h' := by
  obtain ⟨new, rfl, -⟩ := hw
  exact List.suffix_append new h

-- ==== the request's table

variable {G : List McpExchange → McpOp → Prop} {crates : Crates}
  {name : String} {args : Value} {transport : AccessTransport}

def Looked (h h' : List McpExchange) : Prop :=
  h' = h ∨ ∃ c a, h' = ⟨.facade (.containerMode c), a⟩ :: h

/-- Where the mode of a request comes from: it was looked up, but for the
creation of a container. -/
def ModeLooked (access : AccessRequest) (h h' : List McpExchange) : Prop :=
  match access.container with
  | none => access.mode = none ∧ h' = h
  | some c => (access.action = .createContainer ∧ h' = h)
      ∨ ∃ m, access.mode = some m ∧ h' = ⟨.facade (.containerMode c), .ok m⟩ :: h

structure Built (name : String) (args : Value) (h : List McpExchange)
    (r : Except String AccessRequest) (h' : List McpExchange) : Prop where
  looked : Looked h h'
  request : ∀ access, r = .ok access → ModeLooked access h h'
    ∧ ∃ tool, Tool.parse name = some tool ∧ access.target = toolTarget tool args

theorem Built.error {e : String} : Built name args h (.error e) h :=
  ⟨.inl rfl, fun _ hok => by cases hok⟩

theorem Built.ok {access : AccessRequest}
    (hlooked : Looked h h') (hmode : ModeLooked access h h') (htool : Tool.parse name = some tool)
    (htarget : access.target = toolTarget tool args) : Built name args h (.ok access) h' := by
  refine ⟨hlooked, fun access' hok => ?_⟩
  cases hok
  exact ⟨hmode, tool, htool, htarget⟩

theorem wp_modeRequest {container : String}
    {g : SecurityMode → AccessRequest} (hG : G h (.facade (.containerMode container)))
    (hg : ∀ m, (g m).container = some container ∧ (g m).mode = some m)
    (htool : Tool.parse name = some tool) (htarget : ∀ m, (g m).target = toolTarget tool args) :
    wp G ((tryFacade (.containerMode container) rfl).bind
      fun m => .ret (.ok (g m))) (Built name args h) h := by
  rw [wp_bind]
  apply wp_tryFacade hG
  intro r
  cases r with
  | ok m =>
    refine .ok (.inr ⟨_, _, rfl⟩) ?_ htool (htarget m)
    unfold ModeLooked
    rw [(hg m).1]
    exact .inr ⟨m, (hg m).2, rfl⟩
  | error e =>
    refine ⟨.inr ⟨_, _, rfl⟩, fun _ hok => ?_⟩
    cases hok

theorem wp_fileRequest {action : AccessAction} {container fileName : String} {byteSize : Option Nat}
    (hG : G h (.facade (.containerMode container))) (htool : Tool.parse name = some tool)
    (htarget : ⟨action, some container, some fileName⟩ = toolTarget tool args) :
    wp G (fileRequest crates name args transport action container fileName
      byteSize) (Built name args h) h :=
  wp_modeRequest hG (fun _ => ⟨rfl, rfl⟩) htool fun _ => htarget

theorem wp_required {key : String} {g : String → McpM AccessRequest}
    (hg : ∀ s, args.getStr key = some s → wp G (g s) (Built name args h) h) :
    wp G (Talk.bind (required args key) g) (Built name args h) h :=
  wp_check (fun s hs => hg s (requiredStr_ok hs)) fun _ _ => .error

theorem buildAccessRequest_spec (hG : ∀ c, G h (.facade (.containerMode c))) :
    wp G (buildAccessRequest crates name args transport) (Built name args h) h := by
  unfold buildAccessRequest
  cases htool : Tool.parse name with
  | none => exact .error
  | some tool =>
    cases tool with
    | list =>
      cases hc : args.getStr "container" with
      | some container =>
        refine wp_modeRequest (hG _) (fun _ => ⟨rfl, rfl⟩) htool fun _ => ?_
        unfold toolTarget
        rw [hc]
        rfl
      | none =>
        refine .ok (.inl rfl) ⟨rfl, rfl⟩ htool ?_
        unfold toolTarget
        rw [hc]
        rfl
    | read | delete =>
      refine wp_required fun container hc => ?_
      refine wp_required fun fileName hf => ?_
      refine wp_fileRequest (hG _) htool ?_
      unfold toolTarget
      rw [hc, hf]
    | write =>
      refine wp_required fun container hc => ?_
      refine wp_required fun fileName hf => ?_
      refine wp_required fun content _ => ?_
      refine wp_check (fun bytes _ => ?_) fun _ _ => .error
      refine wp_fileRequest (hG _) htool ?_
      unfold toolTarget
      rw [hc, hf]
    | createContainer =>
      refine wp_required fun container hc => ?_
      refine wp_check (fun mode _ => ?_) fun _ _ => .error
      refine .ok (.inl rfl) (.inl ⟨rfl, rfl⟩) htool ?_
      unfold toolTarget
      rw [hc]
      rfl
    | destroy =>
      refine wp_required fun container hc => ?_
      refine wp_modeRequest (hG _) (fun _ => ⟨rfl, rfl⟩) htool fun _ => ?_
      unfold toolTarget
      rw [hc]
      rfl
    | importAgents =>
      refine wp_check (fun _ _ => ?_) fun _ _ => .error
      exact .ok (.inl rfl) ⟨rfl, rfl⟩ htool rfl
    | createBrokerSecret =>
      iterate 2 refine wp_required fun _ _ => ?_
      refine wp_check (fun _ _ => ?_) fun _ _ => .error
      refine wp_check (fun _ _ => ?_) fun _ _ => .error
      exact .ok (.inl rfl) ⟨rfl, rfl⟩ htool rfl
    | encrypt | decrypt | sign =>
      iterate 2 refine wp_required fun _ _ => ?_
      exact .ok (.inl rfl) ⟨rfl, rfl⟩ htool rfl
    | verify | brokerRequest =>
      iterate 3 refine wp_required fun _ _ => ?_
      exact .ok (.inl rfl) ⟨rfl, rfl⟩ htool rfl
    | createTransitKey | createSigningKey =>
      refine wp_required fun _ _ => ?_
      exact .ok (.inl rfl) ⟨rfl, rfl⟩ htool rfl
    | info | exportAgents | listTransitKeys | listSigningKeys
    | listBrokerSecrets => exact .ok (.inl rfl) ⟨rfl, rfl⟩ htool rfl

-- ==== the execution's table

/-- The guard admits what serves the target, and an effect as long as
there was none. -/
structure Admits (G : List McpExchange → McpOp → Prop) (target : Target)
    (h : List McpExchange) : Prop where
  facade : ∀ h' op, op.Serves target → Within target h h' →
    (op.effect → Calm target h h') → G h' (.facade op)
  clock : ∀ h', Within target h h' → G h' .clock

def Executed {α : Type} (target : Target) (h : List McpExchange)
    (_ : Except String α) (h' : List McpExchange) : Prop :=
  Within target h h'

theorem wp_serve {α β : Type}
    {op : FacadeOp} {hop : op.Ans = Except String α} {g : α → McpM β} (hG : Admits G target h)
    (hserves : op.Serves target) (hc : Calm target h h') (hg : ∀ a e, Within target h (e :: h') →
      wp G (g a) (Executed target h) (e :: h')) :
    wp G ((tryFacade op hop).bind g) (Executed target h) h' := by
  rw [wp_bind]
  apply wp_tryFacade (hG.facade h' op hserves hc.within fun _ => hc)
  intro r
  have hw : Within target h (⟨.facade op, r⟩ :: h') := hc.within.cons hserves
  cases hr : cast hop r with
  | ok a => exact hg a _ hw
  | error e => exact hw

theorem wp_checked {α β : Type} {r : Except String α} {g : α → McpM β}
    (hc : Calm target h h') (hg : ∀ a, r = .ok a → wp G (g a) (Executed target h) h') :
    wp G (Talk.bind (.ret r) g) (Executed target h) h' :=
  wp_check hg fun _ _ => hc.within

theorem executeTool_spec (htool : Tool.parse name = some tool)
    (hG : Admits G (toolTarget tool args) h) : wp G (executeTool crates name args transport)
      (Executed (toolTarget tool args) h) h := by
  unfold executeTool
  rw [htool]
  generalize htarget : toolTarget tool args = target at hG
  have hc := Calm.refl target h
  unfold toolTarget at htarget
  cases tool with
  | list =>
    cases hcont : args.getStr "container" with
    | some container =>
      rw [hcont] at htarget
      exact wp_serve hG htarget.symm hc fun _ _ hw => hw
    | none =>
      rw [hcont] at htarget
      exact wp_serve hG (.inl htarget.symm) hc fun _ _ hw => hw
  | read =>
    refine wp_checked hc fun container hcont => ?_
    refine wp_checked hc fun fileName hfile => ?_
    rw [requiredStr_ok hcont, requiredStr_ok hfile] at htarget
    refine wp_serve hG htarget.symm hc fun bytes _ hw => ?_
    split
    · exact hw
    · exact hw
  | write =>
    refine wp_checked hc fun container hcont => ?_
    refine wp_checked hc fun fileName hfile => ?_
    iterate 2 refine wp_checked hc fun _ _ => ?_
    rw [requiredStr_ok hcont, requiredStr_ok hfile] at htarget
    exact wp_serve hG htarget.symm hc fun _ _ hw => hw
  | delete =>
    refine wp_checked hc fun container hcont => ?_
    refine wp_checked hc fun fileName hfile => ?_
    rw [requiredStr_ok hcont, requiredStr_ok hfile] at htarget
    exact wp_serve hG htarget.symm hc fun _ _ hw => hw
  | createContainer | destroy =>
    refine wp_checked hc fun container hcont => ?_
    rw [requiredStr_ok hcont] at htarget
    exact wp_serve hG htarget.symm hc fun _ _ hw => hw
  | info =>
    refine wp_serve hG (.inr htarget.symm) hc fun _ e hw => ?_
    exact wp_ask_then (hG.facade _ _ htarget.symm hw nofun) fun _ => hw.cons htarget.symm
  | exportAgents =>
    refine wp_serve hG htarget.symm hc fun _ e hw => ?_
    exact wp_ask_then (hG.clock _ hw) fun _ => hw.cons trivial
  | importAgents | createTransitKey | createSigningKey =>
    refine wp_checked hc fun _ _ => ?_
    exact wp_serve hG htarget.symm hc fun _ _ hw => hw
  | listTransitKeys | listSigningKeys => exact wp_serve hG htarget.symm hc fun _ _ hw => hw
  | encrypt =>
    iterate 3 refine wp_checked hc fun _ _ => ?_
    exact wp_serve hG htarget.symm hc fun _ _ hw => hw
  | decrypt =>
    iterate 2 refine wp_checked hc fun _ _ => ?_
    exact wp_serve hG htarget.symm hc fun _ _ hw => hw
  | sign =>
    iterate 3 refine wp_checked hc fun _ _ => ?_
    refine wp_serve hG htarget.symm hc fun _ e hw => ?_
    -- the signature is made by now; the public key is no effect
    rw [bind_eq, wp_bind]
    refine wp_tryFacade (hG.facade _ _ htarget.symm hw nofun) fun r => ?_
    cases r with
    | ok _ | error _ => exact hw.cons htarget.symm
  | verify =>
    iterate 6 refine wp_checked hc fun _ _ => ?_
    exact wp_checked hc fun _ _ => hc.within
  | createBrokerSecret =>
    refine wp_ask_then (hG.facade _ _ (.inl htarget.symm) hc.within
      nofun) fun enabled => ?_
    have hc' := hc.cons (e := ⟨.facade .brokerEnabled, enabled⟩) (.inl htarget.symm) rfl
    cases enabled with
    | false => exact hc'.within
    | true =>
      iterate 4 refine wp_checked hc' fun _ _ => ?_
      exact wp_serve hG htarget.symm hc' fun _ _ hw => hw
  | listBrokerSecrets =>
    refine wp_ask_then (hG.facade _ _ (.inr (.inl htarget.symm)) hc.within nofun) fun enabled => ?_
    have hc' := hc.cons (e := ⟨.facade .brokerEnabled, enabled⟩) (.inr (.inl htarget.symm)) rfl
    cases enabled with
    | false => exact hc'.within
    | true => exact wp_serve hG htarget.symm hc' fun _ _ hw => hw
  | brokerRequest => exact hc.within

def readOutcome (crates : Crates) (transport : AccessTransport)
    (container fileName : String) (bytes : Bytes) : Except String Value :=
  if transport = .mcpWs ∧ bytes.length > MAX_WS_FILE_BYTES then
    .error (s!"file exceeds WebSocket read limit of "
      ++ s!"{MAX_WS_FILE_BYTES} bytes; use the local stdio transport")
  else .ok (readResult crates container fileName bytes)

/-- The bytes of a file, once read, are the result. -/
def ReadBack (crates : Crates) (transport : AccessTransport)
    (h : List McpExchange) (r : Except String Value) (h' : List McpExchange) : Prop :=
  ∃ new, h' = new ++ h ∧ ∀ c f bytes, ⟨.facade (.readFile c f), .ok bytes⟩
    ∈ new → r = readOutcome crates transport c f bytes

theorem executeTool_readBack (htool : Tool.parse name = some .read) :
    wp (fun _ _ => True) (executeTool crates name args transport)
      (ReadBack crates transport h) h := by
  have hnone : ∀ r, ReadBack crates transport h r h := fun _ =>
    ⟨[], rfl, fun _ _ _ hmem => absurd hmem List.not_mem_nil⟩
  unfold executeTool
  rw [htool]
  refine wp_check (fun container _ => ?_) fun _ _ => hnone _
  refine wp_check (fun fileName _ => ?_) fun _ _ => hnone _
  rw [bind_eq, wp_bind]
  refine wp_tryFacade trivial fun r => ?_
  cases r with
  | error e =>
    refine ⟨[_], rfl, fun c f bytes hmem => ?_⟩
    cases List.mem_singleton.1 hmem
  | ok content =>
    show wp _ (if _ then _ else _) _ _
    by_cases hlarge : transport = .mcpWs ∧ content.length > MAX_WS_FILE_BYTES
    · rw [if_pos hlarge]
      refine ⟨[_], rfl, fun c f bytes hmem => ?_⟩
      cases List.mem_singleton.1 hmem
      unfold readOutcome
      rw [if_pos hlarge]
    · rw [if_neg hlarge]
      refine ⟨[_], rfl, fun c f bytes hmem => ?_⟩
      cases List.mem_singleton.1 hmem
      unfold readOutcome
      rw [if_neg hlarge]

theorem sendBrokered_spec {secretRef method url : String}
    {Q : Except String BrokerOutcome → List McpExchange → Prop}
    (hlock : G h .lockHandle) (hunlock : ∀ h, G h .unlockHandle)
    (hG : Admits G ⟨.broker, none, none⟩ (⟨.lockHandle, true⟩ :: h))
    (hQ : ∀ r h', Within ⟨.broker, none, none⟩ (⟨.lockHandle, true⟩ :: h)
      h' → Q r (⟨.unlockHandle, ()⟩ :: h')) (hlocked : Q (.error "vault is locked")
      (⟨.unlockHandle, ()⟩ :: ⟨.lockHandle, false⟩ :: h)) :
    wp G (sendBrokered crates args secretRef method url) Q h := by
  have hc := Calm.refl ⟨.broker, none, none⟩ (⟨.lockHandle, true⟩ :: h)
  refine wp_withHandle hlock hunlock ?_ hlocked
  refine wp_ask_then (hG.facade _ _ (.inr (.inr rfl)) hc.within nofun) fun enabled => ?_
  have hc' := hc.cons (e := ⟨.facade .brokerEnabled, enabled⟩) (.inr (.inr rfl)) rfl
  cases enabled with
  | false => exact hQ _ _ hc'.within
  | true =>
    refine wp_tryFacade (hG.facade _ _ rfl hc'.within fun _ => hc') fun r => ?_
    exact hQ _ _ (hc'.within.cons rfl)

end SovereignVault.Mcp
