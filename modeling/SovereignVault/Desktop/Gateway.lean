/-
The desktop's gateway: the shared handle, the session epoch, the agent
registry and the connections of the MCP server, as one system.

Every connection is a task of its own, with the secret and the key of the
listener it came in through. It has one call at a time; calls of different
connections interleave at every question. The handle's mutex is `holder`.

The moves are everything else: locks and unlocks, which take the mutex
and advance the epoch, servers that start and stop, connections that come
and go, agents created and revoked, and any change at all that the
desktop's other commands make to the vault.
-/
import SovereignVault.Desktop.Controllers
import SovereignVault.Dialogue.Pool

namespace SovereignVault.Desktop

open Crash Prog Function Storage
open Dialogue Talk Mcp Agents

-- ==== the state

structure Conn where
  listener : Listener
  pair : PairState
  busy : Bool

structure Gateway where
  /-- The vault root, with the handle that is in the shared slot. -/
  world : World
  epoch : Nat
  holder : Option Nat
  registry : Registry
  listener : Option Listener
  nextConn : Nat
  conns : Nat → Option Conn

structure Frame where
  conn : Nat
  raw : String

abbrev Outcome := Option Value × PairState

inductive Move where
  | lock
  | unlock (w : World)
  | command (w : World)
  | startServers (l : Listener) (agentId : String) (now : Nat)
  | stopServers
  | accept
  | close (conn : Nat)
  | createAgent (name : String) (scopes : List AgentScope) (agentId token : String) (now : Nat)
  | revokeAgent (agentId : String)

def agentTokenKey (handle : VaultHandle) : MasterKey :=
  deriveSubkey handle.identityRoot "sv-agent-token-v1"

-- ==== the vault

section

variable (estr : CoreError → String)

def Stores {α : Type} (p : VaultM α) (g : Gateway) (a : Except String α) (g' : Gateway) : Prop :=
  ∃ r w, Returns Faults.any p g.world r w ∧ a = r.mapError estr ∧ g' = { g with world := w }

def Registers {α : Type} (p : AgentsM α) (g : Gateway)
    (a : Except String α) (g' : Gateway) : Prop :=
  ∃ r stored, Returns Faults.any p g.registry r stored
    ∧ a = r.mapError estr ∧ g' = { g with registry := stored }

/-- The blobs, the directories, the manifest and the handle stay. -/
def KeepsStore (g g' : Gateway) : Prop :=
  ∃ w, w.manifest = g.world.manifest ∧ w.containers = g.world.containers
    ∧ w.files = g.world.files ∧ w.handle = g.world.handle
    ∧ g' = { g with world := w }

def checkImportScopes : List AgentImportEntry → Except String Unit
  | [] => .ok ()
  | entry :: rest =>
    if entry.scopes.isEmpty then
      .error (s!"cannot import unscoped agent {entry.name}; at least "
        ++ "one concrete scope is required")
    else do
      validateAgentScopes entry.scopes
      checkImportScopes rest

/-- `VaultFacade for VaultHandle`: what a call can answer, and what it
leaves. -/
def FacadeAnswers (handle : VaultHandle) (g : Gateway) : (op : FacadeOp) → op.Ans → Gateway → Prop
  | .listContainers, a, g' => Looks estr (listContainers handle.vault) g.world a ∧ g' = g
  | .listFiles c, a, g' => Looks estr (listFiles handle.vault c) g.world a ∧ g' = g
  | .containerMode c, a, g' => Looks estr (containerMode handle.vault c) g.world a ∧ g' = g
  | .readFile c f, a, g' => Looks estr (readFile handle.vault (c, f)) g.world a ∧ g' = g
  | .writeFile c f bytes, a, g' => Stores estr (writeFile handle.vault (c, f) bytes) g a g'
  | .deleteFile c f, a, g' => Stores estr (deleteFile (c, f)) g a g'
  | .createContainer name mode description, a, g' =>
    match SecurityMode.parse mode with
    | .error e => a = .error e ∧ g' = g
    | .ok mode => Stores estr (createContainer handle.vault name mode description) g a g'
  | .destroyContainer name, a, g' => Stores estr (deleteContainer handle.vault name) g a g'
  | .importAgentsAtomically entries replaceExisting, a, g' =>
    match checkImportScopes entries with
    | .error e => a = .error e ∧ g' = g
    | .ok () => ∃ fresh now, Registers estr (importAgentsAtomically (agentTokenKey handle) entries
          replaceExisting fresh now) g a g'
  -- keys and broker secrets: other files of the root, or none
  | .transitCreateKey _, _, g' | .transitDecrypt _ _, _, g'
  | .sign _ _, _, g' | .signingCreateKey _, _, g'
  | .brokerCreate _ _ _ _, _, g' | .brokerRequest _ _ _ _ _, _, g' => KeepsStore g g'
  | .listAgents, _, g' | .transitList, _, g' | .transitEncrypt _ _, _, g'
  | .signingPublicKey _, _, g' | .signingList, _, g'
  | .brokerList, _, g' | .brokerEnabled, _, g'
  | .custodyModeLabel, _, g' => g' = g

-- ==== the system

variable (crates : Crates)

def Begins (g : Gateway) (frame : Frame) (p : DesktopM Outcome) (g' : Gateway) : Prop :=
  ∃ conn, g.conns frame.conn = some conn ∧ conn.busy = false
    ∧ p = serve estr conn.listener crates frame.raw conn.pair
    ∧ g' = { g with
        conns := update g.conns frame.conn (some { conn with busy := true }) }

/-- A question is answered. The human, the audit sink, the clock and the
rate limiter answer anything. -/
def Answers (g : Gateway) (tid : Nat) : (o : DesktopOp) → o.Ans → Gateway → Prop
  | .mcp .lockHandle, unlocked, g' =>
    g.holder = none ∧ unlocked = g.world.handle.isSome ∧ g' = { g with holder := some tid }
  | .mcp .unlockHandle, _, g' => g.holder = some tid ∧ g' = { g with holder := none }
  | .mcp (.facade op), a, g' =>
    ∃ handle, g.world.handle = some handle ∧ FacadeAnswers estr handle g op a g'
  | .mcp (.checkRate _), _, g' => g' = g
  | .mcp (.record _), _, g' => g' = g
  | .mcp .clock, _, g' => g' = g
  | .request _, _, g' => g' = g
  | .epoch, n, g' => n = g.epoch ∧ g' = g
  | .registry, r, g' => (r = .ok g.registry ∨ ∃ e, r = .error e) ∧ g' = g
  -- answered by the desktop's own programs
  | .mcp (.authorize _), _, _ => False
  | .mcp (.authenticate _ _), _, _ => False

/-- A message is done: a connection that failed to pair is closed. -/
def Ends (g : Gateway) (frame : Frame) (r : Except String Outcome) (g' : Gateway) : Prop :=
  ∃ conn response pair, g.conns frame.conn = some conn ∧ r = .ok (response, pair)
    ∧ g' = { g with
        conns := update g.conns frame.conn (if pair = .failed then none
            else some { conn with pair := pair, busy := false }) }

def Moves (g : Gateway) : Move → Gateway → Prop
  | .lock, g' => g.holder = none ∧ g' = { g with
          world := { g.world with handle := none }, epoch := g.epoch + 1 }
  | .unlock w, g' => g.holder = none ∧ w.handle.isSome
      ∧ g' = { g with world := w, epoch := g.epoch + 1 }
  | .command w, g' => w.handle.isSome = g.world.handle.isSome ∧ g' = { g with world := w }
  | .startServers l agentId now, g' =>
    ∃ r stored, Returns
        Faults.any (ensureDefaultAgent l.tokenKey l.pairingSecret agentId now) g.registry r stored
      ∧ g' = { g with
          registry := stored
          listener := if r.isOk then some l else none }
  | .stopServers, g' => g' = { g with listener := none }
  | .accept, g' => ∃ l, g.listener = some l ∧ g' = { g with
          nextConn := g.nextConn + 1
          conns := update g.conns g.nextConn (some ⟨l, .unpaired, false⟩) }
  | .close conn, g' => (∃ c, g.conns conn = some c ∧ c.busy = false)
      ∧ g' = { g with conns := update g.conns conn none }
  | .createAgent name scopes agentId token now, g' =>
    ∃ handle a, g.world.handle = some handle
      ∧ Registers estr (createAgent (agentTokenKey handle) name scopes agentId token now) g a g'
  | .revokeAgent agentId, g' =>
    ∃ handle a, g.world.handle = some handle
      ∧ Registers estr (revokeAgent (agentTokenKey handle) agentId) g a g'

def gateway : System desktopInterface String Outcome Gateway Frame Move where
  begins := Begins estr crates
  answers g tid _ e g' := Answers estr g tid e.op e.ans g'
  ends := Ends
  moves := Moves estr

end

abbrev GatewayConfig := Config desktopInterface String Outcome Gateway Frame

abbrev GatewayEntry :=
  Entry desktopInterface String Outcome Gateway Frame Move

def launch (w : World) (registry : Registry) (epoch : Nat) : GatewayConfig where
  shared := ⟨w, epoch, none, registry, none, 0, fun _ => none⟩
  threads := fun _ => none

-- ==== what steps do

section Steps

variable {estr : CoreError → String} {crates : Crates} {g g' : Gateway}
  {e : GatewayEntry} {α : Type} {handle : VaultHandle} {op : FacadeOp} {conn : Conn}

structure Framed (g g' : Gateway) : Prop where
  epoch : g'.epoch = g.epoch
  listener : g'.listener = g.listener
  nextConn : g'.nextConn = g.nextConn
  conns : g'.conns = g.conns

theorem Framed.refl (g : Gateway) : Framed g g := ⟨rfl, rfl, rfl, rfl⟩

theorem Registers.framed {p : AgentsM α} {a : Except String α}
    (h : Registers estr p g a g') : Framed g g' := by
  obtain ⟨r, stored, -, -, rfl⟩ := h
  exact ⟨rfl, rfl, rfl, rfl⟩

/-- An answer of the vault changes the vault or the registry alone. -/
theorem FacadeAnswers.part {a : op.Ans} (h : FacadeAnswers estr handle g op a g') :
    ∃ world registry, g' = { g with world := world, registry := registry } := by
  have hstores : ∀ {α : Type} {p : VaultM α} {a : Except String α}, Stores estr p g a g' →
      ∃ world registry, g' = { g with world := world, registry := registry } := by
    intro α p a hs
    obtain ⟨r, w, -, -, heq⟩ := hs
    exact ⟨w, g.registry, heq⟩
  unfold FacadeAnswers at h
  cases op with
  | listContainers | listFiles | containerMode | readFile => exact ⟨_, _, h.2⟩
  | writeFile | deleteFile | destroyContainer => exact hstores h
  | createContainer name mode description =>
    dsimp only at h
    split at h
    · exact ⟨_, _, h.2⟩
    · exact hstores h
  | importAgentsAtomically entries replaceExisting =>
    dsimp only at h
    split at h
    · exact ⟨_, _, h.2⟩
    · obtain ⟨fresh, now, r, stored, -, -, heq⟩ := h
      exact ⟨g.world, stored, heq⟩
  | transitCreateKey | transitDecrypt | sign | signingCreateKey | brokerCreate | brokerRequest =>
    obtain ⟨w, -, -, -, -, heq⟩ := h
    exact ⟨w, g.registry, heq⟩
  | listAgents | transitList | transitEncrypt | signingPublicKey
  | signingList | brokerList | brokerEnabled | custodyModeLabel => exact ⟨_, _, h⟩

theorem FacadeAnswers.framed
    {a : op.Ans} (h : FacadeAnswers estr handle g op a g') : Framed g g' := by
  obtain ⟨world, registry, rfl⟩ := h.part
  exact ⟨rfl, rfl, rfl, rfl⟩

theorem Answers.framed {tid : Nat} {o : DesktopOp} {a : o.Ans}
    (h : Answers estr g tid o a g') : Framed g g' := by
  cases o with
  | mcp o =>
    cases o with
    | lockHandle =>
      obtain ⟨-, -, rfl⟩ := h
      exact ⟨rfl, rfl, rfl, rfl⟩
    | unlockHandle =>
      obtain ⟨-, rfl⟩ := h
      exact ⟨rfl, rfl, rfl, rfl⟩
    | facade op =>
      obtain ⟨handle, -, h⟩ := h
      exact h.framed
    | authenticate _ _ | authorize _ => exact h.elim
    | checkRate _ | record _ | clock =>
      rw [show g' = g from h]
      exact .refl g
  | request _ =>
    rw [show g' = g from h]
    exact .refl g
  | epoch | registry =>
    rw [show g' = g from h.2]
    exact .refl g

theorem FacadeAnswers.still
    {a : op.Ans} (h : FacadeAnswers estr handle g op a g') (heff : op.effect = false) : g' = g := by
  cases op with
  | listContainers | listFiles | containerMode => exact h.2
  | listAgents | transitList | transitEncrypt | signingPublicKey
  | signingList | brokerList | brokerEnabled | custodyModeLabel => exact h
  | _ => cases heff

def Move.registers : Move → Bool
  | .startServers _ _ _ | .createAgent _ _ _ _ _ | .revokeAgent _ => true
  | _ => false

inductive SharedStep (e : GatewayEntry) : Prop where
  | still : e.after.shared.world = e.before.shared.world → e.after.shared.registry
      = e.before.shared.registry → e.after.shared.epoch = e.before.shared.epoch → SharedStep e
  | facade {tid : Nat} {op : FacadeOp} {a : op.Ans} {handle : VaultHandle} : e.event
      = .exchange tid ⟨.mcp (.facade op), a⟩ → op.effect = true → e.before.shared.world.handle
      = some handle → e.after.shared.epoch = e.before.shared.epoch → SharedStep e
  | lock : e.event = .move .lock → e.after.shared.world
        = { e.before.shared.world with handle := none } →
      e.after.shared.registry = e.before.shared.registry →
      e.after.shared.epoch = e.before.shared.epoch + 1 → SharedStep e
  | unlock
      {w : World} : e.event = .move (.unlock w) → e.after.shared.world = w → e.after.shared.registry
      = e.before.shared.registry → e.after.shared.epoch = e.before.shared.epoch + 1 → SharedStep e
  | command {w : World} : e.event = .move (.command w) → w.handle.isSome
      = e.before.shared.world.handle.isSome → e.after.shared.world = w → e.after.shared.registry
      = e.before.shared.registry → e.after.shared.epoch = e.before.shared.epoch → SharedStep e
  | registers {m : Move} : e.after.shared.world = e.before.shared.world → e.after.shared.epoch
      = e.before.shared.epoch → (e.event = .move m ∧ m.registers = true) → SharedStep e

theorem Registers.world {p : AgentsM α} {a : Except String α}
    (h : Registers estr p g a g') : g'.world = g.world := by
  obtain ⟨r, stored, -, -, rfl⟩ := h
  rfl

theorem shared_step (hs : (gateway estr crates).Step e) : SharedStep e := by
  cases hs with
  | call hfree hbegins =>
    obtain ⟨conn, -, -, -, rfl⟩ := hbegins
    exact .still rfl rfl rfl
  | @exchange c tid t t' ex s ht hhears hanswers =>
    obtain ⟨o, a⟩ := ex
    cases o with
    | mcp o =>
      cases o with
      | lockHandle =>
        obtain ⟨-, -, rfl⟩ := hanswers
        exact .still rfl rfl rfl
      | unlockHandle =>
        obtain ⟨-, rfl⟩ := hanswers
        exact .still rfl rfl rfl
      | facade op =>
        obtain ⟨handle, hhandle, hfacade⟩ := hanswers
        cases heff : op.effect with
        | true => exact .facade rfl heff hhandle hfacade.framed.epoch
        | false =>
          rw [hfacade.still heff]
          exact .still rfl rfl rfl
      | authenticate _ _ | authorize _ => exact hanswers.elim
      | checkRate _ | record _ | clock =>
        rw [show s = c.shared from hanswers]
        exact .still rfl rfl rfl
    | request _ =>
      rw [show s = c.shared from hanswers]
      exact .still rfl rfl rfl
    | epoch | registry =>
      rw [show s = c.shared from hanswers.2]
      exact .still rfl rfl rfl
  | finish ht hr hends =>
    obtain ⟨conn, response, pair, -, -, rfl⟩ := hends
    exact .still rfl rfl rfl
  | @move c m s hmoves =>
    cases m with
    | lock =>
      obtain ⟨-, rfl⟩ := hmoves
      exact .lock rfl rfl rfl rfl
    | unlock w =>
      obtain ⟨-, -, rfl⟩ := hmoves
      exact .unlock rfl rfl rfl rfl
    | command w =>
      obtain ⟨hsame, rfl⟩ := hmoves
      exact .command rfl hsame rfl rfl rfl
    | startServers l agentId now =>
      obtain ⟨r, stored, -, rfl⟩ := hmoves
      exact .registers rfl rfl ⟨rfl, rfl⟩
    | stopServers =>
      rw [show s = _ from hmoves]
      exact .still rfl rfl rfl
    | accept =>
      obtain ⟨l, -, rfl⟩ := hmoves
      exact .still rfl rfl rfl
    | close n =>
      obtain ⟨-, rfl⟩ := hmoves
      exact .still rfl rfl rfl
    | createAgent name scopes agentId token now | revokeAgent agentId =>
      obtain ⟨handle, a, -, h⟩ := hmoves
      exact .registers h.world h.framed.epoch ⟨rfl, rfl⟩

/-- What a step makes of a connection. -/
inductive ConnStep (e : GatewayEntry) (n : Nat) (conn : Conn) : Prop where
  | same : e.before.shared.conns n = some conn → ConnStep e n conn
  | accepted : e.event = .move .accept → n = e.before.shared.nextConn →
      conn.pair = .unpaired → conn.busy = false → ConnStep e n conn
  | taken {tid : Nat} {frame : Frame} {conn₀ : Conn} : e.event = .call tid frame → frame.conn = n →
      e.before.shared.conns n = some conn₀ →
      conn = { conn₀ with busy := true } → ConnStep e n conn
  | done {tid : Nat} {t : Thread desktopInterface String Outcome Frame}
      {conn₀ : Conn} {response : Option Value} {pair : PairState} :
      e.event = .finish tid → e.before.threads tid = some t →
      t.call.conn = n → t.talk = .ret (.ok (response, pair)) →
      e.before.shared.conns n = some conn₀ →
      conn = { conn₀ with pair := pair, busy := false } →
      ConnStep e n conn

theorem Moves.conns_cases {m : Move} (h : Moves estr g m g') :
    (m = .accept ∧ ∃ l, g'.conns = update g.conns g.nextConn (some ⟨l, .unpaired, false⟩))
    ∨ (∃ n c, m = .close n ∧ g.conns n = some c ∧ c.busy = false
      ∧ g'.conns = update g.conns n none)
    ∨ g'.conns = g.conns := by
  cases m with
  | accept =>
    obtain ⟨l, -, rfl⟩ := h
    exact .inl ⟨rfl, l, rfl⟩
  | close n =>
    obtain ⟨⟨c, hc, hbusy⟩, rfl⟩ := h
    exact .inr (.inl ⟨n, c, rfl, hc, hbusy, rfl⟩)
  | lock | command w =>
    obtain ⟨-, rfl⟩ := h
    exact .inr (.inr rfl)
  | unlock w =>
    obtain ⟨-, -, rfl⟩ := h
    exact .inr (.inr rfl)
  | startServers l agentId now =>
    obtain ⟨r, stored, -, rfl⟩ := h
    exact .inr (.inr rfl)
  | stopServers => exact .inr (.inr (by rw [show g' = _ from h]))
  | createAgent name scopes agentId token now | revokeAgent agentId =>
    obtain ⟨handle, a, -, h⟩ := h
    exact .inr (.inr h.framed.conns)

theorem conn_step (hs : (gateway estr crates).Step e)
    {n : Nat} (hconn : e.after.shared.conns n = some conn) : ConnStep e n conn := by
  cases hs with
  | @call c tid frame p s hfree hbegins =>
    obtain ⟨conn₀, hconn₀, -, -, rfl⟩ := hbegins
    simp only [update_apply] at hconn
    split_ifs at hconn with hn
    · subst hn
      cases hconn
      exact .taken rfl rfl hconn₀ rfl
    · exact .same hconn
  | exchange ht hhears hanswers =>
    have hframe := (Answers.framed hanswers).conns
    rw [hframe] at hconn
    exact .same hconn
  | @finish c tid t r s ht hr hends =>
    obtain ⟨conn₀, response, pair, hconn₀, rfl, rfl⟩ := hends
    simp only [update_apply] at hconn
    split_ifs at hconn with hn
    · subst hn
      cases hconn
      exact .done rfl ht rfl hr hconn₀ rfl
    · exact .same hconn
  | @move c m s hmoves =>
    rcases Moves.conns_cases hmoves with ⟨rfl, l, heq⟩
        | ⟨n', c', rfl, -, -, heq⟩ | heq
    · rw [heq, update_apply] at hconn
      split_ifs at hconn with hn
      · subst hn
        cases hconn
        exact .accepted rfl rfl rfl rfl
      · exact .same hconn
    · rw [heq, update_apply] at hconn
      split_ifs at hconn
      exact .same hconn
    · rw [heq] at hconn
      exact .same hconn

theorem conns_busy (hs : (gateway estr crates).Step e)
    {n : Nat} (hconn : e.before.shared.conns n = some conn) (hbusy : conn.busy = true)
    (hn : n < e.before.shared.nextConn) (hother : ∀ tid t, e.event = .finish tid →
      e.before.threads tid = some t → t.call.conn ≠ n) : e.after.shared.conns n = some conn := by
  cases hs with
  | @call c tid frame p s hfree hbegins =>
    obtain ⟨conn₀, hconn₀, hidle, -, rfl⟩ := hbegins
    have hne : n ≠ frame.conn := by
      rintro rfl
      rw [hconn₀] at hconn
      cases hconn
      rw [hidle] at hbusy
      cases hbusy
    dsimp only
    rw [update_of_ne hne]
    exact hconn
  | exchange ht hhears hanswers =>
    rw [(Answers.framed hanswers).conns]
    exact hconn
  | @finish c tid t r s ht hr hends =>
    obtain ⟨conn₀, response, pair, hconn₀, rfl, rfl⟩ := hends
    have hne : n ≠ t.call.conn := (hother tid t rfl ht).symm
    dsimp only
    rw [update_of_ne hne]
    exact hconn
  | @move c m s hmoves =>
    rcases Moves.conns_cases hmoves with ⟨rfl, l, heq⟩
        | ⟨n', c', rfl, hc', hidle, heq⟩ | heq
    · rw [heq, update_of_ne (Nat.ne_of_lt hn)]
      exact hconn
    · have hne : n ≠ n' := by
        rintro rfl
        rw [hc'] at hconn
        cases hconn
        rw [hidle] at hbusy
        cases hbusy
      rw [heq, update_of_ne hne]
      exact hconn
    · rw [heq]
      exact hconn

theorem nextConn_mono (hs : (gateway estr crates).Step e) :
    e.after.shared.nextConn = e.before.shared.nextConn
    ∨ e.event = .move .accept
      ∧ e.after.shared.nextConn = e.before.shared.nextConn + 1 := by
  cases hs with
  | call hfree hbegins =>
    obtain ⟨conn₀, -, -, -, rfl⟩ := hbegins
    exact .inl rfl
  | exchange ht hhears hanswers => exact .inl (Answers.framed hanswers).nextConn
  | finish ht hr hends =>
    obtain ⟨conn₀, response, pair, -, -, rfl⟩ := hends
    exact .inl rfl
  | @move c m s hmoves =>
    cases m with
    | accept =>
      obtain ⟨l, -, rfl⟩ := hmoves
      exact .inr ⟨rfl, rfl⟩
    | close n | lock | command w =>
      obtain ⟨-, rfl⟩ := hmoves
      exact .inl rfl
    | unlock w =>
      obtain ⟨-, -, rfl⟩ := hmoves
      exact .inl rfl
    | startServers l agentId now =>
      obtain ⟨r, stored, -, rfl⟩ := hmoves
      exact .inl rfl
    | stopServers =>
      left
      rw [show s = _ from hmoves]
    | createAgent name scopes agentId token now | revokeAgent agentId =>
      obtain ⟨handle, a, -, h⟩ := hmoves
      exact .inl h.framed.nextConn

end Steps

-- ==== what stays true

/-- Every call serves a connection of its own, with the program that
connection began it with. -/
structure Sound (estr : CoreError → String) (crates : Crates) (c : GatewayConfig) : Prop where
  serving : ∀ tid t, c.threads tid = some t → ∃ conn,
    c.shared.conns t.call.conn = some conn ∧ conn.busy = true
      ∧ t.origin = serve estr conn.listener crates t.call.raw conn.pair
  alone : ∀ tid tid' t t', c.threads tid = some t →
    c.threads tid' = some t' → t.call.conn = t'.call.conn → tid = tid'
  fresh : ∀ n conn, c.shared.conns n = some conn → n < c.shared.nextConn

section Invariant

variable {estr : CoreError → String}
  {crates : Crates} {e : GatewayEntry} {c : GatewayConfig} {h : List GatewayEntry}
  {allowed : GatewayEntry → Prop} {tid : Nat} {t : Thread desktopInterface String Outcome Frame}

theorem sound_launch (w : World) (registry : Registry) (epoch : Nat) :
    Sound estr crates (launch w registry epoch) :=
  ⟨nofun, nofun, nofun⟩

theorem Sound.kept (hsound : Sound estr crates e.before)
    (hs : (gateway estr crates).Step e) (ht : e.before.threads tid = some t)
    (hby : ¬ e.event.By tid) {conn : Conn} (hconn : e.before.shared.conns t.call.conn = some conn)
    (hbusy : conn.busy = true) : e.after.shared.conns t.call.conn = some conn := by
  refine conns_busy hs hconn hbusy (hsound.fresh _ _ hconn) ?_
  intro tid' t' hevent ht' hsame
  have htid := hsound.alone tid' tid t' t ht' ht hsame
  subst htid
  rw [hevent] at hby
  exact hby rfl

theorem Sound.step (hsound : Sound estr crates e.before) (hs : (gateway estr crates).Step e) :
    Sound estr crates e.after where
  serving := by
    intro tid t ht
    rcases hs.thread_cases ht with ⟨hbefore, hby⟩
        | ⟨frame, p, hevent, rfl, hbegins⟩
        | ⟨ex, t₀, hevent, ht₀, hhears, hanswers⟩
    · obtain ⟨conn, hconn, hbusy, horigin⟩ := hsound.serving tid t hbefore
      exact ⟨conn, hsound.kept hs hbefore hby hconn hbusy, hbusy, horigin⟩
    · obtain ⟨conn, hconn, -, rfl, hafter⟩ := hbegins
      refine ⟨{ conn with busy := true }, ?_, rfl, rfl⟩
      rw [hafter]
      exact update_self _ _ _
    obtain ⟨conn, hconn, hbusy, horigin⟩ := hsound.serving tid t₀ ht₀
    refine ⟨conn, ?_, hbusy, ?_⟩
    · rw [(Answers.framed hanswers).conns, hhears.call]
      exact hconn
    · rw [hhears.call, hhears.origin]
      exact horigin
  alone := by
    -- a call that was there already serves a busy connection, and a new
    -- one takes up an idle one
    have hnew : ∀ {tid tid' t t'},
        e.after.threads tid = some t → e.after.threads tid' = some t' → t.call.conn = t'.call.conn →
        (∃ t₀, e.before.threads tid = some t₀ ∧ t₀.call = t.call) → tid = tid' := by
      intro tid tid' t t' _ ht' hsame ⟨t₀, ht₀, hcall⟩
      rcases hs.thread_cases ht' with ⟨hbefore, -⟩
          | ⟨frame, p, hevent, rfl, hbegins⟩
          | ⟨ex, t₁, hevent, ht₁, hhears, -⟩
      · exact hsound.alone tid tid' t₀ t' ht₀ hbefore (hcall ▸ hsame)
      · obtain ⟨conn, hconn, hidle, -, -⟩ := hbegins
        obtain ⟨conn', hconn', hbusy, -⟩ := hsound.serving tid t₀ ht₀
        rw [hcall, hsame] at hconn'
        rw [show (Thread.start frame p).call = frame from rfl, hconn] at hconn'
        cases hconn'
        rw [hidle] at hbusy
        cases hbusy
      · refine hsound.alone tid tid' t₀ t₁ ht₀ ht₁ ?_
        rw [hcall, hsame, hhears.call]
    intro tid tid' t t' ht ht' hsame
    rcases hs.thread_cases ht with ⟨hbefore, -⟩
        | ⟨frame, p, hevent, rfl, hbegins⟩
        | ⟨ex, t₀, hevent, ht₀, hhears, -⟩
    · exact hnew ht ht' hsame ⟨t, hbefore, rfl⟩
    · rcases hs.thread_cases ht' with ⟨hbefore', -⟩
          | ⟨frame', p', hevent', rfl, -⟩
          | ⟨ex, t₁, hevent', ht₁, hhears, -⟩
      · exact (hnew ht' ht hsame.symm ⟨t', hbefore', rfl⟩).symm
      · rw [hevent] at hevent'
        cases hevent'
        rfl
      · exact (hnew ht' ht hsame.symm ⟨t₁, ht₁, hhears.call.symm⟩).symm
    · exact hnew ht ht' hsame ⟨t₀, ht₀, hhears.call.symm⟩
  fresh := by
    intro n conn hconn
    have hmono : e.before.shared.nextConn ≤ e.after.shared.nextConn := by
      rcases nextConn_mono hs with heq | ⟨-, heq⟩ <;> omega
    cases conn_step hs hconn with
    | same hbefore => exact (hsound.fresh n conn hbefore).trans_le hmono
    | accepted hevent hn hpair hbusy =>
      obtain ⟨⟨l, -, hafter⟩, -⟩ := hs.move_inv hevent
      rw [hafter, hn]
      exact Nat.lt_succ_self _
    | taken hevent hframe hbefore hconn'
    | done hevent ht hcall htalk hbefore hconn' => exact (hsound.fresh n _ hbefore).trans_le hmono

theorem Sound.run {c₀ : GatewayConfig} (hsound : Sound estr crates c₀)
    (hrun : (gateway estr crates).Run allowed c₀ h c) : Sound estr crates c :=
  hrun.invariant (P := fun _ c => Sound estr crates c) hsound
    fun _ _ hbefore _ hs => hbefore.step hs

theorem Sound.asks (hsound : Sound estr crates c) (ht : c.threads tid = some t)
    {ex : DesktopExchange} {t' : Thread desktopInterface String Outcome Frame}
    (hhears : t.Hears ex t') : ∃ conn, c.shared.conns t.call.conn = some conn
      ∧ Serving conn.listener conn.pair t.said ex.op := by
  obtain ⟨conn, hconn, -, horigin⟩ := hsound.serving tid t ht
  have hwp := serve_serving estr conn.listener crates t.call.raw conn.pair
  rw [← horigin] at hwp
  exact ⟨conn, hconn, hhears.guard hwp⟩

theorem Sound.returns
    (hsound : Sound estr crates c) (ht : c.threads tid = some t) {r : Except String Outcome}
    (hr : t.talk = .ret r) : ∃ conn, c.shared.conns t.call.conn = some conn ∧ ∃ h, Expands h t.said
        ∧ Responded conn.listener.server crates conn.pair .mcpWs r h := by
  obtain ⟨conn, hconn, -, horigin⟩ := hsound.serving tid t ht
  have hwp := serve_serving estr conn.listener crates t.call.raw conn.pair
  rw [← horigin] at hwp
  exact ⟨conn, hconn, Thread.returned hr hwp⟩

end Invariant

end SovereignVault.Desktop
