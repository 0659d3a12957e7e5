/-
What a lock and a revocation mean to connections that are open.

A connection keeps the agent it was paired as for as long as it is open
(`Sound.paired_step`); neither a lock nor a revocation closes it. After a
lock, nothing is executed on an old connection as long as the vault is not
unlocked while one is open; after a revocation, nothing for the agent as
long as none of its connections was open, or about to be.
-/
import SovereignVault.Desktop.Gateway

namespace SovereignVault.Desktop

open Crash Prog List Option
open Dialogue Talk Mcp Agents

-- ==== paired connections

def PairedAs (g : Gateway) (n : Nat) (agent : Option ResolvedAgent) : Prop :=
  ∃ conn, g.conns n = some conn ∧ conn.pair = .alreadyPaired agent

section Pairing

variable {estr : CoreError → String}
  {crates : Crates} {e : GatewayEntry} {c : GatewayConfig} {h : List GatewayEntry}
  {allowed : GatewayEntry → Prop} {n : Nat} {agent : Option ResolvedAgent} {c₀ : GatewayConfig}

theorem Sound.paired_step (hsound : Sound estr crates e.before)
    (hs : (gateway estr crates).Step e) (hp : PairedAs e.before.shared n agent) :
    PairedAs e.after.shared n agent ∨ e.after.shared.conns n = none := by
  obtain ⟨conn, hconn, hpair⟩ := hp
  cases hafter : e.after.shared.conns n with
  | none => exact .inr rfl
  | some conn' =>
    left
    refine ⟨conn', hafter, ?_⟩
    cases conn_step hs hafter with
    | same hbefore =>
      rw [hconn] at hbefore
      cases hbefore
      exact hpair
    | accepted hevent hn _ _ =>
      have hlt := hsound.fresh n conn hconn
      rw [hn] at hlt
      exact absurd hlt (Nat.lt_irrefl _)
    | taken hevent hframe hbefore hconn' =>
      rw [hconn] at hbefore
      cases hbefore
      rw [hconn']
      exact hpair
    | done hevent ht hcall htalk hbefore hconn' =>
      rw [hconn] at hbefore
      cases hbefore
      obtain ⟨conn₀, hconn₀, h, -, hresp⟩ := hsound.returns ht htalk
      rw [hcall, hconn] at hconn₀
      cases hconn₀
      rw [hpair] at hresp
      rw [hconn']
      exact hresp.paired

theorem closed_step (hs : (gateway estr crates).Step e)
    (hclosed : e.before.shared.conns n = none) (hn : n < e.before.shared.nextConn) :
    e.after.shared.conns n = none ∧ n < e.after.shared.nextConn := by
  refine ⟨?_, ?_⟩
  · cases hafter : e.after.shared.conns n with
    | none => rfl
    | some conn =>
      cases conn_step hs hafter with
      | same hbefore | taken _ _ hbefore _ | done _ _ _ _ hbefore _ =>
        rw [hclosed] at hbefore
        cases hbefore
      | accepted _ heq _ _ =>
        rw [heq] at hn
        exact absurd hn (Nat.lt_irrefl _)
  · rcases nextConn_mono hs with heq | ⟨-, heq⟩ <;> omega

theorem Sound.paired_run
    (hsound : Sound estr crates c₀) (hrun : (gateway estr crates).Run allowed c₀ h c)
    (hp : PairedAs c₀.shared n agent) : PairedAs c.shared n agent
    ∨ (c.shared.conns n = none ∧ n < c.shared.nextConn) := by
  induction hrun with
  | nil => exact .inl hp
  | @step h e hr hallow hs ih =>
    rcases ih with hp' | ⟨hclosed, hn⟩
    · rcases (hsound.run hr).paired_step hs hp' with hp'' | hclosed
      · exact .inl hp''
      · obtain ⟨conn, hconn, -⟩ := hp'
        have hlt := (hsound.run hr).fresh n conn hconn
        refine .inr ⟨hclosed, ?_⟩
        rcases nextConn_mono hs with heq | ⟨-, heq⟩ <;> omega
    · exact .inr (closed_step hs hclosed hn)

theorem closed_run (hrun : (gateway estr crates).Run allowed c₀ h c)
    (hclosed : c₀.shared.conns n = none) (hn : n < c₀.shared.nextConn) :
    c.shared.conns n = none := by
  have hboth : c.shared.conns n = none ∧ n < c.shared.nextConn := by
    induction hrun with
    | nil => exact ⟨hclosed, hn⟩
    | step _ _ hs ih => exact closed_step hs ih.1 ih.2
  exact hboth.1

-- ==== locks

theorem handle_step
    (hs : (gateway estr crates).Step e) (hlocked : e.before.shared.world.handle = none)
    (hunlock : ∀ w, e.event ≠ .move (.unlock w)) : e.after.shared.world.handle = none := by
  cases shared_step hs with
  | still hworld _ _ | registers hworld _ _ =>
    rw [hworld]
    exact hlocked
  | facade _ _ hhandle _ =>
    rw [hlocked] at hhandle
    cases hhandle
  | lock _ hworld _ _ => rw [hworld]
  | unlock hevent _ _ _ => exact absurd hevent (hunlock _)
  | command _ hsame hworld _ _ =>
    rw [hlocked] at hsame
    rw [hworld]
    exact isNone_iff_eq_none.1 (isSome_eq_false_iff.1 hsame)

/-- An unlock of a locked vault finds no connection that is paired. -/
def Reconnects (e : GatewayEntry) : Prop :=
  ∀ w, e.event = .move (.unlock w) → e.before.shared.world.handle = none →
    ∀ n agent, ¬ PairedAs e.before.shared n agent

theorem Sound.stays_locked (hsound : Sound estr crates c₀)
    (hrun : (gateway estr crates).Run Reconnects c₀ h c) (hlocked : c₀.shared.world.handle = none)
    (hp : PairedAs c₀.shared n agent) : c.shared.world.handle = none ∨ c.shared.conns n = none := by
  induction hrun with
  | nil => exact .inl hlocked
  | @step h e hr hallow hs ih =>
    rcases hsound.paired_run hr hp with hp' | ⟨hclosed, hn⟩
    · rcases ih with hlocked' | hclosed
      · refine .inl (handle_step hs hlocked' fun w hevent => ?_)
        exact hallow w hevent hlocked' n agent hp'
      · obtain ⟨conn, hconn, -⟩ := hp'
        rw [hclosed] at hconn
        cases hconn
    · exact .inr (closed_step hs hclosed hn).1

end Pairing

/-- Locking ends every connection, in every run in which no connection is
still paired when the locked vault is unlocked again: on a connection that
was paired at a lock nothing is executed after it, and one on which
something is executed was paired in the same session. -/
theorem lock_ends_connections (estr : CoreError → String)
    (crates : Crates) (w : World) (registry : Registry) (epoch : Nat) (h : List GatewayEntry)
    (c : GatewayConfig) (hrun : (gateway estr crates).Run Reconnects (launch w registry epoch) h c)
    (later mid earlier : List GatewayEntry)
    (x l : GatewayEntry) (heq : h = later ++ x :: (mid ++ l :: earlier))
    (tid : Nat) (op : FacadeOp) (a : op.Ans) (hx : x.event = .exchange tid ⟨.mcp (.facade op), a⟩)
    (t : Thread desktopInterface String Outcome Frame)
    (ht : x.before.threads tid = some t) : (l.event = .move .lock →
        ∀ agent, ¬ PairedAs l.before.shared t.call.conn agent)
      ∧ (l.after.shared.world.handle = none →
        ∀ agent, ¬ PairedAs l.after.shared t.call.conn agent) := by
  subst heq
  obtain ⟨hbefore, -, hxs⟩ := hrun.split
  obtain ⟨hl, -, hls⟩ := hbefore.split
  have hsound : Sound estr crates l.after := ((sound_launch w registry epoch).run hl).step hls
  -- the vault is unlocked at the execution, and its connection open
  have hunlocked : x.before.shared.world.handle ≠ none := by
    obtain ⟨t', t'', -, -, -, hanswers⟩ := hxs.exchange_inv hx
    obtain ⟨handle, hhandle, -⟩ := hanswers
    rw [hhandle]
    exact nofun
  obtain ⟨conn, hconn, -⟩ := (hsound.run hbefore.tail).serving tid t ht
  have hafter : l.after.shared.world.handle = none →
      ∀ agent, ¬ PairedAs l.after.shared t.call.conn agent := by
    intro hlocked agent hp
    rcases hsound.stays_locked hbefore.tail hlocked hp with
      hlocked' | hclosed
    · exact hunlocked hlocked'
    · rw [hclosed] at hconn
      cases hconn
  refine ⟨fun hlock agent hp => ?_, hafter⟩
  obtain ⟨⟨-, heq⟩, -⟩ := hls.move_inv hlock
  refine hafter ?_ agent ?_
  · rw [heq]
  · rw [heq]
    exact hp

namespace Sample

def lockedRoot : World :=
  { World.empty with
    manifest := some (Storage.authenticated (.generate 2) Storage.defaultManifest) }

def handle : VaultHandle :=
  ⟨Storage.singleKeyVault (.generate 0) (.generate 2), .passphrase, .generate 1⟩

def unlockedRoot : World := { lockedRoot with handle := some handle }

def listener : Listener := ⟨"s3cret", agentTokenKey handle⟩

def estr (_ : CoreError) : String := "error"

/-- The three messages of the samples, parsed. -/
def fromStr : String → Except String Value
  | "pair" => .ok (.object [("id", .nat 1), ("method", .string "vault.pair"),
      ("params", .object [("secret", .string "s3cret")])])
  | "list" => .ok (.object [("id", .nat 2), ("method", .string "tools/call"),
      ("params", .object [("name", .string "vault.list")])])
  | "read" => .ok (.object [("id", .nat 3), ("method", .string "tools/call"),
      ("params", .object [("name", .string "vault.read"),
        ("arguments", .object [("container", .string "notes"),
          ("file_name", .string "card.txt")])])])
  | _ => .error "expected value at line 1 column 1"

def email : Bytes := [97, 64, 98, 46, 99]

def crates : Crates :=
  { Mcp.Sample.plainCrates with
    fromStr := fromStr
    toText := fun value => .ok ((value.getStr "content_b64").getD "")
    b64Encode := fun bytes => if bytes = email then "YUBiLmM=" else ""
    b64Decode := fun text => .ok (if text = "YUBiLmM=" then email else [])
    redact := fun _ => ⟨"", 1⟩ }

def facadeReply (handle : VaultHandle) (g : Gateway) : (op : FacadeOp) → Option (op.Ans × Gateway)
  | .listContainers => some (((Storage.listContainers handle.vault).run g.world).1.mapError estr, g)
  | .containerMode c =>
    some (((Storage.containerMode handle.vault c).run g.world).1.mapError estr, g)
  | .readFile c f => some (((Storage.readFile handle.vault (c, f)).run g.world).1.mapError estr, g)
  | _ => none

def reply (g : Gateway) (tid : Nat) : (o : DesktopOp) → Option (o.Ans × Gateway)
  | .mcp .lockHandle =>
    if g.holder = none then some (g.world.handle.isSome, { g with holder := some tid })
    else none
  | .mcp .unlockHandle =>
    if g.holder = some tid then some ((), { g with holder := none })
    else none
  | .mcp (.facade op) => g.world.handle.bind fun handle => facadeReply handle g op
  | .mcp (.record _) => some (.ok (), g)
  | .mcp .clock => some (0, g)
  | .request _ => some (.ok (), g)
  | .epoch => some (g.epoch, g)
  | .registry => some (.ok g.registry, g)
  | _ => none

def step (g : Gateway) : Move → Option Gateway
  | .lock =>
    if g.holder = none then
      some { g with world := { g.world with handle := none }, epoch := g.epoch + 1 }
    else none
  | .unlock w =>
    if g.holder = none ∧ w.handle.isSome then
      some { g with world := w, epoch := g.epoch + 1 }
    else none
  | .command w =>
    if w.handle.isSome = g.world.handle.isSome then some { g with world := w } else none
  | .startServers l agentId now =>
    let r := (ensureDefaultAgent l.tokenKey l.pairingSecret agentId now).run g.registry
    some { g with
      registry := r.2
      listener := if r.1.isOk then some l else none }
  | .accept => g.listener.map fun l => { g with
      nextConn := g.nextConn + 1
      conns := Function.update g.conns g.nextConn (some ⟨l, .unpaired, false⟩) }
  | .revokeAgent agentId => g.world.handle.map fun handle => { g with
      registry := ((revokeAgent (agentTokenKey handle) agentId).run g.registry).2 }
  | _ => none

def player : Player (gateway estr crates) where
  begin g frame :=
    (g.conns frame.conn).bind fun conn =>
      if conn.busy = false then
        some (serve estr conn.listener crates frame.raw conn.pair,
          { g with
            conns := Function.update g.conns frame.conn (some { conn with busy := true }) })
      else none
  answer g tid _ o := reply g tid o
  finish g frame r :=
    match g.conns frame.conn, r with
    | some conn, .ok (_, pair) => some { g with
        conns := Function.update g.conns frame.conn (if pair = .failed then none
            else some { conn with pair := pair, busy := false }) }
    | _, _ => none
  move := step
  begins := by
    intro g frame p g' h
    obtain ⟨conn, hconn, h⟩ := bind_eq_some_iff.1 h
    obtain ⟨hidle, heq⟩ := ite_none_right_eq_some.1 h
    cases heq
    exact ⟨conn, hconn, hidle, rfl, rfl⟩
  answers := by
    intro g tid frame o a g' h
    cases o with
    | mcp o =>
      cases o with
      | lockHandle =>
        obtain ⟨hfree, heq⟩ := ite_none_right_eq_some.1 h
        cases heq
        exact ⟨hfree, rfl, rfl⟩
      | unlockHandle =>
        obtain ⟨hheld, heq⟩ := ite_none_right_eq_some.1 h
        cases heq
        exact ⟨hheld, rfl⟩
      | facade op =>
        obtain ⟨handle, hhandle, h⟩ := bind_eq_some_iff.1 h
        refine ⟨handle, hhandle, ?_⟩
        cases op with
        | listContainers | containerMode c | readFile c f =>
          cases h
          exact ⟨⟨_, _, run_returns _ _ _, rfl⟩, rfl⟩
        | _ => cases h
      | record _ | clock =>
        cases h
        rfl
      | _ => cases h
    | request _ =>
      cases h
      rfl
    | epoch =>
      cases h
      exact ⟨rfl, rfl⟩
    | registry =>
      cases h
      exact ⟨.inl rfl, rfl⟩
  ends := by
    intro g frame r g' h
    split at h
    · next conn response pair hconn =>
      cases h
      exact ⟨conn, response, pair, hconn, rfl, rfl⟩
    · cases h
  moves := by
    intro g m g' h
    cases m with
    | lock | command w =>
      obtain ⟨hready, heq⟩ := ite_none_right_eq_some.1 h
      cases heq
      exact ⟨hready, rfl⟩
    | unlock w =>
      obtain ⟨⟨hfree, hhandle⟩, heq⟩ := ite_none_right_eq_some.1 h
      cases heq
      exact ⟨hfree, hhandle, rfl⟩
    | startServers l agentId now =>
      cases h
      exact ⟨_, _, run_returns _ _ _, rfl⟩
    | accept =>
      obtain ⟨l, hl, rfl⟩ := map_eq_some_iff.1 h
      exact ⟨l, hl, rfl⟩
    | revokeAgent agentId =>
      obtain ⟨handle, hhandle, rfl⟩ := map_eq_some_iff.1 h
      exact ⟨handle, _, hhandle, _, _, run_returns _ _ _, rfl, rfl⟩
    | _ => cases h

/-- A stretch of a run and the step it ends with. -/
structure Leg where
  steps : List GatewayEntry
  last : GatewayEntry

def leg (c : GatewayConfig) (acts : List (Act Frame Move)) (a : Act Frame Move)
    (h : (player.act (player.play c acts).2 a).isSome) : Leg :=
  ⟨(player.play c acts).1, (player.act (player.play c acts).2 a).get h⟩

section

variable {c₀ c : GatewayConfig} {hist : List GatewayEntry} {acts : List (Act Frame Move)}
  {a : Act Frame Move} {h : (player.act (player.play c acts).2 a).isSome}
  {allowed : GatewayEntry → Prop}

theorem leg_run {test : GatewayEntry → Bool}
    (htest : ∀ e, (gateway estr crates).Step e → test e = true → allowed e)
    (hall : (leg c acts a h).steps.all test = true)
    (hlast : (gateway estr crates).Step (leg c acts a h).last → allowed (leg c acts a h).last)
    (hrun : (gateway estr crates).Run allowed c₀ hist c) : (gateway estr crates).Run allowed c₀
      ((leg c acts a h).last :: ((leg c acts a h).steps ++ hist)) (leg c acts a h).last.after := by
  obtain ⟨hs, heq⟩ := player.act_step (some_get h).symm
  refine .step ?_ (hlast hs) hs
  rw [show (leg c acts a h).last.before = _ from heq]
  exact hrun.append (player.play_tested htest hall)

theorem leg_any (hrun : (gateway estr crates).Run (fun _ => True) c₀ hist c) :
    (gateway estr crates).Run (fun _ => True) c₀ ((leg c acts a h).last
      :: ((leg c acts a h).steps ++ hist)) (leg c acts a h).last.after :=
  leg_run (fun _ _ _ => trivial) (all_eq_true.2 fun _ _ => rfl : all _ (fun _ => true) = true)
    (fun _ => trivial) hrun

end

/-- A connection of the default agent, with its session. -/
def connected : Leg :=
  leg (launch lockedRoot none 0) [.move (.unlock unlockedRoot),
      .move (.startServers listener "agent-1" 0), .move .accept,
      .call 0 ⟨0, "pair"⟩, .answer 0, .answer 0, .answer 0] (.finish 0) rfl

def locked : Leg := leg connected.last.after [] (.move .lock) rfl

def relisted : Leg :=
  leg locked.last.after ([.move (.unlock unlockedRoot), .call 0 ⟨0, "list"⟩]
      ++ replicate 8 (.answer 0)) (.answer 0) rfl

-- ==== a session after a lock

def registered : Registry :=
  ((createAgent (agentTokenKey handle) "Idle" [] "agent-0" "token" 0).run none).2

/-- An idle agent is revoked, the servers are started and a connection is
accepted; then the vault is locked. -/
def lockedEarly : Leg :=
  leg (launch unlockedRoot registered 0) [.move (.revokeAgent "agent-0"),
    .move (.startServers listener "agent-1" 0), .move .accept] (.move .lock) rfl

def reopened : Leg := leg lockedEarly.last.after [] (.move (.unlock unlockedRoot)) rfl

def called : Leg :=
  leg reopened.last.after [.call 0 ⟨0, "pair"⟩, .answer 0, .answer 0, .answer 0, .finish 0]
    (.call 0 ⟨0, "list"⟩) rfl

def asked : Leg := leg called.last.after [.answer 0, .answer 0] (.answer 0) rfl

def served : Leg := leg asked.last.after (replicate 5 (.answer 0)) (.answer 0) rfl

def Idle (c : GatewayConfig) : Prop :=
  (∀ tid, c.threads tid = none) ∧ ∀ n agent, ¬ PairedAs c.shared n agent

theorem reopened_idle :
    ∀ e ∈ reopened.last :: lockedEarly.last :: (lockedEarly.steps ++ []), Idle e.before := by
  refine forall_mem_cons.2 ⟨?_, forall_mem_cons.2 ⟨?_, forall_mem_cons.2
    ⟨?_, forall_mem_cons.2 ⟨?_, forall_mem_cons.2 ⟨?_, fun _ hmem => absurd hmem not_mem_nil⟩⟩⟩⟩⟩ <;>
    refine ⟨fun _ => rfl, ?_⟩ <;>
    rintro (_ | n) agent ⟨conn, hconn, hpair⟩ <;> cases hconn <;> cases hpair

def plain (e : GatewayEntry) : Bool :=
  (match e.event with
    | .move .lock | .move (.unlock _) => false
    | _ => true)
  && e.after.shared.registry = e.before.shared.registry

theorem of_plain {e : GatewayEntry} (h : plain e = true) :
    (e.event ≠ .move .lock ∧ ∀ w, e.event ≠ .move (.unlock w))
    ∧ e.after.shared.registry = e.before.shared.registry := by
  obtain ⟨hevent, hregistry⟩ := Bool.and_eq_true_iff.1 h
  refine ⟨⟨fun hlock => ?_, fun w hunlock => ?_⟩, of_decide_eq_true hregistry⟩
  · rw [hlock] at hevent
    cases hevent
  · rw [hunlock] at hevent
    cases hevent

def session : List GatewayEntry :=
  served.last :: (served.steps ++ asked.last :: (asked.steps ++ called.last :: (called.steps
    ++ reopened.last :: lockedEarly.last :: (lockedEarly.steps ++ []))))

theorem session_run {allowed : GatewayEntry → Prop} (hidle : ∀ e, Idle e.before → allowed e)
    (hplain : ∀ e, (gateway estr crates).Step e → plain e = true → allowed e) :
    (gateway estr crates).Run allowed (launch unlockedRoot registered 0) session
      served.last.after := by
  refine leg_run hplain rfl (hplain _ · rfl) (leg_run hplain rfl (hplain _ · rfl)
    (leg_run hplain rfl (hplain _ · rfl) ?_))
  exact .restrict (leg_any (leg_any .nil)) fun e hmem _ => hidle e (reopened_idle e hmem)

end Sample

open Sample

/-- A connection that was open, but not paired, when the vault was locked:
it pairs after the vault is unlocked, and its call is executed. -/
theorem lock_ends_connections_anew : (∃ a, served.last.event
      = .exchange 0 ⟨.mcp (.facade .listContainers), a⟩)
    ∧ lockedEarly.last.event = .move .lock
    ∧ ∀ agent, ¬ PairedAs lockedEarly.last.before.shared 0 agent := by
  have hrun : (gateway estr crates).Run Reconnects _ session _ :=
    session_run (fun e hidle w _ _ => hidle.2)
      fun e _ hplain w hevent => absurd hevent ((of_plain hplain).1.2 w)
  exact ⟨⟨_, rfl⟩, rfl, (lock_ends_connections estr crates unlockedRoot registered 0 _ _ hrun []
    (served.steps ++ asked.last :: (asked.steps ++ called.last :: (called.steps
      ++ [reopened.last]))) lockedEarly.steps served.last lockedEarly.last
    (by simp [session]) 0 .listContainers _ rfl _ rfl).1 rfl⟩

/-- A connection that outlives a lock: it was paired before, the vault is
locked and unlocked again, and the connection's next call is executed
without pairing anew. -/
theorem lock_keeps_connection : ∃ (mid earlier : List GatewayEntry) (x l : GatewayEntry)
      (t : Thread desktopInterface String Outcome Frame)
      (a : FacadeOp.listContainers.Ans) (agent : ResolvedAgent), (gateway estr crates).Run
        (fun _ => True) (launch lockedRoot none 0) (x :: (mid ++ l :: earlier)) x.after
      ∧ l.event = .move .lock
      ∧ x.event = .exchange 0 ⟨.mcp (.facade .listContainers), a⟩
      ∧ x.before.threads 0 = some t
      ∧ PairedAs l.before.shared t.call.conn (some agent) := by
  refine ⟨relisted.steps, _, relisted.last, locked.last, _, _, ⟨"agent-1", []⟩,
    leg_any (leg_any (leg_any .nil)), rfl, rfl, rfl, ⟨_, rfl, rfl⟩⟩

-- ==== revocations

/-- A step that revokes an agent finds no connection bound to it and no
pairing under way. -/
def RevokesIdle (e : GatewayEntry) : Prop :=
  ∀ id, ¬ Revoked e.before.shared.registry id → Revoked e.after.shared.registry
    id → (∀ n agent, PairedAs e.before.shared n (some agent) → agent.agentId ≠ id)
    ∧ ∀ tid t conn, e.before.threads
      tid = some t → e.before.shared.conns t.call.conn = some conn → conn.pair ≠ .unpaired

/-- No connection is bound to a revoked agent, and none will be by what a
pairing under way has read. -/
structure Unrevoked (c : GatewayConfig) : Prop where
  bound : ∀ n agent, PairedAs c.shared n (some agent) → ¬ Revoked c.shared.registry agent.agentId
  pairing : ∀ tid t conn, c.threads tid = some t →
    c.shared.conns t.call.conn = some conn → conn.pair = .unpaired → ∀ stored, ⟨.registry, .ok stored⟩ ∈ t.said →
      ∀ id, ¬ Revoked stored id → ¬ Revoked c.shared.registry id

section Revocation

variable {estr : CoreError → String} {crates : Crates}
  {e : GatewayEntry} {c : GatewayConfig} {h : List GatewayEntry}

theorem Responded.accepted {l : Listener} {said : List DesktopExchange}
    {h : List McpExchange} {response : Option Value} {agent : ResolvedAgent}
    (hexp : Expands h said) (hresp : Responded l.server crates .unpaired .mcpWs
      (.ok (response, .alreadyPaired (some agent))) h) : ∃ stored, ⟨.registry, .ok stored⟩ ∈ said
      ∧ ¬ Revoked stored agent.agentId := by
  obtain ⟨response', pair', heq, hkeeps, -⟩ := hresp
  cases heq
  obtain ⟨bound, agentId, token, hbound, rfl⟩ := hkeeps _ rfl rfl
  cases hbound
  cases hexp with
  | mcp _ hplain => cases hplain
  | authenticate hexp hnew =>
    obtain ⟨stored, hmem, hrevoked⟩ := hnew.accepted agent rfl
    exact ⟨stored, mem_append_left _ hmem, hrevoked⟩

theorem Unrevoked.step (hc : Unrevoked e.before)
    (hsound : Sound estr crates e.before) (hallow : RevokesIdle e)
    (hs : (gateway estr crates).Step e) : Unrevoked e.after where
  bound := by
    intro n agent hp hrevoked
    -- bound before, the agent is revoked by this step, which is not allowed
    have hbefore : ¬ PairedAs e.before.shared n (some agent) := by
      intro hp'
      exact (hallow _ (hc.bound n agent hp') hrevoked).1 n agent hp' rfl
    obtain ⟨conn, hconn, hpair⟩ := hp
    cases conn_step hs hconn with
    | same hconn' => exact hbefore ⟨conn, hconn', hpair⟩
    | accepted _ _ hunpaired _ =>
      rw [hunpaired] at hpair
      cases hpair
    | taken _ _ hconn' heq =>
      rw [heq] at hpair
      exact hbefore ⟨_, hconn', hpair⟩
    | @done tid t conn₀ response pair hevent ht hcall htalk hconn' heq =>
      rw [heq] at hpair
      subst hpair
      obtain ⟨conn₁, hconn₁, h, hexp, hresp⟩ := hsound.returns ht htalk
      rw [hcall, hconn'] at hconn₁
      cases hconn₁
      cases hstate : conn₀.pair with
      | alreadyPaired agent' =>
        rw [hstate] at hresp
        have heq := hresp.paired
        cases heq
        exact hbefore ⟨conn₀, hconn', hstate⟩
      | failed =>
        rw [hstate] at hresp
        obtain ⟨_, _, heq, hkeeps, -⟩ := hresp
        cases heq
        cases hkeeps
      | unpaired =>
        rw [hstate] at hresp
        obtain ⟨stored, hmem, hfine⟩ := Responded.accepted hexp hresp
        have hfine' := hc.pairing tid t conn₀ ht (hcall ▸ hconn') hstate stored hmem _ hfine
        exact (hallow _ hfine' hrevoked).2 tid t conn₀ ht (hcall ▸ hconn') hstate
  pairing := by
    intro tid t conn ht hconn hunpaired stored hmem id hfine hrevoked
    rcases hs.thread_cases ht with ⟨hbefore, hby⟩
        | ⟨frame, p, -, rfl, -⟩ | ⟨ex, t₀, hevent, ht₀, hhears, hanswers⟩
    · obtain ⟨conn', hconn', hbusy, -⟩ := hsound.serving tid t hbefore
      have hkept := hsound.kept hs hbefore hby hconn' hbusy
      rw [hconn] at hkept
      cases hkept
      exact (hallow id (hc.pairing tid t conn hbefore hconn' hunpaired stored hmem id hfine)
        hrevoked).2 tid t conn hbefore hconn' hunpaired
    · cases hmem
    have hconn' : e.before.shared.conns t₀.call.conn = some conn := by
      rw [(Answers.framed hanswers).conns, hhears.call] at hconn
      exact hconn
    rw [hhears.said] at hmem
    refine (hallow id ?_ hrevoked).2 tid t₀ conn ht₀ hconn' hunpaired
    rcases mem_cons.1 hmem with rfl | hmem
    · -- the registry as it is now
      rcases hanswers.1 with heq | ⟨_, heq⟩
      · cases heq
        exact hfine
      · cases heq
    · exact hc.pairing tid t₀ conn ht₀ hconn' hunpaired stored hmem id hfine

theorem unrevoked_launch (w : World) (registry : Registry)
    (epoch : Nat) : Unrevoked (launch w registry epoch) where
  bound := fun _ _ ⟨_, hconn, _⟩ => by cases hconn
  pairing := nofun

theorem Unrevoked.run {c₀ : GatewayConfig} (hc : Unrevoked c₀) (hsound : Sound estr crates c₀)
    (hrun : (gateway estr crates).Run RevokesIdle c₀ h c) : Unrevoked c := by
  induction hrun with
  | nil => exact hc
  | step hr hallow hs ih => exact ih.step (hsound.run hr) hallow hs

end Revocation

/-- Revocation reaches live sessions, in every run in which an agent is
revoked only while no connection is bound to it or about to be: the agent
of a call that executes anything is not revoked from its dispatch on. -/
theorem revocation_reaches_sessions (estr : CoreError → String)
    (crates : Crates) (w : World) (registry : Registry) (epoch : Nat) (h : List GatewayEntry)
    (c : GatewayConfig) (hrun : (gateway estr crates).Run RevokesIdle (launch w registry epoch) h c)
    (later mid earlier : List GatewayEntry)
    (x k : GatewayEntry) (heq : h = later ++ x :: (mid ++ k :: earlier))
    (tid : Nat) (frame : Frame) (hk : k.event = .call tid frame)
    (hmid : ∀ e ∈ mid, ∀ frame, e.event ≠ .call tid frame) (op : FacadeOp)
    (a : op.Ans) (hx : x.event = .exchange tid ⟨.mcp (.facade op), a⟩) (agent : ResolvedAgent)
    (hpaired : PairedAs k.before.shared frame.conn (some agent)) : ∀ e ∈ x :: (mid ++ [k]),
      ¬ Revoked e.before.shared.registry agent.agentId := by
  subst heq
  obtain ⟨hbefore, -, hxs⟩ := hrun.split
  obtain ⟨hkrun, -, hks⟩ := hbefore.split
  have hlaunch : Sound estr crates (launch w registry epoch) := sound_launch w registry epoch
  have hunrevoked := unrevoked_launch w registry epoch
  have hsound : Sound estr crates k.after := (hlaunch.run hkrun).step hks
  obtain ⟨p, hstart, -⟩ := hks.call_inv hk
  -- the call serves this connection, which is open up to the execution
  have hopen : x.before.shared.conns frame.conn ≠ none := by
    obtain ⟨t, -, ht, -⟩ := hxs.exchange_inv hx
    obtain ⟨-, hcall, -⟩ := hbefore.tail.said_suffix hstart hmid ht
    obtain ⟨conn, hconn, -⟩ := (hsound.run hbefore.tail).serving tid t ht
    rw [hcall] at hconn
    rw [show (Thread.start frame p).call = frame from rfl] at hconn
    rw [hconn]
    exact nofun
  have hpaired' : PairedAs k.after.shared frame.conn (some agent) := by
    rcases (hlaunch.run hkrun).paired_step hks hpaired with hp | hclosed
    · exact hp
    · obtain ⟨conn, hconn, -⟩ := hsound.serving tid _ hstart
      rw [show (Thread.start frame p).call = frame from rfl, hclosed] at hconn
      cases hconn
  intro e hmem
  rcases mem_cons.1 hmem with rfl | hmem
  · rcases hsound.paired_run hbefore.tail hpaired' with hp | ⟨hclosed, -⟩
    · exact (hunrevoked.run hlaunch hbefore).bound _ _ hp
    · exact absurd hclosed hopen
  rcases mem_append.1 hmem with hmem | hmem
  · obtain ⟨after, before, rfl⟩ := append_of_mem hmem
    rw [append_assoc, cons_append] at hbefore
    obtain ⟨hebefore, -, hes⟩ := hbefore.split
    rcases hsound.paired_run hebefore.tail hpaired' with
      hp | ⟨hclosed, hn⟩
    · exact (hunrevoked.run hlaunch hebefore).bound _ _ hp
    · obtain ⟨hclosed', hn'⟩ := closed_step hes hclosed hn
      exact absurd (closed_run hbefore.tail hclosed' hn') hopen
  · cases mem_singleton.1 hmem
    exact (hunrevoked.run hlaunch hkrun).bound _ _ hpaired

namespace Sample

def noCall (e : GatewayEntry) : Bool :=
  match e.event with
  | .call _ _ => false
  | _ => true

theorem event_ne_call {hist : List GatewayEntry}
    (hall : hist.all noCall = true) : ∀ e ∈ hist, ∀ frame, e.event ≠ .call 0 frame := by
  intro e hmem frame hevent
  have he := all_eq_true.1 hall e hmem
  unfold noCall at he
  rw [hevent] at he
  cases he

end Sample

/-- An agent that was revoked while it was idle, and a call of another. -/
theorem revocation_reaches_sessions_listing :
    PairedAs called.last.before.shared 0 (some ⟨"agent-1", []⟩)
    ∧ (∃ a, served.last.event = .exchange 0 ⟨.mcp (.facade .listContainers), a⟩)
    ∧ Revoked served.last.before.shared.registry "agent-0"
    ∧ ¬ Revoked served.last.before.shared.registry "agent-1" := by
  have hrun : (gateway estr crates).Run RevokesIdle (launch unlockedRoot registered 0) session
      served.last.after := by
    refine session_run (fun e hidle id _ _ => ⟨fun n agent hp => ?_, fun tid t conn ht => ?_⟩)
      fun e _ hplain id hfine hrevoked => ?_
    · exact absurd hp (hidle.2 n _)
    · rw [hidle.1] at ht
      cases ht
    · rw [(of_plain hplain).2] at hrevoked
      exact absurd hrevoked hfine
  refine ⟨⟨_, rfl, rfl⟩, ⟨_, rfl⟩, ⟨agentTokenKey handle, _, _, rfl, rfl, rfl⟩, ?_⟩
  exact revocation_reaches_sessions estr crates unlockedRoot registered 0 _ _ hrun []
    (served.steps ++ asked.last :: asked.steps) _ served.last called.last
    (by simp [session]; rfl) 0 ⟨0, "list"⟩ rfl
    (event_ne_call rfl) .listContainers _ rfl ⟨"agent-1", []⟩ ⟨_, rfl, rfl⟩ served.last
    mem_cons_self

namespace Sample

def dispatched : Leg :=
  leg connected.last.after [.move (.revokeAgent "agent-1")] (.call 0 ⟨0, "list"⟩) rfl

def listed : Leg := leg dispatched.last.after (replicate 8 (.answer 0)) (.answer 0) rfl

end Sample

/-- A session that outlives its agent: the agent is revoked, and a call
dispatched after that on a connection paired before it is executed. -/
theorem revocation_misses_session :
      ∃ (mid earlier : List GatewayEntry) (x k r : GatewayEntry) (a : FacadeOp.listContainers.Ans)
      (agent : ResolvedAgent) (frame : Frame), (gateway estr crates).Run
        (fun _ => True) (launch lockedRoot none 0) (x :: (mid ++ k :: r :: earlier)) x.after
      ∧ r.event = .move (.revokeAgent agent.agentId)
      ∧ PairedAs r.before.shared frame.conn (some agent)
      ∧ k.event = .call 0 frame
      ∧ PairedAs k.before.shared frame.conn (some agent)
      ∧ Revoked k.before.shared.registry agent.agentId
      ∧ (∀ e ∈ mid, ∀ frame, e.event ≠ .call 0 frame)
      ∧ x.event = .exchange 0 ⟨.mcp (.facade .listContainers), a⟩ := by
  refine ⟨listed.steps, _, listed.last, dispatched.last, _, _, ⟨"agent-1", []⟩, _,
    leg_any (leg_any (leg_any .nil)), rfl,
    ⟨_, rfl, rfl⟩, rfl, ⟨_, rfl, rfl⟩,
    ⟨agentTokenKey handle, _, _, rfl, rfl, rfl⟩,
    event_ne_call rfl, rfl⟩

end SovereignVault.Desktop
