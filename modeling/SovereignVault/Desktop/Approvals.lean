/-
What a consent is worth by the time the call is executed.

Between the controller's `Ok` and the execution, a call records its
attempt and waits for the handle. A lock with an unlock after it fits in
there, and so does a command that gives the container another mode. These
apart, a consent is used in the session it was asked for in, and its mode
is the mode of the container.
-/
import SovereignVault.Desktop.Sessions

namespace SovereignVault.Desktop

open Crash Prog List
open Dialogue Talk Mcp Agents

-- ==== the epoch

def Turns (e : GatewayEntry) : Prop :=
  e.event = .move .lock ∨ ∃ w, e.event = .move (.unlock w)

/-- A lock or an unlock finds no call between its controller's `Ok` and
the end of its execution. -/
def Settled (e : GatewayEntry) : Prop :=
  Turns e → ∀ tid t access n, e.before.threads tid = some t → ¬ Approved access n t.said

/-- A consent in force was given in the current session. -/
def InForce (c : GatewayConfig) : Prop :=
  ∀ tid t access n, c.threads tid = some t → Approved access n t.said → n = c.shared.epoch

section Epoch

variable {estr : CoreError → String} {crates : Crates}
  {e : GatewayEntry} {c c₀ : GatewayConfig} {h : List GatewayEntry} {allowed : GatewayEntry → Prop}

theorem epoch_step (hs : (gateway estr crates).Step e) :
    (¬ Turns e ∧ e.after.shared.epoch = e.before.shared.epoch)
    ∨ (Turns e ∧ e.after.shared.epoch = e.before.shared.epoch + 1) := by
  by_cases hturns : Turns e
  · right
    refine ⟨hturns, ?_⟩
    rcases hturns with hlock | ⟨w, hunlock⟩
    · obtain ⟨⟨-, heq⟩, -⟩ := hs.move_inv hlock
      rw [heq]
    · obtain ⟨⟨-, -, heq⟩, -⟩ := hs.move_inv hunlock
      rw [heq]
  · left
    refine ⟨hturns, ?_⟩
    cases shared_step hs with
    | still _ _ hepoch | facade _ _ _ hepoch | command _ _ _ _ hepoch
    | registers _ hepoch _ => exact hepoch
    | lock hevent _ _ _ => exact absurd (.inl hevent) hturns
    | unlock hevent _ _ _ => exact absurd (.inr ⟨_, hevent⟩) hturns

theorem epoch_run (hrun : (gateway estr crates).Run allowed c₀ h c) :
    c₀.shared.epoch ≤ c.shared.epoch
    ∧ (c.shared.epoch = c₀.shared.epoch → ∀ e ∈ h, ¬ Turns e) := by
  induction hrun with
  | nil => exact ⟨Nat.le_refl _, fun _ _ hmem => by cases hmem⟩
  | @step h e hr hallow hs ih =>
    obtain ⟨hle, hnone⟩ := ih
    rcases epoch_step hs with ⟨hturns, heq⟩ | ⟨hturns, heq⟩
    · refine ⟨by omega, fun hsame e' hmem => ?_⟩
      rcases mem_cons.1 hmem with rfl | hmem
      · exact hturns
      · exact hnone (by omega) e' hmem
    · exact ⟨by omega, fun hsame => by omega⟩

theorem Approved.cons_cases
    {access : AccessRequest} {n : Nat} {ex : DesktopExchange} {hd : List DesktopExchange}
    (ha : Approved access n (ex :: hd)) : ex = ⟨.epoch, n⟩ ∨ Approved access n hd := by
  obtain ⟨since, before, heq, hnot⟩ := ha
  cases since with
  | nil =>
    cases heq
    exact .inl rfl
  | cons ex' since =>
    cases heq
    exact .inr ⟨since, before, rfl, fun hmem => hnot (mem_cons_of_mem _ hmem)⟩

theorem InForce.step (hc : InForce e.before) (hallow : Settled e)
    (hs : (gateway estr crates).Step e) : InForce e.after := by
  intro tid t access n ht ha
  rcases hs.thread_cases ht with ⟨hbefore, -⟩ | ⟨frame, p, -, rfl, -⟩
      | ⟨ex, t₀, hevent, ht₀, hhears, hanswers⟩
  · have hn := hc tid t access n hbefore ha
    rcases epoch_step hs with ⟨-, heq⟩ | ⟨hturns, -⟩
    · rw [heq]
      exact hn
    · exact absurd ha (hallow hturns tid t access n hbefore)
  · obtain ⟨since, before, heq, -⟩ := ha
    cases since <;> cases heq
  rw [(Answers.framed hanswers).epoch]
  rw [hhears.said] at ha
  rcases ha.cons_cases with rfl | ha
  · exact hanswers.1
  · exact hc tid t₀ access n ht₀ ha

theorem InForce.run (hc : InForce c₀)
    (hrun : (gateway estr crates).Run Settled c₀ h c) : InForce c :=
  hrun.invariant (P := fun _ c => InForce c) hc fun _ _ hbefore hallow hs => hbefore.step hallow hs

theorem inForce_launch (w : World) (registry : Registry) (epoch : Nat) :
    InForce (launch w registry epoch) :=
  fun _ _ _ _ ht _ => by cases ht

theorem Sound.consented (hsound : Sound estr crates c)
    {tid : Nat} {t t' : Thread desktopInterface String Outcome Frame} (ht : c.threads tid = some t)
    {op : FacadeOp} {a : op.Ans} (hhears : t.Hears ⟨.mcp (.facade op), a⟩ t')
    (hop : op.mediated) {k : Nat} (hk : ⟨.epoch, k⟩ ∈ t.said) :
    ∃ access, op.Serves access.target ∧ Approved access k t.said := by
  obtain ⟨conn, -, hexp, hexpands, -, -, hguard⟩ := hsound.asks ht hhears
  rcases hguard with ⟨-, hunasked⟩ | hmediated
  · exact absurd hk (hexpands.epoch_notMem hunasked k)
  · obtain ⟨access, hserves, hready⟩ := hmediated.2.1 hop
    obtain ⟨n, ha, hall⟩ := hexpands.approved (hready.consent rfl)
    rw [hall k hk]
    exact ⟨access, hserves, ha⟩

end Epoch

/-- A consent never crosses a session, in every run in which locks and
unlocks do not fall between a controller's `Ok` and the execution: none
falls between the execution and the controller's first step. -/
theorem approval_within_session (estr : CoreError → String)
    (crates : Crates) (w : World) (registry : Registry) (epoch : Nat) (h : List GatewayEntry)
    (c : GatewayConfig) (hrun : (gateway estr crates).Run Settled (launch w registry epoch) h c)
    (later mid earlier : List GatewayEntry)
    (x s : GatewayEntry) (heq : h = later ++ x :: (mid ++ s :: earlier))
    (tid k : Nat) (hs : s.event = .exchange tid ⟨.epoch, k⟩)
    (hmid : ∀ e ∈ mid, ∀ frame, e.event ≠ .call tid frame) (op : FacadeOp)
    (a : op.Ans) (hop : op.mediated) (hx : x.event = .exchange tid ⟨.mcp (.facade op), a⟩) :
    ∀ e ∈ mid, e.event ≠ .move .lock ∧ ∀ w, e.event ≠ .move (.unlock w) := by
  subst heq
  obtain ⟨hbefore, -, hxs⟩ := hrun.split
  obtain ⟨hsrun, -, hss⟩ := hbefore.split
  have hsound : Sound estr crates x.before := (sound_launch w registry epoch).run hbefore
  obtain ⟨t₀, t₁, -, hhears₁, ht₁, hread⟩ := hss.exchange_inv hs
  obtain ⟨t, t', ht, hhears, -, -⟩ := hxs.exchange_inv hx
  -- the epoch read then is in the history of the call
  have hsaid : ⟨.epoch, k⟩ ∈ t.said := by
    obtain ⟨hsuffix, -⟩ := hbefore.tail.said_suffix ht₁ hmid ht
    refine hsuffix.mem ?_
    rw [hhears₁.said]
    exact mem_cons_self
  obtain ⟨access, -, happroved⟩ := hsound.consented ht hhears hop hsaid
  have hnow : k = x.before.shared.epoch :=
    (inForce_launch w registry epoch).run hbefore tid t access k ht happroved
  have hthen : k = s.after.shared.epoch := by
    have hread : Answers estr s.before.shared tid .epoch k s.after.shared := hread
    rw [hread.framed.epoch]
    exact hread.1
  intro e hmem
  have hturns := (epoch_run hbefore.tail).2 (hnow.symm.trans hthen) e hmem
  exact ⟨fun hlock => hturns (.inl hlock), fun w hunlock => hturns (.inr ⟨w, hunlock⟩)⟩

open Sample

/-- A call that is executed in the session its consent was given in, the
second of the run. -/
theorem approval_within_session_second : asked.last.event = .exchange 0 ⟨.epoch, 2⟩
    ∧ (∃ a, served.last.event = .exchange 0 ⟨.mcp (.facade .listContainers), a⟩)
    ∧ ∀ e ∈ served.steps, e.event ≠ .move .lock
      ∧ ∀ w, e.event ≠ .move (.unlock w) := by
  have hrun : (gateway estr crates).Run Settled (launch unlockedRoot registered 0) session
      served.last.after := by
    refine session_run (fun e hidle _ tid t access n ht => ?_) fun e _ hplain hturns => ?_
    · rw [hidle.1] at ht
      cases ht
    · obtain ⟨⟨hlock, hunlock⟩, -⟩ := of_plain hplain
      rcases hturns with hturn | ⟨w, hturn⟩
      · exact absurd hturn hlock
      · exact absurd hturn (hunlock w)
  exact ⟨rfl, ⟨_, rfl⟩, approval_within_session estr crates unlockedRoot registered 0 _ _ hrun
    [] _ _ _ _ rfl 0 2 rfl (event_ne_call rfl) .listContainers _ rfl rfl⟩

namespace Sample

def consulted : Leg :=
  leg connected.last.after [.call 0 ⟨0, "list"⟩, .answer 0, .answer 0] (.answer 0) rfl

/-- The human approves and the epoch is checked; then the vault is locked
and unlocked again, the attempt recorded and the handle locked. -/
def crossed : Leg :=
  leg consulted.last.after [.answer 0, .answer 0, .move .lock, .move (.unlock unlockedRoot),
      .answer 0, .answer 0, .answer 0] (.answer 0) rfl

end Sample

/-- A consent that is used in the next session: the vault is locked and
unlocked again after the controller checked the epoch and before the
handle is taken for the execution. -/
theorem approval_crosses_session : ∃ (mid earlier : List GatewayEntry) (x s : GatewayEntry)
      (a : FacadeOp.listContainers.Ans) (k : Nat), (gateway estr crates).Run
        (fun _ => True) (launch lockedRoot none 0) (x :: (mid ++ s :: earlier)) x.after
      ∧ s.event = .exchange 0 ⟨.epoch, k⟩
      ∧ (∀ e ∈ mid, ∀ frame, e.event ≠ .call 0 frame)
      ∧ x.event = .exchange 0 ⟨.mcp (.facade .listContainers), a⟩
      ∧ (∃ e ∈ mid, e.event = .move .lock)
      ∧ ∃ e ∈ mid, e.event = .move (.unlock unlockedRoot) := by
  exact ⟨crossed.steps, _, crossed.last, consulted.last, _, _, leg_any (leg_any (leg_any .nil)),
    rfl, event_ne_call rfl, rfl,
    ⟨crossed.steps.get ⟨4, by decide⟩, get_mem _ _, rfl⟩,
    ⟨crossed.steps.get ⟨3, by decide⟩, get_mem _ _, rfl⟩⟩

-- ==== the mode

def Under (w : World) (container : String) (mode : SecurityMode) : Prop :=
  w.handle.isSome → modeNow w container = some mode

def Told (container : String) (mode : SecurityMode) (hd : List DesktopExchange) : Prop :=
  ⟨.mcp (.facade (.containerMode container)), .ok mode⟩ ∈ hd

/-- Between the lookup of a mode and the execution of a call, nothing
else gives the container another one. -/
def Steady (e : GatewayEntry) : Prop :=
  ∀ tid t container mode,
    e.before.threads tid = some t → ¬ e.event.By tid → Still t.said → Told container mode
    t.said → Under e.before.shared.world container mode → Under e.after.shared.world container mode

/-- What a call was told that is not executed yet is still so. -/
def UpToDate (c : GatewayConfig) : Prop :=
  ∀ tid t container mode, c.threads tid = some t → Still t.said →
    Told container mode t.said → Under c.shared.world container mode

def onFile : FacadeOp → Option (AccessAction × String × String)
  | .readFile c f => some (.readFile, c, f)
  | .writeFile c f _ => some (.writeFile, c, f)
  | .deleteFile c f => some (.deleteFile, c, f)
  | _ => none

def Responds (e : GatewayEntry) (tid : Nat) (response : Option Value) : Prop :=
  e.event = .finish tid ∧ ∃ t pair, e.before.threads tid = some t
    ∧ t.talk = .ret (.ok (response, pair))

section Mode

variable {estr : CoreError → String}
  {crates : Crates} {e : GatewayEntry} {c c₀ : GatewayConfig} {h : List GatewayEntry}
  {container : String} {mode : SecurityMode} {action : AccessAction} {op : FacadeOp}

theorem world_exchange (hs : (gateway estr crates).Step e)
    {tid : Nat} {ex : DesktopExchange} (hevent : e.event = .exchange tid ex)
    (hstill : Still [ex]) : e.after.shared.world = e.before.shared.world := by
  cases shared_step hs with
  | still hworld _ _ | registers hworld _ _ => exact hworld
  | @facade tid' op a handle hevent' heff _ _ =>
    rw [hevent] at hevent'
    cases hevent'
    rw [hstill op a mem_cons_self] at heff
    cases heff
  | lock hevent' _ _ _ | unlock hevent' _ _ _ | command hevent' _ _ _ _ =>
    rw [hevent] at hevent'
    cases hevent'

theorem UpToDate.step (hc : UpToDate e.before) (hallow : Steady e)
    (hs : (gateway estr crates).Step e) : UpToDate e.after := by
  intro tid t container mode ht hstill htold
  rcases hs.thread_cases ht with ⟨hbefore, hby⟩ | ⟨frame, p, -, rfl, -⟩
      | ⟨ex, t₀, hevent, ht₀, hhears, hanswers⟩
  · exact hallow tid t container mode hbefore hby hstill htold
      (hc tid t container mode hbefore hstill htold)
  · cases htold
  unfold Told at htold
  rw [hhears.said] at hstill htold
  have hworld : e.after.shared.world = e.before.shared.world := by
    refine world_exchange hs hevent fun op a hmem => ?_
    refine hstill op a ?_
    rw [mem_singleton.1 hmem]
    exact mem_cons_self
  rw [hworld]
  rcases mem_cons.1 htold with rfl | htold
  · obtain ⟨handle, hhandle, hlooks, -⟩ := hanswers
    exact fun _ => hlooks.modeNow hhandle
  · refine hc tid t₀ container mode ht₀ (fun op a hmem => ?_) htold
    exact hstill op a (mem_cons_of_mem _ hmem)

theorem upToDate_launch (w : World) (registry : Registry) (epoch : Nat) :
    UpToDate (launch w registry epoch) :=
  fun _ _ _ _ ht _ _ => by cases ht

theorem UpToDate.run (hc : UpToDate c₀)
    (hrun : (gateway estr crates).Run Steady c₀ h c) : UpToDate c :=
  hrun.invariant (P := fun _ c => UpToDate c) hc fun _ _ hbefore hallow hs => hbefore.step hallow hs

theorem onFile_serves
    {container file : String} {target : Target} (hfile : onFile op = some (action, container, file))
    (hserves : op.Serves target) : target = ⟨action, some container, some file⟩
      ∧ action ≠ .createContainer := by
  cases op with
  | readFile | writeFile | deleteFile =>
    cases hfile
    exact ⟨hserves, nofun⟩
  | _ => cases hfile

theorem onFile_effect {container file : String} (hfile : onFile op = some (action, container, file))
    : op.effect = true ∧ op.mediated = true ∧ op ≠ .brokerEnabled := by
  cases op with
  | readFile | writeFile | deleteFile => exact ⟨rfl, rfl, nofun⟩
  | _ => cases hfile

end Mode

/-- The mode that was authorized is the mode that applies, in every run in
which nothing changes the mode of a container between its lookup and the
execution; and what is read of a container that is ANONYMIZED at that
moment reaches the response redacted. -/
theorem mode_authorized_applies (estr : CoreError → String)
    (crates : Crates) (w : World) (registry : Registry) (epoch : Nat) (h : List GatewayEntry)
    (c : GatewayConfig) (hrun : (gateway estr crates).Run Steady (launch w registry epoch) h c)
    (later earlier : List GatewayEntry) (x : GatewayEntry) (heq : h = later ++ x :: earlier)
    (tid : Nat) : (∀ (op : FacadeOp) (a : op.Ans) action container file,
      x.event = .exchange tid ⟨.mcp (.facade op), a⟩ → onFile op = some (action, container, file) →
      ∃ t access n mode, x.before.threads tid = some t ∧ Approved access n t.said
        ∧ access.target = ⟨action, some container, some file⟩
        ∧ access.mode = some mode
        ∧ modeNow x.before.shared.world container = some mode)
    ∧ ∀ container file bytes, x.event = .exchange tid
        ⟨.mcp (.facade (.readFile container file)), .ok bytes⟩ →
      modeNow x.before.shared.world container = some .anonymized → ∀ after mid fin response,
        later = after ++ fin :: mid → (∀ e ∈ mid, ∀ frame, e.event ≠ .call tid frame) →
        Responds fin tid response → ∃ id audit, response = some (okResponse id (toolResult crates
          (combineResultAndAudit (maskedRead crates .mcpWs container file
            (redactedRead crates .mcpWs container file bytes)) audit))) := by
  subst heq
  obtain ⟨hbefore, -, hxs⟩ := hrun.split
  have hlaunch : Sound estr crates (launch w registry epoch) := sound_launch w registry epoch
  have hsound : Sound estr crates x.before := hlaunch.run hbefore
  have hcurrent : UpToDate x.before := (upToDate_launch w registry epoch).run hbefore
  -- what the call was told by now is the mode of this moment
  have hnow : ∀ {op : FacadeOp} {a : op.Ans} {t},
      x.event = .exchange tid ⟨.mcp (.facade op), a⟩ → x.before.threads
      tid = some t → Still t.said → ∀ {container mode}, Told container mode t.said →
        modeNow x.before.shared.world container = some mode := by
    intro op a t hx ht hstill container mode htold
    obtain ⟨_, _, _, _, _, hanswers⟩ := hxs.exchange_inv hx
    obtain ⟨handle, hhandle, -⟩ := hanswers
    refine hcurrent tid t container mode ht hstill htold ?_
    rw [hhandle]
    rfl
  refine ⟨?_, ?_⟩
  · intro op a action container file hx hfile
    obtain ⟨t, t', ht, hhears, -, -⟩ := hxs.exchange_inv hx
    obtain ⟨conn, -, hd, hexp, -, -, hguard⟩ := hsound.asks ht hhears
    obtain ⟨heff, hmed, hne⟩ := onFile_effect hfile
    rcases hguard with ⟨hbroker, -⟩ | ⟨-, hready, hquiet⟩
    · exact absurd hbroker hne
    obtain ⟨access, hserves, hready⟩ := hready hmed
    obtain ⟨htarget, haction⟩ := onFile_serves hfile hserves
    obtain ⟨n, happroved, -⟩ := hexp.approved (hready.consent rfl)
    have hcontainer : access.container = some container := congrArg Target.container htarget
    have hcreate : access.action ≠ .createContainer := by
      rw [show access.action = action from congrArg Target.action htarget]
      exact haction
    obtain ⟨mode, hmode, hmem⟩ := hready.sourced container hcontainer hcreate
    exact ⟨t, access, n, mode, ht, happroved, htarget, hmode,
      hnow hx ht (hexp.still (hquiet heff)) (hexp.mem hmem)⟩
  · intro container file bytes hx hanon after mid fin response hlater hcalls hresponds
    subst hlater
    obtain ⟨-, tf, pair, htf, hret⟩ := hresponds
    obtain ⟨t, t', ht, hhears, ht', -⟩ := hxs.exchange_inv hx
    obtain ⟨conn, -, hd, hexp, -, -, hguard⟩ := hsound.asks ht hhears
    have hstill : Still t.said := by
      rcases hguard with ⟨hbroker, -⟩ | ⟨-, -, hquiet⟩
      · cases hbroker
      · exact hexp.still (hquiet rfl)
    -- the read is in the history the response is made of
    rw [append_assoc, cons_append] at hrun
    obtain ⟨hfinish, -, -⟩ := hrun.split
    obtain ⟨hsuffix, -⟩ := hfinish.tail.said_suffix ht' hcalls htf
    obtain ⟨since, hsaid⟩ := hsuffix
    rw [hhears.said] at hsaid
    obtain ⟨conn', -, hf, hexpf, hresp⟩ := (hlaunch.run hfinish).returns htf hret
    obtain ⟨since', before', hsplit, hexp'⟩ := hexpf.split hsaid.symm
    obtain ⟨response', pair', heq, -, hreleases⟩ := hresp
    cases heq
    obtain ⟨id, result, hresponse, hfiltered⟩ := hreleases container file
      bytes (hsplit ▸ mem_append_right _ mem_cons_self)
    obtain ⟨access, audit, htarget, hsourced, hresult⟩ :=
      hfiltered since' before' container file bytes hsplit
    have haction : access.action = .readFile := congrArg Target.action htarget
    obtain ⟨mode, hmode, hmem⟩ := hsourced container
      (congrArg Target.container htarget) (by rw [haction]; exact nofun)
    have hanon' := hnow hx ht hstill (hexp'.mem hmem)
    rw [hanon] at hanon'
    cases hanon'
    refine ⟨id, audit, ?_⟩
    rw [hresponse, hresult, filterResult_anonymized haction hmode]

namespace Sample

variable {e : GatewayEntry}

def noted (mode : SecurityMode) (w : World) : World :=
  ((Storage.createContainer handle.vault "notes" mode none).run w).2

def filed (w : World) : World :=
  ((Storage.writeFile handle.vault ("notes", "card.txt") email).run w).2

def destroyed (w : World) : World :=
  ((Storage.deleteContainer handle.vault "notes").run w).2

def maskedRoot : World := filed (noted .anonymized unlockedRoot)

def read : Leg :=
  leg (launch maskedRoot none 0)
    ([.move (.startServers listener "agent-1" 0), .move .accept,
        .call 0 ⟨0, "pair"⟩, .answer 0, .answer 0, .answer 0,
        .finish 0, .call 0 ⟨0, "read"⟩]
      ++ replicate 9 (.answer 0)) (.answer 0) rfl

def responded : Leg := leg read.last.after (replicate 3 (.answer 0)) (.finish 0) rfl

def noVault (e : GatewayEntry) : Bool :=
  match e.event with
  | .move .lock | .move (.unlock _) | .move (.command _) => false
  | .exchange _ ⟨.mcp (.facade op), _⟩ => !op.effect
  | _ => true

theorem steady_of_world (he : e.after.shared.world = e.before.shared.world) : Steady e := by
  intro tid t container mode _ _ _ _ hunder
  rw [he]
  exact hunder

theorem steady_of_noVault
    (hs : (gateway estr crates).Step e) (he : noVault e = true) : Steady e := by
  refine steady_of_world ?_
  unfold noVault at he
  cases shared_step hs with
  | still hworld _ _ | registers hworld _ _ => exact hworld
  | facade hevent heff _ _ =>
    rw [hevent] at he
    dsimp only at he
    rw [heff] at he
    cases he
  | lock hevent _ _ _ | unlock hevent _ _ _ | command hevent _ _ _ _ =>
    rw [hevent] at he
    cases he

theorem responded_run : (gateway estr crates).Run Steady (launch maskedRoot none 0)
    (responded.last :: (responded.steps ++ read.last :: (read.steps ++ []))) responded.last.after := by
  have hsteady := fun e => steady_of_noVault (e := e)
  exact leg_run hsteady rfl (fun _ => steady_of_world rfl)
    (leg_run hsteady rfl (fun _ => steady_of_world rfl) .nil)

end Sample

/-- A file of a container that is ANONYMIZED is read; the address in it is
masked. -/
theorem mode_authorized_applies_masked : modeNow read.last.before.shared.world "notes" = some .anonymized
    ∧ (∃ t access n, read.last.before.threads 0 = some t
      ∧ Approved access n t.said ∧ access.mode = some .anonymized)
    ∧ ∃ id audit response, Responds responded.last 0 response
      ∧ response = some (okResponse id (toolResult crates
        (combineResultAndAudit (maskedRead crates .mcpWs "notes"
          "card.txt" (redactedRead crates .mcpWs "notes" "card.txt" email)) audit))) := by
  have happlies := mode_authorized_applies estr
    crates maskedRoot none 0 _ _ responded_run (responded.last :: responded.steps) _ read.last rfl 0
  have hmode : modeNow read.last.before.shared.world "notes"
      = some .anonymized := rfl
  have hresponds : Responds responded.last 0 _ := ⟨rfl, _, _, rfl, rfl⟩
  obtain ⟨t, access, n, mode, ht, happroved, -, haccess, hnow⟩ :=
    happlies.1 (.readFile "notes" "card.txt") _ .readFile "notes"
      "card.txt" rfl rfl
  obtain ⟨id, audit, hresponse⟩ := happlies.2 "notes" "card.txt"
    email rfl hmode [] responded.steps responded.last _ rfl
    (event_ne_call rfl) hresponds
  rw [hmode] at hnow
  cases hnow
  exact ⟨hmode, ⟨t, access, n, ht, happroved, haccess⟩, id, audit, _, hresponds, hresponse⟩

namespace Sample

def openRoot : World := filed (noted .direct unlockedRoot)

/-- A call of `vault.read` up to the attempt record, approved under
DIRECT. Then the container is destroyed and created again, ANONYMIZED,
and the file is written; then the handle is locked. -/
def swapped : Leg :=
  leg connected.last.after ([.move (.command openRoot), .call 0 ⟨0, "read"⟩]
      ++ replicate 8 (.answer 0) ++ [.move (.command (destroyed openRoot)),
        .move (.command (noted .anonymized (destroyed openRoot))),
        .move (.command (filed (noted .anonymized (destroyed openRoot)))),
        .answer 0]) (.answer 0) rfl

def leaked : Leg := leg swapped.last.after (replicate 3 (.answer 0)) (.finish 0) rfl

def asksDirect (e : DesktopExchange) : Bool :=
  match e.op with
  | .request access => access.mode = some .direct
  | _ => true

theorem mode_of_allDirect {said : List DesktopExchange}
    (hall : said.all asksDirect = true) {access : AccessRequest} {n : Nat}
    (happroved : Approved access n said) : access.mode = some .direct := by
  obtain ⟨since, before, rfl, -⟩ := happroved
  have hmem : ⟨.request access, .ok ()⟩
      ∈ since ++ ⟨.epoch, n⟩ :: ⟨.request access, .ok ()⟩
        :: ⟨.epoch, n⟩ :: before :=
    mem_append_right _ (mem_cons_of_mem _ mem_cons_self)
  exact of_decide_eq_true (all_eq_true.1 hall _ hmem)

/-- What a masked read of the file is answered with is not its content. -/
theorem toolResult_masked (audit : Except String Unit) :
    ∃ text isError, toolResult crates (combineResultAndAudit
        (maskedRead crates .mcpWs "notes" "card.txt"
          (redactedRead crates .mcpWs "notes" "card.txt" email)) audit)
      = textContent text isError
    ∧ (text, isError) ≠ ("YUBiLmM=", false) := by
  cases audit with
  | error e => exact ⟨_, true, rfl, by simp⟩
  | ok _ => exact ⟨_, false, rfl, by decide +kernel⟩

end Sample

/-- A mode that changes under an approval: a read is approved under
DIRECT, the container is destroyed and created again as ANONYMIZED, and
the read releases the content of the new file as it is. -/
theorem mode_changes_under_approval : ∃ (mid earlier : List GatewayEntry) (fin x : GatewayEntry)
      (t : Thread desktopInterface String Outcome Frame)
      (response : Option Value), (gateway estr crates).Run
        (fun _ => True) (launch lockedRoot none 0) (fin :: (mid ++ x :: earlier)) fin.after
      ∧ x.event = .exchange 0 ⟨.mcp (.facade (.readFile "notes" "card.txt")), .ok email⟩
      ∧ x.before.threads 0 = some t
      ∧ modeNow x.before.shared.world "notes" = some .anonymized
      ∧ (∀ access n, Approved access n t.said → access.mode = some .direct)
      ∧ (∀ e ∈ mid, ∀ frame, e.event ≠ .call 0 frame)
      ∧ Responds fin 0 response
      ∧ response = some (okResponse (.nat 3) (toolResult crates
        (.ok (readResult crates "notes" "card.txt" email))))
      ∧ ∀ id audit, response ≠ some (okResponse id (toolResult crates (combineResultAndAudit
          (maskedRead crates .mcpWs "notes" "card.txt"
            (redactedRead crates .mcpWs "notes" "card.txt" email)) audit))) := by
  refine ⟨leaked.steps, _, leaked.last, swapped.last, _, _, leg_any (leg_any (leg_any .nil)),
    rfl, rfl, rfl, ?_, event_ne_call rfl, ⟨rfl, _, _, rfl, rfl⟩, rfl, ?_⟩
  · intro access n happroved
    exact mode_of_allDirect rfl happroved
  intro id audit heq
  obtain ⟨text, isError, hmasked, hne⟩ := toolResult_masked audit
  rw [hmasked] at heq
  change some (okResponse _ (textContent "YUBiLmM=" false)) = _ at heq
  refine hne ?_
  simp only [okResponse, textContent] at heq
  cases heq
  rfl

end SovereignVault.Desktop
