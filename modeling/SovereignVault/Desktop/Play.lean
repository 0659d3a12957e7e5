/-
The desktop, executed: one answer to each question instead of all the
answers there could be.

Nothing fails that need not, no lock is contended and the clock stands
still unless it is moved. Every answer is one the system allows
(`player`), so what is played is a run.
-/
import SovereignVault.Desktop.System

namespace SovereignVault.Desk

open Dialogue Talk Audit Presence Option

-- ==== the answers

section

variable (estr : CoreError → String)

def SlotOp.play (s : Slot) (tid : Nat) : (o : SlotOp) → Option (o.Ans × Slot)
  | .lockHandle =>
    if s.holder = none then some (s.world.handle.isSome, { s with holder := some tid })
    else none
  | .unlockHandle =>
    if s.holder = some tid then some ((), { s with holder := none })
    else none
  | .publish handle =>
    if s.holder = some tid then
      some ((), { s with
        world := { s.world with handle := handle }
        epoch := s.epoch + 1 })
    else none
  | .epoch => some (s.epoch, s)
  | .containerMode container =>
    if s.holder = some tid then
      s.world.handle.map fun handle =>
        (((Storage.containerMode handle.vault container).run s.world).1.mapError estr, s)
    else none
  | .readFile container fileName =>
    if s.holder = some tid then
      s.world.handle.map fun handle => (((Storage.readFile handle.vault (container,
        fileName)).run s.world).1.mapError estr, s)
    else none
  | .closure _ _ => if s.holder = some tid then some ((), s) else none
  | .perform _ => if s.holder = some tid then some (.ok (), s) else none
  | .record _ => if s.holder = some tid then some ((), s) else none
  | .tryRecord _ => some ((), s)

theorem SlotOp.play_answers {s s' : Slot} {tid : Nat} {o : SlotOp}
    {a : o.Ans} (h : o.play estr s tid = some (a, s')) : o.Answers estr s tid a s' := by
  cases o with
  | epoch =>
    cases h
    exact ⟨rfl, rfl⟩
  | tryRecord _ =>
    cases h
    rfl
  | lockHandle =>
    obtain ⟨hfree, heq⟩ := ite_none_right_eq_some.1 h
    cases heq
    exact ⟨hfree, rfl, rfl⟩
  | containerMode container | readFile container fileName =>
    obtain ⟨hheld, h⟩ := ite_none_right_eq_some.1 h
    obtain ⟨handle, hhandle, heq⟩ := map_eq_some_iff.1 h
    cases heq
    exact ⟨hheld, rfl, handle, hhandle, _, _, Crash.Prog.run_returns _ _ _, rfl⟩
  | perform _ =>
    obtain ⟨hheld, heq⟩ := ite_none_right_eq_some.1 h
    cases heq
    exact ⟨hheld, s.world, rfl, rfl⟩
  | _ =>
    obtain ⟨hheld, heq⟩ := ite_none_right_eq_some.1 h
    cases heq
    exact ⟨hheld, rfl⟩

end

def ClickOp.play (now nextId attempt : Nat) (c : Clicks) : (o : ClickOp) → Option (o.Ans × Clicks)
  | .register click isProtected deadline =>
    let r := c.register nextId (click.entry nextId isProtected deadline)
    some ((nextId, r.1), r.2)
  | .await id deadline =>
    match c.channel id with
    | .sent approved => some (.decided approved, c.setChannel id Channel.hangUp)
    | .dropped => some (.closed, c.setChannel id Channel.hangUp)
    | .waiting =>
      if deadline ≤ now then
        some (.timedOut, c.setChannel id Channel.hangUp)
      else none
    | _ => none
  | .take id => some (c.pending.lookup id, c.remove id)
  | .respondBegin id otp => some (c.respondBegin now attempt id otp)
  | .respondFinish id a result => some (c.respondFinish now id a result)
  | .send id approved => some (((c.channel id).send approved).1,
      c.setChannel id fun ch => (ch.send approved).2)
  | .dropSender id => some ((), c.setChannel id Channel.dropSender)
  | .hangUp id => some ((), c.setChannel id Channel.hangUp)
  | .drain => some c.drain

theorem ClickOp.play_answers {now nextId attempt : Nat} {c c' : Clicks} {o : ClickOp} {a : o.Ans}
    (h : o.play now nextId attempt c = some (a, c')) : o.Answers now now nextId attempt c a c' := by
  cases o with
  | await id deadline =>
    unfold play at h
    dsimp only at h
    split at h
    · next approved hchannel =>
      cases h
      exact ⟨rfl, hchannel⟩
    · next hchannel =>
      cases h
      exact ⟨rfl, hchannel⟩
    · next hchannel =>
      split at h
      · next hdeadline =>
        cases h
        exact ⟨rfl, hchannel, hdeadline⟩
      · cases h
    · cases h
  | respondBegin id otp | respondFinish id a' result =>
    exact ⟨now, le_rfl, le_rfl, some.inj h⟩
  | drain => exact some.inj h
  | dropSender id | hangUp id =>
    cases h
    rfl
  | _ =>
    cases h
    exact ⟨rfl, rfl⟩

def OtpOp.play (now nextId attempt epoch : Nat) (store : OtpStore) : (o : OtpOp) → o.Ans × OtpStore
  | .request key supplied unlocked => handleOtpSection (.still now) key supplied unlocked store
  | .issue key code isProtected op auditAction =>
    handleOtpFreshSection (.still now) key code nextId isProtected op auditAction store
  | .expire id => expireSection (.still now) id store
  | .revealBegin modalId => revealBeginSection (.still now) modalId attempt epoch store
  | .revealFinish key modalId attempt deadline moved result =>
    revealFinishSection (.still now) key modalId attempt deadline moved result store
  | .drain => drainOtp store

theorem OtpOp.play_answers {now nextId attempt epoch : Nat}
    {store : OtpStore} (o : OtpOp) : o.Answers now now nextId attempt epoch store
      (o.play now nextId attempt epoch store).1 (o.play now nextId attempt epoch store).2 := by
  refine ⟨.still now, Readings.still_within now, ?_⟩
  cases o <;> rfl

def OpsOp.play (now attempt : Nat) (isProtected : Bool) (s : DesktopOps) :
    (o : OpsOp) → o.Ans × DesktopOps
  | .begin digest deadline =>
    let r := s.begin now digest deadline isProtected attempt
    ((attempt, r.1), r.2)
  | .retry digest id a => ((), s.retry digest id a)
  | .finish digest id => ((), s.finish digest id)
  | .drain => s.drain

theorem OpsOp.play_answers {now attempt : Nat} {isProtected : Bool}
    {s : DesktopOps} (o : OpsOp) : o.Answers now now attempt s (o.play now attempt isProtected s).1
      (o.play now attempt isProtected s).2 := by
  cases o with
  | begin digest deadline => exact ⟨rfl, now, isProtected, le_rfl, le_rfl, rfl⟩
  | _ => rfl

def TimerOp.play (t : Timer) : (o : TimerOp) → o.Ans × Timer
  | .storeUnlockedAt unlockedAt => ((), { t with unlockedAt := unlockedAt })
  | .storeActivity now => ((), { t with lastActivity := now })
  | .loadUnlockedAt => (some t.unlockedAt, t)
  | .loadActivity => (some t.lastActivity, t)
  | .loadIdleTimeoutSecs => (t.idleTimeoutSecs, t)
  | .loadAbsoluteSessionSecs => (t.absoluteSessionSecs, t)

theorem TimerOp.play_answers {t : Timer} (o : TimerOp) : o.Answers t (o.play t).1 (o.play t).2 := by
  cases o with
  | storeUnlockedAt _ | storeActivity _ => exact .inl rfl
  | loadIdleTimeoutSecs | loadAbsoluteSessionSecs => exact ⟨rfl, rfl⟩
  | _ => exact ⟨rfl, .inl rfl⟩

def PlanOp.play (now : Nat) (plans : PlanStore) : (o : PlanOp) → o.Ans × PlanStore
  | .build _ findingPath adapter =>
    (.ok ⟨findingPath, findingPath ++ ".vault-manifest.json", adapter,
      "digest"⟩, plans)
  | .insert plan => ((), plans.insert plan.id plan)
  | .live id => ((livePlans plans now).lookup id, livePlans plans now)
  | .remove id => ((), plans.erase id)
  | .clear => ((), ∅)
  | .ingest _ => (.ok "ingested", plans)

theorem PlanOp.play_answers {now : Nat} {plans : PlanStore} (o : PlanOp) :
    o.Answers plans (o.play now plans).1 (o.play now plans).2 := by
  cases o with
  | live id => exact ⟨now, rfl, rfl⟩
  | _ => rfl

-- ==== the player

section

variable (estr : CoreError → String) (outside : Shared → (o : OutsideOp) → o.Ans)

def playOutside (d : Shared) : (o : OutsideOp) → o.Ans
  | .now => d.clock
  | o => outside d o

def playAnswer (d : Shared) (tid : Nat) : (o : DeskOp) → Option (o.Ans × Shared)
  | .slot o => (o.play estr d.slot tid).map fun r => (r.1, { d with slot := r.2 })
  | .click o =>
    (o.play d.clock d.nextId d.nextAttempt d.clicks).map fun r => (r.1, { d with
      clicks := r.2
      nextId := d.nextId + o.draws
      nextAttempt := d.nextAttempt + o.begins })
  | .otp o =>
    let r := o.play d.clock d.nextId d.nextAttempt d.slot.epoch d.otp
    some (r.1, { d with
      otp := r.2
      nextId := d.nextId + o.draws
      nextAttempt := d.nextAttempt + o.begins })
  | .ops o =>
    let r := o.play d.clock d.nextAttempt (outside d .classify) d.ops
    some (r.1, { d with
      ops := r.2, nextAttempt := d.nextAttempt + o.begins })
  | .timer o =>
    let r := o.play d.timer
    some (r.1, { d with timer := r.2 })
  | .plan o =>
    let r := o.play (outside d .utcNow) d.plans
    some (r.1, { d with plans := r.2 })
  | .outside o =>
    let a := playOutside outside d o
    some (a, { d with monitored := d.monitored || o.spawns a })

theorem playAnswer_answers {d d' : Shared} {tid : Nat} {o : DeskOp} {a : o.Ans}
    (h : playAnswer estr outside d tid o = some (a, d')) : Answers estr d tid ⟨o, a⟩ d' := by
  refine ⟨d.clock, le_rfl, ?_⟩
  cases o with
  | slot o =>
    obtain ⟨r, hplay, heq⟩ := map_eq_some_iff.1 h
    cases heq
    exact ⟨r.2, SlotOp.play_answers estr hplay, rfl⟩
  | click o =>
    obtain ⟨r, hplay, heq⟩ := map_eq_some_iff.1 h
    cases heq
    exact ⟨r.2, ClickOp.play_answers hplay, rfl⟩
  | otp o =>
    cases h
    exact ⟨_, OtpOp.play_answers o, rfl⟩
  | ops o =>
    cases h
    exact ⟨_, OpsOp.play_answers o, rfl⟩
  | timer o =>
    cases h
    exact ⟨_, TimerOp.play_answers o, rfl⟩
  | plan o =>
    cases h
    exact ⟨_, PlanOp.play_answers o, rfl⟩
  | outside o =>
    cases h
    refine ⟨?_, rfl⟩
    cases o with
    | now => exact ⟨le_rfl, le_rfl⟩
    | _ => trivial

def player : Player (desktop estr) where
  begin d call := if call.ready d then some (call.prog, d) else none
  answer d tid _ o := playAnswer estr outside d tid o
  finish d _ _ := some d
  move d
    | .pass n => some { d with clock := d.clock + n }
    | _ => none
  begins := by
    intro d call p d' h
    obtain ⟨hready, heq⟩ := ite_none_right_eq_some.1 h
    cases heq
    exact ⟨rfl, rfl, hready⟩
  answers := fun _ _ _ _ _ _ h => playAnswer_answers estr outside h
  ends := by
    intro d call r d' h
    cases h
    rfl
  moves := by
    intro d m d' h
    cases m with
    | pass n =>
      cases h
      rfl
    | _ => cases h

end

namespace Sample

def estr (_ : CoreError) : String := "error"

def handle : VaultHandle :=
  ⟨Storage.singleKeyVault (.generate 0) (.generate 2), .passphrase, .generate 1⟩

def email : Bytes := [97, 64, 98, 46, 99]

def root (mode : SecurityMode) : World :=
  let w : World := { World.empty with
    manifest := some (Storage.authenticated (.generate 2) Storage.defaultManifest)
    handle := some handle }
  let w := ((Storage.createContainer handle.vault "notes" mode none).run w).2
  ((Storage.writeFile handle.vault ("notes", "card.txt") email).run w).2

def lockedRoot : World := { root .approval with handle := none }

/-- Everything goes well, and nobody asks for presence. A code is its
challenge's number. -/
def outside (d : Shared) : (o : OutsideOp) → o.Ans
  | .now | .utcNow => d.clock
  | .classify => false
  | .verify _ _ _ => .ok .biometric
  | .invalidate _ => ()
  | .emit _ _ _ => .ok ()
  | .generateOtpCode => .ok s!"code {d.nextId}"
  | .mintPlanId => s!"plan {d.clock}"
  | .checkout _ _ _ _ _ _ => false
  | .writeExport _ _ => .ok ()
  | .unlockVault => .ok handle
  | .startServers => .ok ()

def presenceOutside (d : Shared) : (o : OutsideOp) → o.Ans
  | .classify => true
  | o => outside d o

def plainPlayer : Player (desktop estr) := player estr outside

def presencePlayer : Player (desktop estr) := player estr presenceOutside

def otpRead (otp : Option String) : Mcp.AccessRequest where
  transport := .mcpWs
  action := .readFile
  container := some "notes"
  fileName := some "card.txt"
  mode := some .otp
  byteSize := none
  agentId := some "agent"
  otp := otp
  authorizationContext := "context"
  importSummary := none

def launch (w : World) : DeskConfig where
  shared :=
    { clock := 0
      slot := ⟨w, 0, none⟩
      clicks := .empty
      otp := ∅
      ops := .empty
      timer := ⟨0, none, 600, 3600⟩
      monitored := false
      plans := ∅
      nextId := 1
      nextAttempt := 0 }
  threads := fun _ => none

theorem launch_fresh (w : World) : Fresh (launch w) := ⟨fun _ => rfl, rfl, rfl, rfl, rfl, rfl⟩

def answers (tid n : Nat) : List (Act Call Move) :=
  List.replicate n (.answer tid)

def whole (tid : Nat) (call : Call) (n : Nat) : List (Act Call Move) :=
  .call tid call :: (answers tid n ++ [.finish tid])

end Sample

end SovereignVault.Desk
