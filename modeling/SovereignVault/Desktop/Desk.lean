/-
The desktop application as a set of tasks over one shared state: what a
task can ask, and the tasks that decide.

Each question is one step no other task can split: a critical section
under `pending`, `otp_pending` or the registry of operations, a reading of
an atomic, a step under the guard of the handle. The guard is taken and
given back by questions of its own. Publishing a handle sets the slot and
advances the epoch in one step, since nobody else sees the slot while the
guard is held.

Left out: the tray, the notifications and the modal's later events; the
branches for an application state that is already gone.
-/
import SovereignVault.Dialogue.Talk
import SovereignVault.Desktop.Operations
import SovereignVault.Desktop.Otp

namespace SovereignVault.Desk

open Dialogue Talk Audit Presence
open Mcp (AccessAction AccessRequest)

-- ==== the questions

inductive SlotOp where
  | lockHandle
  | unlockHandle
  | publish (handle : Option VaultHandle)
  | epoch
  | containerMode (container : String)
  | readFile (container fileName : String)
  | closure (digest : OpDigest) (epoch : Nat)
  | perform (digest : OpDigest)
  | record (event : AuditEvent)
  /-- `record_desktop_event`, if the guard is free. -/
  | tryRecord (event : AuditEvent)

@[reducible] def SlotOp.Ans : SlotOp → Type
  | .lockHandle => Bool
  | .epoch => Nat
  | .containerMode _ => Except String SecurityMode
  | .readFile _ _ => Except String Bytes
  | .perform _ => Except String Unit
  | .unlockHandle | .publish _ | .closure _ _ | .record _
  | .tryRecord _ => Unit

inductive ClickOp where
  | register (click : ClickRequest) (isProtected : Bool) (deadline : Nat)
  | await (id deadline : Nat)
  | take (id : Nat)
  | respondBegin (id : Nat) (otp : Option String)
  | respondFinish (id attempt : Nat) (result : Except Denial Verified)
  | send (id : Nat) (approved : Bool)
  | dropSender (id : Nat)
  | hangUp (id : Nat)
  | drain

@[reducible] def ClickOp.Ans : ClickOp → Type
  | .register _ _ _ => Nat × List ((_ : Nat) × PendingApproval)
  | .await _ _ => Clicks.Outcome
  | .take _ => Option PendingApproval
  | .respondBegin _ _ => Clicks.RespondBegin
  | .respondFinish _ _ _ => Clicks.RespondFinish
  | .send _ _ => Bool
  | .drain => List ((_ : Nat) × PendingApproval)
  | .dropSender _ | .hangUp _ => Unit

inductive OtpOp where
  | request (key : String) (supplied : Option String) (unlocked : Bool)
  | issue (key code : String) (isProtected : Bool) (op : OpDescriptor) (auditAction : AuditAction)
  | expire (id : Nat)
  | revealBegin (modalId : Nat)
  | revealFinish (key : String) (modalId attempt deadline : Nat)
      (moved : Bool) (result : Except Denial Verified)
  | drain

@[reducible] def OtpOp.Ans : OtpOp → Type
  | .request _ _ _ => OtpOutcome
  | .issue _ _ _ _ _ => IssueOutcome
  | .expire _ => ExpireOutcome
  | .revealBegin _ => RevealBegin
  | .revealFinish _ _ _ _ _ _ => RevealFinish
  | .drain => List OtpChallenge

inductive OpsOp where
  | begin (digest : OpDigest) (deadline : Nat)
  | retry (digest : OpDigest) (id attempt : Nat)
  | finish (digest : OpDigest) (id : Nat)
  | drain

@[reducible] def OpsOp.Ans : OpsOp → Type
  | .begin _ _ => Nat × Except GateError PendingDesktopOp
  | .drain => List PendingDesktopOp
  | .retry _ _ _ | .finish _ _ => Unit

/-- At the session timer; each store and load gives up when the lock is
contended. -/
inductive TimerOp where
  | storeUnlockedAt (t : Option Nat)
  | storeActivity (t : Nat)
  | loadUnlockedAt
  | loadActivity
  | loadIdleTimeoutSecs
  | loadAbsoluteSessionSecs

@[reducible] def TimerOp.Ans : TimerOp → Type
  | .loadUnlockedAt => Option (Option Nat)
  | .loadActivity => Option Nat
  | .loadIdleTimeoutSecs | .loadAbsoluteSessionSecs => Nat
  | .storeUnlockedAt _ | .storeActivity _ => Unit

structure PlanBody where
  path : String
  manifestPath : String
  adapter : String
  snapshotDigest : String
  deriving DecidableEq

structure PendingPlan where
  id : String
  plan : PlanBody
  createdAt : Nat
  deriving DecidableEq

inductive PlanOp where
  | build (scanId findingPath adapter : String)
  | insert (plan : PendingPlan)
  | live (id : String)
  | remove (id : String)
  | clear
  | ingest (plan : PendingPlan)

@[reducible] def PlanOp.Ans : PlanOp → Type
  | .build _ _ _ => Except String PlanBody
  | .live _ => Option PendingPlan
  | .ingest _ => Except String String
  | .insert _ | .remove _ | .clear => Unit

inductive OutsideOp where
  | now
  | utcNow
  | classify
  | verify (attempt : Nat) (op : OpDescriptor) (deadline : Nat)
  | invalidate (attempt : Nat)
  /-- The event that opens a modal, with the code it shows. -/
  | emit (id : Nat) (isProtected : Bool) (otpCode : Option String)
  | generateOtpCode
  | mintPlanId
  | checkout (leaseId agentId resourceRef operation : String)
      (args : List String) (destination : String)
  | writeExport (destination : String) (bytes : Bytes)
  | unlockVault
  | startServers

@[reducible] def OutsideOp.Ans : OutsideOp → Type
  | .now | .utcNow => Nat
  | .classify => Bool
  | .verify _ _ _ => Except Denial PresenceModality
  | .emit _ _ _ => Except String Unit
  | .generateOtpCode => Except String String
  | .mintPlanId => String
  | .checkout _ _ _ _ _ _ => Bool
  | .writeExport _ _ => Except String Unit
  | .unlockVault => Except String VaultHandle
  | .startServers => Except String Unit
  | .invalidate _ => Unit

inductive DeskOp where
  | slot (o : SlotOp)
  | click (o : ClickOp)
  | otp (o : OtpOp)
  | ops (o : OpsOp)
  | timer (o : TimerOp)
  | plan (o : PlanOp)
  | outside (o : OutsideOp)

@[reducible] def DeskOp.Ans : DeskOp → Type
  | .slot o => o.Ans
  | .click o => o.Ans
  | .otp o => o.Ans
  | .ops o => o.Ans
  | .timer o => o.Ans
  | .plan o => o.Ans
  | .outside o => o.Ans

@[reducible] def deskInterface : Interface where
  Op := DeskOp
  Ans := DeskOp.Ans

abbrev DeskM (α : Type) := Talk deskInterface String α

abbrev DeskExchange := Exchange deskInterface

def ask (o : DeskOp) : DeskM o.Ans := Talk.query (I := deskInterface) o

inductive Reply where
  | done
  | code (code : String)
  | bytes (bytes : Bytes)
  | destination (destination : String)
  | plan (id : String)
  | ingested (status : String)

-- ==== small tasks

def forEach {α : Type} (f : α → DeskM Unit) : List α → DeskM Unit
  | [] => pure ()
  | a :: rest => do
    f a
    forEach f rest

def withHandleIn {α : Type} (body : DeskM (Except String α)) : DeskM (Except String α) := do
  let unlocked ← ask (.slot .lockHandle)
  match unlocked with
  | true => do
    let r ← body
    ask (.slot .unlockHandle)
    pure r
  | false => do
    ask (.slot .unlockHandle)
    pure (.error "vault is locked")

def recordDesktopEventLocked (event : AuditEvent) : DeskM Unit := do
  let unlocked ← ask (.slot .lockHandle)
  match unlocked with
  | true => do
    ask (.slot (.record event))
    ask (.slot .unlockHandle)
  | false => ask (.slot .unlockHandle)

def newEvent (action : AuditAction) (decision : AuditDecision)
    (transport : String) : DeskM AuditEvent := do
  let timestamp ← ask (.outside .utcNow)
  pure
    { timestamp := timestamp
      action := action
      decision := decision
      transport := transport
      container := none
      fileName := none
      mode := none
      byteSize := none
      detail := none
      error := none
      agentId := none
      presence := none }

def denied (isProtected : Bool) (operationId : String) : PresenceAudit :=
  ⟨isProtected, none, none, some operationId⟩

def authenticated (modality : PresenceModality) (operationId : String) : PresenceAudit :=
  ⟨true, some .deviceOwnerAuthenticated, some modality, some operationId⟩

def clicked (operationId : String) : PresenceAudit :=
  ⟨false, some .click, none, some operationId⟩

def auditDenied (action : AuditAction) (presence : PresenceAudit)
    (transport : String) (error : Option String) : DeskM Unit := do
  let event ← newEvent action .denied transport
  recordDesktopEventLocked { event with presence := some presence, error := error }

def invalidate : Option Nat → DeskM Unit
  | some attempt => ask (.outside (.invalidate attempt))
  | none => pure ()

/-- `PresenceCoordinator::verify`: the digest is the operation's own. -/
def verify (attempt : Nat) (op : OpDescriptor) (deadline : Nat) :
    DeskM (Except Denial Verified) := do
  let r ← ask (.outside (.verify attempt op deadline))
  pure (r.map fun modality => ⟨attempt, op.digest, modality⟩)

-- ==== click approvals

def reapTimeout (id : Nat) : DeskM Unit := do
  let removed ← ask (.click (.take id))
  match removed with
  | none => pure ()
  | some entry => do
    invalidate entry.gate.attempt
    ask (.click (.dropSender id))
    auditDenied entry.auditAction
      (denied entry.isProtected s!"approval-{id}") "desktop-ui"
      (some "timed out")

def clickOutcome (id : Nat) : Clicks.Outcome → DeskM (Except String Unit)
  | .decided true => pure (.ok ())
  | .decided false => pure (.error "access denied by user")
  | .closed => pure (.error "approval channel closed")
  | .timedOut => do
    reapTimeout id
    pure (.error "approval timed out")

def requestClick (click : ClickRequest) (classification : Option Bool)
    (deadlineAt : Option Nat) : DeskM (Except String Unit) := do
  let isProtected ← match classification with
    | some c => pure c
    | none => ask (.outside .classify)
  let deadline ← match deadlineAt with
    | some d => pure d
    | none => do
      let now ← ask (.outside .now)
      pure (now + secs APPROVAL_TIMEOUT_SECS)
  let registered ← ask (.click (.register click isProtected deadline))
  let id := registered.1
  forEach (fun x => invalidate x.2.gate.attempt) registered.2
  forEach (fun x => auditDenied x.2.auditAction
    (denied x.2.isProtected s!"approval-{x.1}") "desktop-ui"
    (some "superseded")) registered.2
  let shown ← ask (.outside (.emit id isProtected none))
  match shown with
  | .error e => do
    ask (.click (.hangUp id))
    pure (.error e)
  | .ok () => do
    let outcome ← ask (.click (.await id deadline))
    clickOutcome id outcome

def sentResult : Bool → DeskM Reply
  | true => pure .done
  | false => throw "approval request already closed"

def refuseFrom (id : Nat) (transport : String) : DeskM Reply := do
  let removed ← ask (.click (.take id))
  match removed with
  | none => throw s!"unknown approval request: {id}"
  | some entry => do
    invalidate entry.gate.attempt
    let sent ← ask (.click (.send id false))
    auditDenied entry.auditAction
      (denied entry.isProtected s!"approval-{id}") transport none
    sentResult sent

def refuseAndThrow (id : Nat) (message : String) : DeskM Reply := do
  let _ ← ask (.click (.send id false))
  ask (.slot .unlockHandle)
  throw message

/-- The decision of `respond` under the guard: it is recorded first. -/
def approveUnderGuard (id : Nat) (action : AuditAction)
    (presence : PresenceAudit) : DeskM Reply := do
  let event ← newEvent action .allowed "desktop-ui"
  ask (.slot (.record { event with presence := some presence }))
  let sent ← ask (.click (.send id true))
  ask (.slot .unlockHandle)
  sentResult sent

def respondDeclared (id : Nat) (entry : PendingApproval) : Bool → DeskM Reply
  | true => approveUnderGuard id entry.auditAction (clicked s!"approval-{id}")
  | false =>
    if entry.preUnlock then do
      -- there is no vault yet to record into
      let sent ← ask (.click (.send id true))
      ask (.slot .unlockHandle)
      sentResult sent
    else refuseAndThrow id "vault is locked"

def respondFinisher (id attempt : Nat) (result : Except Denial Verified) : DeskM Reply := do
  let unlocked ← ask (.slot .lockHandle)
  let r ← ask (.click (.respondFinish id attempt result))
  match r with
  | .gone => do
    ask (.slot .unlockHandle)
    throw "approval request is no longer pending"
  | .approved entry =>
    if unlocked then
      approveUnderGuard id entry.auditAction (authenticated
        ((result.toOption.map Verified.modality).getD .unknown)
        s!"approval-{id}")
    else refuseAndThrow id "vault is locked"
  | .retry e => do
    ask (.slot .unlockHandle)
    throw (Denial.retryable e).message
  | .denied entry message => do
    ask (.slot .unlockHandle)
    let _ ← ask (.click (.send id false))
    auditDenied entry.auditAction (denied true s!"approval-{id}")
      "desktop-ui" (some message)
    throw message

def respondApprove (id : Nat) (otp : Option String) : DeskM Reply := do
  let unlocked ← ask (.slot .lockHandle)
  let first ← ask (.click (.respondBegin id otp))
  match first with
  | .unknown => do
    ask (.slot .unlockHandle)
    throw s!"unknown approval request: {id}"
  | .wrongCode => do
    ask (.slot .unlockHandle)
    throw "incorrect confirmation code"
  | .expired entry => do
    invalidate entry.gate.attempt
    let _ ← ask (.click (.send id false))
    ask (.slot .unlockHandle)
    auditDenied entry.auditAction
      (denied entry.isProtected s!"approval-{id}") "desktop-ui"
      (some "approval expired")
    throw "approval request expired"
  | .declared entry => respondDeclared id entry unlocked
  | .busy e => do
    ask (.slot .unlockHandle)
    throw e.message
  | .begun attempt op deadline => do
    ask (.slot .unlockHandle)
    let result ← verify attempt op deadline
    respondFinisher id attempt result

def respond (id : Nat) (approved : Bool) (otp : Option String) : DeskM Reply :=
  if approved then respondApprove id otp else refuseFrom id "desktop-ui"

-- ==== one-time codes

def OTP_REQUIRED : String :=
  "otp_required: a one-time code is shown on the Sovereign Vault desktop. "
    ++ "Resend this exact request with the `otp` argument set to that code."

def OTP_LOCKED_OUT : String :=
  "otp_required: too many failed attempts; retry after 5 minutes"

def modalCode (isProtected : Bool) (code : String) : Option String :=
  if isProtected then none else some code

def handleOtpFresh (request : AccessRequest) : DeskM Reply := do
  let generated ← ask (.outside .generateOtpCode)
  match generated with
  | .error e => throw e
  | .ok code => do
    let isProtected ← ask (.outside .classify)
    let issued ← ask (.otp (.issue (requestSignature request) code
      isProtected (opForAccess request) request.action.auditAction))
    match issued with
    | .full => throw OTP_REQUIRED
    | .issued id replaced => do
      invalidate (replaced.bind OtpChallenge.attempt)
      let shown ← ask (.outside (.emit id isProtected (modalCode isProtected code)))
      match shown with
      | .error e => throw e
      | .ok () => throw OTP_REQUIRED

def unlockFor (supplied : Option String) : DeskM Unit :=
  match supplied with
  | some _ => ask (.slot .unlockHandle)
  | none => pure ()

def auditOtp (chal : Option OtpChallenge) (error : String) : DeskM Unit :=
  match chal.filter OtpChallenge.isProtected with
  | none => pure ()
  | some chal => auditDenied chal.auditAction
      (denied true s!"otp-{chal.modalId}") "desktop-ui" (some error)

def otpPresence (modalId : Nat) (removed : OtpChallenge) : PresenceAudit :=
  if removed.isProtected then
    authenticated (removed.revealedModality.getD .unknown) s!"otp-{modalId}"
  else denied false s!"otp-{modalId}"

def otpFinish (request : AccessRequest) : OtpOutcome → DeskM Reply
  | .full => do
    unlockFor request.otp
    throw OTP_REQUIRED
  | .accepted _ none => do
    unlockFor request.otp
    throw "accepted challenge present"
  | .accepted modalId (some removed) => do
    let event ← newEvent removed.auditAction .allowed "desktop-ui"
    ask (.slot (.record { event with presence := some (otpPresence modalId removed) }))
    unlockFor request.otp
    pure .done
  | .vaultLocked => do
    unlockFor request.otp
    throw "vault is locked"
  | .reused chal shown =>
    if shown then do
      let r ← ask (.outside (.emit chal.modalId chal.isProtected
        (modalCode chal.isProtected chal.code)))
      match r with
      | .error e => throw e
      | .ok () => throw OTP_REQUIRED
    else throw OTP_REQUIRED
  | .needFresh => handleOtpFresh request
  | .lockedOut chal => do
    unlockFor request.otp
    auditOtp chal "otp lockout"
    throw OTP_LOCKED_OUT
  | .invalid chal lockout => do
    if lockout then invalidate (chal.bind OtpChallenge.attempt)
    unlockFor request.otp
    auditOtp chal "otp invalid code"
    throw "otp_required: invalid code"
  | .expired => do
    unlockFor request.otp
    handleOtpFresh request

def handleOtp (request : AccessRequest) : DeskM Reply := do
  let unlocked ← match request.otp with
    | some _ => ask (.slot .lockHandle)
    | none => pure false
  let outcome ← ask (.otp (.request (requestSignature request) request.otp unlocked))
  otpFinish request outcome

def expireOtp (id : Nat) : DeskM Reply := do
  let outcome ← ask (.otp (.expire id))
  match outcome with
  | .expired attempt => do
    invalidate attempt
    pure .done
  | _ => pure .done

def auditReveal (removed : Option OtpChallenge) (error : String) : DeskM Unit :=
  match removed with
  | none => pure ()
  | some chal => auditDenied chal.auditAction
      (denied true s!"otp-{chal.modalId}") "desktop-ui" (some error)

def revealOutcome : RevealFinish → DeskM Reply
  | .moved removed => do
    auditReveal removed "vault state changed during verification"
    throw "vault state changed during verification"
  | .notPending => throw "code request is no longer pending"
  | .lockedOut => throw OTP_LOCKED_OUT
  | .failed e => throw e.message
  | .code code => pure (.code code)
  | .retry e => throw (Denial.retryable e).message
  | .denied removed denial => do
    auditReveal removed denial.message
    throw denial.message

def revealOtp (modalId : Nat) : DeskM Reply := do
  let first ← ask (.otp (.revealBegin modalId))
  match first with
  | .unknown => throw "unknown or expired code request"
  | .plain code => pure (.code code)
  | .busy e => throw e.message
  | .begun key attempt op deadline epoch => do
    let result ← verify attempt op deadline
    let unlocked ← ask (.slot .lockHandle)
    let epoch' ← ask (.slot .epoch)
    let moved := !unlocked || epoch' ≠ epoch
    let r ← ask (.otp (.revealFinish key modalId attempt deadline moved result))
    ask (.slot .unlockHandle)
    revealOutcome r

-- ==== requests

inductive ApprovalPromptKind where
  | notRequired | click | otp

def approvalRequirement (request : AccessRequest) : Except String ApprovalPromptKind :=
  match request.action with
  | .broker | .importAgents | .exportAgents => .ok .click
  | .createTransitKey | .listTransitKeys | .encrypt | .decrypt
  | .createSigningKey | .listSigningKeys | .sign => .ok .click
  | .createBrokerSecret | .listBrokerSecrets => .ok .click
  | .verify => .ok .notRequired
  | action =>
    match request.mode with
    | some .direct | some .anonymized | none =>
      match action with
      | .listContainers | .createContainer => .ok .click
      | _ => .ok .notRequired
    | some .approval => .ok .click
    | some .otp => .ok .otp
    | some .zkp => .error "ZKP mode is not implemented for live MCP access"
    | some .native => .error "NATIVE mode is not implemented for live MCP access"

def request (request : AccessRequest) : DeskM Reply :=
  match approvalRequirement request with
  | .error e => throw e
  | .ok .notRequired => pure .done
  | .ok .click => do
    let r ← requestClick (.fromAccess request) none none
    match r with
    | .error e => throw e
    | .ok () => pure .done
  | .ok .otp => handleOtp request

-- ==== the gate

def clickGate (click : ClickRequest) (op : PendingDesktopOp)
    (epoch : Nat) : DeskM (Except GateDenied GatePass) := do
  let operationId := s!"op-{op.id}"
  let outcome ← requestClick click (some op.isProtected) (some op.deadline)
  ask (.ops (.finish click.op.digest op.id))
  match outcome with
  | .error message => pure (.error ⟨false, message, operationId⟩)
  | .ok () => do
    let epoch' ← ask (.slot .epoch)
    if epoch' ≠ epoch then
      pure (.error ⟨false, "vault state changed during confirmation",
        operationId⟩)
    else
      pure (.ok ⟨clicked operationId, click.op.digest, epoch, operationId⟩)

def presenceGate (click : ClickRequest) (op : PendingDesktopOp)
    (attempt epoch : Nat) : DeskM (Except GateDenied GatePass) := do
  let operationId := s!"op-{op.id}"
  let r ← verify attempt click.op op.deadline
  match r with
  | .ok verified => do
    ask (.ops (.finish click.op.digest op.id))
    let now ← ask (.outside .now)
    let epoch' ← ask (.slot .epoch)
    if verified.digest ≠ click.op.digest ∨ now > op.deadline
        ∨ epoch' ≠ epoch then
      pure (.error ⟨true,
        "verification no longer applies to this operation", operationId⟩)
    else
      pure (.ok ⟨authenticated verified.modality operationId, click.op.digest, epoch, operationId⟩)
  -- retryable: the operation stays registered
  | .error (.retryable e) => do
    ask (.ops (.retry click.op.digest op.id attempt))
    pure (.error ⟨true, (Denial.retryable e).message, operationId⟩)
  | .error denial => do
    ask (.ops (.finish click.op.digest op.id))
    pure (.error ⟨true, denial.message, operationId⟩)

def desktopPresenceGate (click : ClickRequest) : DeskM (Except GateDenied GatePass) := do
  let epoch ← ask (.slot .epoch)
  let now ← ask (.outside .now)
  let begun ← ask (.ops (.begin click.op.digest (now + secs APPROVAL_TIMEOUT_SECS)))
  match begun.2 with
  | .error e => pure (.error ⟨true, e.message, "op-busy"⟩)
  | .ok op =>
    if op.isProtected then presenceGate click op begun.1 epoch
    else clickGate click op epoch

def withGatedHandle {α : Type} (pass : GatePass)
    (body : DeskM (Except GatedError (α × AuditEvent))) : DeskM (Except GatedError α) := do
  let unlocked ← ask (.slot .lockHandle)
  match unlocked with
  | false => do
    ask (.slot .unlockHandle)
    pure (.error (.rejected "vault is locked"))
  | true => do
    let epoch ← ask (.slot .epoch)
    if epoch ≠ pass.epoch then do
      ask (.slot .unlockHandle)
      pure (.error (.rejected
        "vault state changed after verification; try again"))
    else do
      ask (.slot (.closure pass.digest pass.epoch))
      let r ← body
      match r with
      | .error e => do
        ask (.slot .unlockHandle)
        pure (.error e)
      | .ok (value, event) => do
        ask (.slot (.record { event with presence := some pass.presence }))
        ask (.slot .unlockHandle)
        pure (.ok value)

end SovereignVault.Desk
