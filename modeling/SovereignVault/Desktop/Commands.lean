/-
The desktop's commands, as tasks.

`vault_read_file` and `vault_export_file` look up the mode of the
container under the handle, obtain what consent the mode asks for without
it, and take it again to read; with a pass the read runs in
`with_gated_handle`, which compares the session epoch. `container_mode_in`
drops the error of the lookup, so a failed one arrives at
`desktop_consent_required` as a container without a mode.

There are three ways to lock: `perform_vault_lock` for the command,
`perform_vault_lock_internal` for the monitor, and the rollback of an
unlock whose servers do not start. Only the first drops the pending plans,
and the rollback drops nothing.
-/
import SovereignVault.Desktop.Desk

namespace SovereignVault.Desk

open Dialogue Talk Audit Presence
open Mcp (AccessAction AccessRequest)

-- ==== consent

def containerModeIn (container : String) : DeskM (Option SecurityMode) := do
  let r ← withHandleIn (ask (.slot (.containerMode container)))
  pure r.toOption

def desktopConsentRequired : Option SecurityMode → Except String Bool
  | none => .ok false
  | some .direct | some .anonymized => .ok false
  | some .approval | some .otp => .ok true
  | some .zkp => .error "ZKP mode is not implemented for vault access"
  | some .native => .error "NATIVE mode is not implemented for vault access"

def desktopConsentRequiredFor (action : AccessAction)
    (mode : Option SecurityMode) : Except String Bool :=
  if action = .readFile ∧ mode = some .anonymized then .ok true
  else desktopConsentRequired mode

def consentOp (action : AccessAction) (container : String)
    (fileName : Option String) (mode : Option SecurityMode)
    (operation : String) (destination : Option String) : OpDescriptor :=
  (((((OpDescriptor.new "desktop_file").field "operation" operation).field
    "container" container).field "file" (fileName.getD "")).bind
    "action" action.debug).bind "mode" ((mode.map SecurityMode.asStr).getD
    "") |>.bind "destination" (destination.getD "")

def requireDesktopConsent (action : AccessAction) (container : String)
    (fileName : Option String) (mode : Option SecurityMode) (operation : String)
    (destination : Option String) : DeskM (Except GateDenied (Option GatePass)) :=
  match desktopConsentRequiredFor action mode with
  | .error message => pure (.error ⟨false, message, "op-none"⟩)
  | .ok false => pure (.ok none)
  | .ok true => do
    let r ← desktopPresenceGate { ClickRequest.desktop action.debug action.auditAction
          (consentOp action container fileName mode operation destination) with
        container := some container
        fileName := fileName
        mode := mode }
    pure (r.map some)

-- ==== reading and exporting

def touchHumanActivity : DeskM Unit := do
  let now ← ask (.outside .now)
  ask (.timer (.storeActivity now))

def requireLease (leaseId agentId resourceRef operation : String)
    (args : List String) (destination : String) : DeskM Bool :=
  if leaseId.isEmpty ∨ agentId.isEmpty then pure false
  else ask (.outside (.checkout leaseId agentId resourceRef operation args destination))

inductive Command where
  | readFile (container fileName : String) (leaseId agentId : Option String)
  | exportFile (container fileName destination : String)
  deriving DecidableEq

namespace Command

def container : Command → String
  | .readFile c _ _ _ | .exportFile c _ _ => c

def fileName : Command → String
  | .readFile _ f _ _ | .exportFile _ f _ => f

def operation : Command → String
  | .readFile _ _ _ _ => "read"
  | .exportFile _ _ _ => "export"

def destination : Command → Option String
  | .readFile _ _ _ _ => none
  | .exportFile _ _ d => some d

def detail : Command → Option String
  | .readFile _ _ _ _ => none
  | .exportFile _ _ _ => some "export to disk"

def op (cmd : Command) (mode : Option SecurityMode) : OpDescriptor :=
  consentOp .readFile cmd.container (some cmd.fileName) mode cmd.operation cmd.destination

end Command

section

variable (cmd : Command) (mode : Option SecurityMode)

def desktopEvent (decision : AuditDecision) (byteSize : Option Nat)
    (error : Option String) : DeskM AuditEvent := do
  let timestamp ← ask (.outside .utcNow)
  pure
    { timestamp := timestamp
      action := .readFile
      decision := decision
      transport := "desktop-ui"
      container := some cmd.container
      fileName := some cmd.fileName
      mode := mode.map SecurityMode.asStr
      byteSize := byteSize
      detail := cmd.detail
      error := error
      agentId := none
      presence := none }

def refuse (denied : GateDenied) : DeskM Reply := do
  let event ← desktopEvent cmd mode .denied none (some denied.message)
  recordDesktopEventLocked { event with presence := some denied.audit }
  throw denied.message

def recordGatedOutcome {α : Type} (pass : GatePass) : Except GatedError α → DeskM Unit
  | .error (.rejected message) => do
    let event ← desktopEvent cmd mode .denied none none
    recordDesktopEventLocked { event with
      presence := some ⟨pass.presence.isProtected, none, none, some pass.operationId⟩
      error := some message }
  | .error (.failed error) => do
    let event ← desktopEvent cmd mode .error none (some error)
    recordDesktopEventLocked event
  | .ok _ => pure ()

def gatedRead (pass : GatePass) : DeskM Reply := do
  let outcome ← withGatedHandle pass do
    let r ← ask (.slot (.readFile cmd.container cmd.fileName))
    match r with
    | .error e => pure (.error (.failed e))
    | .ok bytes => do
      let event ← desktopEvent cmd mode .allowed (some bytes.length) none
      pure (.ok (bytes, event))
  recordGatedOutcome cmd mode pass outcome
  match outcome with
  | .ok bytes => pure (.bytes bytes)
  | .error e => throw e.message

def ungatedRead : DeskM Reply := do
  let result ← withHandleIn (ask (.slot (.readFile cmd.container cmd.fileName)))
  match result with
  | .ok bytes => do
    let event ← desktopEvent cmd mode .allowed (some bytes.length) none
    ask (.slot (.tryRecord event))
    pure (.bytes bytes)
  | .error error => do
    let event ← desktopEvent cmd mode .error none (some error)
    ask (.slot (.tryRecord event))
    throw error

def exportDecision : Except String Unit → AuditDecision
  | .ok () => .allowed
  | .error _ => .error

def exportError : Except String Unit → Option String
  | .ok () => none
  | .error e => some e

def gatedExport (destination : String) (pass : GatePass) : DeskM Reply := do
  let outcome ← withGatedHandle pass do
    let r ← ask (.slot (.readFile cmd.container cmd.fileName))
    match r with
    | .error e => pure (.error (.failed e))
    | .ok bytes => do
      let result ← ask (.outside (.writeExport destination bytes))
      let event ← desktopEvent cmd mode (exportDecision result)
        (some bytes.length) (exportError result)
      pure (.ok (result, event))
  recordGatedOutcome cmd mode pass outcome
  match outcome with
  | .ok (.ok ()) => pure (.destination destination)
  | .ok (.error error) => throw error
  | .error e => throw e.message

def ungatedExport (destination : String) : DeskM Reply := do
  let result ← withHandleIn (ask (.slot (.readFile cmd.container cmd.fileName)))
  match result with
  | .error error => do
    let event ← desktopEvent cmd mode .error none (some error)
    ask (.slot (.tryRecord event))
    throw error
  | .ok bytes => do
    let result ← ask (.outside (.writeExport destination bytes))
    let event ← desktopEvent cmd mode (exportDecision result)
      (some bytes.length) (exportError result)
    ask (.slot (.tryRecord event))
    match result with
    | .ok () => pure (.destination destination)
    | .error error => throw error

def release : Option GatePass → DeskM Reply
  | some pass =>
    match cmd.destination with
    | none => gatedRead cmd mode pass
    | some destination => gatedExport cmd mode destination pass
  | none =>
    match cmd.destination with
    | none => ungatedRead cmd mode
    | some destination => ungatedExport cmd mode destination

end

def consentAndRelease (cmd : Command) : DeskM Reply := do
  let mode ← containerModeIn cmd.container
  let pass ← requireDesktopConsent .readFile cmd.container
    (some cmd.fileName) mode cmd.operation cmd.destination
  match pass with
  | .error denied => refuse cmd mode denied
  | .ok pass => release cmd mode pass

def Command.prog : Command → DeskM Reply
  | .readFile container fileName leaseId agentId => do
    touchHumanActivity
    let resourceRef := s!"container:{container}:file:{fileName}"
    let leased ← requireLease (leaseId.getD "") (agentId.getD "")
      resourceRef "read_file" [container, fileName] resourceRef
    if leased = false ∧ leaseId.isSome then
      throw "invalid or expired wake lease"
    else consentAndRelease (.readFile container fileName leaseId agentId)
  | .exportFile container fileName destination =>
    consentAndRelease (.exportFile container fileName destination)

-- ==== locks and unlocks

def clearAll : DeskM Unit := do
  let drained ← ask (.click .drain)
  forEach (fun x => do
    invalidate x.2.gate.attempt
    let _ ← ask (.click (.send x.1 false))) drained
  let challenges ← ask (.otp .drain)
  forEach (fun chal => invalidate chal.attempt) challenges

def clearOps : DeskM Unit := do
  let drained ← ask (.ops .drain)
  forEach (fun op => invalidate op.gate.attempt) drained

def publishUnlocked (handle : VaultHandle) : DeskM Unit := do
  ask (.slot (.publish (some handle)))
  let now ← ask (.outside .now)
  ask (.timer (.storeUnlockedAt (some now)))
  ask (.timer (.storeActivity now))

def publishLocked : DeskM Unit := do
  ask (.slot (.publish none))
  ask (.timer (.storeUnlockedAt none))

def recordLock (reason : String) : DeskM Unit := do
  let event ← newEvent .vaultLock .allowed "desktop-ui"
  ask (.slot (.tryRecord { event with detail := some s!"reason={reason}" }))

def performVaultLock (reason : String) : DeskM Unit := do
  let _ ← ask (.slot .lockHandle)
  publishLocked
  clearAll
  clearOps
  -- pending plans do not survive a lock
  ask (.plan .clear)
  recordLock reason
  ask (.slot .unlockHandle)

def performVaultLockInternal (reason : String) : DeskM Unit := do
  let _ ← ask (.slot .lockHandle)
  publishLocked
  clearAll
  clearOps
  recordLock reason
  ask (.slot .unlockHandle)

def asSecs (n : Nat) : Nat := n / 1000000000

def remainingSecs : DeskM (Option Nat × Option Nat) := do
  let unlockedAt ← ask (.timer .loadUnlockedAt)
  match unlockedAt with
  | some (some unlocked) => do
    let lastActivity ← ask (.timer .loadActivity)
    match lastActivity with
    | some idle => do
      let idleLimit ← ask (.timer .loadIdleTimeoutSecs)
      let absoluteLimit ← ask (.timer .loadAbsoluteSessionSecs)
      let idleNow ← ask (.outside .now)
      let absoluteNow ← ask (.outside .now)
      pure (some (idleLimit - asSecs (idleNow - idle)),
        some (absoluteLimit - asSecs (absoluteNow - unlocked)))
    | none => pure (none, none)
  | _ => pure (none, none)

def monitorTick : DeskM Reply := do
  let remaining ← remainingSecs
  let idleRemaining := remaining.1.getD 0
  let absoluteRemaining := remaining.2.getD 0
  if idleRemaining = 0 ∨ absoluteRemaining = 0 then do
    performVaultLockInternal
      (if absoluteRemaining = 0 then "session-cap" else "idle-timeout")
    pure .done
  else pure .done

def rollbackUnlock (action : AuditAction) (error : String) : DeskM Unit := do
  let unlocked ← ask (.slot .lockHandle)
  match unlocked with
  | true => do
    let event ← newEvent action .error "desktop-ui"
    ask (.slot (.record { event with error := some error }))
  | false => pure ()
  publishLocked
  ask (.slot .unlockHandle)

def startServers (action : AuditAction) : DeskM Reply := do
  let started ← ask (.outside .startServers)
  match started with
  | .ok () => pure .done
  | .error e => do
    rollbackUnlock action e
    throw e

def unlockUnderGuard (presence : Option PresenceAudit) : DeskM Reply := do
  let r ← ask (.outside .unlockVault)
  match r with
  | .error e => do
    ask (.slot .unlockHandle)
    throw e
  | .ok handle => do
    let event ← newEvent .vaultUnlock .allowed "desktop-ui"
    ask (.slot (.record { event with presence := presence }))
    publishUnlocked handle
    ask (.slot .unlockHandle)
    startServers .vaultUnlock

/-- `vault_unlock_impl` and `vault_init_impl`; some ask for presence, with
the click that describes them. -/
def vaultUnlock : Option ClickRequest → DeskM Reply
  | none => do
    let _ ← ask (.slot .lockHandle)
    unlockUnderGuard none
  | some click => do
    let gated ← desktopPresenceGate { click with preUnlock := true }
    match gated with
    | .error denied => throw denied.message
    | .ok pass => do
      let unlocked ← ask (.slot .lockHandle)
      let epoch ← ask (.slot .epoch)
      if unlocked ∨ epoch ≠ pass.epoch then do
        ask (.slot .unlockHandle)
        throw "vault state changed during verification"
      else unlockUnderGuard (some pass.presence)

def vaultUnlockRecovery : DeskM Reply := do
  let r ← ask (.outside .unlockVault)
  match r with
  | .error e => do
    let event ← newEvent .vaultUnlockRecovery .error "desktop-ui"
    ask (.slot (.tryRecord { event with error := some e }))
    throw e
  | .ok handle => do
    let _ ← ask (.slot .lockHandle)
    publishUnlocked handle
    ask (.slot .unlockHandle)
    let started ← startServers .vaultUnlockRecovery
    let event ← newEvent .vaultUnlockRecovery .allowed "desktop-ui"
    ask (.slot (.tryRecord event))
    pure started

/-- Any other command behind a gate: its closure is one step at the
handle. -/
def gatedCommand (click : ClickRequest) : DeskM Reply := do
  let gated ← desktopPresenceGate click
  match gated with
  | .error denied => do
    let event ← newEvent click.auditAction .denied "desktop-ui"
    recordDesktopEventLocked { event with
      presence := some denied.audit, error := some denied.message }
    throw denied.message
  | .ok pass => do
    let outcome ← withGatedHandle pass do
      let r ← ask (.slot (.perform pass.digest))
      match r with
      | .error e => pure (.error (.failed e))
      | .ok () => do
        let event ← newEvent click.auditAction .allowed "desktop-ui"
        pure (.ok ((), event))
    match outcome with
    | .ok () => pure .done
    | .error e => throw e.message

-- ==== plans

def remediatePlanFile (scanId findingPath adapter : String) : DeskM Reply := do
  touchHumanActivity
  let result ← withHandleIn do
    let built ← ask (.plan (.build scanId findingPath adapter))
    match built with
    | .error e => pure (.error e)
    | .ok plan => do
      let id ← ask (.outside .mintPlanId)
      let createdAt ← ask (.outside .utcNow)
      ask (.plan (.insert ⟨id, plan, createdAt⟩))
      pure (.ok id)
  match result with
  | .ok id => do
    let event ← newEvent .planCreate .allowed "desktop-ui"
    ask (.slot (.tryRecord event))
    pure (.plan id)
  | .error error => do
    let event ← newEvent .planCreate .error "desktop-ui"
    ask (.slot (.tryRecord { event with error := some error }))
    throw error

def remediationOp (kind planId : String) (p : PendingPlan) : OpDescriptor :=
  (((((OpDescriptor.new kind).field "file" p.plan.path).bind "plan"
    planId).bind "snapshot" p.plan.snapshotDigest).bind "manifest"
    p.plan.manifestPath).bind "adapter" p.plan.adapter

def executeClosure (planId confirmDigest : String) (pass : GatePass) :
    DeskM (Except GatedError (String × AuditEvent)) := do
  let live ← ask (.plan (.live planId))
  match live with
  | none => pure (.error (.failed "unknown plan id"))
  | some pending =>
    match pass.ensureSame (remediationOp "remediate_execute" planId
        pending) with
    | .error denied => pure (.error (.rejected denied.message))
    | .ok () =>
      if confirmDigest ≠ pending.plan.snapshotDigest then
        pure (.error (.failed "plan digest mismatch"))
      else do
        let ingested ← ask (.plan (.ingest pending))
        match ingested with
        | .error e => pure (.error (.failed e))
        | .ok status => do
          ask (.plan (.remove planId))
          let event ← newEvent .planApprove .allowed "desktop-ui"
          pure (.ok (status, event))

def recordPlanError (pass : GatePass) : GatedError → DeskM Unit
  | .rejected message => do
    let event ← newEvent .planApprove .denied "desktop-ui"
    recordDesktopEventLocked { event with
      presence := some (denied pass.presence.isProtected pass.operationId)
      error := some message }
  | .failed error =>
    if error = "plan digest mismatch" then do
      let event ← newEvent .planApprove .denied "desktop-ui"
      recordDesktopEventLocked { event with error := some error }
    else do
      let event ← newEvent .planApprove .allowed "desktop-ui"
      recordDesktopEventLocked event

def remediateExecute (planId confirmDigest : String) : DeskM Reply := do
  touchHumanActivity
  let live ← ask (.plan (.live planId))
  match live with
  | none => throw "unknown plan id"
  | some snapshot => do
    let gated ← desktopPresenceGate (.desktop
      "Move secret file into the vault" .planApprove
      (remediationOp "remediate_execute" planId snapshot))
    match gated with
    | .error denied => do
      let event ← newEvent .planApprove .denied "desktop-ui"
      recordDesktopEventLocked { event with
        presence := some denied.audit, error := some denied.message }
      throw denied.message
    | .ok pass => do
      let result ← withGatedHandle pass (executeClosure planId confirmDigest pass)
      match result with
      | .error e => do
        recordPlanError pass e
        let event ← newEvent .planExecute .error "desktop-ui"
        recordDesktopEventLocked { event with error := some e.message }
        throw e.message
      | .ok status => do
        let event ← newEvent .planExecute
          (if status = "ingested" then .allowed else .error)
          "desktop-ui"
        recordDesktopEventLocked event
        pure (.ingested status)

inductive Call where
  | request (request : AccessRequest)
  | respond (id : Nat) (approved : Bool) (otp : Option String)
  | refuse (id : Nat)
  | reveal (modalId : Nat)
  | expire (modalId : Nat)
  | release (cmd : Command)
  | gated (click : ClickRequest)
  | planFile (scanId findingPath adapter : String)
  | execute (planId confirmDigest : String)
  | lock (reason : String)
  | tick
  | unlock (click : Option ClickRequest)
  | unlockRecovery
  | touch

def Call.prog : Call → DeskM Reply
  | .request r => Desk.request r
  | .respond id approved otp => Desk.respond id approved otp
  | .refuse id => refuseFrom id "desktop-tray"
  | .reveal modalId => revealOtp modalId
  | .expire modalId => expireOtp modalId
  | .release cmd => cmd.prog
  | .gated click => gatedCommand click
  | .planFile scanId findingPath adapter => remediatePlanFile scanId findingPath adapter
  | .execute planId confirmDigest => remediateExecute planId confirmDigest
  | .lock reason => do
    performVaultLock reason
    pure .done
  | .tick => monitorTick
  | .unlock click => vaultUnlock click
  | .unlockRecovery => vaultUnlockRecovery
  | .touch => do
    touchHumanActivity
    pure .done

end SovereignVault.Desk
