/-
`sv-remediate/src/apply.rs` and `managed.rs`: the destructive path.

The functions talk to the project's file system and to the caller's vault
sink, one question per call of theirs. A path under the root is the list
of its segments. Opening a file with its cooperative lock and reading it
is one question, and so is the atomic replacement.

`applyItem` checks path, identity, content and evidence, stores the vault
side, checks the content again, and only then replaces the file.
-/
import SovereignVault.Dialogue.Talk
import SovereignVault.Audit.Record
import SovereignVault.Remediate.Plan

namespace SovereignVault.Remediate

open Dialogue Talk

-- ==== errors

inductive ApplyError where
  | io (detail : String)
  | invalidRoot
  | pathEscapesRoot
  | symlinkRejected
  | notARegularFile
  | locked
  | sink (detail : String)
  | detectorUnavailable (detail : String)
  | journalMismatch
  | ineligible (reason : String)
  | manifestConsumed
  | serialization (detail : String)

def ApplyError.display : ApplyError → String
  | .io detail => s!"I/O: {detail}"
  | .invalidRoot => "project root is not a readable directory"
  | .pathEscapesRoot => "target escapes the approved project root"
  | .symlinkRejected => "target path contains a symbolic link or reparse point; refused"
  | .notARegularFile => "target is not a regular file"
  | .locked => "target is locked by another writer"
  | .sink detail => s!"vault sink failed: {detail}"
  | .detectorUnavailable detail => s!"pinned detector unavailable: {detail}"
  | .journalMismatch => "journal does not match the plan"
  | .ineligible reason => s!"file is not eligible for whole-file ingestion: {reason}"
  | .manifestConsumed => "manifest path must differ from the consumed path"
  | .serialization detail => s!"serialization failed: {detail}"

def ApplyError.ofPlan (e : PlanError) : ApplyError := .sink e.display

-- ==== records

structure PermissionSnapshot where
  readonly : Bool
  unixMode : Option Nat
  deriving DecidableEq

def PermissionSnapshot.restricted : PermissionSnapshot := ⟨false, some 0o600⟩

inductive DiscoveryPolicy where
  | discoverable
  | opaquely

structure RecoveryRecord where
  planDigest : Digest
  projectId : String
  path : Path
  identity : FileIdentity
  snapshotDigest : Digest
  snapshotRef : String
  discovery : DiscoveryPolicy
  locator : Option Bytes
  span : Option ByteSpan
  replacement : Option Bytes
  createdAt : Nat

inductive JournalState where
  | pending
  | vaultStored (locator : Option Bytes)
  | fileReplaced
  | failed (reason : String)
  | rolledBack
  deriving DecidableEq

structure JournalEntry where
  path : Path
  state : JournalState
  recordedAt : Nat
  deriving DecidableEq

structure RewriteJournal where
  planDigest : Digest
  entries : List JournalEntry

def latestState (journal : RewriteJournal) (path : Path) : Option JournalState :=
  (journal.entries.reverse.find? (·.path = path)).map (·.state)

inductive ConsumerAdapter where
  | envInjection
  | tempFile
  deriving DecidableEq

def ConsumerAdapter.asStr : ConsumerAdapter → String
  | .envInjection => "env-injection"
  | .tempFile => "temp-file"

-- ==== questions

abbrev Place := List String

inductive Kind where
  | file
  | dir
  | symlink
  deriving DecidableEq

inductive FsOp where
  | canonicalizeRoot
  | rootIsDir
  | symlinkMetadata (place : Place)
  | permissions (place : Place)
  | captureIdentity (place : Place)
  | readLocked (place : Place)
  | read (place : Place)
  | replaceAtomic (place : Place) (content : Bytes) (permissions : PermissionSnapshot)
  | removeFile (place : Place)
  | createDirAll (place : Place)

@[reducible] def FsOp.Ans : FsOp → Type
  | .canonicalizeRoot => Except String Unit
  | .rootIsDir => Bool
  | .symlinkMetadata _ => Except String Kind
  | .permissions _ => Except String PermissionSnapshot
  | .captureIdentity _ => Option FileIdentity
  | .readLocked _ => Except ApplyError Bytes
  | .read _ => Except String Bytes
  | .replaceAtomic _ _ _ | .removeFile _ | .createDirAll _ => Except String Unit

inductive SinkOp where
  | storeSnapshot (item : PlanItem) (original : Bytes)
  | commitLocator (item : PlanItem) (snapshotRef : String)
  | storeRecovery (record : RecoveryRecord)
  | appendJournal (entry : JournalEntry)
  | audit (action : Audit.AuditAction) (operationDigest : Digest)
  | loadSnapshot (record : RecoveryRecord)
  | storeManagedSnapshot (projectId : String) (path : Path) (original : Bytes)
  | startupCheck (adapter : ConsumerAdapter) (manifestPath : Path) (consumedPath : Path)

@[reducible] def SinkOp.Ans : SinkOp → Type
  | .storeSnapshot _ _ | .storeManagedSnapshot _ _ _ => Except String String
  | .commitLocator _ _ => Except String (Option Bytes)
  | .loadSnapshot _ => Except String Bytes
  | .storeRecovery _ | .appendJournal _ | .audit _ _
  | .startupCheck _ _ _ => Except String Unit

inductive RemOp where
  | fs (o : FsOp)
  | sink (o : SinkOp)
  | now

@[reducible] def RemOp.Ans : RemOp → Type
  | .fs o => o.Ans
  | .sink o => o.Ans
  | .now => Nat

def remInterface : Interface := ⟨RemOp, RemOp.Ans⟩

abbrev RemM := Talk remInterface ApplyError

abbrev RemExchange := Exchange remInterface

def ask (o : RemOp) : RemM o.Ans := Talk.query (I := remInterface) o

def orThrow {ε α : Type} (f : ε → ApplyError) : Except ε α → RemM α
  | .ok a => pure a
  | .error e => throw (f e)

-- ==== the paths

def resolveFrom : Place → Path → RemM Place
  | probe, [] => pure probe
  | probe, .normal segment :: rest => do
    let kind ← ask (.fs (.symlinkMetadata (probe ++ [segment])))
    let kind ← orThrow .io kind
    if kind = .symlink then throw .symlinkRejected
    else resolveFrom (probe ++ [segment]) rest
  | _, _ :: _ => throw .pathEscapesRoot

def resolveTarget (relative : Path) : RemM Place := do
  let probe ← resolveFrom [] relative
  let kind ← ask (.fs (.symlinkMetadata probe))
  let kind ← orThrow .io kind
  if kind ≠ .file then throw .notARegularFile
  else pure probe

def usableRoot : RemM Unit := do
  let canonical ← ask (.fs .canonicalizeRoot)
  orThrow .io canonical
  let isDir ← ask (.fs .rootIsDir)
  if isDir then pure () else throw .invalidRoot

-- ==== an item

inductive ApplyMode where
  | dryRun
  | commit

inductive IdentityAssurance where
  | enforced
  | acknowledgedUnavailable
  deriving DecidableEq

inductive FileApplyStatus where
  | dryRun
  | applied (locator : Option Bytes)
  | alreadyReplaced
  | stale
  | skipped (reason : String)
  | failed (reason : String)
  deriving DecidableEq

inductive ResumePoint where
  | fresh
  | vaultStored (locator : Option Bytes)

inductive IdentityCheck where
  | passes
  | differs
  | unavailable

/-- The identity check; it is refused where it cannot be made unless that
was acknowledged. -/
def checkIdentity (assurance : IdentityAssurance)
    (captured : Option FileIdentity) (planned : FileIdentity) : IdentityCheck :=
  match captured, assurance with
  | some identity, _ => if identity = planned then .passes else .differs
  | none, .acknowledgedUnavailable => .passes
  | none, .enforced => .unavailable

section

variable (crates : Crates) (key : PlanKey)

/-- The content is the approved one, with the evidence at the span: digest,
encoding, span and detector. -/
def approves (item : PlanItem) (bytes : Bytes) : Except ApplyError Bool :=
  if keyedDigest key bytes ≠ item.wholeFileDigest then .ok false
  else if !crates.validUtf8 bytes then .ok false
  else if verifyPlanItem item key bytes = .stale then .ok false
  else (pinnedEvidence crates item bytes).mapError .detectorUnavailable

def recordOf (item : PlanItem) (planDigest : Digest) (bytes : Bytes)
    (snapshotRef : String) (locator : Option Bytes) (now : Nat) : RecoveryRecord where
  planDigest := planDigest
  projectId := item.projectId
  path := item.path
  identity := item.identity
  snapshotDigest := keyedDigest key bytes
  snapshotRef := snapshotRef
  discovery := if locator.isSome then .discoverable else .opaquely
  locator := locator
  span := some item.span
  replacement := some item.replacement
  createdAt := now

/-- The vault side of an item, before the file is touched: snapshot,
locator, recovery record and journal. -/
def vaultSteps (item : PlanItem) (planDigest : Digest) (bytes : Bytes) : RemM (Option Bytes) := do
  let stored ← ask (.sink (.storeSnapshot item bytes))
  let snapshotRef ← orThrow .sink stored
  let committed ← ask (.sink (.commitLocator item snapshotRef))
  let locator ← orThrow .sink committed
  if locator.any fun external => !crates.isMarker external then
    throw (.sink "vault returned a locator that is not a valid marker")
  else do
    let now ← ask .now
    let recorded ← ask (.sink (.storeRecovery
      (recordOf key item planDigest bytes snapshotRef locator now)))
    orThrow .sink recorded
    let now ← ask .now
    let journalled ← ask (.sink (.appendJournal ⟨item.path, .vaultStored locator, now⟩))
    orThrow .sink journalled
    pure locator

def replaceStep (item : PlanItem) (planDigest : Digest) (target : Place)
    (permissions : PermissionSnapshot) (locator : Option Bytes) : RemM FileApplyStatus := do
  let current ← ask (.fs (.readLocked target))
  let current ← orThrow id current
  let approved ← orThrow id (approves crates key item current)
  if approved then do
    let replaced ← ask (.fs (.replaceAtomic target
      (replaceRange current item.span item.replacement) permissions))
    orThrow .io replaced
    let now ← ask .now
    let journalled ← ask (.sink (.appendJournal ⟨item.path, .fileReplaced, now⟩))
    match journalled with
    | .error e => pure (.failed s!"file replaced but journal append failed: {e}")
    | .ok () => do
      let audited ← ask (.sink (.audit .planExecute planDigest))
      match audited with
      | .error e => pure (.failed s!"file replaced but audit failed: {e}")
      | .ok () => pure (.applied locator)
  else pure .stale

def applyChecked (item : PlanItem) (planDigest : Digest) (mode : ApplyMode) (resume : ResumePoint)
    (target : Place) (permissions : PermissionSnapshot) : IdentityCheck → RemM FileApplyStatus
  | .differs => pure .stale
  | .unavailable => pure (.failed ("OS file identity check is unavailable "
      ++ "on this platform; commit refused because the caller did not "
      ++ "acknowledge IdentityAssurance::AcknowledgedUnavailable (ADR-0019 "
      ++ "§2 identity check)"))
  | .passes => do
    let bytes ← ask (.fs (.readLocked target))
    let bytes ← orThrow id bytes
    let approved ← orThrow id (approves crates key item bytes)
    if approved then
      match mode, resume with
      | .dryRun, _ => pure .dryRun
      | .commit, .fresh => do
        let locator ← vaultSteps crates key item planDigest bytes
        replaceStep crates key item planDigest target permissions locator
      | .commit, .vaultStored locator =>
        replaceStep crates key item planDigest target permissions locator
    else pure .stale

def applyItem (assurance : IdentityAssurance) (item : PlanItem)
    (planDigest : Digest) (mode : ApplyMode) (resume : ResumePoint) : RemM FileApplyStatus := do
  let target ← resolveTarget item.path
  let permissions ← ask (.fs (.permissions target))
  let permissions ← orThrow .io permissions
  let identity ← ask (.fs (.captureIdentity target))
  applyChecked crates key item planDigest mode resume target permissions
    (checkIdentity assurance identity item.identity)

-- ==== a plan

structure FileApplyResult where
  path : Path
  status : FileApplyStatus

structure ApplyOutcome where
  mode : ApplyMode
  results : List FileApplyResult

def orFailed (p : RemM FileApplyStatus) : RemM FileApplyStatus :=
  p.attempt.bind fun
    | .ok status => pure status
    | .error e => pure (.failed e.display)

def eachItem (apply : PlanItem → RemM FileApplyStatus) : List PlanItem → RemM (List FileApplyResult)
  | [] => pure []
  | item :: rest => do
    let status ← apply item
    let results ← eachItem apply rest
    pure (⟨item.path, status⟩ :: results)

def execute (plan : RewritePlan) (mode : ApplyMode)
    (assurance : IdentityAssurance) : RemM ApplyOutcome := do
  usableRoot
  let results ← eachItem (fun item => orFailed (applyItem crates key
    assurance item plan.planDigest mode .fresh)) plan.items
  pure ⟨mode, results⟩

def resumeItem (plan : RewritePlan) (journal : RewriteJournal)
    (assurance : IdentityAssurance) (item : PlanItem) : RemM FileApplyStatus :=
  match latestState journal item.path with
  | some .fileReplaced => pure .alreadyReplaced
  | some .rolledBack => pure (.skipped "rolled back")
  | some (.vaultStored locator) => orFailed (applyItem crates key assurance
      item plan.planDigest .commit (.vaultStored locator))
  | _ => orFailed (applyItem crates key assurance item plan.planDigest .commit .fresh)

def resume (plan : RewritePlan) (journal : RewriteJournal)
    (assurance : IdentityAssurance) : RemM ApplyOutcome := do
  if journal.planDigest ≠ plan.planDigest then throw .journalMismatch
  else do
    usableRoot
    let results ← eachItem (resumeItem crates key plan journal assurance) plan.items
    pure ⟨.commit, results⟩

end

end SovereignVault.Remediate
