/-
`sv-audit`, the log: scanning, verification, recovery, append, rotation.

The directory holds the active segment as bytes, the archives under
their numbers, and the checkpoint, which is parsed or is not. Replacing a
file is a rename and a directory sync; an append is one write and one
sync. The cross-instance lock, the mutex and the permission bits are left
out. A path is shown relative to the root.
-/
import Mathlib.Data.Finset.Sort
import SovereignVault.Audit.Record
import SovereignVault.Crash.Logic

namespace SovereignVault.Audit

open Crash Prog

-- ==== the directory

inductive CheckpointFile where
  | parsed (c : Checkpoint)
  | malformed (detail : String)

structure Disk where
  active : Option Bytes
  archives : AList fun _ : Nat => Bytes
  /-- Files named like an archive whose number does not parse. -/
  strays : List String
  checkpoint : Option CheckpointFile

abbrev AuditM := Prog Disk AuditError

def AUDIT_FILE : String := "audit.jsonl"

def CHECKPOINT_FILE : String := "audit.head.json"

def archiveName (segment : Nat) : String :=
  let digits := toString segment
  "audit-" ++ "".pushn '0' (20 - digits.length) ++ digits ++ ".jsonl"

inductive Segment where
  | archive (n : Nat)
  | active

def Segment.path : Segment → String
  | .archive n => archiveName n
  | .active => AUDIT_FILE

def Disk.file (d : Disk) : Segment → Option Bytes
  | .archive n => d.archives.lookup n
  | .active => d.active

def showSet (s : Finset Nat) : String :=
  "\x7b" ++ String.intercalate ", " ((s.sort (· ≤ ·)).map toString) ++ "\x7d"

def archiveSegments (d : Disk) : Except AuditError (Finset Nat) :=
  match d.strays with
  | name :: _ => .error (.integrity s!"unrecognized audit archive name: {name}")
  | [] => .ok d.archives.keys.toFinset

/-- `first_audit_artifact`; among the archives any may be the first. -/
def firstAuditArtifact (d : Disk) : Option String :=
  if d.checkpoint.isSome then
    some CHECKPOINT_FILE
  else if d.active.isSome then
    some AUDIT_FILE
  else
    (d.archives.keys.map archiveName ++ d.strays).head?

-- ==== the scanner

structure VerifyReport where
  ok : Bool
  entries : Nat
  legacyEntries : Nat
  firstBroken : Option Nat
  reason : Option String

def VerifyReport.success (entries : Nat) : VerifyReport :=
  ⟨true, entries, 0, none, none⟩

def VerifyReport.failure (entries legacyEntries : Nat) (reason : String) : VerifyReport :=
  ⟨false, entries, legacyEntries, some entries, some reason⟩

inductive ScanResult where
  | valid (entries : Nat) (headMac : Mac)
  | invalid (report : VerifyReport)

def splitLines : Bytes → List Bytes
  | [] => []
  | b :: rest =>
    if b = NEWLINE then
      [] :: splitLines rest
    else
      match splitLines rest with
      | [] => [[b]]
      | l :: ls => (b :: l) :: ls

def stripCr (line : Bytes) : Bytes :=
  if line.getLast? = some CARRIAGE_RETURN then line.dropLast else line

def lines (raw : Bytes) : List Bytes := (splitLines raw).map stripCr

variable (codec : Codec) (key : MasterKey)

def scanLine (line : Bytes) (sequence : Nat) (prev : Mac) : Except VerifyReport Mac :=
  if line = [] then
    .error (.failure sequence 0 "blank audit record")
  else
    match codec.decodeRecord line with
    | none =>
      if codec.isJson line then
        .error (.failure sequence 1
          "legacy or unauthenticated audit record is not accepted")
      else
        .error (.failure sequence 0 "malformed audit record")
    | some record =>
      match verifyRecord record sequence prev key with
      | .error reason => .error (.failure sequence 0 reason)
      | .ok () => .ok record.mac

def scanLines : List Bytes → Nat → Mac → ScanResult
  | [], sequence, prev => .valid sequence prev
  | line :: rest, sequence, prev =>
    match scanLine codec key line sequence prev with
    | .error report => .invalid report
    | .ok mac => scanLines rest (sequence + 1) mac

def scanSegment (path : String) (raw : Bytes) (sequence : Nat) (prev : Mac) : ScanResult :=
  if raw ≠ [] ∧ raw.getLast? ≠ some NEWLINE then
    .invalid (.failure sequence 0
      s!"segment has an incomplete final record: {path}")
  else if validUtf8 raw then
    scanLines codec key (lines raw) sequence prev
  else
    .invalid (.failure sequence 0 s!"segment is not valid UTF-8: {path}")

def ensureRegularFile (d : Disk) (segment : Segment) (label : String) : Except AuditError Unit :=
  if (d.file segment).isSome then .ok ()
  else .error (.integrity s!"{label} is missing: {segment.path}")

def scanPathsFrom (d : Disk) : List Segment → Nat → Mac → Except AuditError ScanResult
  | [], sequence, prev => .ok (.valid sequence prev)
  | segment :: rest, sequence, prev =>
    match d.file segment with
    | none => .error (.integrity s!"audit segment is missing: {segment.path}")
    | some raw =>
      match scanSegment codec key segment.path raw sequence prev with
      | .invalid report => .ok (.invalid report)
      | .valid sequence' prev' => scanPathsFrom d rest sequence' prev'

def scanPaths (d : Disk) (segments : List Segment) : Except AuditError ScanResult :=
  scanPathsFrom codec key d segments 0 .genesis

-- ==== verification

def startSequence (checkpoint : Checkpoint) : Except AuditError Nat :=
  if checkpoint.activeRecordCount ≤ checkpoint.recordCount then
    .ok (checkpoint.recordCount - checkpoint.activeRecordCount)
  else
    .error (.integrity "invalid active record count")

def archivesBelow (n : Nat) : List Segment :=
  (List.range n).map Segment.archive

def loadCheckpoint (d : Disk) : Except AuditError Checkpoint :=
  match d.checkpoint with
  | none => .error (.notInitialized (if (firstAuditArtifact d).isSome then
        "checkpoint is missing while audit artifacts exist"
      else "checkpoint is missing"))
  | some (.malformed detail) => .error (.integrity s!"malformed audit checkpoint: {detail}")
  | some (.parsed checkpoint) => do
    checkpoint.verify key
    pure checkpoint

def verifyActiveFrom (d : Disk) (checkpoint : Checkpoint) (entries : Nat)
    (headMac : Mac) : Except AuditError VerifyReport := do
  match ← scanPathsFrom codec key d [.active] entries headMac with
  | .invalid report => pure report
  | .valid entries headMac =>
    if entries ≠ checkpoint.recordCount then
      pure (.failure entries 0 (s!"checkpoint record count mismatch: expected "
          ++ s!"{checkpoint.recordCount}, found {entries}"))
    else if headMac ≠ checkpoint.headMac then
      pure (.failure entries 0 "checkpoint head MAC mismatch")
    else
      pure (.success entries)

def verifyAgainst (d : Disk) (checkpoint : Checkpoint) : Except AuditError VerifyReport :=
  match archiveSegments d with
  | .error error => .ok (.failure 0 0 error.toString)
  | .ok archives => do
    let expected := Finset.range checkpoint.activeSegment
    if archives ≠ expected then
      pure (.failure 0 0
        (s!"archive set mismatch: expected {showSet expected}, "
          ++ s!"found {showSet archives}"))
    else
      match ensureRegularFile d .active "active audit log" with
      | .error error => pure (.failure 0 0 error.toString)
      | .ok () =>
        match ← scanPaths codec key d
            (archivesBelow checkpoint.activeSegment) with
        | .invalid report => pure report
        | .valid entries headMac =>
          let start ← startSequence checkpoint
          if entries ≠ start ∨ headMac ≠ checkpoint.activeStartPrevMac then
            pure (.failure entries 0
              "active segment boundary does not match checkpoint")
          else
            verifyActiveFrom codec key d checkpoint entries headMac

def verifyLocked (d : Disk) : Except AuditError VerifyReport := do
  let checkpoint ← loadCheckpoint key d
  verifyAgainst codec key d checkpoint

def verifyActiveAgainst (d : Disk) (checkpoint : Checkpoint) : Except AuditError VerifyReport :=
  match ensureRegularFile d .active "active audit log" with
  | .error error => .ok (.failure 0 0 error.toString)
  | .ok () => do
    let start ← startSequence checkpoint
    match ← scanPathsFrom codec key d [.active] start
        checkpoint.activeStartPrevMac with
    | .invalid report => pure report
    | .valid entries headMac =>
      if entries ≠ checkpoint.recordCount ∨ headMac ≠ checkpoint.headMac then
        pure (.failure entries 0 "active segment does not match checkpoint")
      else
        pure (.success checkpoint.recordCount)

def verifyCommittedArchives (d : Disk) (checkpoint : Checkpoint) :
    Except AuditError VerifyReport := do
  let archives ← archiveSegments d
  let expected := Finset.range checkpoint.activeSegment
  let interruptedRotation := Finset.range (checkpoint.activeSegment + 1)
  if archives ≠ expected ∧ archives ≠ interruptedRotation then
    pure (.failure 0 0
      (s!"committed archive set mismatch: expected {showSet expected}, "
        ++ s!"found {showSet archives}"))
  else
    match ← scanPaths codec key d (archivesBelow checkpoint.activeSegment) with
    | .invalid report => pure report
    | .valid entries headMac =>
      let start ← startSequence checkpoint
      if entries ≠ start ∨ headMac ≠ checkpoint.activeStartPrevMac then
        pure (.failure entries 0
          "committed archive boundary does not match checkpoint")
      else
        pure (.success entries)

-- ==== writing files

def reading {α : Type} (f : Disk → Except AuditError α) : AuditM α := do
  let d ← get
  ret (f d)

def atomicReplace (f : Disk → Disk) : AuditM Unit := do
  modify f
  sync

def writeCheckpoint (checkpoint : Checkpoint) : AuditM Unit :=
  atomicReplace fun d => { d with checkpoint := some (.parsed checkpoint) }

def requireOk (report : VerifyReport) (fallback : String) : Except AuditError Unit :=
  if report.ok then .ok ()
  else .error (.integrity (report.reason.getD fallback))

-- ==== recovery

inductive ActiveVerdict where
  | committed
  | successor (entries : Nat) (headMac : Mac)
  | other

def activeVerdict (d : Disk) (checkpoint : Checkpoint) (start : Nat) :
    Except AuditError ActiveVerdict := do
  match ← scanPathsFrom codec key d [.active] start
      checkpoint.activeStartPrevMac with
  | .invalid _ => pure .other
  | .valid entries headMac =>
    if entries = checkpoint.recordCount ∧ headMac = checkpoint.headMac then
      pure .committed
    else if entries = checkpoint.recordCount + 1
        ∧ headMac ≠ checkpoint.headMac then
      pure (.successor entries headMac)
    else
      pure .other

/-- The archives, the interrupted rotation's included, hold exactly what
the checkpoint commits. -/
def rotationInterrupted (d : Disk) (checkpoint : Checkpoint) : Except AuditError Bool := do
  let archives ← archiveSegments d
  if archives ≠ Finset.range (checkpoint.activeSegment + 1) then
    pure false
  else
    match ← scanPaths codec key d
        (archivesBelow (checkpoint.activeSegment + 1)) with
    | .invalid _ => pure false
    | .valid entries headMac =>
      pure (entries = checkpoint.recordCount ∧ headMac = checkpoint.headMac)

/-- The second half of `recover_interrupted_commit`: an interrupted
rotation is finished. -/
def recoverRotation (checkpoint : Checkpoint) : AuditM Bool := do
  if ← reading fun d => rotationInterrupted codec key d checkpoint then
    let active ← reading fun d => .ok d.active
    match active with
    | some (_ :: _) => pure false
    | some [] => finish
    | none =>
      atomicReplace fun d => { d with active := some [] }
      finish
  else
    pure false
where
  /-- The checkpoint of the new, empty active segment; the archives have
  just been scanned to `headMac`. -/
  finish : AuditM Bool := do
    writeCheckpoint (.signed checkpoint.recordCount checkpoint.headMac
      (checkpoint.activeSegment + 1) 0 checkpoint.headMac key)
    pure true

def commitActive (checkpoint : Checkpoint) : ActiveVerdict → AuditM Bool
  | .committed => pure true
  | .successor entries headMac => do
    writeCheckpoint (.signed entries headMac checkpoint.activeSegment
      (checkpoint.activeRecordCount + 1) checkpoint.activeStartPrevMac key)
    pure true
  | .other => recoverRotation codec key checkpoint

/-- `recover_interrupted_commit`. A failing look at the active file counts
as no active file. -/
def recoverInterruptedCommit : AuditM Bool := do
  let checkpoint ← reading (loadCheckpoint key)
  let start ← ret (startSequence checkpoint)
  let present ← (reading fun d => ensureRegularFile d .active "active audit log").attempt
  let verdict ← match present with
    | .error _ => pure .other
    | .ok () => reading fun d => activeVerdict codec key d checkpoint start
  commitActive codec key checkpoint verdict

-- ==== create, open

structure AuditLog where
  maxBytes : Nat
  key : MasterKey

def Disk.empty : Disk := ⟨none, ∅, [], none⟩

def create (maxBytes : Nat) : AuditM AuditLog := do
  reading fun d =>
    match archiveSegments d with
    | .error error => .error error
    | .ok archives =>
      if archives ≠ ∅ ∨ d.checkpoint.isSome then
        .error (.alreadyExists ((firstAuditArtifact d).getD "."))
      else
        .ok ()
  let active ← reading fun d => .ok d.active
  match active with
  | some (_ :: _) => throw (.alreadyExists AUDIT_FILE)
  | some [] => finish
  | none =>
    atomicReplace fun d => { d with active := some [] }
    finish
where
  finish : AuditM AuditLog := do
    writeCheckpoint (.genesis key)
    pure ⟨maxBytes, key⟩

def openLog (maxBytes : Nat) : AuditM AuditLog := do
  let checkpoint ← reading (loadCheckpoint key)
  let archives ← reading fun d => verifyCommittedArchives codec key d checkpoint
  ret (requireOk archives "archive verification failed")
  let _ ← recoverInterruptedCommit codec key
  let report ← reading (verifyLocked codec key)
  ret (requireOk report "verification failed")
  pure ⟨maxBytes, key⟩

-- ==== appending

def MAX_ACTIVE_VERIFY_BYTES : Nat := 256 * 1024

def Disk.archiveActive (d : Disk) (n : Nat) : Disk :=
  match d.active with
  | some raw => { d with active := none, archives := d.archives.insert n raw }
  | none => d

def rotate (checkpoint : Checkpoint) : AuditM Checkpoint := do
  reading fun d =>
    if (d.archives.lookup checkpoint.activeSegment).isSome then
      .error (.integrity (s!"rotation destination already exists: "
        ++ archiveName checkpoint.activeSegment))
    else
      ensureRegularFile d .active "active audit log"
  modify fun d => d.archiveActive checkpoint.activeSegment
  sync
  atomicReplace fun d => { d with active := some [] }
  let rotated := Checkpoint.signed checkpoint.recordCount checkpoint.headMac
    (checkpoint.activeSegment + 1) 0 checkpoint.headMac key
  writeCheckpoint rotated
  pure rotated

def Disk.append (d : Disk) (bytes : Bytes) : Disk :=
  { d with active := d.active.map fun raw => raw ++ bytes }

def appendRecord (checkpoint : Checkpoint) (record : AuditRecord) : AuditM Unit := do
  reading fun d =>
    if d.active.isSome then .ok ()
    else .error (.io "No such file or directory")
  modify fun d => d.append (codec.line record)
  sync
  writeCheckpoint (.signed (checkpoint.recordCount + 1) record.mac
    checkpoint.activeSegment (checkpoint.activeRecordCount + 1) checkpoint.activeStartPrevMac key)

def ensureVerified (activeVerified : Bool) (checkpoint : Checkpoint) : AuditM Unit :=
  if activeVerified then
    pure ()
  else do
    let report ← reading fun d => verifyActiveAgainst codec key d checkpoint
    ret (requireOk report "verification failed")

/-- `record` from the verified checkpoint on: sign, rotate if the record
does not fit any more, append. -/
def recordAfter (maxBytes : Nat) (checkpoint : Checkpoint) (event : AuditEvent) : AuditM Unit :=
  let record := signRecord checkpoint.recordCount checkpoint.headMac (codec.redact key event) key
  let line := codec.line record
  if line.length > MAX_ACTIVE_VERIFY_BYTES then
    throw (.integrity (s!"audit record exceeds the "
      ++ s!"{MAX_ACTIVE_VERIFY_BYTES} byte limit"))
  else do
    let activeLen ← reading fun d =>
      match d.active with
      | some raw => .ok raw.length
      | none => .error (.io "No such file or directory")
    let activeLimit := min maxBytes MAX_ACTIVE_VERIFY_BYTES
    if activeLen > 0 ∧ activeLen + line.length > activeLimit then
      let rotated ← rotate key checkpoint
      appendRecord codec key rotated (signRecord rotated.recordCount
        rotated.headMac record.event key)
    else
      appendRecord codec key checkpoint record

def record (maxBytes : Nat) (event : AuditEvent) : AuditM Unit := do
  let activeVerified ← recoverInterruptedCommit codec key
  let checkpoint ← reading (loadCheckpoint key)
  ensureVerified codec key activeVerified checkpoint
  recordAfter codec key maxBytes checkpoint event

def verifyChain : AuditM VerifyReport :=
  reading (verifyLocked codec key)

end SovereignVault.Audit
