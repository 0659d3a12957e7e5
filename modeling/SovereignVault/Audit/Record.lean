/-
`sv-audit`, the data: events, authenticated records, checkpoints.

A MAC is an ideal HMAC-SHA256 tag in its hex text form: the term of what
was authenticated, under which key and in which domain. Since a record
authenticates its predecessor's MAC, the MAC of a record IS the chain up
to it. Text that is canonical hex but no tag, and text that is not
canonical hex, have their own constructors.

`serde_json` is a parameter, `Codec`: a record reads back as itself and is
one non-empty line of valid UTF-8. The overflow checks of the source's
`u64` counters would need 2^64 records.
-/
import Mathlib.Data.List.AList
import Mathlib.Data.Countable.Basic
import Mathlib.Logic.Equiv.List
import Mathlib.Tactic.DeriveCountable
import SovereignVault.Crypto

namespace SovereignVault.Audit

-- ==== events

inductive AuditAction where
  | vaultInit | vaultUnlock | vaultUnlockRecovery | vaultLock
  | recoveryIssued | passphraseChanged | keyRotated
  | listContainers | listFiles | readFile | writeFile | deleteFile
  | createContainer | deleteContainer
  | agentCreate | agentList | agentRevoke | agentExport | agentImport
  | createTransitKey | listTransitKeys | encrypt | decrypt
  | createSigningKey | listSigningKeys | sign | verify
  | createBrokerSecret | listBrokerSecrets | broker
  | vaultInfo | scanRun | scanStore | scanReveal
  | planCreate | planApprove | planExecute | redactionRestore
  deriving DecidableEq

inductive AuditDecision where
  | attempted | allowed | denied | error
  deriving DecidableEq

inductive PresenceOutcome where
  | deviceOwnerAuthenticated | click
  deriving DecidableEq

inductive PresenceModality where
  | biometric | password | pin | unknown
  deriving DecidableEq

structure PresenceAudit where
  isProtected : Bool
  outcome : Option PresenceOutcome
  modality : Option PresenceModality
  operationId : Option String
  deriving DecidableEq

structure AuditEvent where
  timestamp : Nat
  action : AuditAction
  decision : AuditDecision
  transport : String
  container : Option String
  fileName : Option String
  mode : Option String
  byteSize : Option Nat
  detail : Option String
  error : Option String
  agentId : Option String
  presence : Option PresenceAudit
  deriving DecidableEq

-- ==== MACs

def FORMAT_VERSION : Nat := 2

inductive Mac where
  | genesis
  | record (key : MasterKey) (formatVersion sequence : Nat) (prevMac : Mac) (event : AuditEvent)
  | checkpoint (key : MasterKey) (formatVersion recordCount : Nat)
      (headMac : Mac) (activeSegment activeRecordCount : Nat) (activeStartPrevMac : Mac)
  | other (bytes : Vector UInt8 32)
  | malformed (text : String)
  deriving DecidableEq

def Mac.canonical : Mac → Bool
  | .malformed _ => false
  | _ => true

theorem Mac.record_ne (key : MasterKey) (version sequence : Nat)
    (prev : Mac) (event : AuditEvent) : Mac.record key version sequence prev event ≠ prev := by
  intro h
  have hsize := congrArg sizeOf h
  simp only [Mac.record.sizeOf_spec] at hsize
  omega

-- ==== errors

inductive AuditError where
  | io (detail : String)
  | notInitialized (detail : String)
  | alreadyExists (detail : String)
  | authentication (detail : String)
  | integrity (detail : String)

def AuditError.toString : AuditError → String
  | .io detail => s!"I/O: {detail}"
  | .notInitialized detail => s!"audit state is not initialized: {detail}"
  | .alreadyExists detail => s!"audit state already exists: {detail}"
  | .authentication detail => s!"audit authentication failed: {detail}"
  | .integrity detail => s!"audit integrity check failed: {detail}"

def validateMacString (value : Mac) (label : String) : Except AuditError Unit :=
  if value.canonical then .ok ()
  else .error (.integrity s!"{label} is not canonical lowercase hex")

theorem ok_bind {ε α β : Type} (a : α) (f : α → Except ε β) : (Except.ok a >>= f) = f a := rfl

-- ==== records

structure AuditRecord where
  formatVersion : Nat
  sequence : Nat
  prevMac : Mac
  event : AuditEvent
  mac : Mac

def signRecord (sequence : Nat) (prevMac : Mac) (event : AuditEvent)
    (key : MasterKey) : AuditRecord where
  formatVersion := FORMAT_VERSION
  sequence := sequence
  prevMac := prevMac
  event := event
  mac := .record key FORMAT_VERSION sequence prevMac event

def verifyRecord (record : AuditRecord) (expectedSequence : Nat)
    (expectedPrev : Mac) (key : MasterKey) : Except String Unit :=
  if record.formatVersion ≠ FORMAT_VERSION then
    .error s!"unsupported record format version {record.formatVersion}"
  else if record.sequence ≠ expectedSequence then
    .error (s!"record sequence mismatch: expected {expectedSequence}, "
      ++ s!"found {record.sequence}")
  else if record.prevMac ≠ expectedPrev then
    .error s!"previous MAC mismatch at sequence {expectedSequence}"
  else if !record.prevMac.canonical then
    .error s!"invalid previous MAC encoding at sequence {expectedSequence}"
  else if record.mac = .record key record.formatVersion record.sequence
      record.prevMac record.event then
    .ok ()
  else
    .error s!"record MAC mismatch at sequence {expectedSequence}"

theorem verifyRecord_ok_iff {record : AuditRecord} {sequence : Nat} {prev : Mac}
    {key : MasterKey} (hprev : prev.canonical) : verifyRecord record sequence prev key = .ok ()
      ↔ record = signRecord sequence prev record.event key := by
  obtain ⟨version, seq, prevMac, event, mac⟩ := record
  unfold verifyRecord signRecord
  simp only [AuditRecord.mk.injEq, true_and]
  constructor
  · intro h
    split at h
    · cases h
    split at h
    · cases h
    split at h
    · cases h
    split at h
    · cases h
    split at h
    · next hv hs hp _ hm =>
      simp only [ne_eq, not_not] at hv hs hp
      subst hv hs hp
      exact ⟨rfl, rfl, rfl, hm⟩
    · cases h
  · rintro ⟨rfl, rfl, rfl, rfl⟩
    simp [hprev]

-- ==== checkpoints

structure Checkpoint where
  formatVersion : Nat
  recordCount : Nat
  headMac : Mac
  activeSegment : Nat
  activeRecordCount : Nat
  activeStartPrevMac : Mac
  mac : Mac

namespace Checkpoint

def signed (recordCount : Nat) (headMac : Mac)
    (activeSegment activeRecordCount : Nat) (activeStartPrevMac : Mac)
    (key : MasterKey) : Checkpoint where
  formatVersion := FORMAT_VERSION
  recordCount := recordCount
  headMac := headMac
  activeSegment := activeSegment
  activeRecordCount := activeRecordCount
  activeStartPrevMac := activeStartPrevMac
  mac := .checkpoint key FORMAT_VERSION recordCount headMac activeSegment
    activeRecordCount activeStartPrevMac

def genesis (key : MasterKey) : Checkpoint :=
  signed 0 .genesis 0 0 .genesis key

def verify (self : Checkpoint) (key : MasterKey) : Except AuditError Unit := do
  if self.formatVersion ≠ FORMAT_VERSION then
    throw (.integrity
      s!"unsupported checkpoint format version {self.formatVersion}")
  validateMacString self.headMac "checkpoint head"
  validateMacString self.activeStartPrevMac "active segment starting MAC"
  if self.mac ≠ .checkpoint key self.formatVersion self.recordCount
      self.headMac self.activeSegment self.activeRecordCount
      self.activeStartPrevMac then
    throw (.authentication "checkpoint MAC does not verify")
  if self.activeRecordCount > self.recordCount then
    throw (.integrity "active record count exceeds total record count")

theorem verify_signed {count segment active : Nat}
    {head start : Mac} (key : MasterKey) (hhead : head.canonical) (hstart : start.canonical)
    (hle : active ≤ count) : (signed count head segment active start key).verify key = .ok () := by
  have hle : ¬ active > count := by omega
  simp [verify, signed, validateMacString, hhead, hstart, hle]
  rfl

end Checkpoint

-- ==== the codec

def NEWLINE : UInt8 := 10

def CARRIAGE_RETURN : UInt8 := 13

def validUtf8 (raw : Bytes) : Bool := (ByteArray.mk raw.toArray).validateUTF8

theorem validUtf8_append {a b : Bytes} (ha : validUtf8 a)
    (hb : validUtf8 b) : validUtf8 (a ++ b) := by
  unfold validUtf8 at *
  rw [ByteArray.validateUTF8_eq_true_iff] at *
  have happ : ByteArray.mk (a ++ b).toArray = ByteArray.mk a.toArray ++ ByteArray.mk b.toArray := by
    apply ByteArray.ext
    simp
  rw [happ]
  exact ha.append hb

structure Codec where
  encodeRecord : AuditRecord → Bytes
  decodeRecord : Bytes → Option AuditRecord
  /-- The line is JSON of some other shape. -/
  isJson : Bytes → Bool
  /-- The keyed digest of a redacted field. -/
  hmacValue : MasterKey → String → String
  decode_encode : ∀ r, decodeRecord (encodeRecord r) = some r
  encode_ne_nil : ∀ r, encodeRecord r ≠ []
  newline_notMem : ∀ r, NEWLINE ∉ encodeRecord r
  no_trailing_cr : ∀ r, (encodeRecord r).getLast? ≠ some CARRIAGE_RETURN
  encode_utf8 : ∀ r, validUtf8 (encodeRecord r)

def Codec.line (codec : Codec) (r : AuditRecord) : Bytes :=
  codec.encodeRecord r ++ [NEWLINE]

def Codec.redact (codec : Codec) (key : MasterKey) (event : AuditEvent) : AuditEvent :=
  { event with
    container := event.container.map (codec.hmacValue key)
    fileName := event.fileName.map (codec.hmacValue key) }

-- ==== a codec exists

section Existence

instance countableChar : Countable Char :=
  Function.Injective.countable (f := Char.toNat) fun _ _ h => Char.toNat_inj.1 h

instance countableString : Countable String :=
  Function.Injective.countable (f := String.toList) fun _ _ h => String.toList_inj.1 h

instance countableUInt8 : Countable UInt8 :=
  Function.Injective.countable (f := UInt8.toNat) fun _ _ h => UInt8.toNat_inj.1 h

instance countableVector (n : Nat) : Countable (Vector UInt8 n) :=
  Function.Injective.countable (f := Vector.toList) fun _ _ h => Vector.toList_inj.1 h

instance : Countable AuditAction :=
  Function.Injective.countable (f := AuditAction.ctorIdx) fun a b h => by
    rw [← AuditAction.ofNat_ctorIdx a, h, AuditAction.ofNat_ctorIdx]

deriving instance Countable for MasterKey

deriving instance Countable for AuditDecision

deriving instance Countable for PresenceOutcome

deriving instance Countable for PresenceModality

deriving instance Countable for PresenceAudit

deriving instance Countable for AuditEvent

deriving instance Countable for Mac

deriving instance Countable for AuditRecord

def ONE : UInt8 := 49

theorem validUtf8_ones (n : Nat) : validUtf8 (List.replicate n ONE) := by
  induction n with
  | zero => decide
  | succ n ih =>
    rw [List.replicate_succ]
    exact validUtf8_append (a := [ONE]) (by decide) ih

/-- Records numbered and written in unary: the laws of a codec can be
met. -/
noncomputable def unaryCodec : Codec :=
  let _ : Encodable AuditRecord := Encodable.ofCountable AuditRecord
  { encodeRecord := fun r => List.replicate (Encodable.encode r + 1) ONE
    decodeRecord := fun raw => Encodable.decode (raw.length - 1)
    isJson := fun _ => false
    hmacValue := fun _ value => value
    decode_encode := by
      intro r
      rw [List.length_replicate, Nat.add_sub_cancel, Encodable.encodek]
    encode_ne_nil := fun _ => by simp
    newline_notMem := by
      intro r h
      have := List.eq_of_mem_replicate h
      revert this
      decide
    no_trailing_cr := by
      intro r
      rw [List.replicate_succ', List.getLast?_concat]
      decide
    encode_utf8 := fun _ => validUtf8_ones _ }

end Existence

end SovereignVault.Audit
