/-
`sv-remediate/src/managed.rs`: whole-file ingestion.

A wholly sensitive file goes to the vault, a manifest is left at another
path, and once the caller's startup check has passed the file is removed.
-/
import SovereignVault.Remediate.Apply

namespace SovereignVault.Remediate

open Dialogue Talk List

-- ==== eligibility

inductive Eligibility where
  | whollySensitive
  | partlySensitive (reason : String)

def fileName (path : Path) : Option String :=
  match path.getLast? with
  | some (.normal segment) => some segment
  | _ => none

def endsWith (text ending : String) : Bool :=
  ending.toList.isSuffixOf text.toList

def startsWith (text start : String) : Bool :=
  start.toList.isPrefixOf text.toList

structure ManagedManifest where
  manifestVersion : Nat
  original : String
  adapter : String
  projectId : String
  snapshotRef : String
  launchHint : String
  createdAt : Nat

/-- What the standard library and JSON make of texts here. -/
structure Texts where
  toLowercase : String → String
  toStringLossy : Path → String
  toVecPretty : ManagedManifest → Except String Bytes

section

variable (texts : Texts)

def whollyNamed (lower : String) : Bool :=
  lower = ".env"
    || [".pem", ".key", ".p12", ".pfx"].any (endsWith lower)
    || ["id_rsa", "id_ed25519", "id_ecdsa"].contains lower
    || startsWith lower "service-account" && endsWith lower ".json"

def refusalHint (lower : String) : String :=
  if ["yml", "yaml", "toml", "json", "py", "xml", "ini", "conf",
      "cfg"].any fun ext => endsWith lower ("." ++ ext) then
    "a configuration file whose legitimate content must stay in place; "
  else if startsWith lower ".env." then
    "an env template or example, not live material; "
  else ""

def checkEligibility (path : Path) : Eligibility :=
  match fileName path with
  | none => .partlySensitive "path has no file name"
  | some name =>
    let lower := texts.toLowercase name
    if whollyNamed lower then .whollySensitive
    else .partlySensitive (s!"'{name}' is not on the wholly-sensitive "
      ++ s!"allowlist: {refusalHint lower}partly-sensitive files stay "
      ++ "in place and route through span redaction (ADR-0020 §1)")

-- ==== plans

inductive SharedBinding where
  | independent
  | shared (bindingId : String)
  deriving DecidableEq

structure ManagedFilePlan where
  projectId : String
  path : Path
  identity : FileIdentity
  permissions : PermissionSnapshot
  adapter : ConsumerAdapter
  manifestPath : Path
  snapshotDigest : Digest
  binding : SharedBinding
  deriving DecidableEq

def ManagedFilePlan.build (projectId : String) (path : Path)
    (adapter : ConsumerAdapter) (manifestPath : Path)
    (binding : SharedBinding) (key : PlanKey) : RemM ManagedFilePlan := do
  match checkEligibility texts path with
  | .partlySensitive reason => throw (.ineligible reason)
  | .whollySensitive => do
    let normal ← orThrow .ofPlan (normalizeRelative path)
    let manifest ← orThrow .ofPlan (normalizeRelative manifestPath)
    if normal = manifest then throw .manifestConsumed
    else do
      let target ← resolveTarget normal
      let permissions ← ask (.fs (.permissions target))
      let permissions ← orThrow .io permissions
      let bytes ← ask (.fs (.read target))
      let bytes ← orThrow .io bytes
      let identity ← ask (.fs (.captureIdentity target))
      pure ⟨projectId, normal, identity.getD (.windows 0 0), permissions,
        adapter, manifest, keyedDigest key bytes, binding⟩

-- ==== ingestion

inductive ManagedIngestStatus where
  | ingested (manifest : Path)
  | startupCheckFailed (reason : String)
  | ineligible (reason : String)
  | failed (reason : String)

def resolveNewFrom : Place → Path → RemM Place
  | probe, [] => pure probe
  | probe, .normal segment :: rest => do
    let kind ← ask (.fs (.symlinkMetadata (probe ++ [segment])))
    match kind with
    | .ok .symlink => throw .symlinkRejected
    | _ => resolveNewFrom (probe ++ [segment]) rest
  | _, _ :: _ => throw .pathEscapesRoot

def resolveTargetAfterCreate (relative : Path) : RemM Place :=
  resolveNewFrom [] relative

def launchHint : ConsumerAdapter → String
  | .envInjection => "launch via the vault launch adapter; material is "
      ++ "injected as environment variables"
  | .tempFile => "launch via the vault launch adapter; material is "
      ++ "materialized to a restricted temp path"

def managedRecord (plan : ManagedFilePlan) (snapshotRef : String) (now : Nat) : RecoveryRecord where
  planDigest := plan.snapshotDigest
  projectId := plan.projectId
  path := plan.path
  identity := plan.identity
  snapshotDigest := plan.snapshotDigest
  snapshotRef := snapshotRef
  discovery := .opaquely
  locator := none
  span := none
  replacement := none
  createdAt := now

def manifestOf (plan : ManagedFilePlan) (snapshotRef : String) (now : Nat) : ManagedManifest where
  manifestVersion := 1
  original := texts.toStringLossy plan.path
  adapter := plan.adapter.asStr
  projectId := plan.projectId
  snapshotRef := snapshotRef
  launchHint := launchHint plan.adapter
  createdAt := now

def vaultManaged (plan : ManagedFilePlan) (bytes : Bytes) : RemM String := do
  let stored ← ask (.sink (.storeManagedSnapshot plan.projectId plan.path bytes))
  let snapshotRef ← orThrow .sink stored
  let now ← ask .now
  let recorded ← ask (.sink (.storeRecovery (managedRecord plan snapshotRef now)))
  orThrow .sink recorded
  let now ← ask .now
  let journalled ← ask (.sink (.appendJournal ⟨plan.path, .vaultStored none, now⟩))
  orThrow .sink journalled
  pure snapshotRef

def writeManifest (plan : ManagedFilePlan) (snapshotRef : String) : RemM Place := do
  let manifestTarget ← resolveTargetAfterCreate plan.manifestPath
  let created ← ask (.fs (.createDirAll manifestTarget.dropLast))
  orThrow .io created
  let now ← ask .now
  let encoded ← orThrow .serialization (texts.toVecPretty (manifestOf texts plan snapshotRef now))
  let replaced ← ask (.fs (.replaceAtomic manifestTarget encoded .restricted))
  orThrow .io replaced
  pure manifestTarget

def removeStep (plan : ManagedFilePlan) (target manifestTarget : Place) :
    RemM ManagedIngestStatus := do
  let checked ← ask (.sink (.startupCheck plan.adapter plan.manifestPath plan.path))
  match checked with
  | .error e => do
    let _ ← ask (.fs (.removeFile manifestTarget))
    pure (.startupCheckFailed e)
  | .ok () => do
    let removed ← ask (.fs (.removeFile target))
    match removed with
    | .error e => pure (.failed
        s!"the startup check passed but removal failed: {e}")
    | .ok () => do
      let now ← ask .now
      let journalled ← ask (.sink (.appendJournal ⟨plan.path, .fileReplaced, now⟩))
      orThrow .sink journalled
      let audited ← ask (.sink (.audit .planExecute plan.snapshotDigest))
      orThrow .sink audited
      pure (.ingested plan.manifestPath)

def ingestChecked (plan : ManagedFilePlan) (key : PlanKey)
    (target : Place) : IdentityCheck → RemM ManagedIngestStatus
  | .differs => pure (.failed "file identity no longer matches the plan")
  | .unavailable => pure (.failed ("OS file identity check is "
      ++ "unavailable on this platform;                          "
      ++ "ingestion refused because the caller did not acknowledge"
      ++ "                          "
      ++ "IdentityAssurance::AcknowledgedUnavailable (ADR-0019 §2"
      ++ "                          identity check)"))
  | .passes => do
    let bytes ← ask (.fs (.read target))
    let bytes ← orThrow .io bytes
    if keyedDigest key bytes ≠ plan.snapshotDigest then
      pure (.failed "file content changed since the plan was built")
    else do
      let snapshotRef ← vaultManaged plan bytes
      let manifestTarget ← writeManifest texts plan snapshotRef
      removeStep plan target manifestTarget

def ingestManagedFile (plan : ManagedFilePlan) (key : PlanKey)
    (assurance : IdentityAssurance) : RemM ManagedIngestStatus :=
  match checkEligibility texts plan.path with
  | .partlySensitive reason => pure (.ineligible reason)
  | .whollySensitive => do
    usableRoot
    let target ← resolveTarget plan.path
    let identity ← ask (.fs (.captureIdentity target))
    ingestChecked texts plan key target (checkIdentity assurance identity plan.identity)

end

-- ==== authorization

abbrev DigestBytes := { bytes : Bytes // bytes.length = 32 }

def hexDigit (n : Nat) : Char :=
  Char.ofNat (if n < 10 then '0'.toNat + n else 'a'.toNat + (n - 10))

def hexEncode (bytes : Bytes) : List Char :=
  bytes.flatMap fun c => [hexDigit (c.toNat / 16), hexDigit (c.toNat % 16)]

def toHex (digest : DigestBytes) : String := .ofList (hexEncode digest)

structure AuthorizationRecord where
  resourceId : String
  projectId : String
  contentDigest : DigestBytes
  bindingId : Option String

def authorizationRecord (projectId : String) (contentDigest : DigestBytes) :
    SharedBinding → AuthorizationRecord
  | .independent => ⟨projectId ++ ":" ++ toHex contentDigest, projectId, contentDigest, none⟩
  | .shared bindingId => ⟨"shared:" ++ bindingId, projectId, contentDigest, some bindingId⟩

/-- Records of one resource are of one project and content, or of one
binding. -/
def AuthorizationRecord.Apart (r r' : AuthorizationRecord) : Prop :=
  r.resourceId = r'.resourceId →
    (r.bindingId = none ∧ r'.bindingId = none ∧ r.projectId = r'.projectId
      ∧ r.contentDigest = r'.contentDigest)
    ∨ ∃ bindingId, r.bindingId = some bindingId ∧ r'.bindingId = some bindingId

def Reserved (projectId : String) : Prop :=
  "shared:".toList <+: (projectId ++ ":").toList

theorem hexDigit_injective {m n : Nat} (hm : m < 16) (hn : n < 16)
    (h : hexDigit m = hexDigit n) : m = n := by
  have hall : ∀ m < 16, ∀ n < 16, hexDigit m = hexDigit n → m = n := by decide
  exact hall m hm n hn h

theorem hexDigit_ne_colon {n : Nat} (hn : n < 16) : hexDigit n ≠ ':' := by
  revert n
  decide

theorem hexEncode_injective {b b' : Bytes} (h : hexEncode b = hexEncode b') : b = b' := by
  induction b generalizing b' with
  | nil =>
    cases b' with
    | nil => rfl
    | cons c' b' => cases h
  | cons c b ih =>
    cases b' with
    | nil => cases h
    | cons c' b' =>
      have hlt := c.toNat_lt
      have hlt' := c'.toNat_lt
      simp only [hexEncode, flatMap_cons, cons_append, nil_append, List.cons.injEq] at h
      obtain ⟨hhigh, hlow, hrest⟩ := h
      have hhigh := hexDigit_injective (by omega) (by omega) hhigh
      have hlow := hexDigit_injective (by omega) (by omega) hlow
      rw [ih hrest, UInt8.toNat_inj.1 (show c.toNat = c'.toNat by omega)]

theorem length_hexEncode (b : Bytes) : (hexEncode b).length = 2 * b.length := by
  induction b with
  | nil => rfl
  | cons c b ih =>
    simp only [hexEncode, flatMap_cons, length_append] at ih ⊢
    rw [ih]
    simp
    omega

/-- A digest has no colon in it, so the last one ends the project id. -/
theorem independent_injective {p p' : String} {d d' : DigestBytes}
    (h : p ++ ":" ++ toHex d = p' ++ ":" ++ toHex d') : p = p' ∧ d = d' := by
  have hlen : (hexEncode d).length = (hexEncode d').length := by
    rw [length_hexEncode, length_hexEncode, d.2, d'.2]
  have hlist := congrArg String.toList h
  simp only [String.toList_append, toHex, String.toList_ofList] at hlist
  obtain ⟨hleft, hright⟩ := append_inj' hlist hlen
  obtain ⟨hleft, -⟩ := append_inj' hleft rfl
  exact ⟨String.toList_inj.1 hleft, Subtype.ext (hexEncode_injective hright)⟩

theorem colon_notMem_hexEncode (b : Bytes) : ':' ∉ hexEncode b := by
  intro hmem
  obtain ⟨c, -, hc⟩ := mem_flatMap.1 hmem
  have hlt := c.toNat_lt
  simp only [mem_cons, not_mem_nil, or_false] at hc
  rcases hc with hc | hc
  · exact hexDigit_ne_colon (by omega) hc.symm
  · exact hexDigit_ne_colon (by omega) hc.symm

/-- The colon behind the word is no part of the digest. -/
theorem reserved_of_shared {p b : String} {d : DigestBytes}
    (h : p ++ ":" ++ toHex d = "shared:" ++ b) : Reserved p := by
  have hlist : (p ++ ":").toList ++ hexEncode d
      = "shared:".toList ++ b.toList := by
    rw [← String.toList_append, ← h, String.toList_append (s := p ++ ":"),
      toHex, String.toList_ofList]
  rcases append_eq_append_iff.1 hlist with ⟨rest, hword, hhex⟩
    | ⟨rest, hid, -⟩
  · cases rest using List.reverseRecOn with
    | nil => exact ⟨[], by simpa using hword⟩
    | append_singleton rest c =>
      have hc : c = ':' := by
        have hlast := congrArg List.getLast? hword
        rw [← append_assoc, getLast?_concat] at hlast
        exact (Option.some.inj hlast).symm
      refine absurd ?_ (colon_notMem_hexEncode d)
      rw [hhex, hc]
      simp
  · exact ⟨rest, hid.symm⟩

/-- **Resource ids**: records of bindings, and independent records of the
projects in a set, are apart exactly if no project in the set is `shared`
or begins with `shared:`. -/
theorem resource_ids_apart_iff (mayName : String → Prop) : (∀ p d binding p'
      d' binding', (binding = .independent → mayName p) → (binding' = .independent → mayName p') →
      (authorizationRecord p d binding).Apart (authorizationRecord p' d' binding'))
    ↔ ∀ p, mayName p → ¬ Reserved p := by
  constructor
  · rintro hapart p hp ⟨rest, hrest⟩
    let digest : DigestBytes := ⟨.replicate 32 0, rfl⟩
    have hid : p ++ ":" ++ toHex digest
        = "shared:" ++ (.ofList rest ++ toHex digest) := by
      rw [← String.toList_inj, String.toList_append, ← hrest]
      simp
    rcases hapart p digest .independent p digest
      (.shared (.ofList rest ++ toHex digest)) (fun _ => hp) nofun hid with
      ⟨-, hnone, -⟩ | ⟨b, hb, -⟩
    · cases hnone
    · cases hb
  · intro hnames p d binding p' d' binding' hp hp' hid
    cases binding with
    | independent =>
      cases binding' with
      | independent =>
        obtain ⟨rfl, rfl⟩ := independent_injective hid
        exact .inl ⟨rfl, rfl, rfl, rfl⟩
      | shared b => exact absurd (reserved_of_shared hid) (hnames p (hp rfl))
    | shared b =>
      cases binding' with
      | independent => exact absurd (reserved_of_shared hid.symm) (hnames p' (hp' rfl))
      | shared b' =>
        have hb : b = b' := by
          have hlist := congrArg String.toList hid
          rw [← String.toList_inj]
          simpa [authorizationRecord] using hlist
        exact .inr ⟨b, rfl, congrArg some hb.symm⟩

/-- A project `shared` with a file of its own, and a binding named after
the digest. -/
theorem shared_project_collides :
    let digest : DigestBytes := ⟨.replicate 32 0, rfl⟩
    let own := authorizationRecord "shared" digest .independent
    let bound := authorizationRecord "proj-a" digest (.shared (toHex digest))
    own.resourceId = bound.resourceId ∧ own.bindingId = none
      ∧ bound.bindingId ≠ none ∧ own.projectId ≠ bound.projectId := by
  decide

end SovereignVault.Remediate
