/-
`sv-storage`: containers, whole-file envelopes and the authenticated
manifest.

A file is sealed with the handle's active DEK and carries that version
in its header. Listings are sorted by name. Removing a container is NOT
atomic: its files go one by one before the directory does. The permission
hardening, the manifest update lock, and a blob's size and time stamp are
left out; paths in messages are relative to the root.
-/
import Mathlib.Data.List.Sort
import Mathlib.Data.String.Basic
import SovereignVault.State

namespace SovereignVault

open Crash Prog

namespace Storage

variable {m : Manifest}

def FORMAT_VERSION : Nat := 1

def KEY_VERSION : Nat := 1

def FILE_SUFFIX : String := ".svault"

def MANIFEST_FILE : String := "manifest.json"

def MANIFEST_AUTH_CONTEXT : String := "sv-manifest-auth-v1"

def MANIFEST_INTEGRITY_VERSION : Nat := 1

def SCHEMA_VERSION : Nat := 1

-- ==== names

def isValidContainerName (name : String) : Bool :=
  !name.isEmpty && name.utf8ByteSize ≤ 64
    && name.toList.all fun c => c.isAlphanum || c == '-' || c == '_'

def hasDotDot : List Char → Bool
  | '.' :: '.' :: _ => true
  | _ :: cs => hasDotDot cs
  | [] => false

def isValidFileName (name : String) : Bool :=
  !name.isEmpty && name.utf8ByteSize ≤ 128 && name != "."
    && !hasDotDot name.toList
    && name.toList.all fun c => c.isAlphanum || c == '-' || c == '_' || c == '.'

def validateContainerName (name : String) : Except CoreError Unit :=
  if isValidContainerName name then .ok ()
  else .error (.storage (.invalidPath s!"invalid container name: {name.quote}"))

def validateFileName (name : String) : Except CoreError Unit :=
  if isValidFileName name then .ok ()
  else .error (.storage (.invalidPath s!"invalid file name: {name.quote}"))

def aadFor (path : BlobPath) : String := path.1 ++ "/" ++ path.2

def blobFile (path : BlobPath) : String := aadFor path ++ FILE_SUFFIX

def ensureContainer (container : String) : VaultM Unit := do
  let w ← get
  if container ∈ w.containers then
    pure ()
  else
    throw (.storage (.state s!"container does not exist: {container}"))

-- ==== the manifest

def deriveManifestAuthKey (material : MasterKey) : MasterKey :=
  deriveSubkey material MANIFEST_AUTH_CONTEXT

def defaultManifest : ManifestBody where
  schemaVersion := SCHEMA_VERSION
  defaultMode := .direct
  rules := []

/-- `ensure_regular_file` on the manifest, and its content. -/
def requireManifest : VaultM Manifest :=
  readRequired World.manifest
    (.storage (.state s!"vault manifest does not exist: {MANIFEST_FILE}"))

def readManifestUnverified : VaultM Manifest := do
  let m ← requireManifest
  if m.body.schemaVersion ≠ SCHEMA_VERSION then
    throw (.storage (.manifest
      s!"unsupported manifest schema: {m.body.schemaVersion}"))
  else
    pure m

def verifyManifestIntegrity (m : Manifest) (key : MasterKey) : Except CoreError Unit :=
  match m.integrity with
  | none => .error (.storage (.manifest
      "manifest authentication is missing; explicit legacy migration is required"))
  | some i =>
    if i.version ≠ MANIFEST_INTEGRITY_VERSION then
      .error (.storage (.manifest
        s!"unsupported manifest integrity version: {i.version}"))
    else if i.hmacSha256 = ⟨key, m.body⟩ then
      .ok ()
    else
      .error (.storage (.manifest "manifest authentication failed"))

def readManifest (key : MasterKey) : VaultM Manifest := do
  let m ← readManifestUnverified
  ret (verifyManifestIntegrity m key)
  pure m

def authenticated (key : MasterKey) (body : ManifestBody) : Manifest where
  body := body
  integrity := some ⟨MANIFEST_INTEGRITY_VERSION, key, body⟩

def writeManifest (body : ManifestBody) (key : MasterKey) : VaultM Unit :=
  writeAtomic fun w => { w with manifest := some (authenticated key body) }

-- ==== opening a vault

def openExisting (keys : KeyMap) (activeVersion : Nat)
    (manifestAuthKey : MasterKey) : VaultM Vault := do
  let _ ← requireManifest
  if h : (keys activeVersion).isSome then
    let _ ← readManifest manifestAuthKey
    pure ⟨keys, activeVersion, manifestAuthKey, h⟩
  else
    throw (.storage (.state
      s!"active key version {activeVersion} not present in key map"))

def singleKeyMap (master : MasterKey) : KeyMap :=
  Function.update (fun _ => none) KEY_VERSION (some master)

def singleKeyVault (master manifestAuthKey : MasterKey) : Vault where
  keys := singleKeyMap master
  activeVersion := KEY_VERSION
  manifestAuthKey := manifestAuthKey
  active_mem := by simp [singleKeyMap]

def openOrInit (master manifestAuthKey : MasterKey) : VaultM Vault := do
  let w ← get
  if w.manifest.isSome then
    let _ ← readManifest manifestAuthKey
    pure (singleKeyVault master manifestAuthKey)
  else
    writeManifest defaultManifest manifestAuthKey
    pure (singleKeyVault master manifestAuthKey)

-- ==== containers

structure ContainerInfo where
  name : String
  mode : SecurityMode
  fileCount : Nat
  description : Option String

structure FileInfo where
  name : String
  mode : SecurityMode

/-- The entry of `container_rule_index` for `name`: the last rule whose
pattern is the name's own glob. -/
def containerRule (m : Manifest) (name : String) : Option ManifestRule :=
  m.body.rules.reverse.find? fun r => r.pattern = name ++ "/**"

def effectiveMode (m : Manifest) (name : String) : SecurityMode :=
  ((containerRule m name).map ManifestRule.mode).getD m.body.defaultMode

def fileNames (w : World) (container : String) : List String :=
  (w.files.keys.filter fun path => path.1 = container).map Prod.snd

def containerMode (v : Vault) (container : String) : VaultM SecurityMode := do
  ret (validateContainerName container)
  ensureContainer container
  let m ← readManifest v.manifestAuthKey
  pure (effectiveMode m container)

def listContainers (v : Vault) : VaultM (List ContainerInfo) := do
  let m ← readManifest v.manifestAuthKey
  let w ← get
  let names := (w.containers.filter isValidContainerName).insertionSort (· ≤ ·)
  pure (names.map fun name =>
    { name := name
      mode := effectiveMode m name
      fileCount := (fileNames w name).length
      description := (containerRule m name).bind ManifestRule.description })

def listFiles (v : Vault) (container : String) : VaultM (List FileInfo) := do
  ret (validateContainerName container)
  ensureContainer container
  let mode ← containerMode v container
  let w ← get
  let names := (fileNames w container).insertionSort (· ≤ ·)
  pure (names.map fun name => { name := name, mode := mode })

/-- `create_container`: the rule is committed before the directory. -/
def createContainer (v : Vault) (name : String) (mode : SecurityMode)
    (description : Option String) : VaultM Unit := do
  ret (validateContainerName name)
  let w ← get
  if name ∈ w.containers then
    throw (.storage (.state s!"container already exists: {name}"))
  else
    let m ← readManifest v.manifestAuthKey
    let rules := m.body.rules.filter fun r => r.pattern ≠ name ++ "/**"
    writeManifest
      { m.body with rules := rules ++ [⟨name ++ "/**", mode, description⟩] }
      v.manifestAuthKey
    writeAtomic fun w => { w with containers := name :: w.containers }

def removeDirAll (name : String) : VaultM Unit := do
  let w ← get
  forEach (fun file => modify fun w =>
      { w with files := w.files.erase (name, file) })
    (fileNames w name)
  modify fun w => { w with containers := w.containers.filter fun c => c ≠ name }

/-- `delete_container`: the directory goes first, then its rule. -/
def deleteContainer (v : Vault) (name : String) : VaultM Unit := do
  ret (validateContainerName name)
  let w ← get
  if name ∈ w.containers then
    removeDirAll name
    sync
  let m ← readManifest v.manifestAuthKey
  let rules := m.body.rules.filter fun r => r.pattern ≠ name ++ "/**"
  writeManifest { m.body with rules := rules } v.manifestAuthKey

-- ==== files

def validatePath (path : BlobPath) : Except CoreError Unit :=
  match validateContainerName path.1 with
  | .error e => .error e
  | .ok () => validateFileName path.2

def sealFile (version : Nat) (dek : MasterKey) (path : BlobPath) (plaintext : Bytes) : RawFile :=
  .envelope ⟨FORMAT_VERSION, version, aeadSeal dek plaintext (aadFor path)⟩

def writeFile (v : Vault) (path : BlobPath) (plaintext : Bytes) : VaultM Unit := do
  ret (validatePath path)
  ensureContainer path.1
  match v.keys v.activeVersion with
  | none => throw (.storage (.state
      s!"active key version {v.activeVersion} not present"))
  | some dek =>
    writeAtomic fun w => { w with
      files := w.files.insert path (sealFile v.activeVersion dek path plaintext) }

def openFile (v : Vault) (path : BlobPath) (raw : RawFile) : Except CoreError Bytes :=
  match raw with
  | .short _ => .error (.storage (.state "envelope too short"))
  | .envelope e =>
    if e.formatVersion ≠ FORMAT_VERSION then
      .error (.storage (.state
        s!"unsupported format_version: {e.formatVersion}"))
    else
      match v.keys e.keyVersion with
      | none => .error (.storage (.state
          s!"no key available for key_version {e.keyVersion}"))
      | some key =>
        (aeadOpen key e.sealedBytes (aadFor path)).mapError fun err => .storage (.crypto err)

def readFile (v : Vault) (path : BlobPath) : VaultM Bytes := do
  ret (validatePath path)
  ensureContainer path.1
  let raw ← readRequired (fun w => w.files.lookup path)
    (.storage (.state s!"vault file does not exist: {blobFile path}"))
  ret (openFile v path raw)

/-- `delete_file`: absent is success. No key of the handle is used. -/
def deleteFile (path : BlobPath) : VaultM Unit := do
  ret (validatePath path)
  ensureContainer path.1
  removeFileDurable (fun w => (w.files.lookup path).isSome)
    fun w => { w with files := w.files.erase path }

def atVersion (version : Nat) : RawFile → Bool
  | .short _ => false
  | .envelope e => e.keyVersion == version

def rewrapFile (v : Vault) (path : BlobPath) : VaultM Bool := do
  ret (validatePath path)
  let raw ← readRequired (fun w => w.files.lookup path)
    (.storage (.io "No such file or directory"))
  if atVersion v.activeVersion raw then
    pure false
  else
    let plaintext ← readFile v path
    writeFile v path plaintext
    pure true

-- ==== what opening reads

def parsedManifest : Option Manifest → Except CoreError Manifest
  | none => .error
      (.storage (.state s!"vault manifest does not exist: {MANIFEST_FILE}"))
  | some m =>
    if m.body.schemaVersion ≠ SCHEMA_VERSION then
      .error (.storage (.manifest
        s!"unsupported manifest schema: {m.body.schemaVersion}"))
    else
      .ok m

def verifiedManifest (key : MasterKey) (file : Option Manifest) : Except CoreError Manifest :=
  (parsedManifest file).bind fun m => (verifyManifestIntegrity m key).bind fun _ => .ok m

theorem observes_readManifestUnverified : Observes readManifestUnverified
      fun w => parsedManifest w.manifest := by
  have h := observes_bind (observes_readRequired World.manifest
      (.storage (.state s!"vault manifest does not exist: {MANIFEST_FILE}")))
    (h := fun m _ => if m.body.schemaVersion ≠ SCHEMA_VERSION then
        .error (.storage (.manifest
          s!"unsupported manifest schema: {m.body.schemaVersion}"))
      else .ok m)
    (k := fun m => if m.body.schemaVersion ≠ SCHEMA_VERSION then
        throw (.storage (.manifest
          s!"unsupported manifest schema: {m.body.schemaVersion}"))
      else pure m)
    (by
      intro m
      split
      · exact observes_ret _
      · exact observes_ret _)
  refine h.congr fun w => ?_
  cases hs : w.manifest with
  | none | some m => simp [parsedManifest, Except.bind]

theorem observes_readManifest (key : MasterKey) :
    Observes (readManifest key) fun w => verifiedManifest key w.manifest :=
  observes_bind observes_readManifestUnverified fun _ =>
    observes_bind (observes_ret _) fun _ => observes_ret _

variable {file : Option Manifest} {key : MasterKey}

theorem verifiedManifest_isSome (h : verifiedManifest key file = .ok m) : file = some m := by
  cases file with
  | none => cases h
  | some m' =>
    simp only [verifiedManifest, parsedManifest] at h
    split at h
    · cases h
    · simp only [Except.bind] at h
      split at h
      · cases h
      · rw [Except.ok.inj h]

theorem verifiedManifest_ok (h : verifiedManifest key file = .ok m) :
    m.body.schemaVersion = SCHEMA_VERSION
      ∧ m.integrity = some ⟨MANIFEST_INTEGRITY_VERSION, key, m.body⟩ := by
  have hfile := verifiedManifest_isSome h
  subst hfile
  unfold verifiedManifest parsedManifest at h
  by_cases hs : m.body.schemaVersion = SCHEMA_VERSION
  · simp only [hs, ne_eq, not_true_eq_false, if_false, Except.bind] at h
    refine ⟨hs, ?_⟩
    unfold verifyManifestIntegrity at h
    cases hi : m.integrity with
    | none =>
      rw [hi] at h
      cases h
    | some i =>
      obtain ⟨version, tag⟩ := i
      rw [hi] at h
      by_cases hv : version = MANIFEST_INTEGRITY_VERSION
      · by_cases ht : tag = ⟨key, m.body⟩
        · rw [hv, ht]
        · simp [hv, ht] at h
      · simp [hv] at h
  · simp [hs, Except.bind] at h

theorem verifiedManifest_authenticated (key : MasterKey) {body : ManifestBody}
    (h : body.schemaVersion = SCHEMA_VERSION) : verifiedManifest key (some (authenticated key body))
      = .ok (authenticated key body) := by
  simp [verifiedManifest, parsedManifest, authenticated, verifyManifestIntegrity, h, Except.bind]

def openedWith (keys : KeyMap) (activeVersion : Nat) (key : MasterKey)
    (file : Option Manifest) : Except CoreError Vault :=
  if file.isNone then
    .error (.storage (.state
      s!"vault manifest does not exist: {MANIFEST_FILE}"))
  else if h : (keys activeVersion).isSome then
    (verifiedManifest key file).bind fun _ => .ok ⟨keys, activeVersion, key, h⟩
  else
    .error (.storage (.state
      s!"active key version {activeVersion} not present in key map"))

theorem observes_openExisting (keys : KeyMap)
    (activeVersion : Nat) (key : MasterKey) : Observes (openExisting keys activeVersion key)
      fun w => openedWith keys activeVersion key w.manifest := by
  have hrest : ∀ _ : Manifest, Observes
      (if h : (keys activeVersion).isSome then do
          let _ ← readManifest key
          pure ⟨keys, activeVersion, key, h⟩
        else throw (.storage (.state
          s!"active key version {activeVersion} not present in key map")) :
        VaultM Vault)
      fun w => if h : (keys activeVersion).isSome then
          (verifiedManifest key w.manifest).bind fun _ => .ok ⟨keys, activeVersion, key, h⟩
        else .error (.storage (.state
          s!"active key version {activeVersion} not present in key map")) := by
    intro _
    by_cases h : (keys activeVersion).isSome
    · simp only [h, dite_true]
      exact observes_bind (observes_readManifest key) fun _ => observes_ret _
    · simp only [h]
      exact observes_ret _
  refine (observes_bind (observes_readRequired World.manifest _) hrest).congr fun w => ?_
  cases hs : w.manifest with
  | none | some m => simp [openedWith, Except.bind]

theorem openedWith_ok {keys : KeyMap} {activeVersion : Nat} (h : (keys activeVersion).isSome)
    (hm : verifiedManifest key file = .ok m) : openedWith keys activeVersion key file
      = .ok ⟨keys, activeVersion, key, h⟩ := by
  have hfile := verifiedManifest_isSome hm
  subst hfile
  simp [openedWith, h, hm, Except.bind]

-- ==== listings and reads

section Specs

open Prog

variable {F : Faults World CoreError} {I : World → Prop} {v : Vault} {w : World} {m : Manifest}

variable {path : BlobPath} {plaintext : Bytes} {P : Unit → World → Prop} {container : String}

theorem validateContainerName_of_path (h : validatePath path = .ok ()) :
    validateContainerName path.1 = .ok () := by
  rw [validatePath] at h
  split at h
  · cases h
  · next heq => exact heq

theorem validateContainerName_ok {name : String} :
    validateContainerName name = .ok () ↔ isValidContainerName name := by
  rw [validateContainerName]
  split
  · next h => simp [h]
  · next h => simp [h]

theorem succeeds_ensureContainer (hc : container ∈ w.containers) (hi : I w)
    (hp : P () w) : Succeeds F I (ensureContainer container) P w := by
  simp only [ensureContainer, bind_eq, succeeds_bind]
  refine observes_get.succeeds hi rfl ?_
  rw [if_pos hc]
  exact succeeds_ret hi hp

theorem succeeds_listContainers {P : List ContainerInfo → World → Prop}
    (hm : verifiedManifest v.manifestAuthKey w.manifest = .ok m) (hi : I w)
    (hp : ∀ l, (∀ name, name ∈ l.map ContainerInfo.name ↔
      name ∈ w.containers ∧ isValidContainerName name) → P l w) :
    Succeeds F I (listContainers v) P w := by
  simp only [listContainers, bind_eq, succeeds_bind]
  refine (observes_readManifest _).succeeds hi hm ?_
  refine observes_get.succeeds hi rfl (succeeds_ret hi (hp _ ?_))
  intro name
  simp [List.mem_insertionSort, Function.comp_def]

theorem succeeds_listFiles
    {P : List FileInfo → World → Prop} (hvalid : validateContainerName container = .ok ())
    (hc : container ∈ w.containers) (hm : verifiedManifest v.manifestAuthKey w.manifest = .ok m)
    (hi : I w) (hp : ∀ l, (∀ name, name ∈ l.map FileInfo.name ↔
      (w.files.lookup (container, name)).isSome) → P l w) :
    Succeeds F I (listFiles v container) P w := by
  simp only [listFiles, containerMode, hvalid, bind_eq, bind_ret_ok, succeeds_bind]
  refine succeeds_ensureContainer hc hi ?_
  refine succeeds_ensureContainer hc hi ?_
  refine (observes_readManifest _).succeeds hi hm (succeeds_ret hi ?_)
  refine observes_get.succeeds hi rfl (succeeds_ret hi (hp _ ?_))
  intro name
  simp only [fileNames, List.map_map, Function.comp_def, List.map_id',
    List.mem_insertionSort, List.mem_map, List.mem_filter, decide_eq_true_eq, AList.lookup_isSome]
  constructor
  · rintro ⟨path, ⟨hmem, rfl⟩, rfl⟩
    exact AList.mem_keys.2 hmem
  · intro hmem
    exact ⟨(container, name), ⟨AList.mem_keys.1 hmem, rfl⟩, rfl⟩

def readOf (v : Vault) (path : BlobPath) (w : World) : Except CoreError Bytes :=
  (validatePath path).bind fun _ =>
    if path.1 ∈ w.containers then
      match w.files.lookup path with
      | some raw => openFile v path raw
      | none => .error
          (.storage (.state s!"vault file does not exist: {blobFile path}"))
    else
      .error (.storage (.state s!"container does not exist: {path.1}"))

theorem observes_ensureContainer (container : String) :
    Observes (ensureContainer container) fun w =>
      if container ∈ w.containers then .ok () else .error
        (.storage (.state s!"container does not exist: {container}")) := by
  refine (observes_bind observes_get
    (h := fun w₀ _ => if container ∈ w₀.containers then .ok () else .error
      (.storage (.state s!"container does not exist: {container}")))
    ?_).congr fun w => rfl
  intro w₀
  split
  · exact observes_ret _
  · exact observes_ret _

def modeOf (v : Vault) (container : String) (w : World) : Except CoreError SecurityMode :=
  (validateContainerName container).bind fun _ =>
    if container ∈ w.containers then
      (verifiedManifest v.manifestAuthKey w.manifest).bind fun m => .ok (effectiveMode m container)
    else .error (.storage (.state s!"container does not exist: {container}"))

theorem observes_containerMode (v : Vault) (container : String) :
    Observes (containerMode v container) (modeOf v container) := by
  refine (observes_bind (observes_ret _) fun _ => observes_bind
    (observes_ensureContainer container) fun _ => observes_bind
      (observes_readManifest _) fun _ => observes_ret _).congr fun w => ?_
  rw [modeOf]
  congr 1
  funext _
  split
  · rfl
  · rfl

theorem observes_readFile (v : Vault) (path : BlobPath) :
    Observes (readFile v path) (readOf v path) := by
  refine (observes_bind (observes_ret _) fun _ => observes_bind
    (observes_ensureContainer path.1) fun _ => observes_bind
      (observes_readRequired _ _) fun _ => observes_ret _).congr fun w => ?_
  rw [readOf]
  congr 1
  funext _
  split
  · cases w.files.lookup path with
    | none | some raw => rfl
  · rfl

theorem readOf_ok {raw : RawFile} (hvalid : validatePath path = .ok ())
    (hc : path.1 ∈ w.containers) (hraw : w.files.lookup path = some raw)
    (hopen : openFile v path raw = .ok plaintext) : readOf v path w = .ok plaintext := by
  simp [readOf, hvalid, hc, hraw, hopen, Except.bind]

@[simp] theorem openFile_sealFile {version : Nat}
    {dek : MasterKey} (hkey : v.keys version = some dek) (path : BlobPath) (plaintext : Bytes) :
    openFile v path (sealFile version dek path plaintext) = .ok plaintext := by
  simp [openFile, sealFile, hkey, Except.mapError]

theorem succeeds_writeFile (hvalid : validatePath path = .ok ())
    (hc : path.1 ∈ w.containers) (hi : I w) (hi' : I (w.withFiles (w.files.insert path
      (sealFile v.activeVersion v.activeDek path plaintext))))
    (hp : P () (w.withFiles (w.files.insert path
      (sealFile v.activeVersion v.activeDek path plaintext)))) :
    Succeeds F I (writeFile v path plaintext) P w := by
  have hkey : v.keys v.activeVersion = some v.activeDek := by simp [Vault.activeDek]
  simp only [writeFile, hvalid, bind_eq, bind_ret_ok, succeeds_bind]
  refine succeeds_ensureContainer hc hi ?_
  simp only [hkey]
  exact succeeds_writeAtomic hi hi' hp

theorem wp_writeFile {Q : Except CoreError Unit → World → Prop} (hi : I w)
    (hfail : ∀ e, Q (.error e) w) (hwrite : validatePath path = .ok () → path.1 ∈ w.containers →
      I (w.withFiles (w.files.insert path (sealFile v.activeVersion v.activeDek path plaintext)))
        ∧ ∀ res, Q res (w.withFiles (w.files.insert path
          (sealFile v.activeVersion v.activeDek path plaintext)))) :
    wp F I (writeFile v path plaintext) Q w := by
  have hkey : v.keys v.activeVersion = some v.activeDek := by simp [Vault.activeDek]
  refine (observes_ret _).wp_seq hi hfail fun _ hv => ?_
  refine (observes_ensureContainer _).wp_seq hi hfail fun _ hc => ?_
  by_cases hmem : path.1 ∈ w.containers
  · obtain ⟨hi', hq⟩ := hwrite hv hmem
    rw [hkey]
    exact wp_writeAtomic hi hi' (hq _) (fun e _ => hfail e) fun e _ => hq _
  · rw [if_neg hmem] at hc
    cases hc

end Specs

end Storage

end SovereignVault
