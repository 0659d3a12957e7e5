/-
`sv-core/src/lib.rs`: bootstrap, unlock, passphrase change, custody move
and key rotation, with the journal that makes each of them recoverable.

Every function is the sequence of file and keychain operations of its
Rust counterpart, in order, with the same early returns. The lock is the
live handle: acquiring it fails while a handle is live. The handle is
installed in process memory by `Prog.assigning`, which no crash separates
from the step before it. The keys, salts and the phrase a call draws are
one `Entropy` argument.

Left out: the root path and its checks and, in messages, the debug print
of a journal's fields and the manifest digest.
-/
import SovereignVault.Storage
import SovereignVault.Transit
import SovereignVault.Custody

namespace SovereignVault

open Crash Keyring Storage Transit Keychain Prog

variable {identity : Option IdentityFile} {manifest : Option Manifest} {u : Unwrapped}

-- ==== constants

def LIFECYCLE_AAD : String := "sv-lifecycle-phrase-v1"

def MIN_PASSPHRASE_CHARS : Nat := 16

def MATERIAL_WRAP_CONTEXT : String := "sv-transit-wrap-v1"

def AUDIT_CONTEXT : String := "sv-audit-hmac-v1"

/-- What one call draws from the OS RNG. -/
structure Entropy where
  kek : MasterKey
  dek : MasterKey
  identityRoot : MasterKey
  salt : Salt
  phrase : Mnemonic
  bundleSalt : Salt

-- ==== small helpers

def custodyLabel : CustodyMode → String
  | .osKeychain => "os_keychain"
  | .passphrase => "passphrase"
  | .recovery => "recovery"

def LifecycleJournal.variantName : LifecycleJournal → String
  | .bootstrap .. => "Bootstrap"
  | .changePassphrase .. => "ChangePassphrase"
  | .moveToKeychain => "MoveToKeychain"
  | .rotate .. => "Rotate"

def acquireLock : VaultM Unit := do
  let w ← get
  if w.handle.isSome then
    throw .vaultLocked
  else
    pure ()

def requirePassphrase (passphrase : Option String) : Except CoreError String :=
  match passphrase with
  | some pass => .ok pass
  | none => .error (.misuse "passphrase custody requires a passphrase")

def validateNewPassphrase (passphrase : String) : Except CoreError Unit :=
  if passphrase.toList.length < MIN_PASSPHRASE_CHARS then
    .error (.misuse s!"new passphrases must contain at least {MIN_PASSPHRASE_CHARS} characters (received {passphrase.toList.length}); use a long, unique passphrase")
  else
    .ok ()

def materialWrapForDek (dek : MasterKey) : MasterKey :=
  deriveSubkey dek MATERIAL_WRAP_CONTEXT

def materialWrapKey (v : Vault) : MasterKey := materialWrapForDek v.activeDek

def auditKey (identityRoot : MasterKey) : MasterKey :=
  deriveSubkey identityRoot AUDIT_CONTEXT

def install (h : VaultHandle) : VaultM Unit :=
  assigning fun w => { w with handle := some h }

def setVault (v : Vault) : VaultM Unit :=
  assigning fun w => { w with handle := w.handle.map fun h => { h with vault := v } }

def setCustody (c : CustodyMode) : VaultM Unit :=
  assigning fun w => { w with handle := w.handle.map fun h => { h with custody := c } }

def throwLegacyManifestMigration {α : Type} : VaultM α := do
  match ← readManifestUnverified.attempt with
  | .ok _ => throw (.misuse
      "legacy manifest authentication migration is required; review manifest.json, then call VaultHandle::migrate_manifest_authentication")
  | .error _ => throw (.misuse
      "legacy manifest authentication migration is required, but its confirmation digest could not be computed")

def loadAuthenticatedIdentity (activeDek : MasterKey) : VaultM IdentityState := do
  match ← loadIdentityIfPresent (materialWrapForDek activeDek) with
  | none => throwLegacyManifestMigration
  | some identity =>
    if identity.manifestAuthRequired then
      pure identity
    else
      throwLegacyManifestMigration

/-- The tail every opening shares: the identity, then the storage layer
under its manifest key. -/
def openUnwrapped (u : Unwrapped) : VaultM (Vault × MasterKey) := do
  let identity ← loadAuthenticatedIdentity u.activeDek
  let v ← openExisting u.keys u.activeVersion (deriveManifestAuthKey identity.root)
  pure (v, identity.root)

-- ==== the journal

def readLifecycle : VaultM (Option LifecycleJournal) := do
  let w ← get
  pure w.journal

def writeLifecycle (j : LifecycleJournal) : VaultM Unit :=
  writeAtomic fun w => { w with journal := some j }

def removeLifecycle : VaultM Unit :=
  removeFileDurable (fun w => w.journal.isSome) fun w => { w with journal := none }

def writeSalt (salt : Salt) : VaultM Unit :=
  writeAtomic fun w => { w with salt := some salt }

def removeSalt : VaultM Unit :=
  removeFileDurable (fun w => w.salt.isSome) fun w => { w with salt := none }

def sealLifecyclePhrase (kek : MasterKey) (phrase : Mnemonic) : Sealed Mnemonic :=
  aeadSeal kek phrase LIFECYCLE_AAD

def openLifecyclePhrase (kek : MasterKey) (wrapped : Sealed Mnemonic) : Except CoreError Mnemonic :=
  (aeadOpen kek wrapped LIFECYCLE_AAD).mapError .crypto

/-- `ensure_bootstrap_audit`: open the log, or create it. The empty file
alone counts as not initialised, so creation can be repeated. -/
def ensureBootstrapAudit (identityRoot : MasterKey) : VaultM Unit := do
  let w ← get
  match w.audit with
  | .initialised key =>
    if key = auditKey identityRoot then
      pure ()
    else
      throw (.audit (.authentication "checkpoint authentication failed"))
  | .activeOnly => writeAtomic fun w => { w with audit := .initialised (auditKey identityRoot) }
  | .absent =>
    writeAtomic fun w => { w with audit := .activeOnly }
    writeAtomic fun w => { w with audit := .initialised (auditKey identityRoot) }

def finishPendingBootstrap (identityRoot : MasterKey) : VaultM Unit := do
  match ← readLifecycle with
  | some (.bootstrap _ _ _ (some _)) =>
    ensureBootstrapAudit identityRoot
    removeLifecycle
  | _ => pure ()

-- ==== bootstrap

/-- `cleanup_matching_bootstrap_keychain_kek`: only the credential this
bootstrap stored is deleted. -/
def cleanupMatchingBootstrapKeychainKek (expected : Fingerprint) : VaultM Bool := do
  match ← loadScoped with
  | none => pure false
  | some credential =>
    if (⟨credential⟩ : Fingerprint) = expected then
      deleteScoped
      pure true
    else
      pure false

def rollbackIncompleteBootstrap (custody : CustodyMode)
    (fingerprint : Option Fingerprint) : VaultM Unit := do
  removeFileDurable (fun w => w.manifest.isSome) fun w => { w with manifest := none }
  removeFileDurable (fun w => w.keyring.isSome) fun w => { w with keyring := none }
  discardStaged
  removeFileDurable (fun w => w.recovery.isSome) fun w => { w with recovery := none }
  removeFileDurable (fun w => w.identity.isSome) fun w => { w with identity := none }
  removeSalt
  match custody, fingerprint with
  | .osKeychain, some expected =>
    let _ ← cleanupMatchingBootstrapKeychainKek expected
    removeLifecycle
  | _, _ => removeLifecycle

def resumeKek (custody : CustodyMode) (passphrase : Option String)
    (salt : Option Salt) : VaultM MasterKey :=
  match custody with
  | .passphrase => do
    let pass ← ret (requirePassphrase passphrase)
    match salt with
    | none => throw (.misuse "bootstrap journal is missing its salt")
    | some salt => pure (.fromPassphrase pass salt)
  | .osKeychain => loadVerifiedKeychainKek
  | .recovery => throw (.misuse "recovery custody cannot be used for bootstrap")

/-- `bootstrap` on a journal that holds the sealed phrase, once it has a
KEK: open and hand the phrase out. -/
def resumeWith (custody : CustodyMode) (wrappedPhrase : Sealed Mnemonic)
    (kek : MasterKey) : VaultM Mnemonic := do
  let unwrapped ← load kek
  let (vault, identityRoot) ← openUnwrapped unwrapped
  let phrase ← ret (openLifecyclePhrase kek wrappedPhrase)
  ensureBootstrapAudit identityRoot
  removeLifecycle
  install ⟨vault, custody, identityRoot⟩
  pure phrase

def resumeBootstrap (custody pending : CustodyMode)
    (passphrase : Option String) (salt : Option Salt)
    (wrappedPhrase : Sealed Mnemonic) : VaultM Mnemonic := do
  if pending ≠ custody then
    throw (.misuse
      s!"bootstrap already completed with {custodyLabel pending} custody")
  else
    let kek ← resumeKek custody passphrase salt
    resumeWith custody wrappedPhrase kek

/-- `bootstrap` from the journal on; `storeKek` makes the KEK recoverable. -/
def createVault (custody : CustodyMode) (salt : Option Salt)
    (fingerprint : Option Fingerprint) (kek : MasterKey)
    (storeKek : VaultM Unit) (ent : Entropy) : VaultM Mnemonic := do
  writeLifecycle (.bootstrap custody salt fingerprint none)
  storeKek
  create kek ent.dek
  let identity ← loadOrCreateIdentity (materialWrapForDek ent.dek) none ent.identityRoot
  let vault ← openOrInit ent.dek (deriveManifestAuthKey identity.root)
  let phrase ← Recovery.issueRecoveryPhraseForVersion ent.dek 1 ent.phrase ent.bundleSalt
  writeLifecycle (.bootstrap custody salt fingerprint (some (sealLifecyclePhrase kek phrase)))
  ensureBootstrapAudit identity.root
  removeLifecycle
  install ⟨vault, custody, identity.root⟩
  pure phrase

def bootstrapFresh (custody : CustodyMode) (passphrase : Option String)
    (ent : Entropy) : VaultM Mnemonic := do
  let w ← get
  if w.manifest.isSome || w.keyring.isSome then
    throw (.misuse "vault already initialised on disk - call unlock instead")
  else
    match custody with
    | .osKeychain =>
      ensureAvailable
      match ← loadScoped with
      | some _ => throw (.misuse
          "a vault-scoped OS keychain credential already exists without matching vault state; remove that scoped credential explicitly or use passphrase custody")
      | none =>
        createVault .osKeychain none (some ⟨.key ent.kek⟩) ent.kek
          (storeScoped ent.kek) ent
    | .passphrase =>
      let pass ← ret (requirePassphrase passphrase)
      ret (validateNewPassphrase pass)
      createVault .passphrase (some ent.salt) none
        (.fromPassphrase pass ent.salt) (writeSalt ent.salt) ent
    | .recovery => throw (.misuse "recovery custody cannot be used for bootstrap")

def bootstrapOn (custody : CustodyMode) (passphrase : Option String)
    (ent : Entropy) : Option LifecycleJournal → VaultM Mnemonic
  | some (.bootstrap pending salt _ (some wrappedPhrase)) =>
    resumeBootstrap custody pending passphrase salt wrappedPhrase
  | some (.bootstrap pending _ fingerprint none) => do
    rollbackIncompleteBootstrap pending fingerprint
    bootstrapFresh custody passphrase ent
  | some _ => throw (.misuse
      "a vault lifecycle operation is already in progress; unlock the vault to recover it")
  | none => bootstrapFresh custody passphrase ent

/-- `VaultHandle::bootstrap`: the recovery phrase; the handle is
installed. -/
def bootstrap (custody : CustodyMode) (passphrase : Option String)
    (ent : Entropy) : VaultM Mnemonic := do
  acquireLock
  let journal ← readLifecycle
  bootstrapOn custody passphrase ent journal

-- ==== rotation and rollback

def rewrapAllFiles (v : Vault) : VaultM Unit := do
  let containers ← listContainers v
  forEach (fun (c : ContainerInfo) => do
      let files ← listFiles v c.name
      forEach (fun (f : FileInfo) => do
          let _ ← rewrapFile v (c.name, f.name)
          pure ())
        files)
    containers

def loadIdentityOrElse (first second : MasterKey) : VaultM IdentityState := do
  match ← (loadIdentity first).attempt with
  | .ok identity => pure identity
  | .error _ => loadIdentity second

/-- The branch of `rollback_rotation` taken when the keyring holds the new
version. -/
def resealUnderOld (kek : MasterKey) (oldVersion : Nat)
    (oldDek newDek : MasterKey) : VaultM Unit := do
  let oldWrap := materialWrapForDek oldDek
  let newWrap := materialWrapForDek newDek
  let identity ← loadIdentityOrElse newWrap oldWrap
  if identity.manifestAuthRequired then
    setActiveVersion oldVersion
    let unwrapped ← load kek
    let vault ← openExisting unwrapped.keys
      unwrapped.activeVersion (deriveManifestAuthKey identity.root)
    rewrapAllFiles vault
    rewrapAllMaterial newWrap oldWrap
  else
    throwLegacyManifestMigration

def rollbackRotation (kek : MasterKey) (oldVersion newVersion : Nat)
    (recoveryBackup : RecoveryBundle) : VaultM Unit := do
  let unwrapped ← load kek
  match unwrapped.keys newVersion, unwrapped.keys oldVersion with
  | some newDek, some oldDek => resealUnderOld kek oldVersion oldDek newDek
  | some _, none => throw (.misuse "rotation rollback is missing the old DEK")
  | none, _ => pure ()
  Recovery.writeBundle recoveryBackup
  let active ← activeVersion
  if active ≠ oldVersion then
    setActiveVersion oldVersion
  removeVersion newVersion
  removeLifecycle

def rotateTransaction (self : VaultHandle) (kek newDek : MasterKey)
    (predicted : Nat) (ent : Entropy) : VaultM Mnemonic := do
  let newVersion ← addActiveDek kek newDek
  if newVersion ≠ predicted then
    throw (.misuse "keyring DEK version changed concurrently during rotation")
  else
    let unwrapped ← load kek
    let vault ← openExisting unwrapped.keys unwrapped.activeVersion
      (deriveManifestAuthKey self.identityRoot)
    rewrapAllFiles vault
    setVault vault
    rewrapAllMaterial (materialWrapKey self.vault) (materialWrapKey vault)
    let phrase ← Recovery.issueRecoveryPhraseForVersion newDek newVersion ent.phrase ent.bundleSalt
    removeLifecycle
    pure phrase

/-- The KEK `rotate_key` works with. With passphrase custody it is
derived and NOT tried on the keyring. -/
def rotateKek (custody : CustodyMode) (passphrase : Option String) : VaultM MasterKey :=
  match custody with
  | .osKeychain => loadVerifiedKeychainKek
  | .passphrase =>
    match passphrase with
    | none => throw (.misuse
        "passphrase custody requires a passphrase to rotate")
    | some pass => derivePassphraseKek pass
  | .recovery => throw (.misuse "cannot rotate from a recovery-unlocked session")

/-- `rotate_key` after a failed transaction: roll back and reopen under
the old DEK, or report both failures. -/
def undoRotation (self : VaultHandle) (kek : MasterKey)
    (oldVersion predicted : Nat) (backup : RecoveryBundle)
    (operationError : CoreError) : VaultM Mnemonic := do
  match ← (rollbackRotation kek oldVersion predicted backup).attempt with
  | .error _ => throw (.misuse
      "rotation failed; rollback also failed; unlock normal custody to resume recovery")
  | .ok () =>
    let unwrapped ← load kek
    let vault ← openExisting unwrapped.keys unwrapped.activeVersion
      (deriveManifestAuthKey self.identityRoot)
    setVault vault
    throw operationError

def rotateWith (self : VaultHandle) (kek : MasterKey) (ent : Entropy) : VaultM Mnemonic := do
  match ← readLifecycle with
  | some j => throw (.misuse
      s!"cannot start rotation while lifecycle operation {j.variantName} is pending; unlock the vault to recover it")
  | none =>
    let oldVersion ← activeVersion
    let backup ← readRequired World.recovery (.misuse
      s!"recovery bundle does not exist: {Recovery.RECOVERY_FILE}")
    -- checked_add on u32
    if 2 ^ 32 ≤ oldVersion + 1 then
      throw (.misuse "DEK version space exhausted; create a new vault")
    else
      writeLifecycle (.rotate oldVersion (oldVersion + 1) backup)
      match ← (rotateTransaction self kek ent.dek (oldVersion + 1)
          ent).attempt with
      | .ok phrase => pure phrase
      | .error e => undoRotation self kek oldVersion (oldVersion + 1) backup e

def rotateKey (self : VaultHandle) (passphrase : Option String)
    (ent : Entropy) : VaultM Mnemonic := do
  let kek ← rotateKek self.custody passphrase
  rotateWith self kek ent

def changePassphrase (self : VaultHandle) (current new : String) (ent : Entropy) : VaultM Unit := do
  if self.custody ≠ .passphrase then
    throw (.misuse "change_passphrase is only valid for passphrase custody")
  else
    let oldKek ← derivePassphraseKek current
    let _ ← load oldKek
    ret (validateNewPassphrase new)
    let oldSalt ← readSalt
    stageRewrapUnderNewKek oldKek (.fromPassphrase new ent.salt)
    writeLifecycle (.changePassphrase oldSalt ent.salt)
    writeSalt ent.salt
    commitStaged
    removeLifecycle

def moveToOsKeychain (self : VaultHandle) (currentPassphrase : String)
    (ent : Entropy) : VaultM Unit := do
  if self.custody ≠ .passphrase then
    throw (.misuse "move_to_os_keychain is only valid for passphrase custody")
  else
    ensureAvailable
    let oldKek ← derivePassphraseKek currentPassphrase
    let _ ← load oldKek
    stageRewrapUnderNewKek oldKek ent.kek
    writeLifecycle .moveToKeychain
    storeScoped ent.kek
    let _ ← loadStaged ent.kek
    commitStaged
    removeSalt
    removeLifecycle
    setCustody .osKeychain

-- ==== recovery during an unlock

/-- The `ChangePassphrase` arm of `recover_lifecycle_for_unlock`: the
salt on disk tells which side of the change it is on. -/
def recoverChangePassphrase (passphrase : String) (oldSalt newSalt : Salt) : VaultM Unit := do
  let current ← readSalt
  if current = oldSalt then
    let _ ← load (.fromPassphrase passphrase oldSalt)
    discardStaged
    removeLifecycle
  else if current = newSalt then
    let newKek := MasterKey.fromPassphrase passphrase newSalt
    match ← (load newKek).attempt with
    | .error _ =>
      let _ ← loadStaged newKek
      commitStaged
      removeLifecycle
    | .ok _ =>
      discardStaged
      removeLifecycle
  else
    throw (.misuse
      "master.salt does not match either side of the pending passphrase transaction")

def finishMoveToKeychain (kek : MasterKey) : VaultM Unit := do
  match ← (load kek).attempt with
  | .error _ =>
    let _ ← loadStaged kek
    commitStaged
  | .ok _ => discardStaged
  removeSalt
  removeLifecycle

def opensLiveOrStaged (kek : MasterKey) : VaultM Bool := do
  match ← (load kek).attempt with
  | .ok _ => pure true
  | .error _ =>
    match ← (loadStaged kek).attempt with
    | .ok _ => pure true
    | .error _ => pure false

/-- `recover_move_to_keychain`: the first candidate that opens either
keyring finishes the move. -/
def recoverMoveToKeychain (custody : CustodyMode)
    (passphrase : Option String) : List MasterKey → VaultM CustodyMode
  | kek :: rest => do
    if ← opensLiveOrStaged kek then
      finishMoveToKeychain kek
      pure .osKeychain
    else
      recoverMoveToKeychain custody passphrase rest
  | [] => do
    if custody = .passphrase then
      let pass ← ret (requirePassphrase passphrase)
      let oldKek ← derivePassphraseKek pass
      let _ ← load oldKek
      discardStaged
      removeLifecycle
      pure .passphrase
    else
      throw (.misuse
        "OS keychain credential for the pending custody transaction is unavailable; unlock with the current passphrase to roll it back")

def rollbackKek (custody : CustodyMode) (passphrase : Option String) : VaultM MasterKey :=
  match custody with
  | .passphrase => do
    let pass ← ret (requirePassphrase passphrase)
    derivePassphraseKek pass
  | .osKeychain => loadVerifiedKeychainKek
  | .recovery => throw (.misuse "rotation recovery requires normal custody")

def recoverPending (custody : CustodyMode) (passphrase : Option String) :
    LifecycleJournal → VaultM CustodyMode
  | .bootstrap _ _ _ (some _) => pure custody
  | .bootstrap _ _ _ none => throw (.misuse
      "bootstrap was interrupted before completion; call bootstrap again with the intended custody mode")
  | .changePassphrase oldSalt newSalt =>
    if custody ≠ .passphrase then
      throw (.misuse
        "passphrase change is incomplete; unlock with passphrase custody to recover it")
    else do
      let pass ← ret (requirePassphrase passphrase)
      recoverChangePassphrase pass oldSalt newSalt
      pure .passphrase
  | .moveToKeychain => do
    match ← loadKeychainKekCandidates.attempt with
    | .ok candidates => recoverMoveToKeychain custody passphrase candidates
    | .error e =>
      if custody = .passphrase then
        recoverMoveToKeychain custody passphrase []
      else
        throw e
  | .rotate oldVersion newVersion backup => do
    let kek ← rollbackKek custody passphrase
    rollbackRotation kek oldVersion newVersion backup
    pure custody

def recoverLifecycleForUnlock (custody : CustodyMode)
    (passphrase : Option String) : VaultM CustodyMode := do
  match ← readLifecycle with
  | none => pure custody
  | some j => recoverPending custody passphrase j

-- ==== unlocking

/-- What every unlock does with an unwrapped keyring: open it, finish a
pending bootstrap, install the handle. -/
def openAndInstall (custody : CustodyMode) (u : Unwrapped) : VaultM Unit := do
  let (vault, identityRoot) ← openUnwrapped u
  finishPendingBootstrap identityRoot
  install ⟨vault, custody, identityRoot⟩

def unlockWithKeychain : VaultM Unit := do
  let w ← get
  if w.salt.isSome then
    throw (.misuse
      "this vault uses passphrase custody; unlock with passphrase or recovery instead")
  else if w.keyring.isNone then
    throwLegacyManifestMigration
  else
    let found ← loadKeychainUnwrapped
    openAndInstall .osKeychain found.2

def unlockWithPassphrase (passphrase : Option String) : VaultM Unit := do
  let pass ← ret (requirePassphrase passphrase)
  let kek ← derivePassphraseKek pass
  let w ← get
  if w.keyring.isNone then
    throwLegacyManifestMigration
  else
    let unwrapped ← load kek
    openAndInstall .passphrase unwrapped

/-- The rest of `unlock`: the custody the recovery returned decides first,
then the one the caller asked for. -/
def openNormal (recovered custody : CustodyMode) (passphrase : Option String) : VaultM Unit :=
  match recovered with
  | .osKeychain => unlockWithKeychain
  | _ =>
    match custody with
    | .recovery => throw (.misuse "use unlock_with_recovery for recovery custody")
    | _ => unlockWithPassphrase passphrase

def unlock (custody : CustodyMode) (passphrase : Option String) : VaultM Unit := do
  acquireLock
  let recovered ← recoverLifecycleForUnlock custody passphrase
  openNormal recovered custody passphrase

def allowsRecovery : Option LifecycleJournal → Bool
  | none => true
  | some (.bootstrap _ _ _ (some _)) => true
  | some _ => false

def openRecovered (dek : MasterKey) (active : Nat) (ent : Entropy) : VaultM Unit := do
  let identity ← loadAuthenticatedIdentity dek
  let manifestAuthKey := deriveManifestAuthKey identity.root
  let keys : KeyMap := Function.update (fun _ => none) active (some dek)
  if ← shouldRepairKeychainAfterRecovery then
    ensureAvailable
    storeScoped ent.kek
    replaceWithSingleActiveDek ent.kek active dek
    let vault ← openExisting keys active manifestAuthKey
    finishPendingBootstrap identity.root
    install ⟨vault, .osKeychain, identity.root⟩
  else
    let vault ← openExisting keys active manifestAuthKey
    finishPendingBootstrap identity.root
    install ⟨vault, .recovery, identity.root⟩

def unlockWithRecovery (phrase : Option Mnemonic) (ent : Entropy) : VaultM Unit := do
  acquireLock
  let _ ← readRequired World.recovery (.misuse
    s!"recovery bundle does not exist: {Recovery.RECOVERY_FILE}")
  let journal ← readLifecycle
  if allowsRecovery journal then
    let recovered ← Recovery.restoreMasterKeyWithVersion phrase
    let w ← get
    if w.keyring.isNone then
      throwLegacyManifestMigration
    else
      let active ← activeVersion
      let version := recovered.dekVersion.getD active
      if version ≠ active then
        throw (.misuse s!"recovery bundle contains DEK v{version}, but the vault requires active DEK v{active}")
      else
        openRecovered recovered.masterKey active ent
  else
    throw (.misuse
      "a vault lifecycle operation is incomplete; unlock with normal custody to recover it before using recovery")

-- ==== what opening reads

def migrationError (manifest : Option Manifest) : CoreError :=
  match parsedManifest manifest with
  | .ok _ => .misuse
      "legacy manifest authentication migration is required; review manifest.json, then call VaultHandle::migrate_manifest_authentication"
  | .error _ => .misuse
      "legacy manifest authentication migration is required, but its confirmation digest could not be computed"

theorem observes_throwLegacyManifestMigration {α : Type} :
    Observes (throwLegacyManifestMigration : VaultM α)
      fun w => .error (migrationError w.manifest) := by
  intro F I Q w hi hq hf
  simp only [throwLegacyManifestMigration, bind_eq, wp_bind, wp_attempt]
  refine observes_readManifestUnverified F I _ w hi ?_ ?_
  · simp only [migrationError] at hq
    cases hm : parsedManifest w.manifest with
    | ok m | error e =>
      simp only [hm] at hq ⊢
      exact ⟨hi, hq⟩
  · exact fun hex e => ⟨hi, hf hex _⟩

def authenticatedIdentityOf (activeDek : MasterKey) (identity : Option IdentityFile)
    (manifest : Option Manifest) : Except CoreError IdentityState :=
  if identity.isSome then
    (identityOf (materialWrapForDek activeDek) identity).bind
      fun i => if i.manifestAuthRequired then .ok i
        else .error (migrationError manifest)
  else
    .error (migrationError manifest)

theorem observes_loadAuthenticatedIdentity (activeDek : MasterKey) :
    Observes (loadAuthenticatedIdentity activeDek) fun w =>
      authenticatedIdentityOf activeDek w.identity w.manifest := by
  refine (observes_bind (observes_loadIdentityIfPresent _)
    (h := fun o w => match o with
      | none => .error (migrationError w.manifest)
      | some i => if i.manifestAuthRequired then .ok i
          else .error (migrationError w.manifest)) ?_).congr ?_
  · intro o
    cases o with
    | none => exact observes_throwLegacyManifestMigration
    | some i =>
      by_cases hi : i.manifestAuthRequired
      · simp only [hi, if_true]
        exact observes_ret _
      · simp only [hi]
        exact observes_throwLegacyManifestMigration
  · intro w
    simp only [authenticatedIdentityOf]
    split
    · cases identityOf (materialWrapForDek activeDek) w.identity with
      | ok i | error e => rfl
    · rfl

def openedOf (u : Unwrapped) (identity : Option IdentityFile)
    (manifest : Option Manifest) : Except CoreError (Vault × MasterKey) :=
  (authenticatedIdentityOf u.activeDek identity manifest).bind fun i =>
    (openedWith u.keys u.activeVersion
      (deriveManifestAuthKey i.root) manifest).bind fun v => .ok (v, i.root)

theorem observes_openUnwrapped (u : Unwrapped) :
    Observes (openUnwrapped u) fun w => openedOf u w.identity w.manifest :=
  observes_bind (observes_loadAuthenticatedIdentity _) fun _ =>
    observes_bind (observes_openExisting _ _ _) fun _ => observes_ret _

theorem openedOf_ok {i : IdentityState} {m : Manifest}
    (hi : authenticatedIdentityOf u.activeDek identity manifest = .ok i)
    (hm : verifiedManifest (deriveManifestAuthKey i.root) manifest = .ok m) :
    openedOf u identity manifest
      = .ok (⟨u.keys, u.activeVersion, deriveManifestAuthKey i.root,
          by rw [u.active_mem]; rfl⟩, i.root) := by
  rw [openedOf, hi]
  simp only [Except.bind]
  rw [openedWith_ok (by rw [u.active_mem]; rfl) hm]

theorem authenticatedIdentityOf_authenticated
    (dek root : MasterKey) (manifest : Option Manifest) : authenticatedIdentityOf dek
      (some (authenticatedIdentity (materialWrapForDek dek) root))
      manifest = .ok ⟨root, true⟩ := by
  simp [authenticatedIdentityOf, identityOf, Except.bind]

theorem openedOf_keys {v : Vault} {root : MasterKey}
    (h : openedOf u identity manifest = .ok (v, root)) :
    v.keys = u.keys ∧ v.activeVersion = u.activeVersion := by
  rw [openedOf] at h
  cases hi : authenticatedIdentityOf u.activeDek identity manifest with
  | error e => rw [hi] at h; cases h
  | ok i =>
    simp only [hi, Except.bind, openedWith] at h
    split at h
    · cases h
    next v' hv =>
    simp only [Except.ok.injEq, Prod.mk.injEq] at h
    obtain ⟨rfl, -⟩ := h
    split at hv
    · cases hv
    split at hv
    · split at hv
      · cases hv
      · simp only [Except.ok.injEq] at hv
        subst hv
        exact ⟨rfl, rfl⟩
    · cases hv

theorem observes_readLifecycle : Observes readLifecycle fun w => .ok w.journal :=
  observes_bind observes_get fun _ => observes_ret _

theorem observes_derivePassphraseKek (pass : String) :
    Observes (derivePassphraseKek pass) fun w =>
      match w.salt with
      | some salt => .ok (.fromPassphrase pass salt)
      | none => .error
          (.misuse s!"passphrase salt does not exist: {SALT_FILENAME}") := by
  refine (observes_bind (observes_readRequired World.salt _)
    fun _ => observes_ret _).congr fun w => ?_
  cases w.salt with
  | none | some salt => rfl

theorem observes_acquireLock : Observes acquireLock fun w =>
      if w.handle.isSome then .error .vaultLocked else .ok () := by
  refine (observes_bind observes_get
    (h := fun w₀ _ => if w₀.handle.isSome then .error .vaultLocked
      else .ok ()) ?_).congr fun w => rfl
  intro w₀
  split
  · exact observes_ret _
  · exact observes_ret _

end SovereignVault
